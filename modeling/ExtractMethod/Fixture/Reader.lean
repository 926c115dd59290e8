import ExtractMethod.Fixture.Item
import ExtractMethod.Text.Lines

/-! Reading the notation of fixtures: `(Kind item ...)` is a node, `"text"` a token, `Kind:"text"`
a token of that kind, `nl` a line break, `$` with a digit a marker. Comments run from `;;` to the
end of the line. -/
namespace ExtractMethod.Fixture

open Text (bytes lineFeed)
open ExtractMethod.Tree (Kind)

/-- The byte of an ASCII character. -/
def ascii (c : Char) : UInt8 := c.toUInt8

/-- A text of ASCII bytes. -/
def asciiText (content : List UInt8) : String :=
  String.ofList (content.map fun b => Char.ofNat b.toNat)

/-- Space, tab, line feed, form feed and carriage return. -/
def isBlankByte (b : UInt8) : Bool := b = 32 || b = 9 || b = 10 || b = 12 || b = 13

def isLetterByte (b : UInt8) : Bool := (65 ≤ b && b ≤ 90) || (97 ≤ b && b ≤ 122)

def isDigitByte (b : UInt8) : Bool := 48 ≤ b && b ≤ 57

def isWordByte (b : UInt8) : Bool := isLetterByte b || isDigitByte b || b = ascii '_'

mutual

/-- The input after blanks and comments. -/
def skipBlank : List UInt8 → List UInt8
  | [] => []
  | [b] => if isBlankByte b then [] else [b]
  | b :: c :: rest =>
    if isBlankByte b then skipBlank (c :: rest)
    else if b = ascii ';' && c = ascii ';' then skipComment rest
    else b :: c :: rest

/-- The input after the rest of a comment. -/
def skipComment : List UInt8 → List UInt8
  | [] => []
  | b :: rest => if b = lineFeed then skipBlank rest else skipComment rest

end

mutual

theorem length_skipBlank_le : (input : List UInt8) → (skipBlank input).length ≤ input.length
  | [] => by simp [skipBlank]
  | [b] => by
    unfold skipBlank
    split <;> simp
  | b :: c :: rest => by
    unfold skipBlank
    split
    · exact Nat.le_succ_of_le (length_skipBlank_le (c :: rest))
    · split
      · have := length_skipComment_le rest
        simp only [List.length_cons]
        omega
      · exact Nat.le_refl _

theorem length_skipComment_le : (input : List UInt8) → (skipComment input).length ≤ input.length
  | [] => by simp [skipComment]
  | b :: rest => by
    unfold skipComment
    split
    · exact Nat.le_succ_of_le (length_skipBlank_le rest)
    · exact Nat.le_succ_of_le (length_skipComment_le rest)

end

/-- What an escaped byte stands for. -/
def unescape (b : UInt8) : UInt8 :=
  if b = ascii 'n' then 10
  else if b = ascii 't' then 9
  else if b = ascii 'r' then 13
  else b

/-- The bytes up to the closing quote, and the input after it. -/
def stringBody : List UInt8 → Except Error (List UInt8 × List UInt8)
  | [] => .error .unterminatedString
  | b :: rest =>
    if b = ascii '"' then .ok ([], rest)
    else if b = ascii '\\' then
      match rest with
      | [] => .error .danglingEscape
      | escaped :: after =>
        (stringBody after).map fun (body, rest) => (unescape escaped :: body, rest)
    else (stringBody rest).map fun (body, rest) => (b :: body, rest)

theorem length_lt_of_stringBody : (input : List UInt8) → {body rest : List UInt8} →
    stringBody input = .ok (body, rest) → rest.length < input.length
  | [], _, _, h => by simp [stringBody] at h
  | b :: tail, body, rest, h => by
    unfold stringBody at h
    split at h
    · simp only [Except.ok.injEq, Prod.mk.injEq] at h
      simp [h.2]
    · split at h
      · cases tail with
        | nil => simp at h
        | cons escaped after =>
          cases he : stringBody after with
          | error e => simp [he, Except.map] at h
          | ok p =>
            simp only [he, Except.map, Except.ok.injEq, Prod.mk.injEq] at h
            have := length_lt_of_stringBody after he
            simp only [List.length_cons, ← h.2]
            omega
      · cases he : stringBody tail with
        | error e => simp [he, Except.map] at h
        | ok p =>
          simp only [he, Except.map, Except.ok.injEq, Prod.mk.injEq] at h
          have := length_lt_of_stringBody tail he
          simp only [List.length_cons, ← h.2]
          omega

/-- A string with its opening quote. `size` is the length of the source. -/
def readString (size : Nat) : List UInt8 → Except Error (String × List UInt8)
  | [] => .error (.expectedString size)
  | b :: rest =>
    if b = ascii '"' then
      match stringBody rest with
      | .error e => .error e
      | .ok (body, rest) =>
        match String.fromUTF8? ⟨body.toArray⟩ with
        | some text => .ok (text, rest)
        | none => .error .notUtf8
    else .error (.expectedString (size - (rest.length + 1)))

theorem length_lt_of_readString {size : Nat} {input rest : List UInt8} {text : String}
    (h : readString size input = .ok (text, rest)) : rest.length < input.length := by
  unfold readString at h
  split at h
  · simp at h
  · split at h
    · split at h
      · simp at h
      · next hs =>
        have := length_lt_of_stringBody _ hs
        split at h
        · simp only [Except.ok.injEq, Prod.mk.injEq] at h
          simp only [List.length_cons, ← h.2]
          omega
        · simp at h
    · simp at h

/-- The word at the front, and the input after it. -/
def readWord (input : List UInt8) : String × List UInt8 :=
  (asciiText (input.takeWhile isWordByte), input.dropWhile isWordByte)

theorem length_readWord_le (input : List UInt8) : (readWord input).2.length ≤ input.length :=
  (List.dropWhile_sublist _).length_le

/-- The kind of that name. -/
def readKind (name : String) : Except Error Kind :=
  match Kind.ofElementName? name with
  | some kind => .ok kind
  | none => .error (.unknownKind name)

/-- An item that has no items below it, given its first byte. -/
def readLeaf (size : Nat) (first : UInt8) (rest : List UInt8) :
    Except Error (Item × List UInt8) :=
  if first = ascii '"' then
    match readString size (first :: rest) with
    | .error e => .error e
    | .ok (text, after) => .ok (.text text, after)
  else if first = ascii '$' then
    match rest with
    | [] => .error .markerWithoutDigit
    | d :: after =>
      if isDigitByte d then .ok (.marker (d.toNat - 48), after) else .error .markerWithoutDigit
  else if isLetterByte first then
    let (word, after) := readWord (first :: rest)
    if word = "nl" then .ok (.newline, after)
    else
      match after with
      | [] => .error (.bareWord word)
      | c :: after =>
        if c = ascii ':' then
          match readString size after with
          | .error e => .error e
          | .ok (text, after) =>
            match readKind word with
            | .error e => .error e
            | .ok kind => .ok (.token kind text, after)
        else .error (.bareWord word)
  else .error (.unexpected (some first) (size - (rest.length + 1)))

theorem length_le_of_readLeaf {size : Nat} {first : UInt8} {rest after : List UInt8} {item : Item}
    (h : readLeaf size first rest = .ok (item, after)) : after.length ≤ rest.length := by
  unfold readLeaf at h
  split at h
  · split at h
    · simp at h
    · next hs =>
      have := length_lt_of_readString hs
      simp only [Except.ok.injEq, Prod.mk.injEq] at h
      simp only [List.length_cons, ← h.2] at this ⊢
      omega
  · split at h
    · split at h
      · simp at h
      · split at h
        · simp only [Except.ok.injEq, Prod.mk.injEq] at h
          simp [h.2]
        · simp at h
    · split at h
      · next hl =>
        have hw : (readWord (first :: rest)).2.length ≤ rest.length := by
          simp only [readWord, List.dropWhile_cons, isWordByte, hl, Bool.true_or, if_true]
          exact (List.dropWhile_sublist _).length_le
        simp only at h
        split at h
        · simp only [Except.ok.injEq, Prod.mk.injEq] at h
          rw [← h.2]
          exact hw
        · split at h
          · simp at h
          · next heq =>
            rw [heq] at hw
            split at h
            · split at h
              · simp at h
              · next hs =>
                have := length_lt_of_readString hs
                split at h
                · simp at h
                · simp only [Except.ok.injEq, Prod.mk.injEq] at h
                  simp only [List.length_cons, ← h.2] at hw this ⊢
                  omega
            · simp at h
      · simp at h

/-- A node that was opened and not closed, with its items so far, the last one first. -/
structure OpenItem where
  kind : Kind
  items : List Item

/-- How far the reader came: within some open nodes, with the digits of the markers so far, or at
the end of the first item. -/
inductive Progress where
  | within (openItems : List OpenItem) (digits : List Nat)
  | complete (item : Item)

/-- Hands an item to the innermost open node. Without one, the item is the whole. -/
def Progress.ofItem (openItems : List OpenItem) (digits : List Nat) (item : Item) : Progress :=
  match openItems with
  | [] => .complete item
  | o :: outer => .within ({ o with items := item :: o.items } :: outer) digits

/-- Reads a leaf. No two markers may have the same digit. -/
def readLeafStep (size : Nat) (openItems : List OpenItem) (digits : List Nat) (first : UInt8)
    (rest : List UInt8) : Except Error (Progress × List UInt8) :=
  match readLeaf size first rest with
  | .error e => .error e
  | .ok (.marker digit, after) =>
    if digits.contains digit then .error (.duplicateMarker digit)
    else .ok (.ofItem openItems (digit :: digits) (.marker digit), after)
  | .ok (item, after) => .ok (.ofItem openItems digits item, after)

theorem length_le_of_readLeafStep {size : Nat} {openItems : List OpenItem} {digits : List Nat}
    {first : UInt8} {rest after : List UInt8} {progress : Progress}
    (h : readLeafStep size openItems digits first rest = .ok (progress, after)) :
    after.length ≤ rest.length := by
  unfold readLeafStep at h
  split at h
  · simp at h
  · next hl =>
    have := length_le_of_readLeaf hl
    split at h
    · simp at h
    · simp only [Except.ok.injEq, Prod.mk.injEq] at h
      rwa [← h.2]
  · next hl =>
    have := length_le_of_readLeaf hl
    simp only [Except.ok.injEq, Prod.mk.injEq] at h
    rwa [← h.2]

/-- Reads up to the next change: a node is opened or closed, or a leaf is read. -/
def readStep (size : Nat) (openItems : List OpenItem) (digits : List Nat) (input : List UInt8) :
    Except Error (Progress × List UInt8) :=
  match skipBlank input, openItems with
  | [], [] => .error (.unexpected none size)
  | [], o :: _ => .error (.unclosedNode o.kind)
  | b :: rest, openItems =>
    if b = ascii '(' then
      let (name, after) := readWord (skipBlank rest)
      match readKind name with
      | .error e => .error e
      | .ok kind => .ok (.within (⟨kind, []⟩ :: openItems) digits, after)
    else if b = ascii ')' then
      match openItems with
      | [] => readLeafStep size [] digits b rest
      | o :: outer => .ok (.ofItem outer digits (.node o.kind o.items.reverse), rest)
    else readLeafStep size openItems digits b rest

theorem length_lt_of_readStep {size : Nat} {openItems : List OpenItem} {digits : List Nat}
    {input after : List UInt8} {progress : Progress}
    (h : readStep size openItems digits input = .ok (progress, after)) :
    after.length < input.length := by
  have hb := length_skipBlank_le input
  unfold readStep at h
  split at h
  · simp at h
  · simp at h
  · next b rest heq =>
    rw [heq, List.length_cons] at hb
    split at h
    · have hw := length_readWord_le (skipBlank rest)
      have hs := length_skipBlank_le rest
      simp only at h
      split at h
      · simp at h
      · simp only [Except.ok.injEq, Prod.mk.injEq] at h
        rw [← h.2]
        omega
    · split at h
      · split at h
        · have := length_le_of_readLeafStep h
          omega
        · simp only [Except.ok.injEq, Prod.mk.injEq] at h
          rw [← h.2]
          omega
      · have := length_le_of_readLeafStep h
        omega

/-- Reads until the first item is complete. -/
def readFrom (size : Nat) (openItems : List OpenItem) (digits : List Nat) (input : List UInt8) :
    Except Error (Item × List UInt8) :=
  match _h : readStep size openItems digits input with
  | .error e => .error e
  | .ok (.complete item, after) => .ok (item, after)
  | .ok (.within openItems digits, after) => readFrom size openItems digits after
termination_by input.length
decreasing_by exact length_lt_of_readStep _h

/-- The one item of a source. -/
def readItem (source : String) : Except Error Item := do
  let input := bytes source
  let (item, rest) ← readFrom input.length [] [] input
  match skipBlank rest with
  | [] => .ok item
  | rest => .error (.trailingInput (input.length - rest.length))

end ExtractMethod.Fixture
