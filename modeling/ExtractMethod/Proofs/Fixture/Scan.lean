import ExtractMethod.Proofs.Fixture.Grammar
import ExtractMethod.Proofs.Text.Encoding
import Mathlib.Data.List.Basic

/-! The pieces that the reader scans are those that the notation has: gaps, strings, words, and what
is written without items below it. -/
namespace ExtractMethod.Fixture

open Text (bytes bytes_injective fromUTF8?_eq_some_iff lineFeed)
open ExtractMethod.Tree (Kind NodeKind TokenKind)

variable {b : UInt8} {input lead content inner word written rest after : List UInt8}
  {text : String} {kind : Kind} {size : Nat}

/-! Blanks and comments. -/

theorem skipBlank_blank (h : isBlankByte b) (rest : List UInt8) :
    skipBlank (b :: rest) = skipBlank rest := by
  cases rest <;> simp [skipBlank, h]

theorem skipBlank_cons (h : isBlankByte b = false) (h' : b ≠ ascii ';') (rest : List UInt8) :
    skipBlank (b :: rest) = b :: rest := by
  cases rest <;> simp [skipBlank, h, h']

theorem skipComment_append (h : lineFeed ∉ content) (rest : List UInt8) :
    skipComment (content ++ lineFeed :: rest) = skipBlank rest := by
  induction content with
  | nil => simp [skipComment]
  | cons b content ih =>
    rw [List.mem_cons, not_or] at h
    rw [List.cons_append, skipComment, if_neg (Ne.symm h.1), ih h.2]

theorem Gap.skipBlank_append (h : Gap lead) (rest : List UInt8) :
    skipBlank (lead ++ rest) = skipBlank rest := by
  induction h with
  | nil => rfl
  | blank isBlank _ ih => rw [List.cons_append, skipBlank_blank isBlank, ih]
  | comment inLine _ ih =>
    simp only [List.cons_append, List.append_assoc, skipBlank, if_true, decide_true,
      Bool.and_self, show isBlankByte (ascii ';') = false from by decide,
      Bool.false_eq_true, if_false]
    rw [skipComment_append inLine, ih]

mutual

theorem exists_gap : (input : List UInt8) → skipBlank input = b :: rest →
    ∃ lead, Gap lead ∧ input = lead ++ b :: rest
  | [], h => by simp [skipBlank] at h
  | [c], h => by
    unfold skipBlank at h
    split at h
    · cases h
    · exact ⟨[], .nil, h⟩
  | c :: c' :: tail, h => by
    unfold skipBlank at h
    split at h
    · next hblank =>
      obtain ⟨lead, hgap, heq⟩ := exists_gap (c' :: tail) h
      exact ⟨c :: lead, .blank hblank hgap, by rw [heq, List.cons_append]⟩
    · split at h
      · next hcomment =>
        simp only [Bool.and_eq_true, decide_eq_true_eq] at hcomment
        obtain ⟨content, lead, hline, hgap, rfl⟩ := exists_comment tail h
        obtain ⟨rfl, rfl⟩ := hcomment
        exact ⟨_, .comment hline hgap, by simp⟩
      · exact ⟨[], .nil, h⟩

theorem exists_comment : (input : List UInt8) → skipComment input = b :: rest →
    ∃ content lead, lineFeed ∉ content ∧ Gap lead ∧
      input = content ++ lineFeed :: (lead ++ b :: rest)
  | [], h => by simp [skipComment] at h
  | c :: tail, h => by
    unfold skipComment at h
    split at h
    · next hline =>
      obtain ⟨lead, hgap, rfl⟩ := exists_gap tail h
      exact ⟨[], lead, by simp, hgap, by rw [hline, List.nil_append]⟩
    · next hline =>
      obtain ⟨content, lead, hcontent, hgap, rfl⟩ := exists_comment tail h
      exact ⟨c :: content, lead, by simp [hcontent, Ne.symm hline], hgap, rfl⟩

end

/-! Strings. -/

theorem Escaped.stringBody_append (h : Escaped content inner) (rest : List UInt8) :
    stringBody (inner ++ ascii '"' :: rest) = .ok (content, rest) := by
  induction h with
  | nil =>
    rw [List.nil_append, stringBody.eq_def]
    simp
  | plain notQuote notBackslash _ ih =>
    rw [List.cons_append, stringBody.eq_def]
    simp [notQuote, notBackslash, ih, Except.map]
  | escape b _ ih =>
    have hne : ascii '\\' ≠ ascii '"' := by decide
    rw [List.cons_append, List.cons_append, stringBody.eq_def]
    simp [hne, ih, Except.map]

/-- How reading a string after its opening quote ends: at the closing quote, or with the input,
which is over before it or right after a backslash. -/
inductive EndsBody : List UInt8 → Except Error (List UInt8 × List UInt8) → Prop where
  | closed {content inner : List UInt8} (escaped : Escaped content inner) (rest : List UInt8) :
    EndsBody (inner ++ ascii '"' :: rest) (.ok (content, rest))
  | unterminated {content inner : List UInt8} (escaped : Escaped content inner) :
    EndsBody inner (.error .unterminatedString)
  | dangling {content inner : List UInt8} (escaped : Escaped content inner) :
    EndsBody (inner ++ [ascii '\\']) (.error .danglingEscape)

theorem EndsBody.plain {answer : Except Error (List UInt8 × List UInt8)} (notQuote : b ≠ ascii '"')
    (notBackslash : b ≠ ascii '\\') (h : EndsBody rest answer) :
    EndsBody (b :: rest) (answer.map fun (content, rest) => (b :: content, rest)) := by
  cases h with
  | closed escaped rest => exact .closed (.plain notQuote notBackslash escaped) rest
  | unterminated escaped => exact .unterminated (.plain notQuote notBackslash escaped)
  | dangling escaped => exact .dangling (.plain notQuote notBackslash escaped)

theorem EndsBody.escape {answer : Except Error (List UInt8 × List UInt8)} (b : UInt8)
    (h : EndsBody rest answer) : EndsBody (ascii '\\' :: b :: rest)
      (answer.map fun (content, rest) => (unescape b :: content, rest)) := by
  cases h with
  | closed escaped rest => exact .closed (.escape b escaped) rest
  | unterminated escaped => exact .unterminated (.escape b escaped)
  | dangling escaped => exact .dangling (.escape b escaped)

theorem endsBody_stringBody (input : List UInt8) : EndsBody input (stringBody input) := by
  cases input with
  | nil => exact .unterminated .nil
  | cons b tail =>
    rw [stringBody.eq_def]
    simp only
    split
    · next hquote =>
      rw [hquote]
      exact .closed .nil tail
    · next hquote =>
      split
      · next hbackslash =>
        rw [hbackslash]
        cases tail with
        | nil => exact .dangling .nil
        | cons escaped after => exact (endsBody_stringBody after).escape escaped
      · next hbackslash => exact (endsBody_stringBody tail).plain hquote hbackslash

theorem exists_escaped (h : stringBody input = .ok (content, rest)) :
    ∃ inner, Escaped content inner ∧ input = inner ++ ascii '"' :: rest := by
  have hends := endsBody_stringBody input
  rw [h] at hends
  cases hends with
  | closed escaped => exact ⟨_, escaped, rfl⟩

theorem Quoted.readString_append (h : Quoted text written) (size : Nat) (rest : List UInt8) :
    readString size (written ++ rest) = .ok (text, rest) := by
  obtain ⟨inner, hinner, rfl⟩ := h
  have hbody := hinner.stringBody_append rest
  simp only [List.cons_append, List.append_assoc, List.nil_append, readString, if_true, hbody,
    fromUTF8?_eq_some_iff.mpr rfl]

theorem exists_quoted (h : readString size input = .ok (text, rest)) :
    ∃ written, Quoted text written ∧ input = written ++ rest := by
  unfold readString at h
  split at h
  · cases h
  · split at h
    · next hquote =>
      split at h
      · cases h
      · next hbody =>
        split at h
        · next htext =>
          cases h
          obtain ⟨inner, hinner, rfl⟩ := exists_escaped hbody
          rw [← fromUTF8?_eq_some_iff.mp htext] at hinner
          exact ⟨_, ⟨inner, hinner, rfl⟩, by simp [hquote]⟩
        · cases h
    · cases h

/-! Words and the names of kinds. -/

theorem toNat_lt_of_isWordByte (h : isWordByte b) : b.toNat < 128 := by
  simp only [isWordByte, isLetterByte, isDigitByte, ascii, Bool.or_eq_true, Bool.and_eq_true,
    decide_eq_true_eq, UInt8.le_iff_toNat_le] at h
  rcases h with ((⟨-, h⟩ | ⟨-, h⟩) | ⟨-, h⟩) | h
  · exact Nat.lt_of_le_of_lt h (by decide)
  · exact Nat.lt_of_le_of_lt h (by decide)
  · exact Nat.lt_of_le_of_lt h (by decide)
  · rw [of_decide_eq_true h]
    decide

theorem bytes_asciiText (h : ∀ b ∈ word, isWordByte b) : bytes (asciiText word) = word := by
  have hchars : ∀ b ∈ word, String.utf8EncodeChar (Char.ofNat b.toNat) = [b] := fun b hb =>
    Text.utf8EncodeChar_ofNat (toNat_lt_of_isWordByte (h b hb))
  rw [asciiText, Text.bytes_ofList, List.flatMap_map, List.flatMap_congr hchars]
  simp

theorem readWord_append {name : String} (h : ∀ b ∈ bytes name, isWordByte b)
    (hends : WordEnds rest) :
    readWord (bytes name ++ rest) = (name, rest) := by
  have hhead : rest.takeWhile isWordByte = [] ∧ rest.dropWhile isWordByte = rest := by
    cases rest with
    | nil => exact ⟨rfl, rfl⟩
    | cons c rest => simp [hends c rfl]
  rw [readWord, List.takeWhile_append_of_pos h, List.dropWhile_append_of_pos h, hhead.1, hhead.2,
    List.append_nil, bytes_injective (bytes_asciiText h)]

theorem eq_append_of_readWord {name : String} (h : readWord input = (name, rest)) :
    input = bytes name ++ rest ∧ WordEnds rest := by
  cases h
  have hword : ∀ b ∈ input.takeWhile isWordByte, isWordByte b :=
    List.all_eq_true.mp List.all_takeWhile
  rw [bytes_asciiText hword, List.takeWhile_append_dropWhile]
  refine ⟨rfl, fun b hb => ?_⟩
  have hstop := List.head?_dropWhile_not isWordByte input
  rwa [Option.mem_def.mp hb] at hstop

/-- Kinds of elements can be told by their names, which are words that begin with a letter. -/
theorem isNamed : ∀ kind ∈ Kind.all, Kind.ofElementName? kind.name = some kind ∧ kind.name ≠ "nl" ∧
    (bytes kind.name).head?.any isLetterByte ∧ (bytes kind.name).all isWordByte := by
  decide +kernel

theorem mem_all (h : kind ≠ .endMark) : kind ∈ Kind.all := by
  cases kind with
  | token kind => exact List.mem_append_left _ (List.mem_map_of_mem (by cases kind <;> decide))
  | node kind => exact List.mem_append_right _ (List.mem_map_of_mem (by cases kind <;> decide))
  | endMark => exact absurd rfl h

theorem readKind_name (h : kind ≠ .endMark) : readKind kind.name = .ok kind := by
  rw [readKind, (isNamed kind (mem_all h)).1]

theorem name_eq_of_readKind {name : String} (h : readKind name = .ok kind) :
    kind.name = name ∧ kind ≠ .endMark := by
  unfold readKind at h
  split at h
  · next hkind =>
    cases h
    rw [Kind.ofElementName?] at hkind
    refine ⟨by simpa using List.find?_some hkind, ?_⟩
    rintro rfl
    simpa [Kind.all] using List.mem_of_find?_eq_some hkind
  · cases h

theorem isWordByte_of_mem_name (h : kind ≠ .endMark) : ∀ b ∈ bytes kind.name, isWordByte b :=
  List.all_eq_true.mp (isNamed kind (mem_all h)).2.2.2

theorem exists_letter_name (h : kind ≠ .endMark) :
    ∃ b tail, bytes kind.name = b :: tail ∧ isLetterByte b := by
  have hhead := (isNamed kind (mem_all h)).2.2.1
  cases hbytes : bytes kind.name with
  | nil => simp [hbytes] at hhead
  | cons b tail => exact ⟨b, tail, rfl, by simpa [hbytes] using hhead⟩

theorem ne_of_isLetterByte {c : UInt8} (h : isLetterByte b) (h' : isLetterByte c = false) :
    b ≠ c := by
  rintro rfl
  rw [h] at h'
  cases h'

theorem skipBlank_name (h : kind ≠ .endMark) (rest : List UInt8) :
    skipBlank (bytes kind.name ++ rest) = bytes kind.name ++ rest := by
  obtain ⟨b, tail, hname, hletter⟩ := exists_letter_name h
  have hblank : isBlankByte b = false := by
    simp only [isBlankByte, Bool.or_eq_false_iff, decide_eq_false_iff_not]
    refine ⟨⟨⟨⟨?_, ?_⟩, ?_⟩, ?_⟩, ?_⟩
    all_goals exact ne_of_isLetterByte hletter (by decide)
  rw [hname]
  exact skipBlank_cons hblank (ne_of_isLetterByte hletter (by decide)) _

/-! What is written without items below it. -/

theorem digit_of_isDigitByte (h : isDigitByte b) :
    b.toNat - 48 < 10 ∧ ascii '0' + (b.toNat - 48).toUInt8 = b := by
  simp only [isDigitByte, Bool.and_eq_true, decide_eq_true_eq, UInt8.le_iff_toNat_le,
    show (48 : UInt8).toNat = 48 from rfl, show (57 : UInt8).toNat = 57 from rfl] at h
  refine ⟨by omega, UInt8.toNat_inj.mp ?_⟩
  rw [UInt8.toNat_add, show (ascii '0').toNat = 48 from rfl, Nat.toUInt8_eq, UInt8.toNat_ofNat']
  omega

theorem isDigitByte_digit {digit : Nat} (h : digit < 10) :
    isDigitByte (ascii '0' + digit.toUInt8) ∧ (ascii '0' + digit.toUInt8).toNat - 48 = digit := by
  revert digit
  decide

theorem exists_stroke_of_readLeaf {item : Item} (h : readLeaf size b rest = .ok (item, after)) :
    ∃ stroke written, item.strokes = [stroke] ∧ stroke.Spells written ∧
      b :: rest = written ++ after ∧ (stroke.EndsInWord → WordEnds after) := by
  unfold readLeaf at h
  split at h
  · split at h
    · cases h
    · next hstring =>
      cases h
      obtain ⟨written, hquoted, heq⟩ := exists_quoted hstring
      exact ⟨_, written, rfl, .text hquoted, heq, False.elim⟩
  · split at h
    · next hdollar =>
      split at h
      · cases h
      · next d _ =>
        split at h
        · next hdigit =>
          cases h
          obtain ⟨hlt, hd⟩ := digit_of_isDigitByte hdigit
          exact ⟨_, _, rfl, .marker hlt, by rw [hd, hdollar]; rfl, False.elim⟩
        · cases h
    · split at h
      · cases hword : readWord (b :: rest) with
        | mk word tail =>
          obtain ⟨heq, hends⟩ := eq_append_of_readWord hword
          simp only [hword] at h
          split at h
          · next hnl =>
            cases h
            exact ⟨_, _, rfl, .newline, by rw [heq, hnl], fun _ => hends⟩
          · split at h
            · cases h
            · split at h
              · next hcolon =>
                split at h
                · cases h
                · next hstring =>
                  split at h
                  · cases h
                  · next hkind =>
                    cases h
                    obtain ⟨written, hquoted, rfl⟩ := exists_quoted hstring
                    obtain ⟨rfl, hnamed⟩ := name_eq_of_readKind hkind
                    exact ⟨_, _, rfl, .token hnamed hquoted, by simp [heq, hcolon], False.elim⟩
              · cases h
      · cases h

theorem readLeaf_newline (heq : b :: rest = bytes "nl" ++ after) (hends : WordEnds after) :
    readLeaf size b rest = .ok (.newline, after) := by
  have hword : readWord (bytes "nl" ++ after) = ("nl", after) :=
    readWord_append (List.all_eq_true.mp rfl) hends
  rw [← heq] at hword
  obtain rfl : b = ascii 'n' := (List.cons.inj heq).1
  rw [readLeaf.eq_def, if_neg (by decide), if_neg (by decide), if_pos (by decide)]
  simp only [hword, if_true]

theorem Quoted.readLeaf_token (h : Quoted text written) (hnamed : kind ≠ .endMark)
    (heq : b :: rest = bytes kind.name ++ ascii ':' :: written ++ after) :
    readLeaf size b rest = .ok (.token kind text, after) := by
  obtain ⟨c, tail, hname, hletter⟩ := exists_letter_name hnamed
  have hb : isLetterByte b := by
    rw [hname] at heq
    rwa [(List.cons.inj heq).1]
  have hcolon : WordEnds (ascii ':' :: written ++ after) := .cons (by decide) _
  have hword := readWord_append (isWordByte_of_mem_name hnamed) hcolon
  rw [← List.append_assoc, ← heq] at hword
  rw [readLeaf.eq_def, if_neg (ne_of_isLetterByte hb (by decide)),
    if_neg (ne_of_isLetterByte hb (by decide)), if_pos hb]
  simp only [hword, (isNamed kind (mem_all hnamed)).2.1, if_false, List.cons_append, if_true,
    h.readString_append, readKind_name hnamed]

theorem Stroke.Spells.readLeaf_eq {stroke : Stroke} {item : Item} (h : stroke.Spells written)
    (hitem : item.strokes = [stroke]) (hends : stroke.EndsInWord → WordEnds after)
    (heq : b :: rest = written ++ after) : readLeaf size b rest = .ok (item, after) := by
  cases item with
  | node kind items => simp [Item.strokes] at hitem
  | text text =>
    cases hitem
    cases h with
    | text hquoted =>
      obtain rfl : b = ascii '"' := by
        obtain ⟨inner, -, rfl⟩ := hquoted
        exact (List.cons.inj heq).1
      rw [readLeaf.eq_def, if_pos rfl, heq, hquoted.readString_append]
  | token kind text =>
    cases hitem
    cases h with
    | token hnamed hquoted => exact hquoted.readLeaf_token hnamed heq
  | newline =>
    cases hitem
    cases h with
    | newline => exact readLeaf_newline heq (hends trivial)
  | marker digit =>
    cases hitem
    cases h with
    | marker hlt =>
      obtain ⟨rfl, rfl⟩ := List.cons.inj heq
      obtain ⟨hdigit, hval⟩ := isDigitByte_digit hlt
      rw [readLeaf.eq_def, if_neg (by decide), if_pos rfl]
      simp only [List.append_eq, List.cons_append, List.nil_append, hdigit, if_true, hval]

end ExtractMethod.Fixture
