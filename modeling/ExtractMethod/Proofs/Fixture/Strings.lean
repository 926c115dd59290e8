import ExtractMethod.Fixture.Basic
import ExtractMethod.Proofs.Fixture.Reader

/-! Strings are read byte by byte, and an escape may stand before any byte. What is collected from a
source is text all the same, so the reader never fails for its encoding. -/
namespace ExtractMethod.Fixture

open Text (IsText bytes fromUTF8?_eq_some_iff isText_singleton)

variable {b : UInt8} {input content inner lead rest : List UInt8} {size : Nat}
  {openItems : List OpenItem} {noted : List Nat} {strokes : List Stroke}

/-- Only characters of one byte are escaped for others, and these have one byte too. -/
theorem unescape_eq_self_or (b : UInt8) :
    unescape b = b ∨ b.toNat < 128 ∧ (unescape b).toNat < 128 := by
  unfold unescape
  split
  · next h => exact Or.inr ⟨by rw [h]; decide, by decide⟩
  · split
    · next h => exact Or.inr ⟨by rw [h]; decide, by decide⟩
    · split
      · next h => exact Or.inr ⟨by rw [h]; decide, by decide⟩
      · exact Or.inl rfl

/-- By induction on what is written. In the middle of a character, its first bytes belong to the
part before. A backslash cannot stand there, so that part is text by itself when an escape comes,
and the escaped byte begins the next character. -/
theorem Escaped.isText (h : Escaped content inner) (htext : IsText (lead ++ inner)) :
    IsText (lead ++ content) := by
  induction h generalizing lead with
  | nil => exact htext
  | plain _ _ _ ih =>
    rw [List.append_cons] at htext ⊢
    exact ih htext
  | @escape b content inner _ ih =>
    obtain ⟨hlead, hinner⟩ := htext.of_append_cons (by decide)
    refine hlead.append ?_
    rcases unescape_eq_self_or b with hself | ⟨hascii, hunescape⟩
    · have hinner : IsText ([b] ++ inner) := hinner
      rw [hself]
      exact ih hinner
    · have hinner : IsText ([] ++ b :: inner) := hinner
      have hrest : IsText ([] ++ inner) := (hinner.of_append_cons hascii).2
      exact (isText_singleton hunescape).append (ih hrest)

/-- How reading a string ends: at the closing quote, with the text that is written, or with the
input, which is over before the closing quote or right after a backslash. -/
inductive EndsString : List UInt8 → Except Error (String × List UInt8) → Prop where
  | closed {text : String} {written : List UInt8} (quoted : Quoted text written)
    (rest : List UInt8) : EndsString (written ++ rest) (.ok (text, rest))
  | unterminated {content inner : List UInt8} (escaped : Escaped content inner) :
    EndsString (ascii '"' :: inner) (.error .unterminatedString)
  | dangling {content inner : List UInt8} (escaped : Escaped content inner) :
    EndsString (ascii '"' :: (inner ++ [ascii '\\'])) (.error .danglingEscape)

theorem isText_of_stringBody (htext : IsText input) (h : stringBody input = .ok (content, rest)) :
    IsText content := by
  obtain ⟨inner, hinner, rfl⟩ := exists_escaped h
  have hinnerText : IsText ([] ++ inner) := (htext.of_append_cons (by decide)).1
  exact hinner.isText hinnerText

theorem endsString_readString (htext : IsText input) (size : Nat) :
    EndsString (ascii '"' :: input) (readString size (ascii '"' :: input)) := by
  have hends := endsBody_stringBody input
  rw [readString, if_pos rfl]
  cases hbody : stringBody input with
  | ok found =>
    obtain ⟨content, rest⟩ := found
    obtain ⟨text, rfl⟩ := isText_of_stringBody htext hbody
    obtain ⟨inner, hinner, rfl⟩ := exists_escaped hbody
    have hclosed := EndsString.closed ⟨inner, hinner, rfl⟩ rest
    simpa [fromUTF8?_eq_some_iff.mpr rfl] using hclosed
  | error e =>
    rw [hbody] at hends
    cases hends with
    | unterminated escaped => exact .unterminated escaped
    | dangling escaped => exact .dangling escaped

/-! The reader is always at the end of a text. -/

/-- The input is the end of some text. -/
def EndsText (input : List UInt8) : Prop := ∃ before, IsText (before ++ input)

theorem endsText_bytes (source : String) : EndsText (bytes source) := ⟨[], source, rfl⟩

theorem EndsText.of_suffix (h : EndsText input) (hrest : rest <:+ input) : EndsText rest := by
  obtain ⟨before, h⟩ := h
  obtain ⟨between, rfl⟩ := hrest
  rw [← List.append_assoc] at h
  exact ⟨before ++ between, h⟩

theorem Spelled.suffix (h : Spelled strokes input rest) : rest <:+ input := by
  induction h with
  | nil => exact List.suffix_rfl
  | cons _ _ _ _ ih => exact ih.trans (List.suffix_append _ _)

theorem readString_ne_notUtf8 (h : EndsText input) : readString size input ≠ .error .notUtf8 := by
  intro hread
  cases input with
  | nil => cases hread
  | cons b rest =>
    by_cases hquote : b = ascii '"'
    · obtain ⟨before, hbefore⟩ := h
      rw [hquote] at hbefore hread
      have hends := endsString_readString (hbefore.of_append_cons (by decide)).2 size
      rw [hread] at hends
      generalize ascii '"' :: rest = input at hends
      cases hends
    · rw [readString, if_neg hquote] at hread
      cases hread

theorem readKind_ne_notUtf8 (name : String) : readKind name ≠ .error .notUtf8 := by
  fun_cases readKind name <;> nofun

theorem readLeaf_ne_notUtf8 (h : EndsText (b :: rest)) :
    readLeaf size b rest ≠ .error .notUtf8 := by
  fun_cases readLeaf size b rest
  case case1 hstring =>
    rintro ⟨⟩
    exact readString_ne_notUtf8 h hstring
  case case8 tail _ hstring hword =>
    rintro ⟨⟩
    have htail : EndsText (ascii ':' :: tail) :=
      h.of_suffix ((eq_append_of_readWord hword).1 ▸ List.suffix_append _ _)
    exact readString_ne_notUtf8 (htail.of_suffix (List.suffix_cons _ _)) hstring
  case case9 hkind _ =>
    rintro ⟨⟩
    exact readKind_ne_notUtf8 _ hkind
  all_goals nofun

theorem readLeafStep_ne_notUtf8 (h : EndsText (b :: rest)) :
    readLeafStep size openItems noted b rest ≠ .error .notUtf8 := by
  fun_cases readLeafStep size openItems noted b rest
  case case1 hleaf =>
    rintro ⟨⟩
    exact readLeaf_ne_notUtf8 h hleaf
  all_goals nofun

theorem readStep_ne_notUtf8 (h : EndsText input) :
    readStep size openItems noted input ≠ .error .notUtf8 := by
  have hleaf {b : UInt8} {rest : List UInt8} (hblank : skipBlank input = b :: rest) :
      EndsText (b :: rest) := by
    obtain ⟨lead, -, rfl⟩ := exists_gap input hblank
    exact h.of_suffix (List.suffix_append _ _)
  fun_cases readStep size openItems noted input
  case case3 hkind _ =>
    rintro ⟨⟩
    exact readKind_ne_notUtf8 _ hkind
  case case5 hblank _ => exact readLeafStep_ne_notUtf8 (hleaf hblank)
  case case7 hblank _ _ => exact readLeafStep_ne_notUtf8 (hleaf hblank)
  all_goals nofun

/-- A step of the reader leaves the end of a text, so this holds along a whole run. -/
theorem readFrom_ne_notUtf8 (h : EndsText input) :
    readFrom size openItems noted input ≠ .error .notUtf8 := by
  induction openItems, noted, input using readFrom.induct size with
  | case1 openItems noted input e hstep =>
    intro hread
    rw [readFrom, hstep] at hread
    cases hread
    exact readStep_ne_notUtf8 h hstep
  | case2 openItems noted input item after hstep =>
    intro hread
    rw [readFrom_eq hstep] at hread
    cases hread
  | case3 openItems noted input inner noted' after hstep ih =>
    obtain ⟨stroke, hspelled, -⟩ := exists_stroke_of_readStep hstep
    rw [readFrom_eq hstep]
    exact ih (h.of_suffix hspelled.suffix)

theorem readItem_ne_notUtf8 (source : String) : readItem source ≠ .error .notUtf8 := by
  intro hread
  simp only [readItem, bind, Except.bind] at hread
  split at hread
  · next hfrom =>
    cases hread
    exact readFrom_ne_notUtf8 (endsText_bytes source) hfrom
  · split at hread <;> cases hread

theorem parse_ne_notUtf8 (source : String) : parse source ≠ .error .notUtf8 := by
  intro hread
  simp only [parse, bind, Except.bind] at hread
  split at hread
  · next hitem =>
    cases hread
    exact readItem_ne_notUtf8 source hitem
  · simp only [ofItem] at hread
    split at hread <;> cases hread

/-- Wherever a string begins in a source, its end is found or missing, what is collected up to there
is text, and no source is refused for what is collected. -/
structure StringsAreText (source : String) : Prop where
  isText : ∀ before input content rest, bytes source = before ++ ascii '"' :: input →
    stringBody input = .ok (content, rest) → IsText content
  endsString : ∀ size before input, bytes source = before ++ ascii '"' :: input →
    EndsString (ascii '"' :: input) (readString size (ascii '"' :: input))
  parse_ne : parse source ≠ .error .notUtf8

theorem strings_areText (source : String) : StringsAreText source where
  isText before input content rest heq hbody := by
    have hsource : IsText (before ++ ascii '"' :: input) := ⟨source, heq⟩
    exact isText_of_stringBody (hsource.of_append_cons (by decide)).2 hbody
  endsString size before input heq := by
    have hsource : IsText (before ++ ascii '"' :: input) := ⟨source, heq⟩
    exact endsString_readString (hsource.of_append_cons (by decide)).2 size
  parse_ne := parse_ne_notUtf8 source

/-- In this string an escape stands before a character of two bytes. -/
theorem ofEscapedLetter_strings_areText :
    bytes "\"\\é\"" = ascii '"' :: [92, 195, 169, 34] ∧
      stringBody [92, 195, 169, 34] = .ok ([195, 169], []) ∧ IsText [195, 169] := by
  have hsource : bytes "\"\\é\"" = [] ++ ascii '"' :: [92, 195, 169, 34] := by decide +kernel
  have hbody : stringBody [92, 195, 169, 34] = .ok ([195, 169], []) := by decide
  exact ⟨hsource, hbody, (strings_areText "\"\\é\"").isText _ _ _ _ hsource hbody⟩

/-- Both bytes of the letter belong to the text, and the escape before `n` stands for a line
feed. -/
example : readString 7 (bytes "\"\\é\\n\"") = .ok ("é\n", []) := by
  decide +kernel

end ExtractMethod.Fixture
