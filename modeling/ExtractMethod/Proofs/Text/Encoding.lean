import ExtractMethod.Text.Lines

/-! Which bytes are those of a text. A byte below 128 is a character of its own, so a text can be
cut on both sides of it. -/
namespace ExtractMethod.Text

variable {content before after : List UInt8} {b : UInt8} {c : Char} {text : String}

theorem fromUTF8?_eq_some_iff :
    String.fromUTF8? ⟨content.toArray⟩ = some text ↔ bytes text = content := by
  rw [String.fromUTF8?]
  constructor
  · intro h
    split at h
    · cases h
      rfl
    · cases h
  · rintro rfl
    have hbytes : (⟨(bytes text).toArray⟩ : ByteArray) = text.toByteArray := rfl
    rw [hbytes, dif_pos text.isValidUTF8]
    rfl

theorem bytes_injective {text' : String} (h : bytes text = bytes text') : text = text' := by
  rw [← Option.some.injEq, ← fromUTF8?_eq_some_iff.mpr h, ← fromUTF8?_eq_some_iff.mpr rfl]

/-- The bytes are those of some text. -/
def IsText (content : List UInt8) : Prop := ∃ text, bytes text = content

theorem bytes_ofList (chars : List Char) :
    bytes (String.ofList chars) = chars.flatMap String.utf8EncodeChar := by
  rw [bytes, String.toUTF8_eq_toByteArray, String.toByteArray_ofList, List.utf8Encode,
    List.data_toByteArray]

theorem isText_iff : IsText content ↔ ∃ chars : List Char,
    content = chars.flatMap String.utf8EncodeChar := by
  constructor
  · rintro ⟨text, rfl⟩
    exact ⟨text.toList, by rw [← bytes_ofList, String.ofList_toList]⟩
  · rintro ⟨chars, rfl⟩
    exact ⟨String.ofList chars, bytes_ofList chars⟩

theorem IsText.append (h : IsText before) (h' : IsText after) : IsText (before ++ after) := by
  obtain ⟨first, rfl⟩ := isText_iff.mp h
  obtain ⟨second, rfl⟩ := isText_iff.mp h'
  exact isText_iff.mpr ⟨first ++ second, List.flatMap_append.symm⟩

theorem utf8EncodeChar_ofNat (hascii : b.toNat < 128) :
    String.utf8EncodeChar (Char.ofNat b.toNat) = [b] := by
  have hvalid : b.toNat.isValidChar := .inl (by omega)
  have hval : (Char.ofNat b.toNat).val.toNat = b.toNat := by
    rw [Char.ofNat, dif_pos hvalid]
    rfl
  rw [String.utf8EncodeChar, hval, if_pos (by omega), UInt8.ofNat_toNat]

theorem isText_singleton (hascii : b.toNat < 128) : IsText [b] :=
  isText_iff.mpr ⟨[Char.ofNat b.toNat], by simp [utf8EncodeChar_ofNat hascii]⟩

/-- All bytes of a character from 128 on are at least 128. -/
theorem le_toNat_of_mem_utf8EncodeChar (hlong : ¬ c.val.toNat ≤ 127)
    (h : b ∈ String.utf8EncodeChar c) : 128 ≤ b.toNat := by
  simp only [String.utf8EncodeChar, if_neg hlong] at h
  have hhigh {n : Nat} (hle : 128 ≤ n) (hlt : n < 256) (hn : b = UInt8.ofNat n) :
      128 ≤ b.toNat := by
    rw [hn, UInt8.toNat_ofNat']
    omega
  split at h
  · simp only [List.mem_cons, List.not_mem_nil, or_false] at h
    rcases h with h | h <;> exact hhigh (by omega) (by omega) h
  · split at h
    all_goals simp only [List.mem_cons, List.not_mem_nil, or_false] at h
    · rcases h with h | h | h <;> exact hhigh (by omega) (by omega) h
    · rcases h with h | h | h | h <;> exact hhigh (by omega) (by omega) h

theorem utf8EncodeChar_eq_singleton (h : b ∈ String.utf8EncodeChar c) (hascii : b.toNat < 128) :
    String.utf8EncodeChar c = [b] := by
  by_cases hone : c.val.toNat ≤ 127
  · rw [String.utf8EncodeChar, if_pos hone] at h ⊢
    rw [List.mem_singleton.mp h]
  · have := le_toNat_of_mem_utf8EncodeChar hone h
    omega

theorem exists_chars_of_append_cons {chars : List Char}
    (h : before ++ b :: after = chars.flatMap String.utf8EncodeChar) (hascii : b.toNat < 128) :
    ∃ first second : List Char, before = first.flatMap String.utf8EncodeChar ∧
      after = second.flatMap String.utf8EncodeChar := by
  induction chars generalizing before with
  | nil => simp at h
  | cons c chars ih =>
    rw [List.flatMap_cons, List.append_eq_append_iff] at h
    rcases h with ⟨inner, hchar, hrest⟩ | ⟨inner, rfl, hrest⟩
    · cases inner with
      | nil =>
        -- The byte is the first one after this character.
        have hrest : [] ++ b :: after = chars.flatMap String.utf8EncodeChar := hrest
        obtain ⟨-, second, -, hsecond⟩ := ih hrest
        exact ⟨[c], second, by simpa using hchar.symm, hsecond⟩
      | cons head inner =>
        obtain ⟨rfl, rfl⟩ := List.cons.inj hrest
        have hmem : b ∈ String.utf8EncodeChar c := by simp [hchar]
        rw [utf8EncodeChar_eq_singleton hmem hascii] at hchar
        obtain ⟨rfl, rfl⟩ : before = [] ∧ inner = [] := by
          cases before with
          | nil => exact ⟨rfl, (List.cons.inj hchar).2.symm⟩
          | cons => simp at hchar
        exact ⟨[], chars, rfl, rfl⟩
    · obtain ⟨first, second, rfl, hsecond⟩ := ih hrest.symm
      exact ⟨c :: first, second, rfl, hsecond⟩

/-- A text can be cut before and after every byte below 128. -/
theorem IsText.of_append_cons (h : IsText (before ++ b :: after)) (hascii : b.toNat < 128) :
    IsText before ∧ IsText after := by
  obtain ⟨chars, hchars⟩ := isText_iff.mp h
  obtain ⟨first, second, hfirst, hsecond⟩ := exists_chars_of_append_cons hchars hascii
  exact ⟨isText_iff.mpr ⟨first, hfirst⟩, isText_iff.mpr ⟨second, hsecond⟩⟩

end ExtractMethod.Text
