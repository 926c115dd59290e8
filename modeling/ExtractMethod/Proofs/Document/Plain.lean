import ExtractMethod.Proofs.Document.Lookup
import ExtractMethod.Proofs.Document.Standing
import ExtractMethod.Proofs.Text.Lines

/-! Tokens with a text and without line breaks. The range from one to another is bounded by just
these tokens, and is taken as it is. -/
namespace ExtractMethod

open ExtractMethod.Tree
open Text (Range bytes)

namespace Document

variable {d : Document} {t first last offset : Nat}

/-- Every token that carries meaning has a text, and the text has no line break. -/
def HasPlainTokens (d : Document) : Prop :=
  ∀ t, d.hasToken t → d.isSignificant t → (d.token t).text ≠ "" ∧
    ∀ b ∈ bytes (d.token t).text, ¬ Text.IsLineBreak b

instance (d : Document) : Decidable d.HasPlainTokens :=
  decidable_of_iff (∀ t < d.tokenCount, d.isSignificant t → (d.token t).text ≠ "" ∧
    (bytes (d.token t).text).all fun b => !Text.IsLineBreak b)
    (by simp [HasPlainTokens, hasToken_iff])

/-- The text of the document has the text of a token at its range. -/
theorem exists_bytes_eq (h : d.hasToken t) : ∃ before after,
    bytes d.text = before ++ bytes (d.token t).text ++ after ∧
      before.length = (d.token t).range.start := by
  obtain ⟨parent, p, kind, text, hstands, rfl⟩ := exists_stands_token h
  obtain ⟨before, after, htexts, -, hsize⟩ := hstands.exists_texts
  refine ⟨bytes (String.join before), bytes (String.join after), ?_, ?_⟩
  · rw [d.text_eq_join, htexts, hstands.token_eq.2]
    simp [bytes, Element.texts]
  · rw [hstands.token_eq.2]
    exact hsize

theorem stop_le_size (h : d.hasToken t) : (d.token t).range.stop ≤ d.size := by
  obtain ⟨before, after, hbytes, hlength⟩ := exists_bytes_eq h
  have hsize : d.size = (bytes d.text).length := rfl
  have htext : (bytes (d.token t).text).length = (d.token t).text.utf8ByteSize := rfl
  rw [hsize, hbytes, range_stop_eq h]
  simp only [List.length_append]
  omega

/-- No line starts where a plain token ends. -/
theorem not_isStart_stop (hplain : d.HasPlainTokens) (h : d.hasToken t) (hsig : d.isSignificant t) :
    ¬ d.lines.isStart (d.token t).range.stop := by
  obtain ⟨hne, hbreak⟩ := hplain t h hsig
  obtain ⟨before, after, hbytes, hlength⟩ := exists_bytes_eq h
  have hstop := range_stop_eq h
  have htext : (bytes (d.token t).text).length = (d.token t).text.utf8ByteSize := rfl
  have hpos : (d.token t).text.utf8ByteSize ≠ 0 := fun hzero =>
    hne (String.utf8ByteSize_eq_zero_iff.mp hzero)
  rw [d.lines_eq]
  intro hstart
  rcases Text.Lines.eq_zero_or_exists_isLineBreak hstart with hzero | ⟨i, b, hi, hget, hb⟩
  · omega
  · rw [hbytes, List.append_assoc, List.getElem?_append_right (by omega),
      List.getElem?_append_left (by omega)] at hget
    exact hbreak b (List.mem_of_getElem? hget) hb

/-- From the start of a token with a text on, it is the first one. -/
theorem tokenOnRight?_start (h : d.hasToken t) (hsig : d.isSignificant t)
    (hne : (d.token t).text ≠ "") : d.tokenOnRight? (d.token t).range.start = some t := by
  refine tokenOnRight?_eq_some_iff.mpr ⟨⟨h, hsig, start_lt_stop h hne⟩, fun u _ _ hstop => ?_⟩
  apply Nat.le_of_not_lt
  intro hbefore
  exact Nat.not_lt_of_le (stop_le_start hbefore h) hstop

/-- Up to the end of a token with a text, it is the last one. -/
theorem tokenOnLeft?_stop (h : d.hasToken t) (hsig : d.isSignificant t)
    (hne : (d.token t).text ≠ "") : d.tokenOnLeft? (d.token t).range.stop = some t := by
  refine tokenOnLeft?_eq_some_iff.mpr ⟨⟨h, hsig, start_lt_stop h hne⟩, fun u hu _ hstart => ?_⟩
  apply Nat.le_of_not_lt
  intro hafter
  exact Nat.not_lt_of_le (stop_le_start hafter hu) hstart

end Document

end ExtractMethod
