import ExtractMethod.Document.Lookup
import ExtractMethod.Proofs.Document.Tokens
import ExtractMethod.Proofs.Text.PartitionPoint

/-! The tokens that are found by their position. -/
namespace ExtractMethod

namespace Document

open Text (Range)

variable {d : Document} {r : Range} {t first stop offset : Nat}

theorem mem_numbersBetween : t ∈ numbersBetween first stop ↔ first ≤ t ∧ t < stop := by
  rw [numbersBetween, List.mem_range'_1]
  omega

theorem numbersBetween_pairwise (first stop : Nat) : (numbersBetween first stop).Pairwise (· < ·) :=
  List.pairwise_lt_range'

theorem tokenOnRight?_eq_some (h : d.tokenOnRight? offset = some t) :
    d.hasToken t ∧ d.isSignificant t := by
  have hmem := List.mem_of_find?_eq_some h
  exact ⟨hasToken_iff.mpr (mem_numbersBetween.mp hmem).2, List.find?_some h⟩

theorem tokenOnLeft?_eq_some (h : d.tokenOnLeft? offset = some t) :
    d.hasToken t ∧ d.isSignificant t := by
  have hmem := List.mem_of_find?_eq_some h
  rw [List.mem_reverse, mem_numbersBetween] at hmem
  exact ⟨hasToken_iff.mpr (Nat.lt_of_lt_of_le hmem.2 Text.partitionPoint_le), List.find?_some h⟩

theorem getElem_tokens (ht : t < d.tokens.size) : d.tokens[t] = d.token t := by
  simp [token, Array.getD, ht]

/-- The tokens that end at an offset or before it come first. -/
theorem lt_endPoint_iff (h : d.hasToken t) :
    t < Text.partitionPoint (fun row => row.range.stop ≤ offset) d.tokens ↔
      (d.token t).range.stop ≤ offset := by
  have ht : t < d.tokens.size := hasToken_iff.mp h
  rw [Text.lt_partitionPoint_iff ?_ ht, getElem_tokens, decide_eq_true_eq]
  intro i j hij hj hstop
  rw [getElem_tokens, decide_eq_true_eq] at hstop ⊢
  have := stop_le_start hij (hasToken_iff.mpr hj)
  have := (d.token j).range.start_le_stop
  omega

/-- The tokens that start before an offset come first. -/
theorem lt_startPoint_iff (h : d.hasToken t) :
    t < Text.partitionPoint (fun row => row.range.start < offset) d.tokens ↔
      (d.token t).range.start < offset := by
  have ht : t < d.tokens.size := hasToken_iff.mp h
  rw [Text.lt_partitionPoint_iff ?_ ht, getElem_tokens, decide_eq_true_eq]
  intro i j hij hj hstart
  rw [getElem_tokens, decide_eq_true_eq] at hstart ⊢
  have := stop_le_start hij (hasToken_iff.mpr hj)
  have := (d.token i).range.start_le_stop
  omega

/-- The token on the right is the first significant one that ends after the offset. -/
theorem tokenOnRight?_eq_some_iff : d.tokenOnRight? offset = some t ↔
    (d.hasToken t ∧ d.isSignificant t ∧ offset < (d.token t).range.stop) ∧
      ∀ u, d.hasToken u → d.isSignificant u → offset < (d.token u).range.stop → t ≤ u := by
  have hmem (u : Nat) : u ∈ numbersBetween
      (Text.partitionPoint (fun row => row.range.stop ≤ offset) d.tokens) d.tokenCount ↔
        d.hasToken u ∧ offset < (d.token u).range.stop := by
    rw [mem_numbersBetween, ← hasToken_iff, and_comm, ← Nat.not_lt]
    refine and_congr_right fun h => ?_
    rw [lt_endPoint_iff h, Nat.not_le]
  rw [tokenOnRight?, find?_eq_some_iff_le (numbersBetween_pairwise _ _)]
  simp only [hmem]
  constructor
  · rintro ⟨⟨h, hstop⟩, hsig, hfirst⟩
    exact ⟨⟨h, hsig, hstop⟩, fun u hu husig hustop => hfirst u ⟨hu, hustop⟩ husig⟩
  · rintro ⟨⟨h, hsig, hstop⟩, hfirst⟩
    exact ⟨⟨h, hstop⟩, hsig, fun u hu husig => hfirst u hu.1 husig hu.2⟩

/-- The token on the left is the last significant one that starts before the offset. -/
theorem tokenOnLeft?_eq_some_iff : d.tokenOnLeft? offset = some t ↔
    (d.hasToken t ∧ d.isSignificant t ∧ (d.token t).range.start < offset) ∧
      ∀ u, d.hasToken u → d.isSignificant u → (d.token u).range.start < offset → u ≤ t := by
  have hmem (u : Nat) : u ∈ numbersBetween 0
      (Text.partitionPoint (fun row => row.range.start < offset) d.tokens) ↔
        d.hasToken u ∧ (d.token u).range.start < offset := by
    rw [mem_numbersBetween]
    constructor
    · rintro ⟨-, hlt⟩
      have h := hasToken_iff.mpr (Nat.lt_of_lt_of_le hlt Text.partitionPoint_le)
      exact ⟨h, (lt_startPoint_iff h).mp hlt⟩
    · rintro ⟨h, hstart⟩
      exact ⟨Nat.zero_le u, (lt_startPoint_iff h).mpr hstart⟩
  rw [tokenOnLeft?, find?_reverse_eq_some_iff_le (numbersBetween_pairwise _ _)]
  simp only [hmem]
  constructor
  · rintro ⟨⟨h, hstart⟩, hsig, hlast⟩
    exact ⟨⟨h, hsig, hstart⟩, fun u hu husig hustart => hlast u ⟨hu, hustart⟩ husig⟩
  · rintro ⟨⟨h, hsig, hstart⟩, hlast⟩
    exact ⟨⟨h, hstart⟩, hsig, fun u hu husig => hlast u hu.1 husig hu.2⟩

/-- The tokens of a range are those that overlap it. -/
theorem mem_tokensIn : t ∈ d.tokensIn r ↔ d.hasToken t ∧ (d.token t).range.intersects r := by
  rw [tokensIn, mem_numbersBetween, Range.intersects, Bool.and_eq_true, decide_eq_true_eq,
    decide_eq_true_eq]
  constructor
  · rintro ⟨hle, hlt⟩
    have h : d.hasToken t := hasToken_iff.mpr (Nat.lt_of_lt_of_le hlt Text.partitionPoint_le)
    refine ⟨h, (lt_startPoint_iff h).mp hlt, ?_⟩
    exact Nat.lt_of_not_le fun hstop => Nat.not_lt_of_le hle ((lt_endPoint_iff h).mpr hstop)
  · rintro ⟨h, hstart, hstop⟩
    refine ⟨?_, (lt_startPoint_iff h).mpr hstart⟩
    exact Nat.le_of_not_lt fun hlt => Nat.not_lt_of_le ((lt_endPoint_iff h).mp hlt) hstop

theorem tokensIn_pairwise (d : Document) (r : Range) : (d.tokensIn r).Pairwise (· < ·) :=
  numbersBetween_pairwise _ _

/-- Errors are looked for among the tokens of the range and among all nodes. -/
theorem hasErrorsIn_iff_exists : d.hasErrorsIn r ↔
    (∃ t, d.hasToken t ∧ (d.token t).kind = .error ∧ (d.token t).range.intersects r) ∨
      ∃ n, d.hasNode n ∧ d.kind n = .errorNode ∧ (d.fullRange n).intersects r := by
  rw [hasErrorsIn, Bool.or_eq_true, List.any_eq_true, Array.any_eq_true]
  simp only [Bool.and_eq_true, decide_eq_true_eq, mem_tokensIn]
  refine or_congr ?_ ?_
  · constructor
    · rintro ⟨t, ⟨ht, hoverlap⟩, hkind⟩
      exact ⟨t, ht, hkind, hoverlap⟩
    · rintro ⟨t, ht, hkind, hoverlap⟩
      exact ⟨t, ⟨ht, hoverlap⟩, hkind⟩
  · have hrow (n : Nat) (hn : n < d.nodes.size) : d.nodes[n] = d.node n := by
      simp [node, Array.getD, hn]
    constructor
    · rintro ⟨n, hn, herror⟩
      rw [hrow n hn] at herror
      exact ⟨n, hasNode_iff.mpr hn, herror⟩
    · rintro ⟨n, hn, herror⟩
      have hlt : n < d.nodes.size := hasNode_iff.mp hn
      exact ⟨n, hlt, by rwa [hrow n hlt]⟩

end Document

end ExtractMethod
