import ExtractMethod.Proofs.Document.Lookup
import Mathlib.Data.List.Sort

/-! Tokens are looked up by halving and by stepping from one to the next. A scan over all tokens of
the document, which asks of each token where it lies, finds the same ones. -/
namespace ExtractMethod

open Text (Range)

theorem Text.Range.intersects_comm (a b : Range) : a.intersects b = b.intersects a :=
  Bool.and_comm _ _

namespace Document

variable {d : Document} {t u : Nat}

theorem tokenOnRight?_eq_find? (d : Document) (offset : Nat) : d.tokenOnRight? offset =
    (List.range d.tokenCount).find? fun t =>
      d.isSignificant t && offset < (d.token t).range.stop := by
  apply Option.ext
  intro t
  rw [tokenOnRight?_eq_some_iff, find?_eq_some_iff_le List.pairwise_lt_range]
  simp only [List.mem_range, ← hasToken_iff, Bool.and_eq_true, decide_eq_true_eq,
    and_imp, and_assoc]

theorem tokenOnLeft?_eq_find? (d : Document) (offset : Nat) : d.tokenOnLeft? offset =
    (List.range d.tokenCount).reverse.find? fun t =>
      d.isSignificant t && (d.token t).range.start < offset := by
  apply Option.ext
  intro t
  rw [tokenOnLeft?_eq_some_iff, find?_reverse_eq_some_iff_le List.pairwise_lt_range]
  simp only [List.mem_range, ← hasToken_iff, Bool.and_eq_true, decide_eq_true_eq,
    and_imp, and_assoc]

theorem tokensIn_eq_filter (d : Document) (r : Range) :
    d.tokensIn r = (List.range d.tokenCount).filter fun t => r.intersects (d.token t).range := by
  refine (d.tokensIn_pairwise r).eq_of_mem_iff (List.pairwise_lt_range.filter _) fun t => ?_
  rw [mem_tokensIn, List.mem_filter, List.mem_range, ← hasToken_iff, Range.intersects_comm]

/-- The next token is the first significant one after a token. -/
theorem nextToken?_eq_some_iff : d.nextToken? t = some u ↔
    (d.hasToken u ∧ d.isSignificant u ∧ t < u) ∧
      ∀ v, d.hasToken v → d.isSignificant v → t < v → u ≤ v := by
  rw [nextToken?, find?_eq_some_iff_le (numbersBetween_pairwise _ _)]
  simp only [mem_numbersBetween, ← hasToken_iff]
  constructor
  · rintro ⟨⟨hlt, hu⟩, hsig, hfirst⟩
    exact ⟨⟨hu, hsig, hlt⟩, fun v hv hvsig hvlt => hfirst v ⟨hvlt, hv⟩ hvsig⟩
  · rintro ⟨⟨hu, hsig, hlt⟩, hfirst⟩
    exact ⟨⟨hlt, hu⟩, hsig, fun v hv hvsig => hfirst v hv.2 hvsig hv.1⟩

/-- The previous token is the last significant one before a token. -/
theorem previousToken?_eq_some_iff : d.previousToken? u = some t ↔
    (d.isSignificant t ∧ t < u) ∧ ∀ v, d.isSignificant v → v < u → v ≤ t := by
  rw [previousToken?, find?_reverse_eq_some_iff_le (numbersBetween_pairwise _ _)]
  simp only [mem_numbersBetween, Nat.zero_le, true_and]
  constructor
  · rintro ⟨hlt, hsig, hlast⟩
    exact ⟨⟨hsig, hlt⟩, fun v hvsig hvlt => hlast v hvlt hvsig⟩
  · rintro ⟨⟨hsig, hlt⟩, hlast⟩
    exact ⟨hlt, hsig, fun v hvlt hvsig => hlast v hvsig hvlt⟩

/-- Among the significant tokens, a step forward and a step back undo each other. -/
theorem nextToken?_eq_some_iff_previousToken? (ht : d.isSignificant t) :
    d.nextToken? t = some u ↔ d.hasToken u ∧ d.isSignificant u ∧ d.previousToken? u = some t := by
  rw [nextToken?_eq_some_iff, previousToken?_eq_some_iff]
  constructor
  · rintro ⟨⟨hu, hsig, hlt⟩, hfirst⟩
    refine ⟨hu, hsig, ⟨ht, hlt⟩, ?_⟩
    intro v hvsig hvlt
    apply Nat.le_of_not_lt
    intro htv
    have hv : d.hasToken v := hasToken_iff.mpr (Nat.lt_trans hvlt (hasToken_iff.mp hu))
    have := hfirst v hv hvsig htv
    omega
  · rintro ⟨hu, hsig, ⟨-, hlt⟩, hlast⟩
    refine ⟨⟨hu, hsig, hlt⟩, ?_⟩
    intro v hv hvsig htv
    apply Nat.le_of_not_lt
    intro hvlt
    have := hlast v hvsig hvlt
    omega

/-- Every way to look tokens up gives what a scan over all tokens in their order gives. -/
structure AgreesWithScan (d : Document) : Prop where
  tokenOnRight?_eq : ∀ offset, d.tokenOnRight? offset = (List.range d.tokenCount).find? fun t =>
    d.isSignificant t && offset < (d.token t).range.stop
  tokenOnLeft?_eq : ∀ offset, d.tokenOnLeft? offset =
    (List.range d.tokenCount).reverse.find? fun t =>
      d.isSignificant t && (d.token t).range.start < offset
  tokensIn_eq : ∀ r : Range,
    d.tokensIn r = (List.range d.tokenCount).filter fun t => r.intersects (d.token t).range
  hasErrorsIn_iff : ∀ r : Range, d.hasErrorsIn r ↔
    (∃ t, d.hasToken t ∧ (d.token t).kind = .error ∧ r.intersects (d.token t).range) ∨
      ∃ n, d.hasNode n ∧ d.kind n = .errorNode ∧ r.intersects (d.fullRange n)
  nextToken?_eq_some_iff_previousToken? : ∀ t u, d.isSignificant t →
    (d.nextToken? t = some u ↔ d.hasToken u ∧ d.isSignificant u ∧ d.previousToken? u = some t)

/-- Looking tokens up agrees with a scan, also where tokens are empty and share an offset. -/
theorem agreesWithScan (d : Document) : d.AgreesWithScan where
  tokenOnRight?_eq := d.tokenOnRight?_eq_find?
  tokenOnLeft?_eq := d.tokenOnLeft?_eq_find?
  tokensIn_eq := d.tokensIn_eq_filter
  hasErrorsIn_iff r := by
    rw [hasErrorsIn_iff_exists]
    simp only [Range.intersects_comm r]
  nextToken?_eq_some_iff_previousToken? t u := Document.nextToken?_eq_some_iff_previousToken?

/-- A block with an empty token between its braces. -/
def ofEmptyToken : Document := .ofRoot ⟨.block,
  [.token .lBrace "\x7b", .token .error "", .token .rBrace "\x7d"]⟩ .first

/-- Stepping from brace to brace meets the empty token, which a range around it has and one that
ends at it does not. -/
theorem ofEmptyToken_agreesWithScan : ofEmptyToken.nextToken? 0 = some 1 ∧
    ofEmptyToken.tokensIn (.ofLength 0 2) = [0, 1, 2] ∧ ofEmptyToken.hasErrorsIn (.ofLength 0 2) ∧
      ofEmptyToken.tokensIn (.ofLength 0 1) = [0] ∧ ofEmptyToken.tokenOnRight? 1 = some 2 := by
  have h := agreesWithScan ofEmptyToken
  refine ⟨?_, ?_, ?_, ?_, ?_⟩
  · exact (h.nextToken?_eq_some_iff_previousToken? 0 1 (by decide +kernel)).mpr (by decide +kernel)
  · rw [h.tokensIn_eq]
    decide +kernel
  · exact (h.hasErrorsIn_iff _).mpr (Or.inl ⟨1, by decide +kernel⟩)
  · rw [h.tokensIn_eq]
    decide +kernel
  · rw [h.tokenOnRight?_eq]
    decide +kernel

end Document

end ExtractMethod
