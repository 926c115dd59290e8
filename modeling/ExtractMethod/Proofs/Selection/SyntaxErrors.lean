import ExtractMethod.Proofs.Selection.Legal
import Mathlib.Data.List.TakeWhile

/-! The check for syntax errors goes by the text. So a region that passes has no error that shows in
the text, but it may keep one that is empty and lies at one of its ends. -/
namespace ExtractMethod

open ExtractMethod.Flow (Region)
open ExtractMethod.Tree (Element)
open Text (Range)

variable {d : Document} {span r range : Range} {options : Options} {s : Selection} {t : Target}
  {tokens : List Nat} {body root u : Nat}

namespace Document

/-- At or below the root there is an error node or an error token, with the given range and
tokens. -/
inductive Fault (d : Document) (root : Nat) : Range → List Nat → Prop where
  | node {n : Nat} (hn : d.isAncestor root n) (hkind : d.kind n = .errorNode) :
    Fault d root (d.fullRange n) (d.tokensUnder n)
  | token {t : Nat} (ht : t ∈ d.tokensUnder root) (hkind : (d.token t).kind = .error) :
    Fault d root (d.token t).range [t]

theorem Fault.mem_tokensUnder (h : d.Fault root range tokens) (hu : u ∈ tokens) :
    u ∈ d.tokensUnder root := by
  cases h with
  | node hn hkind => exact mem_tokensUnder_of_isAncestor hn hu
  | token ht hkind => exact List.mem_singleton.mp hu ▸ ht

theorem Fault.range_of_mem (h : d.Fault root range tokens) (hu : u ∈ tokens) :
    range.start ≤ (d.token u).range.start ∧ (d.token u).range.stop ≤ range.stop := by
  cases h with
  | node hn hkind => exact range_of_mem_tokensUnder hu
  | token ht hkind =>
    rw [List.mem_singleton.mp hu]
    exact ⟨Nat.le_refl _, Nat.le_refl _⟩

/-- The check finds exactly the errors that overlap the range, wherever they are in the tree. -/
theorem hasErrorsIn_iff : d.hasErrorsIn r ↔
    ∃ root range tokens, d.Fault root range tokens ∧ range.intersects r := by
  rw [hasErrorsIn_iff_exists]
  constructor
  · rintro (⟨t, ht, hkind, hoverlap⟩ | ⟨n, hn, hkind, hoverlap⟩)
    · exact ⟨_, _, _, .token (mem_tokensUnder_parent ht) hkind, hoverlap⟩
    · exact ⟨n, _, _, .node (isAncestor_self hn) hkind, hoverlap⟩
  · rintro ⟨root, range, tokens, hfault, hoverlap⟩
    cases hfault with
    | node hn hkind => exact Or.inr ⟨_, (hasNode_of_isAncestor hn).2, hkind, hoverlap⟩
    | token ht hkind => exact Or.inl ⟨_, hasToken_of_mem_tokensUnder ht, hkind, hoverlap⟩

/-- What is left of a sorted list from an element on is not less than it. -/
theorem le_of_mem_dropWhile {xs : List Nat} {first n : Nat} (hsorted : xs.Pairwise (· < ·))
    (h : n ∈ xs.dropWhile (· ≠ first)) : first ≤ n := by
  induction xs with
  | nil => cases h
  | cons m rest ih =>
    obtain ⟨hm, hrest⟩ := List.pairwise_cons.mp hsorted
    by_cases hne : m = first
    · rw [List.dropWhile_cons_of_neg (by simpa using hne)] at h
      rcases List.mem_cons.mp h with rfl | h
      · exact Nat.le_of_eq hne.symm
      · exact hne ▸ Nat.le_of_lt (hm n h)
    · rw [List.dropWhile_cons_of_pos (by simpa using hne)] at h
      exact ih hrest h

/-- The roots of a run of statements lie between the first and the last one. -/
theorem mem_roots_statements {first last c : Nat} (hc : d.parent? first = some c)
    (h : root ∈ d.roots (.statements first last)) : first ≤ root ∧ root ≤ last := by
  simp only [roots, hc] at h
  refine ⟨?_, by simpa using List.mem_takeWhile_imp h⟩
  exact le_of_mem_dropWhile (d.childNodes_pairwise c) ((List.takeWhile_sublist _).subset h)

end Document

/-- Every significant token of the region lies between the two at its ends. -/
theorem Target.Valid.le_of_mem_roots (h : t.Valid d body) (hroot : root ∈ d.roots t.region)
    (hu : u ∈ d.tokensUnder root) (hsig : d.isSignificant u) :
    t.firstToken ≤ u ∧ u ≤ t.lastToken := by
  obtain ⟨htokens, hfirst, hlast, -, hregion⟩ := h
  obtain ⟨hf, hsf, hmin⟩ := Document.firstToken?_eq_some hfirst
  obtain ⟨hl, hsl, hmax⟩ := Document.lastToken?_eq_some hlast
  cases hr : t.region with
  | expression e =>
    simp only [hr, Document.roots, List.mem_singleton, Region.first, Region.last] at *
    subst hroot
    exact ⟨hmin u hu hsig, hmax u hu hsig⟩
  | statements first last =>
    simp only [hr, Region.first, Region.last] at *
    obtain ⟨hbody, -, hpf, hpl, -, -, hle⟩ := hregion
    obtain ⟨hfr, hrl⟩ := Document.mem_roots_statements hpf hroot
    constructor
    · by_cases hab : d.isAncestor first root
      · exact hmin u (Document.mem_tokensUnder_of_isAncestor hab hu) hsig
      · have hne : first ≠ root := by
          rintro rfl
          exact hab (Document.isAncestor_self (Document.hasNode_of_mem_tokensUnder hu))
        exact Nat.le_of_lt
          (Document.lt_of_mem_tokensUnder hf hu (Nat.lt_of_le_of_ne hfr hne) hab)
    · rcases Nat.lt_or_eq_of_le hrl with hlt | rfl
      · refine Nat.le_of_lt (Document.lt_of_mem_tokensUnder hu hl hlt ?_)
        -- A root around the last statement would lie around the list, and so before the first one.
        intro hab
        have hrp := Document.isAncestor_of_parent? hpl hab (Nat.ne_of_lt hlt)
        have := (Document.isAncestor_iff.mp hrp).1
        have := (Document.parent?_isAncestor hpf).1
        omega
      · exact hmax u hu hsig

/-- No error node and no error token is at or below a root of the region. -/
def Selection.IsFaultless (s : Selection) : Prop :=
  ∀ root ∈ s.document.roots s.region, ∀ range tokens, ¬ s.document.Fault root range tokens

/-- The error has no text, trivia apart, and lies before the span or after it. -/
structure Document.IsHollow (d : Document) (span range : Range) (tokens : List Nat) : Prop where
  outside : range.stop ≤ span.start ∨ span.stop ≤ range.start
  textless : ∀ u ∈ tokens, d.isSignificant u → (d.token u).text = ""

/-- Whatever is selected, no error in the whole document overlaps the final span, and an error that
is left in the region is hollow. So nothing is left if all errors of the tree have a text. -/
theorem Document.classify_faults {patience : Patience}
    (h : Poll.run (d.classify span options).run patience = .ok (.ok s)) :
    (∀ root range tokens, d.Fault root range tokens → ¬ range.intersects s.finalSpan) ∧
      (∀ root ∈ d.roots s.region, ∀ range tokens, d.Fault root range tokens →
        d.IsHollow s.finalSpan range tokens) ∧
      ((∀ root range tokens, d.Fault root range tokens →
        ∃ u ∈ tokens, d.isSignificant u ∧ (d.token u).text ≠ "") → s.IsFaultless) := by
  obtain ⟨b, common, t, own, hstages⟩ := exists_stages h
  have hnone : ∀ root range tokens, d.Fault root range tokens →
      ¬ range.intersects s.finalSpan := by
    intro root range tokens hfault hoverlap
    exact hstages.noErrors (hasErrorsIn_iff.mpr ⟨root, range, tokens, hfault, hoverlap⟩)
  have hhollow : ∀ root ∈ d.roots s.region, ∀ range tokens, d.Fault root range tokens →
      d.IsHollow s.finalSpan range tokens := by
    have hb := bounds_eq_ok hstages.bounds_eq
    obtain ⟨hscope, hbody⟩ := scopeOf?_valid hstages.scope_eq
    have ht := target_valid hb (hasNode_of_isAncestor hbody).2 hscope hstages.gives_target
    intro root hroot range tokens hfault
    rw [hstages.region_eq] at hroot
    have houtside : range.stop ≤ s.finalSpan.start ∨ s.finalSpan.stop ≤ range.start := by
      have := hnone root range tokens hfault
      simp only [Range.intersects, Bool.and_eq_true, decide_eq_true_eq] at this
      omega
    refine ⟨houtside, ?_⟩
    intro u hu hsig
    have hunder := hfault.mem_tokensUnder hu
    have hu' := hasToken_of_mem_tokensUnder hunder
    obtain ⟨hle, hge⟩ := ht.le_of_mem_roots hroot hunder hsig
    obtain ⟨hstart, hstop⟩ := tokenSpan_eq ht.tokens
    rw [hstages.finalSpan_eq, hstart, hstop] at houtside
    have := start_le_start hle hu'
    have := stop_le_stop hge ht.tokens.hasToken_last
    have := hfault.range_of_mem hu
    have hsize := range_stop_eq hu'
    exact String.utf8ByteSize_eq_zero_iff.mp (by omega)
  refine ⟨hnone, hhollow, ?_⟩
  intro htext root hroot range tokens hfault
  rw [hstages.document_eq] at hroot hfault
  obtain ⟨u, hu, hsig, hne⟩ := htext root range tokens hfault
  exact hne ((hhollow root hroot range tokens hfault).textless u hu hsig)

/-- A method with a statement at whose end something is missing. -/
def Document.ofMissingEnd : Document := .ofStatements [.node .expressionStatement [
  .node .nameExpression [.token .identifier "a"], .token .semicolon ";", .node .errorNode []]]

theorem ofMissingEnd_fault : Document.ofMissingEnd.Fault 6 (Document.ofMissingEnd.fullRange 8)
    (Document.ofMissingEnd.tokensUnder 8) :=
  .node (by decide +kernel) (by decide +kernel)

/-- The statement is accepted, and the error that is left in it is hollow. -/
theorem ofMissingEnd_classify_faults : ∃ s,
    Poll.run (Document.ofMissingEnd.classify (.ofLength 17 2) {}).run .unlimited = .ok (.ok s) ∧
      s.region = .statements 6 6 ∧
      Document.ofMissingEnd.IsHollow s.finalSpan (Document.ofMissingEnd.fullRange 8)
        (Document.ofMissingEnd.tokensUnder 8) := by
  have h : (Document.ofMissingEnd.select (.ofLength 17 2) {}).toOption.map Selection.region =
      some (.statements 6 6) := by decide +kernel
  obtain ⟨s, hs, hregion⟩ := Document.exists_of_select_map h
  have hroot : 6 ∈ Document.ofMissingEnd.roots s.region := by
    rw [hregion]
    decide +kernel
  exact ⟨s, hs, hregion, (Document.classify_faults hs).2.1 6 hroot _ _ ofMissingEnd_fault⟩

/-- An error node without text at the end of a statement is not seen, and so is extracted. -/
theorem ofMissingEnd_not_isFaultless : ∃ s,
    Poll.run (Document.ofMissingEnd.classify (.ofLength 17 2) {}).run .unlimited = .ok (.ok s) ∧
      ¬ s.IsFaultless := by
  have h : (Document.ofMissingEnd.select (.ofLength 17 2) {}).toOption.map Selection.region =
      some (.statements 6 6) := by decide +kernel
  obtain ⟨s, hs, hregion⟩ := Document.exists_of_select_map h
  have hfault := ofMissingEnd_fault
  have hroot : 6 ∈ Document.ofMissingEnd.roots s.region := by
    rw [hregion]
    decide +kernel
  rw [← Document.document_of_classify hs] at hfault hroot
  exact ⟨s, hs, fun hfaultless => hfaultless 6 hroot _ _ hfault⟩

end ExtractMethod
