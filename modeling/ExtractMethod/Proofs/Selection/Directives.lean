import ExtractMethod.Proofs.Document.Lookup
import ExtractMethod.Proofs.Selection.Legal
import ExtractMethod.Selection.Directives
import Mathlib.Data.List.Sort

/-! Whether a range keeps the regions between directives whole. Only the depth is counted, but where
directives nest properly the depth decides which of them belong together. -/
namespace ExtractMethod

open ExtractMethod.Tree (Element TokenKind)
open Text (Range)

/-- Directives that divide what an `#if` opened. -/
def Tree.TokenKind.isAlternative : TokenKind → Bool
  | .elifDirective | .elseDirective => true
  | _ => false

/-- The tokens of one region: what opens it, the alternatives directly in it, and what closes it. -/
structure DirectiveRegion where
  opening : Nat
  alternatives : List Nat
  closing : Nat

namespace DirectiveRegion

variable (r : DirectiveRegion)

def tokens : List Nat := r.opening :: r.alternatives ++ [r.closing]

/-- An `#if` is closed by an `#endif`. A `#region` is closed by an `#endregion` and has no
alternatives. -/
def IsPaired (d : Document) : Prop :=
  (d.token r.opening).kind = .ifDirective ∧ (d.token r.closing).kind = .endIfDirective ∨
    (d.token r.opening).kind = .regionDirective ∧
      (d.token r.closing).kind = .endRegionDirective ∧ r.alternatives = []

/-- All tokens of the region pass the test, or none does. -/
def IsUncut (test : Nat → Bool) : Prop := (∀ t ∈ r.tokens, test t) ∨ ∀ t ∈ r.tokens, ¬ test t

/-- The range overlaps all tokens of the region or none of them. -/
def IsKept (d : Document) (range : Range) : Prop :=
  r.IsUncut fun t => (d.token t).range.intersects range

variable {r} {d : Document} {test test' : Nat → Bool}

theorem forall_mem_tokens {p : Nat → Prop} : (∀ t ∈ r.tokens, p t) ↔
    p r.opening ∧ (∀ t ∈ r.alternatives, p t) ∧ p r.closing := by
  rw [tokens, List.cons_append, List.forall_mem_cons, List.forall_mem_append,
    List.forall_mem_singleton]

theorem isUncut_congr (h : ∀ t ∈ r.tokens, test t = test' t) :
    r.IsUncut test ↔ r.IsUncut test' := by
  simp +contextual only [IsUncut, h]

theorem IsPaired.isOpening (h : r.IsPaired d) : (d.token r.opening).kind.isOpening := by
  rcases h with ⟨hopening, -⟩ | ⟨hopening, -⟩ <;> rw [hopening] <;> rfl

theorem IsPaired.isClosing (h : r.IsPaired d) : (d.token r.closing).kind.isClosing := by
  rcases h with ⟨-, hclosing⟩ | ⟨-, hclosing, -⟩ <;> rw [hclosing] <;> rfl

end DirectiveRegion

/-- Directives that nest properly, with the alternatives among them that lie in none of the regions
that they form. These belong to the region around all of the directives. -/
inductive Document.Nests (d : Document) : List Nat → List Nat → List DirectiveRegion → Prop
  | nil : Nests d [] [] []
  | alternative {t : Nat} {rest alternatives : List Nat} {regions : List DirectiveRegion}
      (isAlternative : (d.token t).kind.isAlternative)
      (rest_nests : Nests d rest alternatives regions) :
      Nests d (t :: rest) (t :: alternatives) regions
  | region {r : DirectiveRegion} {inner rest alternatives : List Nat}
      {regions others : List DirectiveRegion} (isPaired : r.IsPaired d)
      (inner_nests : Nests d inner r.alternatives regions)
      (rest_nests : Nests d rest alternatives others) :
      Nests d (r.opening :: inner ++ r.closing :: rest) alternatives (r :: regions ++ others)

section IsBalanced

variable {kind : TokenKind} {kinds : List TokenKind} {depth : Nat}

theorem isBalanced_opening (h : kind.isOpening) :
    isBalanced depth (kind :: kinds) = isBalanced (depth + 1) kinds := by
  simp [isBalanced, h]

theorem isBalanced_closing_zero (h : kind.isClosing) : isBalanced 0 (kind :: kinds) = false := by
  cases kind <;> simp [TokenKind.isClosing] at h <;> rfl

theorem isBalanced_closing_succ (h : kind.isClosing) :
    isBalanced (depth + 1) (kind :: kinds) = isBalanced depth kinds := by
  cases kind <;> simp [TokenKind.isClosing] at h <;> rfl

theorem isBalanced_alternative (h : kind.isAlternative) :
    isBalanced depth (kind :: kinds) = (depth ≠ 0 && isBalanced depth kinds) := by
  cases kind <;> simp [TokenKind.isAlternative] at h <;> rfl

end IsBalanced

namespace Document

variable {d : Document} {range : Range} {xs ys alternatives : List Nat}
  {regions : List DirectiveRegion} {region : DirectiveRegion} {kinds : List TokenKind}
  {test : Nat → Bool} {depth t : Nat}

/-- The kinds of the tokens that pass a test. -/
def kindsOf (d : Document) (test : Nat → Bool) (xs : List Nat) : List TokenKind :=
  (xs.filter test).map fun t => (d.token t).kind

theorem kindsOf_cons_of_pos (h : test t) :
    d.kindsOf test (t :: xs) = (d.token t).kind :: d.kindsOf test xs := by
  simp [kindsOf, h]

theorem kindsOf_cons_of_neg (h : ¬ test t) : d.kindsOf test (t :: xs) = d.kindsOf test xs := by
  simp [kindsOf, h]

theorem kindsOf_append : d.kindsOf test (xs ++ ys) = d.kindsOf test xs ++ d.kindsOf test ys := by
  simp [kindsOf]

theorem kindsOf_eq_nil (h : ∀ t ∈ xs, ¬ test t) : d.kindsOf test xs = [] := by
  simpa [kindsOf] using h

namespace Nests

theorem mem_of_mem_alternatives (h : d.Nests xs alternatives regions) (ht : t ∈ alternatives) :
    t ∈ xs := by
  induction h with
  | nil => exact ht
  | alternative _ _ ih =>
    rcases List.mem_cons.mp ht with rfl | ht
    · exact List.mem_cons_self
    · exact List.mem_cons_of_mem _ (ih ht)
  | region _ _ _ _ ih => exact List.mem_append_right _ (List.mem_cons_of_mem _ (ih ht))

theorem mem_of_mem_tokens (h : d.Nests xs alternatives regions) (hregion : region ∈ regions) :
    ∀ t ∈ region.tokens, t ∈ xs := by
  induction h with
  | nil => cases hregion
  | alternative _ _ ih => exact fun t ht => List.mem_cons_of_mem _ (ih hregion t ht)
  | region _ hinner _ ih ih' =>
    rcases List.mem_cons.mp hregion with rfl | hregion
    · refine DirectiveRegion.forall_mem_tokens.mpr ⟨List.mem_cons_self, fun t ht => ?_, by simp⟩
      exact List.mem_cons_of_mem _ (List.mem_append_left _ (hinner.mem_of_mem_alternatives ht))
    · rcases List.mem_append.mp hregion with hregion | hregion
      · exact fun t ht => List.mem_cons_of_mem _ (List.mem_append_left _ (ih hregion t ht))
      · exact fun t ht => List.mem_append_right _ (List.mem_cons_of_mem _ (ih' hregion t ht))

theorem isUncut_of_forall (h : d.Nests xs alternatives regions) (hall : ∀ t ∈ xs, test t)
    (hregion : region ∈ regions) : region.IsUncut test :=
  Or.inl fun t ht => hall t (h.mem_of_mem_tokens hregion t ht)

/-- What passes a test that cuts no region leaves the depth as it was. -/
theorem isBalanced_append (h : d.Nests xs alternatives regions)
    (huncut : ∀ region ∈ regions, region.IsUncut test)
    (hopen : ∀ t ∈ alternatives, test t → depth ≠ 0) :
    isBalanced depth (d.kindsOf test xs ++ kinds) = isBalanced depth kinds := by
  induction h generalizing depth kinds with
  | nil => rfl
  | @alternative t rest alternatives regions hkind _ ih =>
    obtain ⟨ht, hrest⟩ := List.forall_mem_cons.mp hopen
    by_cases hpass : test t
    · rw [kindsOf_cons_of_pos hpass, List.cons_append, isBalanced_alternative hkind,
        ih huncut hrest]
      simp [ht hpass]
    · rw [kindsOf_cons_of_neg hpass, ih huncut hrest]
  | @region r inner rest alternatives regions others hpaired _ _ ih ih' =>
    obtain ⟨hr, huncut⟩ := List.forall_mem_cons.mp huncut
    obtain ⟨hinner, hothers⟩ := List.forall_mem_append.mp huncut
    rcases hr with hall | hnone
    · obtain ⟨hopening, -, hclosing⟩ := DirectiveRegion.forall_mem_tokens.mp hall
      rw [List.cons_append, kindsOf_cons_of_pos hopening, List.cons_append,
        isBalanced_opening hpaired.isOpening, kindsOf_append, List.append_assoc,
        ih hinner fun _ _ _ => Nat.succ_ne_zero _, kindsOf_cons_of_pos hclosing, List.cons_append,
        isBalanced_closing_succ hpaired.isClosing, ih' hothers hopen]
    · obtain ⟨hopening, halternatives, hclosing⟩ := DirectiveRegion.forall_mem_tokens.mp hnone
      rw [List.cons_append, kindsOf_cons_of_neg hopening, kindsOf_append, List.append_assoc,
        ih hinner fun t ht hpass => absurd hpass (halternatives t ht),
        kindsOf_cons_of_neg hclosing, ih' hothers hopen]

/-- The first of nested directives never close what was open before them. -/
theorem isBalanced_succ_eq_false (h : d.Nests xs alternatives regions)
    (hstart : xs.Pairwise fun s t => test t → test s) :
    isBalanced (depth + 1) (d.kindsOf test xs) = false := by
  induction h generalizing depth with
  | nil => rfl
  | @alternative t rest alternatives regions hkind _ ih =>
    obtain ⟨-, hrest⟩ := List.pairwise_cons.mp hstart
    by_cases hpass : test t
    · rw [kindsOf_cons_of_pos hpass, isBalanced_alternative hkind, ih hrest, Bool.and_false]
    · rw [kindsOf_cons_of_neg hpass, ih hrest]
  | @region r inner rest alternatives regions others hpaired hinner _ ih ih' =>
    rw [List.cons_append] at hstart ⊢
    obtain ⟨hafter, hstart⟩ := List.pairwise_cons.mp hstart
    obtain ⟨hinner_start, hrest_start, hbefore⟩ := List.pairwise_append.mp hstart
    obtain ⟨hlater, hrest_start⟩ := List.pairwise_cons.mp hrest_start
    by_cases hopening : test r.opening
    · rw [kindsOf_cons_of_pos hopening, isBalanced_opening hpaired.isOpening, kindsOf_append]
      by_cases hclosing : test r.closing
      · have hall : ∀ t ∈ inner, test t := fun t ht => hbefore t ht _ List.mem_cons_self hclosing
        rw [hinner.isBalanced_append (fun _ => hinner.isUncut_of_forall hall)
            fun _ _ _ => Nat.succ_ne_zero _,
          kindsOf_cons_of_pos hclosing, isBalanced_closing_succ hpaired.isClosing, ih' hrest_start]
      · rw [kindsOf_cons_of_neg hclosing,
          kindsOf_eq_nil fun t ht hpass => hclosing (hlater t ht hpass), List.append_nil,
          ih hinner_start]
    · rw [kindsOf_cons_of_neg hopening,
        kindsOf_eq_nil fun t ht hpass => hopening (hafter t ht hpass)]
      rfl

/-- If what passes a test on consecutive tokens is balanced, then the test cuts no region, and no
alternative of the region around all of the directives passes it. -/
theorem uncut_of_isBalanced (h : d.Nests xs alternatives regions)
    (hconvex : ∀ s t u, s < t → t < u → test s → test u → test t)
    (hsorted : (xs ++ ys).Pairwise (· < ·))
    (hbalanced : isBalanced 0 (d.kindsOf test (xs ++ ys))) :
    (∀ region ∈ regions, region.IsUncut test) ∧ ∀ t ∈ alternatives, ¬ test t := by
  induction h generalizing ys with
  | nil => exact ⟨List.forall_mem_nil _, List.forall_mem_nil _⟩
  | @alternative t rest alternatives regions hkind _ ih =>
    rw [List.cons_append] at hsorted hbalanced
    by_cases hpass : test t
    · rw [kindsOf_cons_of_pos hpass, isBalanced_alternative hkind] at hbalanced
      cases hbalanced
    · rw [kindsOf_cons_of_neg hpass] at hbalanced
      obtain ⟨huncut, halternatives⟩ := ih (List.pairwise_cons.mp hsorted).2 hbalanced
      exact ⟨huncut, List.forall_mem_cons.mpr ⟨hpass, halternatives⟩⟩
  | @region r inner rest alternatives regions others hpaired hinner _ ih ih' =>
    simp only [List.cons_append, List.append_assoc] at hsorted hbalanced
    obtain ⟨hafter, hsorted⟩ := List.pairwise_cons.mp hsorted
    obtain ⟨hsorted_inner, hsorted_rest, hbefore⟩ := List.pairwise_append.mp hsorted
    obtain ⟨hlater, hsorted_rest⟩ := List.pairwise_cons.mp hsorted_rest
    have hinside : ∀ t ∈ inner, r.opening < t ∧ t < r.closing := fun t ht =>
      ⟨hafter t (List.mem_append_left _ ht), hbefore t ht _ List.mem_cons_self⟩
    by_cases hopening : test r.opening
    · rw [kindsOf_cons_of_pos hopening, isBalanced_opening hpaired.isOpening, kindsOf_append]
        at hbalanced
      by_cases hclosing : test r.closing
      · -- All of the region passes, and the rest is balanced on its own.
        have hall : ∀ t ∈ inner, test t := by
          intro t ht
          obtain ⟨hlt, hgt⟩ := hinside t ht
          exact hconvex r.opening t r.closing hlt hgt hopening hclosing
        have huncut : ∀ region ∈ regions, region.IsUncut test := fun _ =>
          hinner.isUncut_of_forall hall
        rw [hinner.isBalanced_append huncut fun _ _ _ => Nat.succ_ne_zero _,
          kindsOf_cons_of_pos hclosing, isBalanced_closing_succ hpaired.isClosing] at hbalanced
        obtain ⟨hothers, halternatives⟩ := ih' hsorted_rest hbalanced
        have hr : r.IsUncut test := Or.inl <| DirectiveRegion.forall_mem_tokens.mpr
          ⟨hopening, fun t ht => hall t (hinner.mem_of_mem_alternatives ht), hclosing⟩
        exact ⟨List.forall_mem_cons.mpr ⟨hr, List.forall_mem_append.mpr ⟨huncut, hothers⟩⟩,
          halternatives⟩
      · -- The test ends within the region, which stays open.
        have hspan : r.opening < r.closing :=
          hafter _ (List.mem_append_right _ List.mem_cons_self)
        have hnone : ∀ t ∈ rest ++ ys, ¬ test t := by
          intro t ht hpass
          exact hclosing (hconvex r.opening r.closing t hspan (hlater t ht) hopening hpass)
        have hstart : inner.Pairwise fun s t => test t → test s := by
          refine hsorted_inner.imp_of_mem ?_
          intro s t hs _ hst hpass
          exact hconvex r.opening s t (hinside s hs).1 hst hopening hpass
        rw [kindsOf_cons_of_neg hclosing, kindsOf_eq_nil hnone, List.append_nil,
          hinner.isBalanced_succ_eq_false hstart] at hbalanced
        cases hbalanced
    · rw [kindsOf_cons_of_neg hopening] at hbalanced
      obtain ⟨huncut, hinner_none⟩ := ih hsorted hbalanced
      rw [kindsOf_append, hinner.isBalanced_append huncut fun t ht hpass =>
        absurd hpass (hinner_none t ht)] at hbalanced
      by_cases hclosing : test r.closing
      · -- The test begins within the region, which is closed without being open.
        rw [kindsOf_cons_of_pos hclosing, isBalanced_closing_zero hpaired.isClosing] at hbalanced
        cases hbalanced
      · rw [kindsOf_cons_of_neg hclosing] at hbalanced
        obtain ⟨hothers, halternatives⟩ := ih' hsorted_rest hbalanced
        have hr : r.IsUncut test := Or.inr <|
          DirectiveRegion.forall_mem_tokens.mpr ⟨hopening, hinner_none, hclosing⟩
        exact ⟨List.forall_mem_cons.mpr ⟨hr, List.forall_mem_append.mpr ⟨huncut, hothers⟩⟩,
          halternatives⟩

end Nests

/-- The directives of the document, in order. -/
def directives (d : Document) : List Nat :=
  (numbersBetween 0 d.tokenCount).filter fun t => (d.token t).kind.isDirective

theorem directives_pairwise (d : Document) : d.directives.Pairwise (· < ·) :=
  (numbersBetween_pairwise _ _).filter _

theorem hasToken_of_mem_directives (h : t ∈ d.directives) : d.hasToken t :=
  hasToken_iff.mpr (mem_numbersBetween.mp (List.mem_of_mem_filter h)).2

/-- The directives in a range are those of its tokens. -/
theorem directivesIn_eq (d : Document) (range : Range) :
    d.directivesIn range = d.kindsOf (· ∈ d.tokensIn range) d.directives := by
  have htokens : (d.tokensIn range).filter (fun t => (d.token t).kind.isDirective) =
      d.directives.filter (· ∈ d.tokensIn range) := by
    refine ((d.tokensIn_pairwise range).filter _).eq_of_mem_iff
      (d.directives_pairwise.filter _) fun t => ?_
    simp only [directives, List.mem_filter, mem_numbersBetween, decide_eq_true_eq]
    constructor
    · rintro ⟨ht, hkind⟩
      exact ⟨⟨⟨Nat.zero_le t, hasToken_iff.mp (mem_tokensIn.mp ht).1⟩, hkind⟩, ht⟩
    · rintro ⟨⟨-, hkind⟩, ht⟩
      exact ⟨ht, hkind⟩
  rw [kindsOf, ← htokens, directivesIn, List.filter_map]
  rfl

/-- The directives of the document nest properly, and these are their regions. -/
def HasRegions (d : Document) (regions : List DirectiveRegion) : Prop :=
  d.Nests d.directives [] regions

theorem HasRegions.isUncut_iff (h : d.HasRegions regions) (hregion : region ∈ regions) :
    region.IsUncut (· ∈ d.tokensIn range) ↔ region.IsKept d range := by
  refine DirectiveRegion.isUncut_congr fun t ht => ?_
  simp [mem_tokensIn, hasToken_of_mem_directives (Nests.mem_of_mem_tokens h hregion t ht)]

end Document

/-- Where the directives of a document nest properly, a range cuts none of them exactly if it keeps
each region whole. -/
theorem Document.cutsDirectives_eq_false_iff {d : Document} {regions : List DirectiveRegion}
    (h : d.HasRegions regions) (range : Range) :
    d.cutsDirectives range = false ↔ ∀ region ∈ regions, region.IsKept d range := by
  rw [cutsDirectives, Bool.not_eq_false', directivesIn_eq]
  constructor
  · intro hbalanced region hregion
    have hconvex : ∀ s t u, s < t → t < u → decide (s ∈ d.tokensIn range) →
        decide (u ∈ d.tokensIn range) → decide (t ∈ d.tokensIn range) := by
      intro s t u hst htu
      simp only [decide_eq_true_eq, tokensIn, mem_numbersBetween]
      omega
    have hsorted := d.directives_pairwise
    rw [← List.append_nil d.directives] at hbalanced hsorted
    obtain ⟨huncut, -⟩ := h.uncut_of_isBalanced hconvex hsorted hbalanced
    exact (h.isUncut_iff hregion).mp (huncut region hregion)
  · intro hall
    have huncut := fun region hregion => (h.isUncut_iff hregion).mpr (hall region hregion)
    rw [← List.append_nil (d.kindsOf _ _), h.isBalanced_append huncut (List.forall_mem_nil _)]
    rfl

/-- A method with two alternatives, the first of which has a region of its own. -/
def Document.ofAlternatives : Document := .ofStatements [
  .token .ifDirective "#if A", .token .regionDirective "#region R", .nameStatement "a",
  .token .endRegionDirective "#endregion", .token .elseDirective "#else", .nameStatement "b",
  .token .endIfDirective "#endif"]

theorem ofAlternatives_hasRegions :
    Document.ofAlternatives.HasRegions [⟨10, [15], 18⟩, ⟨11, [], 14⟩] := by
  have hdirectives : Document.ofAlternatives.directives = [10, 11, 14, 15, 18] := by
    decide +kernel
  have hinner : Document.ofAlternatives.Nests [11, 14, 15] [15] [⟨11, [], 14⟩] :=
    .region (r := ⟨11, [], 14⟩) (Or.inr ⟨by decide +kernel, by decide +kernel, rfl⟩) .nil
      (.alternative (by decide +kernel) .nil)
  rw [Document.HasRegions, hdirectives]
  exact .region (r := ⟨10, [15], 18⟩) (Or.inl ⟨by decide +kernel, by decide +kernel⟩) hinner .nil

/-- The range of the region keeps it and the alternatives around it. The range of the first
alternative, which has the `#if` but not the `#else`, does not. -/
theorem ofAlternatives_cutsDirectives :
    (∀ region ∈ [DirectiveRegion.mk 10 [15] 18, ⟨11, [], 14⟩],
      region.IsKept .ofAlternatives (.ofLength 22 21)) ∧
      ¬ (DirectiveRegion.mk 10 [15] 18).IsKept .ofAlternatives (.ofLength 17 26) := by
  have hkeeps (range : Range) :=
    Document.cutsDirectives_eq_false_iff ofAlternatives_hasRegions range
  refine ⟨(hkeeps (.ofLength 22 21)).mp (by decide +kernel), fun houter => ?_⟩
  have hcuts : Document.ofAlternatives.cutsDirectives (.ofLength 17 26) = true := by
    decide +kernel
  have hinner : (DirectiveRegion.mk 11 [] 14).IsKept .ofAlternatives (.ofLength 17 26) :=
    Or.inl (by decide +kernel)
  have hfalse := (hkeeps (.ofLength 17 26)).mpr (by simp [houter, hinner])
  rw [hcuts] at hfalse
  cases hfalse

end ExtractMethod
