import ExtractMethod.Proofs.Selection.Run

/-! The scan for the largest run keeps exactly the outermost statements of a span. -/
namespace ExtractMethod

open Poll (Answers)
open Text (Range)

/-- The node is a listed statement of the span, strictly below the body of the scope. -/
structure Document.IsCandidate (d : Document) (scope : Scope) (span : Range) (n : Nat) : Prop where
  inBody : d.isAncestor scope.body n
  ne_body : n ≠ scope.body
  isListed : d.isInStatementList n
  covers : span.covers (d.span n)

/-- The node is a candidate that lies below no other one. -/
structure Document.IsOutermost (d : Document) (scope : Scope) (span : Range) (n : Nat) :
    Prop where
  isCandidate : d.IsCandidate scope span n
  highest : ∀ m, d.IsCandidate scope span m → d.isAncestor m n → m = n

/-- The run goes from the first outermost statement of the span to the last one, and all of them are
in its list. -/
structure Run.IsLargest (d : Document) (scope : Scope) (span : Range) (r : Run) : Prop where
  first : d.IsOutermost scope span r.first
  last : d.IsOutermost scope span r.last
  between : ∀ n, d.IsOutermost scope span n →
    d.parent? n = some r.container ∧ r.first ≤ n ∧ n ≤ r.last

namespace Document

variable {d : Document} {scope : Scope} {span : Range} {run : Run} {xs found : List Nat} {m n : Nat}

/-- The statements that were added descend, and none lies below one that was added before. -/
def Scattered (d : Document) (found : List Nat) : Prop :=
  found.Pairwise fun later earlier => earlier < later ∧ ¬ d.isAncestor earlier later

theorem Scattered.not_isAncestor (h : d.Scattered found) (hm : m ∈ found) (hn : n ∈ found)
    (hmn : d.isAncestor m n) : m = n := by
  induction found with
  | nil => cases hm
  | cons a rest ih =>
    obtain ⟨hhead, hrest⟩ := List.pairwise_cons.mp h
    have hle := (isAncestor_iff.mp hmn).1
    rcases List.mem_cons.mp hm with rfl | hm'
    · rcases List.mem_cons.mp hn with rfl | hn'
      · rfl
      · have := (hhead n hn').1
        omega
    · rcases List.mem_cons.mp hn with rfl | hn'
      · exact absurd hmn (hhead m hm').2
      · exact ih hrest hm' hn'

/-- It is enough to look at the statement that was added last: one that lies below an earlier one
comes before all that do not. -/
theorem Scattered.addOutermost (h : d.Scattered found) (hlt : ∀ m ∈ found, m < n) :
    d.Scattered (d.addOutermost scope span found n) := by
  simp only [Document.addOutermost]
  split
  · next hadd =>
    refine List.pairwise_cons.mpr ⟨fun m hm => ⟨hlt m hm, fun hmn => ?_⟩, h⟩
    cases found with
    | nil => cases hm
    | cons a rest =>
      have han : ¬ d.isAncestor a n := by simpa using (Bool.and_eq_true_iff.mp hadd).2
      rcases List.mem_cons.mp hm with rfl | hm
      · exact han hmn
      · obtain ⟨hma, hnot⟩ := (List.pairwise_cons.mp h).1 m hm
        have := hlt a List.mem_cons_self
        rw [isAncestor_iff] at hmn hnot
        omega
  · exact h

theorem scattered_foldl_addOutermost (hxs : xs.Pairwise (· < ·))
    (hlt : ∀ m ∈ found, ∀ n ∈ xs, m < n) (h : d.Scattered found) :
    d.Scattered (xs.foldl (d.addOutermost scope span) found) := by
  induction xs generalizing found with
  | nil => exact h
  | cons n rest ih =>
    obtain ⟨hhead, hrest⟩ := List.pairwise_cons.mp hxs
    refine ih hrest ?_ (h.addOutermost fun m hm => hlt m hm n List.mem_cons_self)
    intro m hm k hk
    have hmem : m = n ∨ m ∈ found := by
      simp only [addOutermost] at hm
      split at hm
      · exact List.mem_cons.mp hm
      · exact Or.inr hm
    rcases hmem with rfl | hm
    · exact hhead k hk
    · exact hlt m hm k (List.mem_cons_of_mem _ hk)

theorem subset_foldl_addOutermost (xs found : List Nat) :
    found ⊆ xs.foldl (d.addOutermost scope span) found := by
  induction xs generalizing found with
  | nil => exact List.Subset.refl _
  | cons n rest ih =>
    have hstep : found ⊆ d.addOutermost scope span found n := by
      simp only [addOutermost]
      split
      · exact List.subset_cons_self _ _
      · exact List.Subset.refl _
    exact List.Subset.trans hstep (ih _)

theorem mem_foldl_addOutermost (h : n ∈ xs.foldl (d.addOutermost scope span) found) : n ∈ found ∨
    n ∈ xs ∧ n ≠ scope.body ∧ d.isInStatementList n ∧ span.covers (d.span n) := by
  induction xs generalizing found with
  | nil => exact Or.inl h
  | cons m rest ih =>
    rcases ih h with hn | ⟨hn, hadded⟩
    · simp only [addOutermost] at hn
      split at hn
      · next hadd =>
        simp only [Bool.and_eq_true, decide_eq_true_eq] at hadd
        rcases List.mem_cons.mp hn with rfl | hn
        · exact Or.inr ⟨List.mem_cons_self, hadd.1.1.1, hadd.1.1.2, hadd.1.2⟩
        · exact Or.inl hn
      · exact Or.inl hn
    · exact Or.inr ⟨List.mem_cons_of_mem _ hn, hadded⟩

/-- Each candidate that was visited lies at or below a statement that was added. -/
theorem exists_mem_foldl_addOutermost (hn : n ∈ xs) (h : d.IsCandidate scope span n) :
    ∃ m ∈ xs.foldl (d.addOutermost scope span) found, d.isAncestor m n := by
  induction xs generalizing found with
  | nil => cases hn
  | cons a rest ih =>
    rcases List.mem_cons.mp hn with rfl | hn
    · have hself := isAncestor_self (hasNode_of_isAncestor h.inBody).2
      have hstep : ∃ m ∈ d.addOutermost scope span found n, d.isAncestor m n := by
        simp only [addOutermost]
        split
        · exact ⟨n, List.mem_cons_self, hself⟩
        · next hskip =>
          have hbelow : found.head?.any fun last => d.isAncestor last n := by
            simpa [h.ne_body, h.isListed, h.covers] using hskip
          obtain ⟨last, hlast, hln⟩ := (Option.any_eq_true _ _).mp hbelow
          exact ⟨last, List.mem_of_head? hlast, hln⟩
      obtain ⟨m, hm, hmn⟩ := hstep
      exact ⟨m, subset_foldl_addOutermost rest _ hm, hmn⟩
    · exact ih hn

/-- The listed statements of a span that lie below no other one, the last one first. -/
def outermost (d : Document) (scope : Scope) (span : Range) : List Nat :=
  (d.descendants scope.body).foldl (d.addOutermost scope span) []

theorem scattered_outermost (d : Document) (scope : Scope) (span : Range) :
    d.Scattered (d.outermost scope span) :=
  scattered_foldl_addOutermost List.pairwise_lt_range' (fun _ hm => nomatch hm) .nil

/-- The scan keeps exactly the outermost candidates. -/
theorem mem_outermost_iff : n ∈ d.outermost scope span ↔ d.IsOutermost scope span n := by
  have hcandidate {m : Nat} (hm : m ∈ d.outermost scope span) : d.IsCandidate scope span m := by
    rcases mem_foldl_addOutermost hm with hm | ⟨hvisited, hne, hlisted, hcovers⟩
    · cases hm
    · exact ⟨mem_descendants.mp hvisited, hne, hlisted, hcovers⟩
  have habove {m : Nat} (hm : d.IsCandidate scope span m) :
      ∃ k ∈ d.outermost scope span, d.isAncestor k m :=
    exists_mem_foldl_addOutermost (mem_descendants.mpr hm.inBody) hm
  constructor
  · intro hn
    refine ⟨hcandidate hn, fun m hm hmn => ?_⟩
    obtain ⟨k, hk, hkm⟩ := habove hm
    obtain rfl :=
      (d.scattered_outermost scope span).not_isAncestor hk hn (isAncestor_trans hkm hmn)
    exact isAncestor_antisymm hmn hkm
  · intro h
    obtain ⟨k, hk, hkn⟩ := habove h.isCandidate
    rwa [← h.highest k (hcandidate hk) hkn]

/-- Each candidate lies at or below an outermost one. -/
theorem exists_isOutermost (h : d.IsCandidate scope span n) :
    ∃ m, d.IsOutermost scope span m ∧ d.isAncestor m n := by
  obtain ⟨m, hm, hmn⟩ := exists_mem_foldl_addOutermost (mem_descendants.mpr h.inBody) h
  exact ⟨m, mem_outermost_iff.mp hm, hmn⟩

/-- In a list that descends the first element is the greatest. -/
theorem head?_eq_some_iff_of_pairwise (h : xs.Pairwise (· > ·)) :
    xs.head? = some n ↔ n ∈ xs ∧ ∀ m ∈ xs, m ≤ n := by
  cases xs with
  | nil => simp
  | cons a rest =>
    obtain ⟨hhead, -⟩ := List.pairwise_cons.mp h
    constructor
    · rintro ⟨⟩
      refine ⟨List.mem_cons_self, fun m hm => ?_⟩
      rcases List.mem_cons.mp hm with rfl | hm
      · exact Nat.le_refl _
      · exact Nat.le_of_lt (hhead m hm)
    · rintro ⟨hn, hmax⟩
      rcases List.mem_cons.mp hn with rfl | hn
      · rfl
      · have := hhead n hn
        have := hmax a List.mem_cons_self
        omega

/-- In a list that descends the last element is the least. -/
theorem getLast?_eq_some_iff_of_pairwise (h : xs.Pairwise (· > ·)) :
    xs.getLast? = some n ↔ n ∈ xs ∧ ∀ m ∈ xs, n ≤ m := by
  rw [List.getLast?_eq_some_iff]
  constructor
  · rintro ⟨before, rfl⟩
    refine ⟨List.mem_concat_self, fun m hm => ?_⟩
    rcases List.mem_append.mp hm with hm | hm
    · exact Nat.le_of_lt ((List.pairwise_append.mp h).2.2 m hm n List.mem_cons_self)
    · exact Nat.le_of_eq (List.mem_singleton.mp hm).symm
  · rintro ⟨hn, hmin⟩
    obtain ⟨before, after, rfl⟩ := List.append_of_mem hn
    cases after with
    | nil => exact ⟨before, rfl⟩
    | cons a rest =>
      have hlt := (List.pairwise_cons.mp (List.pairwise_append.mp h).2.1).1 a List.mem_cons_self
      have := hmin a (by simp)
      omega

/-- The search for the largest run succeeds exactly if all outermost statements are in one list. -/
theorem answers_largestRun_iff :
    Answers (d.largestRun scope span) (some run) ↔ run.IsLargest d scope span := by
  have hsorted : (d.outermost scope span).Pairwise (· > ·) :=
    (d.scattered_outermost scope span).imp And.left
  have hfound {x : Option Run} : Answers (d.largestRun scope span) x ↔ (do
      let last ← (d.outermost scope span).head?
      let first ← (d.outermost scope span).getLast?
      let container ← d.parent? first
      if (d.outermost scope span).all fun n => d.parent? n = some container then
        some ⟨container, first, last⟩ else none) = x := by
    simp only [largestRun, Poll.answers_bind, Poll.answers_pure]
    constructor
    · rintro ⟨found, hfound, h⟩
      obtain rfl : found = d.outermost scope span := hfound.unique (Poll.answers_fold _ _ _)
      exact h
    · intro h
      exact ⟨_, Poll.answers_fold _ _ _, h⟩
  rw [hfound]
  simp only [Option.bind_eq_bind, Option.bind_eq_some_iff,
    head?_eq_some_iff_of_pairwise hsorted, getLast?_eq_some_iff_of_pairwise hsorted,
    mem_outermost_iff, Option.ite_none_right_eq_some, List.all_eq_true, decide_eq_true_eq]
  constructor
  · rintro ⟨last, ⟨hlast, hmax⟩, first, ⟨hfirst, hmin⟩, c, -, hparent, hrun⟩
    cases hrun
    exact ⟨hfirst, hlast, fun n hn => ⟨hparent n hn, hmin n hn, hmax n hn⟩⟩
  · rintro ⟨hfirst, hlast, hbetween⟩
    exact ⟨run.last, ⟨hlast, fun n hn => (hbetween n hn).2.2⟩, run.first,
      ⟨hfirst, fun n hn => (hbetween n hn).2.1⟩, run.container, (hbetween _ hfirst).1,
      fun n hn => (hbetween n hn).1, rfl⟩

end Document

/-- The largest run in a span lies in the scope. -/
theorem Run.IsLargest.valid {d : Document} {scope : Scope} {span : Range} {r : Run}
    (h : r.IsLargest d scope span) : r.Valid d scope.body := by
  have hfirst := h.first.isCandidate
  obtain ⟨hparent, -, hle⟩ := h.between _ h.first
  obtain ⟨hkind, c, hc, hlist⟩ := Document.isInStatementList_iff.mp hfirst.isListed
  cases hparent.symm.trans hc
  have hbody := Document.isAncestor_of_parent? hparent hfirst.inBody hfirst.ne_body.symm
  exact ⟨hbody, hlist, hparent, (h.between _ h.last).1, hkind,
    (Document.isInStatementList_iff.mp h.last.isCandidate.isListed).1, hle⟩

end ExtractMethod
