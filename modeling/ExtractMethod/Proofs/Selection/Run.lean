import ExtractMethod.Proofs.Document.Tokens
import ExtractMethod.Proofs.Selection.Scope
import ExtractMethod.Selection.Run

/-! The smallest run that is found is a run of statements of one list in the scope, also after a
loop was widened. -/
namespace ExtractMethod

open ExtractMethod.Tree (NodeKind)
open Poll (Answers Steady)
open Text (Range)

/-- The run goes from one statement of a list at or below the body to the same or a later one. -/
structure Run.Valid (d : Document) (body : Nat) (r : Run) : Prop where
  inBody : d.isAncestor body r.container
  isList : (d.kind r.container).isStatementContainer
  parent_first : d.parent? r.first = some r.container
  parent_last : d.parent? r.last = some r.container
  first_isStatement : (d.kind r.first).isStatement
  last_isStatement : (d.kind r.last).isStatement
  first_le_last : r.first ≤ r.last

theorem Scope.Valid.body_ne_loopBlock {d : Document} {s : Scope} (h : s.Valid d) :
    d.kind s.body ≠ .loopBlock := by
  intro hk
  have hkind := h.kind
  simp only [Document.kindOfScope?, hk] at hkind
  split at hkind <;> simp [NodeKind.isExpression] at hkind

namespace Document

variable {d : Document} {scope : Scope} {span : Range} {run : Run} {a n c first last : Nat}

theorem isInStatementList_iff : d.isInStatementList n = true ↔
    (d.kind n).isStatement ∧ ∃ p, d.parent? n = some p ∧ (d.kind p).isStatementContainer := by
  simp only [isInStatementList, Bool.and_eq_true, Option.any_eq_true_iff_get]
  constructor
  · rintro ⟨hn, hp, hk⟩
    exact ⟨hn, _, Option.eq_some_of_isSome hp, hk⟩
  · rintro ⟨hn, p, hp, hk⟩
    exact ⟨hn, by simp [hp], by simpa [hp] using hk⟩

theorem childAbove?_eq_some (hn : d.hasNode n) (h : d.childAbove? c n = some a) :
    d.isAncestor a n ∧ d.parent? a = some c := by
  have hmem := List.mem_of_find?_eq_some h
  have hparent := List.find?_some h
  exact ⟨isAncestor_of_mem_ancestors hn hmem, by simpa using hparent⟩

instance : Steady (d.listedAncestor scope n) := by
  simp only [listedAncestor]
  infer_instance

theorem listedAncestor_eq_some (hn : d.hasNode n)
    (h : Answers (d.listedAncestor scope n) (some a)) : d.isAncestor a n := by
  obtain ⟨m, hm, hvisit⟩ := Poll.exists_of_search_join h
  by_cases hbody : m = scope.body
  · simp [hbody] at hvisit
  · by_cases hlisted : d.isInStatementList m
    · obtain rfl : m = a := by simpa [hbody, hlisted] using hvisit
      exact isAncestor_of_mem_ancestors hn hm
    · simp [hbody, hlisted] at hvisit

/-- Two children of one node are in the order of the tokens below them. -/
theorem le_of_mem_tokensUnder (ha : d.parent? a = some c) (hn : d.parent? n = some c)
    (hfirst : first ∈ d.tokensUnder a) (hlast : last ∈ d.tokensUnder n) (hle : first ≤ last) :
    a ≤ n := by
  apply Nat.le_of_not_lt
  intro hlt
  have hnot := not_isAncestor_of_parent?_eq hn ha (Nat.ne_of_lt hlt)
  have := lt_of_mem_tokensUnder hlast hfirst hlt hnot
  omega

/-- A run in a container around two nodes starts with the child around the one and ends with the
child around the other. -/
theorem runIn?_eq_some {start stop : Nat} (hstart : d.hasNode start) (hstop : d.hasNode stop)
    (h : d.runIn? start stop c = some run) :
    run.container = c ∧ d.isAncestor run.first start ∧ d.isAncestor run.last stop ∧
      d.parent? run.first = some c ∧ d.parent? run.last = some c ∧
      d.isInStatementList run.first ∧ d.isInStatementList run.last := by
  simp only [runIn?] at h
  split at h
  · next first last hfirst hlast =>
    by_cases hlisted : d.isInStatementList first && d.isInStatementList last
    · obtain ⟨hf, hl⟩ := Bool.and_eq_true_iff.mp hlisted
      rw [if_pos hlisted] at h
      cases h
      obtain ⟨hfirst, hpf⟩ := childAbove?_eq_some hstart hfirst
      obtain ⟨hlast, hpl⟩ := childAbove?_eq_some hstop hlast
      exact ⟨rfl, hfirst, hlast, hpf, hpl, hf, hl⟩
    · rw [if_neg hlisted] at h
      cases h
  · cases h

instance : Steady (d.smallestRun scope first last) := by
  simp only [smallestRun]
  refine Poll.steady_bind inferInstance fun start => Poll.steady_bind inferInstance fun stop => ?_
  split
  · split <;> infer_instance
  · infer_instance

/-- The smallest run lies in the scope, and each of the two tokens lies below one of its ends. -/
theorem smallestRun_eq_some (hfirst : d.hasToken first) (hlast : d.hasToken last)
    (hle : first ≤ last) (h : Answers (d.smallestRun scope first last) (some run)) :
    run.Valid d scope.body ∧ first ∈ d.tokensUnder run.first ∧ last ∈ d.tokensUnder run.last := by
  obtain ⟨start, hstart, h1⟩ := Poll.answers_bind.mp h
  obtain ⟨stop, hstop, h2⟩ := Poll.answers_bind.mp h1
  rcases start with _ | start
  · cases Poll.answers_pure.mp h2
  rcases stop with _ | stop
  · cases Poll.answers_pure.mp h2
  have hstart := listedAncestor_eq_some
    (hasNode_of_mem_tokensUnder (mem_tokensUnder_parent hfirst)) hstart
  have hstop := listedAncestor_eq_some
    (hasNode_of_mem_tokensUnder (mem_tokensUnder_parent hlast)) hstop
  cases hcommon : d.commonAncestor? start stop with
  | none =>
    simp only [hcommon] at h2
    cases Poll.answers_pure.mp h2
  | some common =>
    simp only [hcommon] at h2
    obtain ⟨c, -, hvisit⟩ := Poll.exists_of_search_join h2
    by_cases hbody : d.isAncestor scope.body c
    · by_cases hends : c = start ∨ c = stop
      · simp [hbody, hends] at hvisit
      · by_cases hlist : (d.kind c).isStatementContainer
        · have hrun : d.runIn? start stop c = some run := by
            simpa [hbody, hends, hlist] using hvisit
          obtain ⟨rfl, hf, hl, hpf, hpl, hlf, hll⟩ := runIn?_eq_some
            (hasNode_of_isAncestor hstart).1 (hasNode_of_isAncestor hstop).1 hrun
          have htf := (mem_tokensUnder_iff hfirst).mpr (isAncestor_trans hf hstart)
          have htl := (mem_tokensUnder_iff hlast).mpr (isAncestor_trans hl hstop)
          exact ⟨⟨hbody, hlist, hpf, hpl, (isInStatementList_iff.mp hlf).1,
            (isInStatementList_iff.mp hll).1, le_of_mem_tokensUnder hpf hpl htf htl hle⟩, htf, htl⟩
        · simp [hbody, hends, hlist] at hvisit
    · simp [hbody] at hvisit

instance : Steady (d.largestRun scope span) := by
  simp only [largestRun]
  infer_instance

theorem loopContainer?_eq_some_iff : d.loopContainer? run = some c ↔
    d.kind run.container = .loopBlock ∧ (d.isLoopEdge run.first ∨ d.isLoopEdge run.last) ∧
      d.parent? run.container = some c ∧ (d.kind c).isStatementContainer := by
  simp only [loopContainer?, Option.ite_none_right_eq_some, Option.filter_eq_some_iff,
    Bool.and_eq_true, Bool.or_eq_true, decide_eq_true_eq, and_assoc]

theorem widenLoop_of_none (h : d.loopContainer? run = none) : d.widenLoop run = (run, false) := by
  simp only [widenLoop, h]

theorem widenLoop_of_some (h : d.loopContainer? run = some c) :
    (d.widenLoop run).1 = ⟨c, run.container, run.container⟩ := by
  simp only [widenLoop, h]

/-- A run is widened once at most: a loop is neither a header nor a trailer. -/
theorem loopContainer?_widenLoop (run : Run) : d.loopContainer? (d.widenLoop run).1 = none := by
  cases h : d.loopContainer? run with
  | none => rwa [widenLoop_of_none h]
  | some c =>
    obtain ⟨hkind, -⟩ := loopContainer?_eq_some_iff.mp h
    rw [widenLoop_of_some h, Option.eq_none_iff_forall_ne_some]
    intro c' hc'
    obtain ⟨-, hedge, -⟩ := loopContainer?_eq_some_iff.mp hc'
    simp [isLoopEdge, hkind] at hedge

/-- What is noted to be widened is a loop now. -/
theorem widenLoop_snd (h : (d.widenLoop run).2) :
    (d.widenLoop run).1.first = (d.widenLoop run).1.last ∧
      d.kind (d.widenLoop run).1.first = .loopBlock := by
  cases hloop : d.loopContainer? run with
  | none =>
    rw [widenLoop_of_none hloop] at h
    cases h
  | some c =>
    rw [widenLoop_of_some hloop]
    exact ⟨rfl, (loopContainer?_eq_some_iff.mp hloop).1⟩

/-- The ends of a run lie in the run that it is widened to. -/
theorem mem_tokensUnder_widenLoop (h : run.Valid d a) (hf : first ∈ d.tokensUnder run.first)
    (hl : last ∈ d.tokensUnder run.last) : first ∈ d.tokensUnder (d.widenLoop run).1.first ∧
      last ∈ d.tokensUnder (d.widenLoop run).1.last := by
  cases hloop : d.loopContainer? run with
  | none =>
    rw [widenLoop_of_none hloop]
    exact ⟨hf, hl⟩
  | some c =>
    rw [widenLoop_of_some hloop]
    exact ⟨mem_tokensUnder_of_isAncestor (parent?_isAncestor h.parent_first).2 hf,
      mem_tokensUnder_of_isAncestor (parent?_isAncestor h.parent_last).2 hl⟩

/-- Widening keeps a run in a scope, whose body is no loop. -/
theorem widenLoop_valid (h : run.Valid d a) (ha : d.kind a ≠ .loopBlock) :
    (d.widenLoop run).1.Valid d a := by
  cases hloop : d.loopContainer? run with
  | none =>
    rw [widenLoop_of_none hloop]
    exact h
  | some c =>
    obtain ⟨hkind, -, hp, hlist⟩ := loopContainer?_eq_some_iff.mp hloop
    have hne : a ≠ run.container := by
      rintro rfl
      exact ha hkind
    have hap := isAncestor_of_parent? hp h.inBody hne
    have hs : (d.kind run.container).isStatement := by
      rw [hkind]
      rfl
    rw [widenLoop_of_some hloop]
    exact ⟨hap, hlist, hp, hp, hs, hs, Nat.le_refl _⟩

/-- The list of a widened run is the one that it had, or one around it. -/
theorem widenLoop_isAncestor (h : run.Valid d a) :
    d.isAncestor (d.widenLoop run).1.container run.container := by
  cases hloop : d.loopContainer? run with
  | none =>
    rw [widenLoop_of_none hloop]
    exact isAncestor_self (hasNode_of_isAncestor h.inBody).2
  | some c =>
    rw [widenLoop_of_some hloop]
    exact (parent?_isAncestor (loopContainer?_eq_some_iff.mp hloop).2.2.1).2

end Document

end ExtractMethod
