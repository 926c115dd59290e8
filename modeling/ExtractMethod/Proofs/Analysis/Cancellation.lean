import ExtractMethod.Proofs.Analysis.Stages
import ExtractMethod.Proofs.Selection.Classify

/-! Cancellation is all or nothing: a host that gives up gets no answer at all, and never one that
was made of the part that had been done. -/
namespace ExtractMethod

open ExtractMethod.Flow (DataFlow)
open Model (Snapshot)
open Poll (Steady)
open Text (Range)

section AllOrNothing

variable {α : Type} {x : Poll α} {a : α} {n : Nat}

/-- A host that bears the given number of questions gets the answer that an endlessly patient one
gets. Any other host gets none. -/
structure Poll.AllOrNothing (x : Poll α) (polls : Nat) : Prop where
  answered : ∃ a, x.run .unlimited = .ok a
  patient (n : Nat) : polls ≤ n → x.run (.limited n) = x.run .unlimited
  cancelled (n : Nat) : n < polls → x.run (.limited n) = .error {}

theorem Poll.Takes.allOrNothing (h : Poll.Takes x n a) : x.AllOrNothing n := by
  have hunlimited : x.run .unlimited = .ok a := by simp [Poll.run, h.unlimited]
  refine ⟨⟨a, hunlimited⟩, ?_, ?_⟩
  · intro k hk
    rw [hunlimited]
    simp [Poll.run, h.limited, hk]
  · intro k hk
    have hnot : ¬ n ≤ k := by omega
    simp [Poll.run, h.limited, hnot]

theorem Poll.exists_allOrNothing (x : Poll α) [hx : Steady x] : ∃ polls, x.AllOrNothing polls := by
  obtain ⟨_, polls, h⟩ := hx.answers
  exact ⟨polls, h.allOrNothing⟩

/-- The number of questions is a property of the computation. -/
theorem Poll.AllOrNothing.unique {m n : Nat} (hm : x.AllOrNothing m) (hn : x.AllOrNothing n) :
    m = n := by
  obtain ⟨a, ha⟩ := hm.answered
  -- With as many questions as the smaller number, the two would disagree.
  have hle {m n : Nat} (hm : x.AllOrNothing m) (hn : x.AllOrNothing n) : ¬ m < n := by
    intro hlt
    have h := (hm.patient m (Nat.le_refl m)).symm.trans (hn.cancelled m hlt)
    cases ha.symm.trans h
  have := hle hm hn
  have := hle hn hm
  omega

end AllOrNothing

/-- A selection that nobody can cancel is never cancelled. -/
theorem Document.run_classify_unlimited (d : Document) (span : Range) (options : Options) :
    Poll.run (d.classify span options).run .unlimited = .ok (d.select span options) := by
  obtain ⟨_, hpolls⟩ := Poll.exists_allOrNothing (d.classify span options).run
  obtain ⟨result, hresult⟩ := hpolls.answered
  simp [select, hresult]

/-- Every computation that asks the host asks a number of times that its inputs decide, and ends
with its whole result or with no result. -/
theorem cancellation_allOrNothing (d : Document) (span : Range) (s : Selection) (options : Options)
    (model : Snapshot) (facts : DataFlow) (f : Findings) (env : List ParamDecl)
    (roots : List TypeParamRef) :
    (∃ polls, Poll.AllOrNothing (d.classify span options).run polls) ∧
      (∃ polls, Poll.AllOrNothing (Boundary.classify s options model facts).run polls) ∧
      (∃ polls, Poll.AllOrNothing (s.references model).run polls) ∧
      (∃ polls, Poll.AllOrNothing (f.infer env options).run polls) ∧
      (∃ polls, Poll.AllOrNothing (constraintClosure env roots).run polls) ∧
      (∃ polls, Poll.AllOrNothing (s.analyze model options).run polls) ∧
      Poll.run (d.classify span options).run .unlimited = .ok (d.select span options) := by
  have hselect := d.run_classify_unlimited span options
  exact ⟨Poll.exists_allOrNothing _, Poll.exists_allOrNothing _, Poll.exists_allOrNothing _,
    Poll.exists_allOrNothing _, Poll.exists_allOrNothing _, Poll.exists_allOrNothing _, hselect⟩

end ExtractMethod
