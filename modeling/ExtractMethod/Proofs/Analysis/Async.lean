import ExtractMethod.Proofs.Analysis.Concern
import ExtractMethod.Proofs.Signature.Conservation

/-! An asynchronous method returns a task, and passes nothing by reference. -/
namespace ExtractMethod

open Boundary (Variable)
open ExtractMethod.Flow (ControlFlow)
open Model (Snapshot)
open Text (Range)

variable {d : Document} {span : Range} {s : Selection} {model : Snapshot}
  {options options' : Options} {a : Analysis} {f : Findings} {signature : Signature} {v : Variable}
  {w : Verdict} {p : Parameter} {crossing : List Variable} {patience patience' : Patience}

/-- The method returns a task, and awaits no result exactly if the task has none. An extraction that
may go on passes everything by value. -/
structure Analysis.ReturnsTask (a : Analysis) : Prop where
  isTask : a.signature.returnType = .bareTask ∨ ∃ ty, a.signature.returnType = .taskOf ty
  awaitsBareTask_iff : a.signature.awaitsBareTask ↔ a.signature.returnType = .bareTask
  byValue : a.succeeded → ∀ p ∈ a.signature.parameters, p.modifier = .none

/-- All outputs among the variables are returned, in their order, and nothing is passed by
reference. -/
structure Analysis.ReturnsOutputs (crossing : List Variable) (a : Analysis) : Prop where
  byValue : ∀ p ∈ a.signature.parameters, p.modifier = .none
  returned : a.signature.returned =
    (crossing.filter fun v => v.style.canBeReturned).map fun v => { v with isReturned := true }
  ordered : a.signature.returned.Pairwise Variable.Precedes
  notReported : ∀ names, Reason.asyncByReference names ∉ a.verdict.reasons

theorem isTask_asTask (ty : Ty) : ty.asTask = .bareTask ∨ ∃ result, ty.asTask = .taskOf result := by
  cases ty with
  | void => exact Or.inl rfl
  | _ => exact Or.inr ⟨_, rfl⟩

theorem asTask_eq_bareTask_iff (ty : Ty) : ty.isVoid ↔ ty.asTask = .bareTask := by
  cases ty <;> simp [Ty.isVoid, Ty.asTask]

namespace Findings

theorem asyncConcern?_eq_none_iff (ha : f.selection.needsAsync) :
    f.asyncConcern? signature = none ↔ ∀ p ∈ signature.parameters, p.modifier = .none := by
  rw [asyncConcern?]
  simp [ha]

theorem not_succeeded_of_asyncConcern? (h : f.asyncConcern? signature = some w) :
    ¬ w.succeeded := by
  rw [asyncConcern?, Option.ite_none_right_eq_some, Option.some.injEq] at h
  rw [← h.2]
  exact Bool.false_ne_true

theorem mem_concerns_of_asyncConcern? (h : f.asyncConcern? signature = some w) :
    w ∈ f.concerns options signature :=
  List.mem_filterMap.mpr ⟨some w, by simp [h], rfl⟩

/-- The concern about references is among those of a verdict, and blocks the extraction. -/
theorem asyncConcern?_eq_none_of_succeeded (h : (f.verdict options signature).succeeded) :
    f.asyncConcern? signature = none := by
  rw [verdict, Verdict.succeeded_foldl_and] at h
  rw [Option.eq_none_iff_forall_ne_some]
  intro w hw
  exact not_succeeded_of_asyncConcern? hw (h.2 w (mem_concerns_of_asyncConcern? hw))

theorem not_mem_reasons_verdict {names : List String} (hnotes : f.selection.notes.IsTargetNote)
    (h : f.asyncConcern? signature = none) :
    Reason.asyncByReference names ∉ (f.verdict options signature).reasons := by
  rw [verdict, Verdict.reasons_foldl_and, List.mem_append, List.mem_flatMap]
  rintro (hmem | ⟨w, hw, hmem⟩)
  · have hhead := congrArg Reason.head (hnotes.eq_loopWidened hmem)
    simp at hhead
  · rw [asyncConcern?_of_mem_concerns hw hmem] at h
    cases h

end Findings

section Promoted

variable (ha : f.selection.needsAsync) (ht : options.supportsTuples)
  (he : ¬ f.selection.isExpression) (hr : ¬ f.controlFlow.containsReturn)
include ha ht he hr

/-- With tuples an asynchronous method returns all outputs. -/
theorem promoted_of_needsAsync : (f.result options).promoted = [.ref, .out] := by
  rw [result_of_statements he hr]
  dsimp only
  rw [promotedModifiers, if_pos ha, if_pos ht]

end Promoted

theorem passedBy_outputs : passedBy [.ref, .out] v = v.style.canBeReturned := by
  rw [passedBy, Variable.modifier?, Boundary.Style.canBeReturned]
  cases v.style.modifier? with
  | none => rfl
  | some modifier => cases modifier <;> rfl

namespace Signature.Divides

variable (h : signature.Divides crossing [.ref, .out])
include h

/-- What is not returned is no output, and so passed by value. -/
theorem modifier_eq_none (hp : p ∈ signature.parameters) : p.modifier = .none := by
  obtain ⟨v, -, hparameter⟩ := h.mem_parameters.mp hp
  rw [parameter?] at hparameter
  split at hparameter
  · split at hparameter
    · cases hparameter
      rfl
    · cases hparameter
  · next hpassed =>
    obtain ⟨modifier, hmodifier, rfl⟩ := Option.map_eq_some_iff.mp hparameter
    rw [passedBy_iff hmodifier] at hpassed
    cases modifier with
    | none => rfl
    | ref | out => simp at hpassed

theorem returned_eq : signature.returned =
    (crossing.filter fun v => v.style.canBeReturned).map fun v =>
      { v with isReturned := true } := by
  rw [h.returned]
  congr 2
  funext v
  exact passedBy_outputs

theorem pairwise_returned (hordered : crossing.Pairwise Variable.Precedes) :
    signature.returned.Pairwise Variable.Precedes := by
  rw [h.returned, List.pairwise_map]
  exact hordered.sublist List.filter_sublist

end Signature.Divides

/-- An analysis of asynchronous code gives a method that returns a task. Where the language has
tuples and the selected statements do not return, that task has all outputs. -/
theorem Selection.analyze_async
    (hs : Poll.run (d.classify span options').run patience' = .ok (.ok s)) (ha : s.needsAsync)
    (h : Poll.run (s.analyze model options).run patience = .ok (.ok a)) :
    a.ReturnsTask ∧ ∃ flow facts c, model.controlFlowOf s.document s.region = .ok flow ∧
      model.dataFlowOf s.document s.region = .ok facts ∧
      Poll.run (Boundary.classify s options model facts).run .unlimited = .ok (.ok c) ∧
      (options.supportsTuples → ¬ s.isExpression → ¬ flow.containsReturn →
        a.ReturnsOutputs c.crossing.values) := by
  obtain ⟨facts, f, hstages⟩ := gives_analyze (Poll.gives_of_run h)
  have hinferred := gives_infer hstages.signature
  have hverdict : a.verdict = f.verdict options a.signature := congrArg Analysis.verdict hstages.eq
  have hselection := hstages.selection
  have hneeds : f.selection.needsAsync := hselection ▸ ha
  refine ⟨⟨?_, ?_, ?_⟩, f.controlFlow, facts, f.classification, hstages.controlFlow,
    hstages.dataFlow, Poll.answers_iff_run.mp hstages.classification, ?_⟩
  · rw [hinferred.returnType, if_pos hneeds]
    exact isTask_asTask _
  · rw [hinferred.returnType, if_pos hneeds, hinferred.awaitsBareTask, hneeds, Bool.true_and]
    exact asTask_eq_bareTask_iff _
  · intro hsucceeded
    rw [Analysis.succeeded, hverdict] at hsucceeded
    exact (Findings.asyncConcern?_eq_none_iff hneeds).mp
      (Findings.asyncConcern?_eq_none_of_succeeded hsucceeded)
  · intro ht he hr
    have hordered := Boundary.pairwise_precedes_of_classify hstages.classification
    have hdivides := hinferred.divides hordered
    rw [promoted_of_needsAsync hneeds ht (hselection ▸ he) hr] at hdivides
    have hbyValue : ∀ p ∈ a.signature.parameters, p.modifier = .none :=
      fun p hp => hdivides.modifier_eq_none hp
    refine ⟨hbyValue, hdivides.returned_eq, hdivides.pairwise_returned hordered, ?_⟩
    intro names
    rw [hverdict]
    refine Findings.not_mem_reasons_verdict ?_
      ((Findings.asyncConcern?_eq_none_iff hneeds).mpr hbyValue)
    rw [hselection]
    exact Document.isTargetNote_notes hs

/-- A method that awaits something. -/
def Document.ofAwait : Document := .ofStatements [.node .expressionStatement [
  .node .awaitExpression [.token .awaitKw "await", .token .whitespace " ",
    .node .nameExpression [.token .identifier "x"]],
  .token .semicolon ";"]]

/-- The variable that is updated and the one that is only assigned are both returned, and the value
of the first is passed too. -/
theorem ofAwait_analyze_async : ∃ (s : Selection) (a : Analysis) (c : Boundary.Classification),
    s.needsAsync ∧
    Poll.run (s.analyze ofThreeVariables {}).run .unlimited = .ok (.ok a) ∧
    a.signature.parameters.map Parameter.name = ["b", "c"] ∧
    a.signature.returned.map Variable.name = ["a", "c"] ∧
    a.ReturnsTask ∧ a.ReturnsOutputs c.crossing.values := by
  have h : (Document.ofAwait.analyzed? (.ofLength 17 8) {} ofThreeVariables).map (fun r =>
      (r.1.needsAsync, r.1.isExpression, ((ofThreeVariables.controlFlowOf r.1.document
        r.1.region).toOption.map ControlFlow.containsReturn),
        r.2.signature.parameters.map Parameter.name, r.2.signature.returned.map Variable.name)) =
          some (true, false, some false, ["b", "c"], ["a", "c"]) := by
    simp only [Document.analyzed?, Selection.analyze, Boundary.classify,
      Boundary.Classification.ofJudgements, Variable.mergeSort_eq_insertionSort fun v => v,
      Findings.infer, parametersOf, Variable.mergeSort_eq_insertionSort Prod.fst]
    decide +kernel
  obtain ⟨s, a, hs, ha, hview⟩ := Document.exists_of_analyzed?_map h
  simp only [Prod.mk.injEq, Option.map_eq_some_iff] at hview
  obtain ⟨hneeds, he, ⟨flow, hflow, hr⟩, hparameters, hreturned⟩ := hview
  obtain ⟨htask, flow', facts, c, hflow', -, -, houtputs⟩ := Selection.analyze_async hs hneeds ha
  have heq : flow' = flow :=
    Except.ok.inj (hflow'.symm.trans (Poll.eq_ok_of_toOption hflow))
  exact ⟨s, a, c, hneeds, ha, hparameters, hreturned, htask,
    houtputs rfl (by simp [he]) (by simp [heq, hr])⟩

end ExtractMethod
