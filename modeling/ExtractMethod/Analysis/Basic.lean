import ExtractMethod.Analysis.Concern

namespace ExtractMethod

open ExtractMethod.Flow (Region)
open Model (FactsError Snapshot)
open Text (Range)

/-- What an analysis of a selection finds: the signature of the new method, and whether the
extraction may go on. -/
structure Analysis where
  selectionType : SelectionType
  finalSpan : Range
  changed : Bool
  signature : Signature
  verdict : Verdict

/-- The extraction may go on, perhaps with warnings. -/
def Analysis.succeeded (a : Analysis) : Bool := a.verdict.succeeded

/-- What a host answered about a region. -/
def ofFacts {α : Type} (answer : Except FactsError α) : Analyzing α :=
  ExceptT.mk (pure (answer.mapError AnalysisError.facts))

/-- Analyzes a selection with the knowledge of a host. -/
def Selection.analyze (s : Selection) (model : Snapshot) (options : Options) :
    Analyzing Analysis := do
  Poll.ask
  let dataFlow ← ofFacts (model.dataFlowOf s.document s.region)
  let controlFlow ← ofFacts (model.controlFlowOf s.document s.region)
  let returnTypes ← ofFacts (model.returnTypesOf s.document s.region)
  let classification ← Boundary.classify s options model dataFlow
  let references ← s.references model
  let findings : Findings := ⟨s, controlFlow, returnTypes, references, classification⟩
  let signature ← findings.infer model.typeParams.values options
  pure ⟨s.type, s.finalSpan, s.changed, signature, findings.verdict options signature⟩

end ExtractMethod
