import ExtractMethod.Cancel.Poll
import ExtractMethod.Model.Snapshot

namespace ExtractMethod

open Model (FactsError describeSymbol)

/-- What a host can leave out that an analysis needs. -/
inductive AnalysisError where
  | unknownSymbol (id : Nat)
  | missingType (id : Nat) (name : Name)
  | unknownTypeParam (id : Nat)
  | facts (error : FactsError)
deriving DecidableEq

namespace AnalysisError

def message : AnalysisError → String
  | .unknownSymbol id =>
    s!"data-flow facts name symbol {describeSymbol id}, which the semantic model does not know"
  | .missingType id name => s!"symbol `{name}` ({describeSymbol id}) has no resolved type"
  | .unknownTypeParam id => (ParamError.unknown id).message
  | .facts error => error.message

def ofParamError : ParamError → AnalysisError
  | .unknown id => .unknownTypeParam id

end AnalysisError

/-- What is said of an analysis that the host gave up on. -/
def AnalysisError.cancelledMessage : String := "extract-method analysis was cancelled"

/-- An analysis that asks the host now and then whether to go on. -/
abbrev Analyzing := ExceptT AnalysisError Poll

end ExtractMethod
