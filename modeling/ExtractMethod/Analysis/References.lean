import ExtractMethod.Analysis.Error
import ExtractMethod.Selection.Basic

namespace ExtractMethod

open Model (Reference Snapshot Symbol)
open Text (Range)

/-- A local function from outside the selected code, and where that code first names it. -/
structure LocalCall where
  symbol : Nat
  name : Name
  isStatic : Bool
  range : Range
deriving DecidableEq

/-- What the selected code refers to, other than variables. -/
structure Mentions where
  outerCalls : List LocalCall := []
  readonlyWrites : List Name := []
deriving DecidableEq

namespace Mentions

/-- Some local function may use the receiver. -/
def callsInstanceFunction (facts : Mentions) : Bool :=
  facts.outerCalls.any fun call => !call.isStatic

/-- The reference as a call, if it names a local function that the span does not declare. -/
def outerCall? (span : Range) (found : Reference × Symbol) : Option LocalCall :=
  let (reference, symbol) := found
  match symbol.kind with
  | .localFunction isStatic =>
    if symbol.isDeclaredIn span then none
    else some ⟨reference.symbol, symbol.name, isStatic, reference.range⟩
  | _ => none

/-- The name of the readonly field that the reference writes. -/
def readonlyWrite? (found : Reference × Symbol) : Option Name :=
  if found.2.isReadonlyField && found.1.isWritten then some found.2.name else none

/-- The first call of every function. -/
def firstCalls : List LocalCall → List LocalCall
  | [] => []
  | call :: rest => call :: (firstCalls rest).filter fun later => later.symbol ≠ call.symbol

def ofReferences (span : Range) (found : List (Reference × Symbol)) : Mentions where
  outerCalls := firstCalls (found.filterMap (outerCall? span))
  readonlyWrites := (found.filterMap readonlyWrite?).eraseDups

end Mentions

/-- A reference with its symbol, which the host must know. -/
def Model.Snapshot.resolve (model : Snapshot) (reference : Reference) :
    Except AnalysisError (Option (Reference × Symbol)) :=
  match model.symbol? reference.symbol with
  | some symbol => .ok (some (reference, symbol))
  | none => .error (.unknownSymbol reference.symbol)

/-- Collects what the selected code refers to. -/
def Selection.references (s : Selection) (model : Snapshot) : Analyzing Mentions := do
  pure (.ofReferences s.finalSpan
    (← Poll.collect model.resolve (model.referencesIn s.finalSpan)))

end ExtractMethod
