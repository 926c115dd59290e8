import ExtractMethod.Reason
import ExtractMethod.Signature.Infer
import ExtractMethod.Ty.Render

/-! What may be wrong with an extraction. Warnings let it go on, failures do not. -/
namespace ExtractMethod.Findings

open ExtractMethod.Flow (ExitKind)

variable (f : Findings) (options : Options) (signature : Signature)

def readonlyConcern? : Option Verdict :=
  let fields := f.references.readonlyWrites
  if f.selection.facts.inConstructor && !fields.isEmpty then
    some (.warning (Reason.readonlyAssigned fields))
  else none

/-- The variables whose types had anonymous types in them, or else the return type if it had. -/
def anonymousNames : List String :=
  let names := ((signature.passed ++ signature.returned).filter fun v => v.hadAnonymous).map
    fun v => v.name
  if signature.returnTypeHadAnonymous && names.isEmpty then [signature.returnType.render]
  else names

def anonymousConcern? : Option Verdict :=
  let names := anonymousNames signature
  if names.isEmpty then none else some (.warning (Reason.anonymousTypes names))

def addressConcern? : Option Verdict :=
  if f.classification.addressTaken then some (.warning Reason.addressTaken) else none

/-- An asynchronous method cannot have parameters that are passed by reference. -/
def asyncConcern? : Option Verdict :=
  let names := (signature.parameters.filter fun p => p.modifier ≠ .none).map fun p => p.name
  if f.selection.needsAsync && !names.isEmpty then
    some (.failed (Reason.asyncByReference names))
  else none

def unresolvedConcern? : Option Verdict :=
  if f.classification.isResolved then none
  else some (.warning (Reason.unresolved (f.classification.unresolved.map Prod.snd)))

/-- Only a local function can call other local functions. -/
def localCallConcern? : Option Verdict :=
  if !options.extractLocalFunction && !f.references.outerCalls.isEmpty then
    some (.failed Reason.localFunctionCall)
  else none

/-- A jump to a target outside the new method. -/
def jumpConcern? (kind : ExitKind) : Option Verdict :=
  if f.controlFlow.hasExit kind then some (.failed (Reason.jumpOut kind.name)) else none

def returnConcern? : Option Verdict :=
  if !f.selection.isExpression && f.controlFlow.containsReturn && f.controlFlow.endReachable &&
      !signature.returnType.awaited.isVoid then
    some (.warning Reason.notAllPathsReturn)
  else none

/-- All concerns, in the order in which they are shown. -/
def concerns : List Verdict := [
  f.readonlyConcern?, anonymousConcern? signature, f.addressConcern?,
  f.asyncConcern? signature, f.unresolvedConcern?, f.localCallConcern? options,
  f.jumpConcern? .break, f.jumpConcern? .continue, f.jumpConcern? .goto,
  f.returnConcern? signature].filterMap id

/-- The notes on the selection and all concerns together. -/
def verdict : Verdict := (f.concerns options signature).foldl Verdict.and f.selection.notes

end ExtractMethod.Findings
