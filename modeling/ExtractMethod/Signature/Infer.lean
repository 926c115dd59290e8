import ExtractMethod.Analysis.References
import ExtractMethod.Boundary.Classification
import ExtractMethod.Signature.Basic

namespace ExtractMethod

open Boundary (Classification Modifier Variable)
open ExtractMethod.Flow (ControlFlow ReturnTypes)

/-- What is known of a selection before its signature is inferred. -/
structure Findings where
  selection : Selection
  controlFlow : ControlFlow
  returnTypes : ReturnTypes
  references : Mentions
  classification : Classification

/-- What a method returns, and which variables are part of it. -/
structure Result where
  ty : Ty
  byRef : Bool := false
  promoted : List Modifier := []

/-- The type, if it is there and could be resolved. -/
def Ty.resolved? (ty : Option Ty) : Option Ty := ty.filter fun ty => !ty.isError

/-- The modifiers of the variables that become the result of selected statements. An asynchronous
method returns all outputs or none; otherwise a lone output is returned. -/
def promotedModifiers (crossing : List Variable) (needsAsync returnForced : Bool)
    (options : Options) : List Modifier :=
  let isLone (modifier : Modifier) : Bool :=
    (crossing.filter fun v => v.modifier? = some modifier).length = 1
  if needsAsync then if options.supportsTuples then [.ref, .out] else []
  else if returnForced then [.ref, .out]
  else if isLone .out then [.out]
  else if isLone .ref && options.promoteSingleRef then [.ref]
  else []

/-- The variables that are passed in one of the given ways. -/
def passedBy (modifiers : List Modifier) (v : Variable) : Bool :=
  v.modifier?.any fun modifier => modifiers.contains modifier

/-- The type of several variables together. -/
def resultType : List Variable → Ty
  | [] => .void
  | [v] => v.ty
  | several => .tuple (several.map fun v => (some v.name, v.ty))

/-- The parameters in the order of the variables. A variable that is returned is passed only if its
value is needed, and then by value. -/
def parametersOf (kept returned : List Variable) : List Parameter :=
  let own := kept.filterMap fun v => v.modifier?.map fun modifier => (v, modifier)
  let needed := (returned.filter fun v => v.modifier? = some .ref).map fun v => (v, Modifier.none)
  ((own ++ needed).mergeSort fun a b => Variable.le a.1 b.1).map fun (v, modifier) =>
    ⟨v.name, v.ty, modifier⟩

namespace Findings

variable (f : Findings)

def crossing : List Variable := f.classification.crossing.values

/-- What an expression, statements that return, or other statements produce. -/
def result (options : Options) : Result :=
  if f.selection.isExpression then
    let ty := (Ty.resolved? f.returnTypes.expression).or (Ty.resolved? f.returnTypes.converted)
    { ty := ty.getD .object, byRef := f.returnTypes.isRefExpression }
  else if f.controlFlow.containsReturn then
    let ty := (Ty.resolved? f.returnTypes.containing).getD .object
    { ty := if f.selection.facts.scopeIsAsync then ty.awaited else ty
      byRef := f.returnTypes.containingByRef }
  else
    let promoted := promotedModifiers f.crossing f.selection.needsAsync
      f.classification.returnForced options
    { ty := resultType (f.crossing.filter (passedBy promoted)), promoted }

def instanceRequired : Bool :=
  let c := f.classification
  c.receiver.read || c.receiver.written ||
    (c.primaryParametersUsed && !f.selection.facts.inPrimaryConstructorBaseType) ||
    f.references.callsInstanceFunction

/-- A struct that is only read can be read through a readonly method. -/
def shouldBeReadonly : Bool :=
  let receiver := f.classification.receiver
  receiver.read && !receiver.written && receiver.ty.any Ty.isMutableStruct

/-- Infers the signature of the new method. -/
def infer (env : List ParamDecl) (options : Options) : Analyzing Signature := do
  let result := f.result options
  let kept := f.crossing.filter fun v => !passedBy result.promoted v
  let returned := (f.crossing.filter (passedBy result.promoted)).map fun v =>
    { v with isReturned := true }
  let produced := result.ty.eraseAnonymous
  let returnType := if f.selection.needsAsync then produced.asTask else produced
  let roots := Ty.collectParamsAll [] ((kept ++ returned).map Variable.ty ++ [returnType])
  let typeParams ←
    ExceptT.adapt AnalysisError.ofParamError (constraintClosure env roots)
  pure {
    typeParams
    passed := kept
    returned
    parameters := parametersOf kept returned
    returnType
    returnTypeHadAnonymous := result.ty.hasAnonymous
    returnsByRef := result.byRef
    awaitsBareTask := f.selection.needsAsync && produced.isVoid
    instanceRequired := f.instanceRequired
    shouldBeReadonly := f.shouldBeReadonly
    staticRequired := f.selection.facts.scopeIsStatic ||
      f.selection.facts.inPrimaryConstructorBaseType
    endReachable := f.controlFlow.endReachable
    containsConfigureAwaitFalse := f.selection.facts.containsConfigureAwaitFalse }

end Findings

end ExtractMethod
