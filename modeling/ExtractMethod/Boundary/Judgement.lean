import ExtractMethod.Analysis.Error
import ExtractMethod.Boundary.Table
import ExtractMethod.Boundary.Variable
import ExtractMethod.Selection.Basic

namespace ExtractMethod.Boundary

open ExtractMethod.Flow (Flags)
open Model (Snapshot Symbol)

/-- Why a candidate is no variable of the boundary. -/
inductive Exemption where
  | receiver
  | synthesizedParameter
  | primaryConstructorParameter
  | declaredInsideParameter
  | emptyName
  | localToSelection
  | notAVariable
deriving DecidableEq

def Exemption.name : Exemption → String
  | .receiver => "receiver"
  | .synthesizedParameter => "synthesized_parameter"
  | .primaryConstructorParameter => "primary_constructor_parameter"
  | .declaredInsideParameter => "declared_inside_parameter"
  | .emptyName => "empty_name"
  | .localToSelection => "local_to_selection"
  | .notAVariable => "not_a_variable"

/-- What becomes of a candidate. A variable may force all outputs to be returned. -/
inductive Fate where
  | ignored (reason : Exemption)
  | unresolved
  | crosses (crossing : Variable) (forcesReturn : Bool)

/-- A candidate, the facts about it, and what becomes of it. -/
structure Judgement where
  id : Nat
  symbol : Symbol
  flags : Flags
  fate : Fate

variable (s : Selection) (options : Options) (model : Snapshot)

/-- Why a symbol is no variable of the boundary, whatever the facts about it. -/
def exemption? (symbol : Symbol) : Option Exemption :=
  if symbol.isThis then some .receiver
  else if symbol.kind matches .field _ | .localFunction _ then some .notAVariable
  else if symbol.isSynthesizedParameter then some .synthesizedParameter
  else if symbol.isPrimaryConstructorParameter && !s.facts.inPrimaryConstructorBaseType then
    some .primaryConstructorParameter
  else if symbol.isParameter && symbol.isDeclaredIn s.finalSpan then some .declaredInsideParameter
  else if symbol.name.isEmpty then some .emptyName
  else none

/-- Outputs of that type have to be returned. -/
def isReturnForced (ty : Ty) : Bool :=
  (s.needsAsync && options.supportsTuples) ||
    (options.preferReturnForStructs && ty.isUserStruct)

/-- The style of a variable with completed facts. Where no rule applies there is none, or the
variable is left alone if the options say so. -/
def styleOf? (ty : Ty) (flags : Flags) : Option Style :=
  match overridden? (style? flags) flags ty.isValueType (isReturnForced s options ty) with
  | some style => some style
  | none => if options.bestEffort then some .none else none

/-- The type of a variable throughout the selection: a reference that is known not to be null loses
its mark. -/
def knownType (id : Nat) (ty : Ty) : Ty :=
  if model.nullabilityOf id = .notNull then ty.withoutAnnotation else ty

/-- The type of a variable in the new method, with its anonymous types replaced. -/
def emittedType (id : Nat) (ty : Ty) : Ty := (knownType model id ty).eraseAnonymous

/-- Decides about a symbol that may cross the boundary. -/
def judgeVariable (id : Nat) (symbol : Symbol) (raw : Flags) : Except AnalysisError Fate :=
  let flags := adjust raw symbol.isStaticLocal
  if isLocalToRegion flags then .ok (.ignored .localToSelection)
  else match symbol.ty with
    | none => .error (.missingType id symbol.name)
    | some ty =>
      match styleOf? s options ty flags with
      | none => .ok .unresolved
      | some style => .ok (.crosses
          { symbol := id
            name := symbol.name
            ty := emittedType model id ty
            style
            hadAnonymous := (knownType model id ty).hasAnonymous
            declaredAt := symbol.declaration.map Text.Range.start }
          (isReturnForced s options ty && flags.writtenInside))

/-- Decides about one symbol of the facts. Only candidates are judged. -/
def judge (entry : Nat × Flags) : Except AnalysisError (Option Judgement) :=
  let (id, flags) := entry
  if flags.isCandidate then
    match model.symbol? id with
    | none => .error (.unknownSymbol id)
    | some symbol =>
      match exemption? s symbol with
      | some reason => .ok (some ⟨id, symbol, flags, .ignored reason⟩)
      | none => (judgeVariable s options model id symbol flags).map fun fate =>
          some ⟨id, symbol, flags, fate⟩
  else .ok none

end ExtractMethod.Boundary
