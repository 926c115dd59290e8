import ExtractMethod.Boundary.Variable
import ExtractMethod.Ty.Param

namespace ExtractMethod

open Boundary (Modifier Variable)

/-- A parameter of the new method. -/
structure Parameter where
  name : Name
  ty : Ty
  modifier : Modifier

/-- The signature of the new method. -/
structure Signature where
  /-- The type parameters that the method has to declare. -/
  typeParams : List ParamDecl
  /-- The classified variables that the method does not return. -/
  passed : List Variable
  /-- The classified variables that the method returns. -/
  returned : List Variable
  parameters : List Parameter
  returnType : Ty
  /-- The return type had an anonymous type in it, which was replaced. -/
  returnTypeHadAnonymous : Bool
  returnsByRef : Bool
  /-- The method returns a task without a result. -/
  awaitsBareTask : Bool
  instanceRequired : Bool
  shouldBeReadonly : Bool
  staticRequired : Bool
  endReachable : Bool
  containsConfigureAwaitFalse : Bool

/-- The type parameters that need a constraint clause. -/
def Signature.constrainedParams (s : Signature) : List ParamDecl :=
  s.typeParams.filter ParamDecl.hasConstraints

end ExtractMethod
