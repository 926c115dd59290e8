import ExtractMethod.Name

namespace ExtractMethod

inductive Primitive where
  | bool | byte | char | short | int | long | float | double | decimal
deriving DecidableEq

def Primitive.all : List Primitive :=
  [.bool, .byte, .char, .short, .int, .long, .float, .double, .decimal]

def Primitive.keyword : Primitive → String
  | .bool => "bool"
  | .byte => "byte"
  | .char => "char"
  | .short => "short"
  | .int => "int"
  | .long => "long"
  | .float => "float"
  | .double => "double"
  | .decimal => "decimal"

/-- What a named type was declared as. -/
inductive NamedKind where
  | classType
  | interfaceType
  | structType (isReadonly : Bool)
  | enumType
  | delegateType
deriving DecidableEq

def NamedKind.isStruct : NamedKind → Bool
  | .structType _ => true
  | _ => false

/-- Structs and enums are copied on assignment. -/
def NamedKind.isValue : NamedKind → Bool
  | .structType _ | .enumType => true
  | _ => false

/-- A use of a type parameter. -/
structure TypeParamRef where
  id : Nat
  name : Name
deriving DecidableEq

/-- A type as the host resolved it. `nullable` is a wrapper around value types and an annotation
on reference types; a task stands for a result that arrives later. -/
inductive Ty where
  | void
  | object
  | primitive (p : Primitive)
  | named (name : Name) (args : List Ty) (kind : NamedKind)
  | typeParam (param : TypeParamRef)
  | array (element : Ty)
  | nullable (inner : Ty)
  | tuple (elements : List (Option Name × Ty))
  | bareTask
  | taskOf (result : Ty)
  | anonymous (name : Name)
  | error
deriving Inhabited

namespace Ty

def int : Ty := .primitive .int

def isVoid : Ty → Bool
  | .void => true
  | _ => false

def isError : Ty → Bool
  | .error => true
  | _ => false

/-- Value types are copied on assignment. -/
def isValueType : Ty → Bool
  | .primitive _ | .tuple _ => true
  | .named _ _ kind => kind.isValue
  | .nullable inner => inner.isValueType
  | _ => false

def isReferenceType : Ty → Bool
  | .object | .array _ | .bareTask | .taskOf _ | .anonymous _ => true
  | .named _ _ kind => !kind.isValue
  | .nullable inner => inner.isReferenceType
  | _ => false

/-- A struct that some document declares, as opposed to a primitive. -/
def isUserStruct : Ty → Bool
  | .named _ _ kind => kind.isStruct
  | _ => false

/-- A struct whose methods may change the instance. -/
def isMutableStruct : Ty → Bool
  | .named _ _ (.structType isReadonly) => !isReadonly
  | _ => false

/-- A reference type that is marked as nullable. -/
def isAnnotatedReference : Ty → Bool
  | .nullable inner => inner.isReferenceType
  | _ => false

/-- Drops the mark of an annotated reference. Value types keep their wrapper, which changes their
representation. -/
def withoutAnnotation : Ty → Ty
  | .nullable inner => if inner.isReferenceType then inner else .nullable inner
  | ty => ty

mutual

/-- Some part of the type is an anonymous type. -/
def hasAnonymous : Ty → Bool
  | .anonymous _ => true
  | .named _ args _ => anyAnonymous args
  | .array element => element.hasAnonymous
  | .nullable inner => inner.hasAnonymous
  | .tuple elements => anyElementAnonymous elements
  | .taskOf result => result.hasAnonymous
  | .void | .object | .primitive _ | .typeParam _ | .bareTask | .error => false

def anyAnonymous : List Ty → Bool
  | [] => false
  | ty :: rest => ty.hasAnonymous || anyAnonymous rest

def anyElementAnonymous : List (Option Name × Ty) → Bool
  | [] => false
  | (_, ty) :: rest => ty.hasAnonymous || anyElementAnonymous rest

end

mutual

/-- Puts the object type in place of every anonymous type. -/
def eraseAnonymous : Ty → Ty
  | .anonymous _ => .object
  | .named name args kind => .named name (eraseAll args) kind
  | .array element => .array element.eraseAnonymous
  | .nullable inner => .nullable inner.eraseAnonymous
  | .tuple elements => .tuple (eraseElements elements)
  | .taskOf result => .taskOf result.eraseAnonymous
  | .void => .void
  | .object => .object
  | .primitive p => .primitive p
  | .typeParam param => .typeParam param
  | .bareTask => .bareTask
  | .error => .error

def eraseAll : List Ty → List Ty
  | [] => []
  | ty :: rest => ty.eraseAnonymous :: eraseAll rest

def eraseElements : List (Option Name × Ty) → List (Option Name × Ty)
  | [] => []
  | (name, ty) :: rest => (name, ty.eraseAnonymous) :: eraseElements rest

end

/-- The type of an asynchronous method that produces this type. -/
def asTask : Ty → Ty
  | .void => .bareTask
  | ty => .taskOf ty

/-- What a task produces. Other types stay as they are. -/
def awaited : Ty → Ty
  | .bareTask => .void
  | .taskOf result => result
  | ty => ty

mutual

/-- Every use of a type parameter, from left to right. -/
def paramUses : Ty → List TypeParamRef
  | .typeParam param => [param]
  | .named _ args _ => paramUsesAll args
  | .array element => element.paramUses
  | .nullable inner => inner.paramUses
  | .tuple elements => paramUsesElements elements
  | .taskOf result => result.paramUses
  | .void | .object | .primitive _ | .bareTask | .anonymous _ | .error => []

def paramUsesAll : List Ty → List TypeParamRef
  | [] => []
  | ty :: rest => ty.paramUses ++ paramUsesAll rest

def paramUsesElements : List (Option Name × Ty) → List TypeParamRef
  | [] => []
  | (_, ty) :: rest => ty.paramUses ++ paramUsesElements rest

end

/-- Appends a parameter unless one with its number is there. -/
def addParam (found : List TypeParamRef) (param : TypeParamRef) : List TypeParamRef :=
  if found.any fun seen => seen.id = param.id then found else found ++ [param]

mutual

/-- Appends the type parameters that were not found before, in the order of their first use. -/
def collectParams (found : List TypeParamRef) : Ty → List TypeParamRef
  | .typeParam param => addParam found param
  | .named _ args _ => collectParamsAll found args
  | .array element => element.collectParams found
  | .nullable inner => inner.collectParams found
  | .tuple elements => collectParamsElements found elements
  | .taskOf result => result.collectParams found
  | .void | .object | .primitive _ | .bareTask | .anonymous _ | .error => found

def collectParamsAll (found : List TypeParamRef) : List Ty → List TypeParamRef
  | [] => found
  | ty :: rest => collectParamsAll (ty.collectParams found) rest

def collectParamsElements (found : List TypeParamRef) :
    List (Option Name × Ty) → List TypeParamRef
  | [] => found
  | (_, ty) :: rest => collectParamsElements (ty.collectParams found) rest

end

mutual

def beq : Ty → Ty → Bool
  | .void, .void | .object, .object | .bareTask, .bareTask | .error, .error => true
  | .primitive p, .primitive q => p = q
  | .named name args kind, .named name' args' kind' =>
    name = name' && beqAll args args' && kind = kind'
  | .typeParam param, .typeParam param' => param = param'
  | .array element, .array element' => element.beq element'
  | .nullable inner, .nullable inner' => inner.beq inner'
  | .tuple elements, .tuple elements' => beqElements elements elements'
  | .taskOf result, .taskOf result' => result.beq result'
  | .anonymous name, .anonymous name' => name = name'
  | _, _ => false

def beqAll : List Ty → List Ty → Bool
  | [], [] => true
  | ty :: rest, ty' :: rest' => ty.beq ty' && beqAll rest rest'
  | _, _ => false

def beqElements : List (Option Name × Ty) → List (Option Name × Ty) → Bool
  | [], [] => true
  | (name, ty) :: rest, (name', ty') :: rest' =>
    name = name' && ty.beq ty' && beqElements rest rest'
  | _, _ => false

end

instance : BEq Ty := ⟨beq⟩

end Ty

end ExtractMethod
