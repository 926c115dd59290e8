import ExtractMethod.Json.Value
import ExtractMethod.Ty.Param

/-! The JSON form of types: a record of a tag `kind` and, where the tag has one, a content `of`. -/
namespace ExtractMethod

open Json (Value)

/-- Looks for the element that is written as the given text. -/
def named? {α : Type} (all : List α) (spelling : α → String) (text : String) : Option α :=
  all.find? fun a => spelling a = text

/-- A choice without content: its name, or a record of its name and `null`. -/
def Json.Value.choice? : Value → Option String
  | .text s => some s
  | .record [(s, .null)] => some s
  | _ => none

namespace Primitive

def encode (p : Primitive) : Value := .text p.keyword

def decode? (v : Value) : Option Primitive := do
  named? all keyword (← v.choice?)

end Primitive

namespace NamedKind

def encode : NamedKind → Value
  | .classType => .text "class"
  | .interfaceType => .text "interface"
  | .structType isReadonly => .record [("struct", .record [("readonly", .bool isReadonly)])]
  | .enumType => .text "enum"
  | .delegateType => .text "delegate"

def decode? : Value → Option NamedKind
  | .record [("struct", content@(.record _))] => do
    pure (.structType (← (← content.member? "readonly").bool?))
  | v => do
    match ← v.choice? with
    | "class" => some .classType
    | "interface" => some .interfaceType
    | "enum" => some .enumType
    | "delegate" => some .delegateType
    | _ => none

end NamedKind

namespace TypeParamRef

def encode (param : TypeParamRef) : Value :=
  .record [("id", .nat param.id), ("name", .text param.name)]

def decode? (v : Value) : Option TypeParamRef := do
  match ← v.fields? ["id", "name"] with
  | [some id, some name] => pure ⟨← id.word?, ← name.text?⟩
  | _ => none

end TypeParamRef

/-- The forms of types that the tag tells apart. -/
inductive Ty.Tag where
  | void | object | primitive | named | typeParam | array | nullable | tuple | task | anonymous
  | error
deriving DecidableEq

namespace Ty.Tag

def all : List Tag :=
  [.void, .object, .primitive, .named, .typeParam, .array, .nullable, .tuple, .task, .anonymous,
    .error]

def name : Tag → String
  | .void => "void"
  | .object => "object"
  | .primitive => "primitive"
  | .named => "named"
  | .typeParam => "type_param"
  | .array => "array"
  | .nullable => "nullable"
  | .tuple => "tuple"
  | .task => "task"
  | .anonymous => "anonymous"
  | .error => "error"

/-- The member of a record that tells its form. -/
def mark (tag : Tag) : String × Value := ("kind", .text tag.name)

def decode? (v : Value) : Option Tag := do
  named? all name (← v.choice?)

end Ty.Tag

/-- The tag and the content of a tagged value, which is a record or a list of the two. -/
def Ty.tagged? : Value → Option (Ty.Tag × Option Value)
  | .list [tag, content] => (Ty.Tag.decode? tag).map fun tag => (tag, some content)
  | v => do
    let tag ← Ty.Tag.decode? (← v.member? "kind")
    pure (tag, v.member? "of")

theorem Ty.sizeOf_lt_of_tagged? {v content : Value} {tag : Ty.Tag}
    (h : Ty.tagged? v = some (tag, some content)) : sizeOf content < sizeOf v := by
  unfold tagged? at h
  split at h
  · simp only [Option.map_eq_some_iff, Prod.mk.injEq, Option.some.injEq] at h
    obtain ⟨_, _, _, rfl⟩ := h
    simp only [Value.list.sizeOf_spec, List.cons.sizeOf_spec]
    omega
  · simp only [Option.bind_eq_bind, Option.bind_eq_some_iff, Option.pure_def,
      Option.some.injEq, Prod.mk.injEq] at h
    obtain ⟨_, _, _, _, _, h⟩ := h
    exact Json.Value.sizeOf_lt_of_member? h

namespace Ty

mutual

def encode : Ty → Value
  | .void => .record [Tag.void.mark]
  | .object => .record [Tag.object.mark]
  | .primitive p => .record [Tag.primitive.mark, ("of", p.encode)]
  | .named name args kind => .record [Tag.named.mark, ("of", .record
      [("name", .text name), ("args", .list (encodeAll args)), ("kind", kind.encode)])]
  | .typeParam param => .record [Tag.typeParam.mark, ("of", param.encode)]
  | .array element => .record [Tag.array.mark, ("of", element.encode)]
  | .nullable inner => .record [Tag.nullable.mark, ("of", inner.encode)]
  | .tuple elements =>
    .record [Tag.tuple.mark, ("of", .list (encodeElements elements))]
  | .bareTask => .record [Tag.task.mark, ("of", .null)]
  | .taskOf result => .record [Tag.task.mark, ("of", result.encode)]
  | .anonymous name => .record [Tag.anonymous.mark, ("of", .text name)]
  | .error => .record [Tag.error.mark]

def encodeAll : List Ty → List Value
  | [] => []
  | ty :: rest => ty.encode :: encodeAll rest

def encodeElements : List (Option Name × Ty) → List Value
  | [] => []
  | (name, ty) :: rest =>
    .record [("ty", ty.encode), ("name", Value.ofText? name)] :: encodeElements rest

end

/-- The name of a tuple element, which may be absent or `null`. -/
def decodeElementName? : Option Value → Option (Option Name)
  | none | some .null => some none
  | some v => v.text?.map some

/-- Reads the JSON form. A tag without content may have a `null` content, and the content of a
task may be left out. -/
def decode? (v : Value) : Option Ty :=
  match hv : tagged? v with
  | none => none
  | some (tag, none) =>
    match tag with
    | .void => some .void
    | .object => some .object
    | .error => some .error
    | .task => some .bareTask
    | _ => none
  | some (tag, some content) =>
    have hc : sizeOf content < sizeOf v := sizeOf_lt_of_tagged? hv
    match tag with
    | .void => if content matches .null then some .void else none
    | .object => if content matches .null then some .object else none
    | .error => if content matches .null then some .error else none
    | .primitive => (Primitive.decode? content).map .primitive
    | .named =>
      match hf : content.fields? ["name", "args", "kind"] with
      | some [some name, some (.list args), some kind] => do
        have hl : sizeOf args < sizeOf content := Json.Value.sizeOf_items_lt
          (Json.Value.sizeOf_lt_of_mem_fields? hf (by simp))
        let name ← name.text?
        let args ← args.attach.mapM fun ⟨arg, _⟩ => decode? arg
        pure (.named name args (← NamedKind.decode? kind))
      | _ => none
    | .typeParam => (TypeParamRef.decode? content).map .typeParam
    | .array => (decode? content).map .array
    | .nullable => (decode? content).map .nullable
    | .tuple =>
      match content with
      | .list elements => do
        have hl : sizeOf elements < sizeOf v := Json.Value.sizeOf_items_lt hc
        let elements ← elements.attach.mapM fun ⟨element, _⟩ =>
          match hf : element.fields? ["ty", "name"] with
          | some [some ty, name] => do
            have ht : sizeOf ty < sizeOf element :=
              Json.Value.sizeOf_lt_of_mem_fields? hf (by simp)
            let ty ← decode? ty
            pure (← decodeElementName? name, ty)
          | _ => none
        pure (.tuple elements)
      | _ => none
    | .task => if content matches .null then some .bareTask else (decode? content).map .taskOf
    | .anonymous => content.text?.map .anonymous
termination_by sizeOf v
decreasing_by
  all_goals
    try have hmem := List.sizeOf_lt_of_mem ‹_ ∈ _›
    omega

def encode? : Option Ty → Value
  | some ty => ty.encode
  | none => .null

/-- A type that may be absent or `null`. -/
def decodeOptional? : Option Value → Option (Option Ty)
  | none | some .null => some none
  | some v => (decode? v).map some

end Ty

namespace ParamOwner

def encode : ParamOwner → Value
  | .method => .text "method"
  | .type => .text "type"

def decode? (v : Value) : Option ParamOwner := do
  match ← v.choice? with
  | "method" => some .method
  | "type" => some .type
  | _ => none

end ParamOwner

namespace ParamDecl

def encode (decl : ParamDecl) : Value :=
  .record [("id", .nat decl.id), ("name", .text decl.name), ("owner", decl.owner.encode),
    ("constraints", .list (Ty.encodeAll decl.constraints))]

def decode? (v : Value) : Option ParamDecl := do
  match ← v.fields? ["id", "name", "owner", "constraints"] with
  | [some id, some name, some owner, some (.list constraints)] =>
    pure ⟨← id.word?, ← name.text?, ← ParamOwner.decode? owner,
      ← constraints.mapM Ty.decode?⟩
  | _ => none

end ParamDecl

end ExtractMethod
