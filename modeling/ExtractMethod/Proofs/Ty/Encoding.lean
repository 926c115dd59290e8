import ExtractMethod.Proofs.Ty.Traversal
import ExtractMethod.Ty.Encoding
import Mathlib.Data.Set.Function

/-! Reading the written form of a type gives the type back, exactly if the numbers of its type
parameters have 32 bits. -/
namespace ExtractMethod

open Json (Value)

variable {v content : Value} {name : Name} {param : TypeParamRef}

/-- The number has 32 bits. -/
def IsWord (n : Nat) : Prop := n < 4294967296

theorem Json.Value.word?_nat_eq_some_iff {n m : Nat} :
    (Value.nat n).word? = some m ↔ n = m ∧ IsWord n := by
  simp only [word?, nat, natBelow?, IsWord]
  split
  · next h =>
    rw [Option.some.injEq, Int.toNat_natCast]
    exact ⟨fun heq => ⟨heq, by omega⟩, And.left⟩
  · next h =>
    refine iff_of_false nofun ?_
    omega

theorem Primitive.decode?_encode (p : Primitive) : decode? p.encode = some p := by
  cases p <;> decide

theorem NamedKind.decode?_encode (kind : NamedKind) : decode? kind.encode = some kind := by
  cases kind <;> rfl

theorem ParamOwner.decode?_encode (owner : ParamOwner) : decode? owner.encode = some owner := by
  cases owner <;> rfl

theorem TypeParamRef.decode?_fields (id : Value) (name : Name) :
    decode? (.record [("id", id), ("name", .text name)]) = id.word?.map fun id => ⟨id, name⟩ := by
  rw [Option.map_eq_bind]
  rfl

theorem TypeParamRef.decode?_encode_iff (param : TypeParamRef) :
    decode? param.encode = some param ↔ IsWord param.id := by
  obtain ⟨id, name⟩ := param
  rw [encode, decode?_fields, Option.map_eq_some_iff]
  simp [Value.word?_nat_eq_some_iff]

namespace Ty

theorem Tag.decode?_name (tag : Tag) : decode? (.text tag.name) = some tag := by
  cases tag <;> decide

/-- The form of a type. -/
def tag : Ty → Tag
  | .void => .void
  | .object => .object
  | .primitive _ => .primitive
  | .named _ _ _ => .named
  | .typeParam _ => .typeParam
  | .array _ => .array
  | .nullable _ => .nullable
  | .tuple _ => .tuple
  | .bareTask | .taskOf _ => .task
  | .anonymous _ => .anonymous
  | .error => .error

theorem tagged?_of_mark (tag : Tag) : tagged? (.record [tag.mark]) = some (tag, none) := by
  simp [tagged?, Value.member?, Tag.mark, Tag.decode?_name]

theorem tagged?_of_content (tag : Tag) (content : Value) :
    tagged? (.record [tag.mark, ("of", content)]) = some (tag, some content) := by
  simp [tagged?, Value.member?, Tag.mark, Tag.decode?_name]

/-- What stands beside the tag, if anything does. -/
def content? : Ty → Option Value
  | .void | .object | .error => none
  | .primitive p => some p.encode
  | .named name args kind => some (.record
      [("name", .text name), ("args", .list (encodeAll args)), ("kind", kind.encode)])
  | .typeParam param => some param.encode
  | .array element => some element.encode
  | .nullable inner => some inner.encode
  | .tuple elements => some (.list (encodeElements elements))
  | .bareTask => some .null
  | .taskOf result => some result.encode
  | .anonymous name => some (.text name)

theorem tagged?_encode (ty : Ty) : tagged? ty.encode = some (ty.tag, ty.content?) := by
  cases ty with
  | void | object | error => exact tagged?_of_mark _
  | _ => exact tagged?_of_content _ _

/-- Reads an element of a tuple. -/
def decodeElement? (element : Value) : Option (Option Name × Ty) :=
  match element.fields? ["ty", "name"] with
  | some [some ty, name] => do
    let ty ← decode? ty
    pure (← decodeElementName? name, ty)
  | _ => none

/-- Reads a type from its tag and what stands beside it. -/
def decodeParts? : Tag → Option Value → Option Ty
  | .void, none | .void, some .null => some .void
  | .object, none | .object, some .null => some .object
  | .error, none | .error, some .null => some .error
  | .task, none | .task, some .null => some .bareTask
  | .task, some content => (decode? content).map .taskOf
  | .primitive, some content => (Primitive.decode? content).map .primitive
  | .named, some content =>
    match content.fields? ["name", "args", "kind"] with
    | some [some name, some (.list args), some kind] => do
      let name ← name.text?
      let args ← args.mapM decode?
      pure (.named name args (← NamedKind.decode? kind))
    | _ => none
  | .typeParam, some content => (TypeParamRef.decode? content).map .typeParam
  | .array, some content => (decode? content).map .array
  | .nullable, some content => (decode? content).map .nullable
  | .tuple, some (.list elements) => (elements.mapM decodeElement?).map .tuple
  | .anonymous, some content => content.text?.map .anonymous
  | _, _ => none

theorem mapM_attach {α β : Type} {xs : List α} {f : {x // x ∈ xs} → Option β} {g : α → Option β}
    (h : ∀ x, f x = g x.1) : xs.attach.mapM f = xs.mapM g := by
  rw [List.mapM_subtype fun x hx => h ⟨x, hx⟩, List.unattach_attach]

/-- The reader without what it carries along to show that it ends. -/
theorem decode?_of_tagged? {tag : Tag} {content : Option Value}
    (h : tagged? v = some (tag, content)) :
    decode? v = decodeParts? tag content := by
  rw [decode?]
  split
  · next h' => cases h.symm.trans h'
  · next h' =>
    cases h.symm.trans h'
    cases tag <;> rfl
  · next _ content h' =>
    cases h.symm.trans h'
    cases tag with
    | primitive | typeParam | array | nullable | anonymous => rfl
    | void | object | error | task => cases content <;> rfl
    | named =>
      dsimp only [decodeParts?]
      split
      · next hfields =>
        simp only [hfields]
        rw [mapM_attach (g := decode?) fun _ => rfl]
      · next hfields =>
        split
        · next hfields' => exact absurd hfields' (hfields _ _ _)
        · rfl
    | tuple =>
      cases content with
      | list elements =>
        dsimp only [decodeParts?]
        rw [mapM_attach (g := decodeElement?), Option.map_eq_bind]
        · rfl
        · rintro ⟨element, _⟩
          dsimp only [decodeElement?]
          split
          · next hfields => simp only [hfields]
          · next hfields =>
            split
            · next hfields' => exact absurd hfields' (hfields _ _)
            · rfl
      | _ => rfl

theorem decode?_encode (ty : Ty) : decode? ty.encode = decodeParts? ty.tag ty.content? :=
  decode?_of_tagged? (tagged?_encode ty)

theorem decode?_encode_named (name : Name) (args : List Ty) (kind : NamedKind) :
    decode? (Ty.named name args kind).encode =
      ((encodeAll args).mapM decode?).map fun args => .named name args kind := by
  rw [decode?_encode, Option.map_eq_bind]
  simp [tag, content?, decodeParts?, Value.fields?, Value.member?, Value.text?,
    NamedKind.decode?_encode]

theorem decodeElement?_encode (name : Option Name) (ty : Ty) :
    decodeElement? (.record [("ty", ty.encode), ("name", Value.ofText? name)]) =
      (decode? ty.encode).map fun ty => (name, ty) := by
  rw [Option.map_eq_bind]
  cases name <;> rfl

theorem decode?_encode_taskOf (result : Ty) :
    decode? (Ty.taskOf result).encode = (decode? result.encode).map .taskOf := by
  rw [decode?_encode]
  cases result <;> rfl

/-- The numbers of the type parameters in the type have 32 bits. -/
def HasWords (ty : Ty) : Prop := ∀ param ∈ ty.paramUses, IsWord param.id

/-- Reading a part of a type gives the part back exactly if reading the type gives the type back. -/
theorem map_eq_some_iff_of_injective {α β : Type} {f : α → β} (hf : Function.Injective f)
    {found : Option α} {a : α} : found.map f = some (f a) ↔ found = some a :=
  (Option.map_injective hf).eq_iff (b := some a)

mutual

theorem decode?_encode_iff (ty : Ty) : decode? ty.encode = some ty ↔ ty.HasWords := by
  cases ty with
  | void | object | bareTask | error | anonymous name =>
    rw [decode?_encode]
    exact iff_of_true rfl nofun
  | primitive p =>
    rw [decode?_encode]
    refine iff_of_true ?_ nofun
    simp [tag, content?, decodeParts?, Primitive.decode?_encode]
  | typeParam param =>
    simp only [decode?_encode, tag, content?, decodeParts?, HasWords, paramUses]
    rw [map_eq_some_iff_of_injective fun _ _ => typeParam.inj, param.decode?_encode_iff,
      List.forall_mem_singleton]
  | named name args kind =>
    rw [decode?_encode_named, map_eq_some_iff_of_injective fun _ _ h => (named.inj h).2.1]
    exact mapM_decode?_iff args
  | array element =>
    rw [decode?_encode]
    exact (map_eq_some_iff_of_injective fun _ _ => array.inj).trans (decode?_encode_iff element)
  | nullable inner =>
    rw [decode?_encode]
    exact (map_eq_some_iff_of_injective fun _ _ => nullable.inj).trans (decode?_encode_iff inner)
  | tuple elements =>
    rw [decode?_encode]
    exact (map_eq_some_iff_of_injective fun _ _ => tuple.inj).trans
      (mapM_decodeElement?_iff elements)
  | taskOf result =>
    rw [decode?_encode_taskOf, map_eq_some_iff_of_injective fun _ _ => taskOf.inj]
    exact decode?_encode_iff result

theorem mapM_decode?_iff (tys : List Ty) :
    (encodeAll tys).mapM decode? = some tys ↔ ∀ param ∈ paramUsesAll tys, IsWord param.id := by
  cases tys with
  | nil => exact iff_of_true rfl nofun
  | cons ty rest =>
    rw [encodeAll, List.mapM_cons, paramUsesAll, List.forall_mem_append, ← mapM_decode?_iff rest]
    refine Iff.trans ?_ (and_congr_left' (decode?_encode_iff ty))
    cases decode? ty.encode <;> cases (encodeAll rest).mapM decode? <;> simp

theorem mapM_decodeElement?_iff (elements : List (Option Name × Ty)) :
    (encodeElements elements).mapM decodeElement? = some elements ↔
      ∀ param ∈ paramUsesElements elements, IsWord param.id := by
  cases elements with
  | nil => exact iff_of_true rfl nofun
  | cons element rest =>
    obtain ⟨name, ty⟩ := element
    rw [encodeElements, List.mapM_cons, decodeElement?_encode, paramUsesElements,
      List.forall_mem_append, ← mapM_decodeElement?_iff rest]
    refine Iff.trans ?_ (and_congr_left' (decode?_encode_iff ty))
    cases decode? ty.encode <;> cases (encodeElements rest).mapM decodeElement? <;> simp

end

end Ty

namespace ParamDecl

/-- The numbers in the declaration, and in its constraints, have 32 bits. -/
def HasWords (decl : ParamDecl) : Prop := IsWord decl.id ∧ ∀ ty ∈ decl.constraints, ty.HasWords

theorem decode?_fields (id owner : Value) (name : Name) (constraints : List Value) :
    decode? (.record [("id", id), ("name", .text name), ("owner", owner),
      ("constraints", .list constraints)]) =
        id.word?.bind fun id => (ParamOwner.decode? owner).bind fun owner =>
          (constraints.mapM Ty.decode?).map fun constraints => ⟨id, name, owner, constraints⟩ := by
  simp only [Option.map_eq_bind]
  rfl

theorem decode?_encode_iff (decl : ParamDecl) :
    decode? decl.encode = some decl ↔ decl.HasWords := by
  obtain ⟨id, name, owner, constraints⟩ := decl
  have hconstraints : (∀ ty ∈ constraints, ty.HasWords) ↔
      (Ty.encodeAll constraints).mapM Ty.decode? = some constraints := by
    rw [Ty.mapM_decode?_iff]
    simp only [Ty.HasWords, Ty.mem_paramUsesAll]
    exact ⟨fun h param ⟨ty, hty, hparam⟩ => h ty hty param hparam,
      fun h ty hty param hparam => h param ⟨ty, hty, hparam⟩⟩
  rw [encode, decode?_fields, ParamOwner.decode?_encode, HasWords, hconstraints]
  simp only [Option.bind_some, Option.bind_eq_some_iff, Option.map_eq_some_iff,
    Value.word?_nat_eq_some_iff, mk.injEq, true_and]
  constructor
  · rintro ⟨_, ⟨rfl, hid⟩, _, hdecode, -, rfl⟩
    exact ⟨hid, hdecode⟩
  · rintro ⟨hid, hdecode⟩
    exact ⟨id, ⟨rfl, hid⟩, constraints, hdecode, rfl, rfl⟩

end ParamDecl

/-- What is written of two values is different if both can be read back and the values are. -/
theorem injOn_of_readsBack {α β : Type} {write : α → β} {read : β → Option α} {P : α → Prop}
    (h : ∀ a, read (write a) = some a ↔ P a) : Set.InjOn write {a | P a} := by
  intro a ha b hb heq
  exact Option.some.inj (((h a).mpr ha).symm.trans (heq ▸ (h b).mpr hb))

/-- Reading what was written of a type, or of the declaration of a type parameter, gives it back
exactly if all numbers in it have 32 bits. So no two of these are written alike. -/
theorem Ty.encode_readsBack :
    (∀ ty : Ty, Ty.decode? ty.encode = some ty ↔ ty.HasWords) ∧
      (∀ decl : ParamDecl, ParamDecl.decode? decl.encode = some decl ↔ decl.HasWords) ∧
      Set.InjOn Ty.encode {ty | ty.HasWords} ∧
      Set.InjOn ParamDecl.encode {decl | decl.HasWords} :=
  ⟨Ty.decode?_encode_iff, ParamDecl.decode?_encode_iff, injOn_of_readsBack Ty.decode?_encode_iff,
    injOn_of_readsBack ParamDecl.decode?_encode_iff⟩

/-- A task for a pair, of which one element has a name and the other none, with a task without
result in it. -/
def Ty.taskOfPair : Ty := .taskOf (.tuple [
  (some "items", .named "List" [.nullable (.typeParam ⟨4294967295, "T"⟩)] .classType),
  (none, .array .bareTask)])

theorem Ty.taskOfPair_readsBack :
    taskOfPair.HasWords ∧ Ty.decode? taskOfPair.encode = some taskOfPair := by
  have hwords : taskOfPair.HasWords := by
    intro param hparam
    rw [List.mem_singleton.mp hparam]
    exact Nat.lt_succ_self _
  exact ⟨hwords, (Ty.encode_readsBack.1 taskOfPair).mpr hwords⟩

end ExtractMethod
