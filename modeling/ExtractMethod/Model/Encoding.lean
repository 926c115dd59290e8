import ExtractMethod.Flow.Encoding
import ExtractMethod.Model.Symbol

/-! The JSON forms of symbols. The kind of a symbol carries its flags in the same record. -/
namespace ExtractMethod.Model

open ExtractMethod.Flow (decodeFlag?)
open Json (Value)

namespace SymbolKind

def encode : SymbolKind → Value
  | .localVariable isStatic => .record [("kind", .text "local"), ("is_static", .bool isStatic)]
  | .parameter isThis isPrimaryConstructor isSynthesized => .record [
      ("kind", .text "parameter"), ("is_this", .bool isThis),
      ("is_primary_constructor", .bool isPrimaryConstructor),
      ("is_synthesized", .bool isSynthesized)]
  | .rangeVariable => .record [("kind", .text "range_variable")]
  | .localFunction isStatic =>
    .record [("kind", .text "local_function"), ("is_static", .bool isStatic)]
  | .field isReadonly => .record [("kind", .text "field"), ("is_readonly", .bool isReadonly)]

/-- The flags of those names, given by name or by place after the tag. -/
def decodeFlags? (v : Value) (names : List String) : Option (List Bool) := do
  let content := match v with
    | .list (_ :: rest) => Value.list rest
    | v => v
  (← content.someFields? names).mapM decodeFlag?

/-- Reads the record form, or the list of the tag and the flags. -/
def decode? (v : Value) : Option SymbolKind := do
  let tag ← match v with
    | .list (tag :: _) => tag.text?
    | v => (← v.member? "kind").text?
  match tag with
  | "local" => match ← decodeFlags? v ["is_static"] with
    | [isStatic] => some (.localVariable isStatic)
    | _ => none
  | "parameter" =>
    match ← decodeFlags? v ["is_this", "is_primary_constructor", "is_synthesized"] with
    | [isThis, isPrimaryConstructor, isSynthesized] =>
      some (.parameter isThis isPrimaryConstructor isSynthesized)
    | _ => none
  | "range_variable" => (decodeFlags? v []).map fun _ => .rangeVariable
  | "local_function" => match ← decodeFlags? v ["is_static"] with
    | [isStatic] => some (.localFunction isStatic)
    | _ => none
  | "field" => match ← decodeFlags? v ["is_readonly"] with
    | [isReadonly] => some (.field isReadonly)
    | _ => none
  | _ => none

end SymbolKind

def Symbol.encode (s : Symbol) : Value := .record [
  ("id", .nat s.id), ("name", .text s.name), ("kind", s.kind.encode), ("ty", Ty.encode? s.ty),
  ("declaration", Text.Range.encode? s.declaration)]

def Reference.encode (r : Reference) : Value := .record [
  ("symbol", .nat r.symbol), ("range", r.range.encode), ("is_written", .bool r.isWritten)]

end ExtractMethod.Model
