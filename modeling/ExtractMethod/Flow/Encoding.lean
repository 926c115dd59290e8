import ExtractMethod.Flow.Facts
import ExtractMethod.Flow.Region
import ExtractMethod.Json.Range
import ExtractMethod.Ty.Encoding

/-! The JSON forms of regions and of the facts about them. -/
namespace ExtractMethod.Flow

open Json (Value)

/-- A Boolean field that is false when it is left out. -/
def decodeFlag? : Option Value → Option Bool
  | none => some false
  | some v => v.bool?

namespace Flags

def encode (flags : Flags) : Value :=
  .record (Fact.all.map fun fact => (fact.name, .bool (flags.holds fact)))

def decode? (v : Value) : Option Flags := do
  let held ← (← v.someFields? (Fact.all.map Fact.name)).mapM decodeFlag?
  pure (ofFacts ((Fact.all.zip held).filterMap fun (fact, holds) =>
    if holds then some fact else none))

end Flags

namespace ControlFlow

def encode (flow : ControlFlow) : Value := .record [
  ("start_point_is_reachable", .bool flow.startReachable),
  ("end_point_is_reachable", .bool flow.endReachable),
  ("exit_points", .list (flow.exits.map fun point =>
    .record [("range", point.range.encode), ("kind", .text point.kind.name)]))]

end ControlFlow

namespace ReturnTypes

def encode (types : ReturnTypes) : Value := .record [
  ("expression_type", Ty.encode? types.expression),
  ("converted_type", Ty.encode? types.converted),
  ("is_ref_expression", .bool types.isRefExpression),
  ("containing_return_type", Ty.encode? types.containing),
  ("containing_returns_by_ref", .bool types.containingByRef)]

def decode? (v : Value) : Option ReturnTypes := do
  match ← v.someFields? ["expression_type", "converted_type", "is_ref_expression",
    "containing_return_type", "containing_returns_by_ref"] with
  | [expression, converted, isRef, containing, byRef] =>
    pure ⟨← Ty.decodeOptional? expression, ← Ty.decodeOptional? converted, ← decodeFlag? isRef,
      ← Ty.decodeOptional? containing, ← decodeFlag? byRef⟩
  | _ => none

end ReturnTypes

def Region.encode : Region → Value
  | .expression node => .nat node
  | .statements first last => .nats [first, last]

end ExtractMethod.Flow
