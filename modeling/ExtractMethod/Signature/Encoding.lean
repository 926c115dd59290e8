import ExtractMethod.Analysis.References
import ExtractMethod.Boundary.Classification
import ExtractMethod.Json.Range
import ExtractMethod.Signature.Basic
import ExtractMethod.Ty.Encoding

/-! The JSON forms of variables, references and signatures. -/
namespace ExtractMethod

open Boundary (Variable)
open Json (Value)

namespace Boundary.Variable

def members (v : Variable) : List (String × Value) := [
  ("symbol", .nat v.symbol), ("name", .text v.name), ("ty", v.ty.encode),
  ("style", .text v.style.name), ("use_as_return_value", .bool v.isReturned),
  ("had_anonymous_type", .bool v.hadAnonymous)]

def encode (v : Variable) : Value := .record v.members

end Boundary.Variable

def LocalCall.encode (call : LocalCall) : Value := .record [
  ("symbol", .nat call.symbol), ("name", .text call.name), ("is_static", .bool call.isStatic),
  ("range", call.range.encode)]

def Mentions.encode (facts : Mentions) : Value := .record [
  ("outer_local_function_calls", .list (facts.outerCalls.map LocalCall.encode)),
  ("readonly_field_writes", .texts facts.readonlyWrites)]

def Parameter.encode (p : Parameter) : Value := .record [
  ("name", .text p.name), ("ty", p.ty.encode), ("modifier", .text p.modifier.name)]

/-- The members of the JSON form, to which an analysis adds its own. -/
def Signature.members (s : Signature) : List (String × Value) := [
  ("type_parameters_in_declaration", .list (s.typeParams.map ParamDecl.encode)),
  ("type_parameters_in_constraint_list", .list (s.constrainedParams.map ParamDecl.encode)),
  ("variables", .list (s.passed.map Variable.encode)),
  ("variables_to_use_as_return_value", .list (s.returned.map Variable.encode)),
  ("parameters", .list (s.parameters.map Parameter.encode)),
  ("return_type", s.returnType.encode),
  ("return_type_had_anonymous", .bool s.returnTypeHadAnonymous),
  ("returns_by_ref", .bool s.returnsByRef),
  ("await_task_return", .bool s.awaitsBareTask),
  ("instance_member_required", .bool s.instanceRequired),
  ("should_be_read_only", .bool s.shouldBeReadonly),
  ("static_required", .bool s.staticRequired),
  ("end_of_selection_reachable", .bool s.endReachable),
  ("contains_configure_await_false", .bool s.containsConfigureAwaitFalse)]

end ExtractMethod
