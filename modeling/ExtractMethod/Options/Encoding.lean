import ExtractMethod.Json.Value
import ExtractMethod.Options.Basic

/-! The JSON form of options and the schema of that form. -/
namespace ExtractMethod.Options

open Json (Value)

def encode (o : Options) : Value :=
  .record (Switch.all.map fun switch => (switch.name, .bool (o.get switch)))

/-- Sets the options that are given; the others keep their defaults. -/
def decodeMembers? (members : List (String × Value)) : Option Options :=
  members.foldlM (fun o (name, value) => do
    pure (o.set (← value.bool?) (← Switch.ofName? name))) {}

/-- Reads a record, which may leave options out, or the values of the first options. -/
def decode? : Value → Option Options
  | .record members => decodeMembers? members
  | .list values =>
    if values.length ≤ Switch.all.length then
      decodeMembers? ((Switch.all.map Switch.name).zip values)
    else none
  | _ => none

/-- Describes the JSON form for editors, in the given dialect of the schema language. -/
def schema (dialect : String) : Value := .record [
  ("$schema", .text dialect),
  ("title", .text "ExtractMethodOptions"),
  ("description", .text ("Knobs for one extract-method analysis.\n\nAll fields default to the " ++
    "behavior of an interactive \"Extract Method\" command; hosts usually load them from the " ++
    "`[extract_method]` table of their configuration file.")),
  ("type", .text "object"),
  ("properties", .record (Switch.all.map fun switch => (switch.name, .record [
    ("description", .text switch.description),
    ("default", .bool (get {} switch)),
    ("type", .text "boolean")]))),
  ("additionalProperties", .bool false)]

end ExtractMethod.Options
