import ExtractMethod.Name
import ExtractMethod.Options.Basic
import ExtractMethod.Toml.Document
import ExtractMethod.Toml.Resolve

/-! Reading options from a configuration file. -/
namespace ExtractMethod

open Toml (Datetime Members)

/-- What can be wrong with the options of a configuration file. -/
inductive OptionsError where
  | notToml
  | notATable
  | unknownOption (name : String)
  | notABoolean (found : String)
deriving DecidableEq

namespace OptionsError

def expectedNames : String :=
  ", ".intercalate (Switch.all.map fun switch => "`" ++ switch.name ++ "`")

/-- The text of an error. What is wrong with a document that is not TOML is not told. -/
def message? : OptionsError → Option String
  | .notToml => none
  | .notATable => some "`[extract_method]` must be a table"
  | .unknownOption name => some ("failed to parse extract-method options: unknown field `" ++
      name ++ "`, expected one of " ++ expectedNames)
  | .notABoolean found => some ("failed to parse extract-method options: invalid type: " ++
      found ++ ", expected a boolean")

end OptionsError

/-- What an error says of a value. -/
def Toml.Value.describe (describeDatetime : Datetime → String) : Toml.Value → String
  | .text s => "string " ++ Text.quoted s
  | .integer n => "integer `" ++ toString n ++ "`"
  | .real x => "floating point `" ++ x.render ++ "`"
  | .boolean b => "boolean `" ++ toString b ++ "`"
  | .datetime d => describeDatetime d
  | .array _ | .tables _ => "sequence"
  | .table _ _ => "map"

namespace Options

/-- Sets the options that are given, in order; the others keep their defaults. -/
def ofMembers (describeDatetime : Datetime → String) (members : Members) :
    Except OptionsError Options :=
  members.foldlM (fun o (name, value) =>
    match Switch.ofName? name, value with
    | none, _ => .error (.unknownOption name)
    | some switch, .boolean b => .ok (o.set b switch)
    | some _, value => .error (.notABoolean (value.describe describeDatetime))) {}

/-- Reads a document that holds only options. -/
def ofToml (source : String) : Except OptionsError Options :=
  match Toml.parse? source with
  | none => .error .notToml
  | some members =>
    match Toml.resolveMembers? members with
    | none => .error .notToml
    | some _ => ofMembers (fun _ => "map") members

/-- The members in the order of their names. -/
def sortedMembers (members : Members) : Members :=
  members.mergeSort fun a b => Name.le a.1 b.1

/-- Reads the options from their table in a document that may hold other things. -/
def ofTomlTable (source : String) : Except OptionsError Options :=
  match Toml.parse? source >>= Toml.resolveMembers? with
  | none => .error .notToml
  | some members =>
    match members.lookup "extract_method" with
    | none => .ok {}
    | some (.table _ members) =>
      ofMembers (fun d => "string " ++ Text.quoted d.render) (sortedMembers members)
    | some _ => .error .notATable

end Options

end ExtractMethod
