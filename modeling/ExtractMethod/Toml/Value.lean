import ExtractMethod.Toml.Datetime
import ExtractMethod.Toml.Number

namespace ExtractMethod.Toml

/-- How a table came to be, which decides what may be added to it: by a header of its own, on the
way to the table of a header, by a dotted key, or between braces. -/
inductive Origin where
  | header
  | path
  | dotted
  | inline
deriving DecidableEq

/-- A value of a document. An array of tables grows with every header that names it. -/
inductive Value where
  | text (s : String)
  | integer (n : Int)
  | real (x : Real)
  | boolean (b : Bool)
  | datetime (d : Datetime)
  | array (items : List Value)
  | table (origin : Origin) (members : List (String × Value))
  | tables (elements : List (List (String × Value)))
deriving Inhabited

/-- The members of a table, in the order in which they were defined. -/
abbrev Members := List (String × Value)

/-- A key with its value. The path leads to the table of the key. -/
structure Pair where
  path : List String
  key : String
  value : Value

namespace Members

/-- Puts a value in the place of that of a member. -/
def replace (name : String) (value : Value) (members : Members) : Members :=
  members.map fun member => if member.1 = name then (name, value) else member

/-- Defines a member, which must be new. -/
def define? (name : String) (value : Value) (members : Members) : Option Members :=
  match members.lookup name with
  | none => some (members ++ [(name, value)])
  | some _ => none

/-- Adds a pair. The path may pass any table that is not closed, but the table that it leads to
must have been made by dotted keys. -/
def insert? (key : String) (value : Value) : List String → Members → Option Members
  | [], members => members.define? key value
  | name :: path, members =>
    match members.lookup name with
    | none => do
      let inner ← insert? key value path []
      pure (members ++ [(name, .table .dotted inner)])
    | some (.table .dotted inner) => do
      pure (members.replace name (.table .dotted (← insert? key value path inner)))
    | some (.table .path inner) =>
      if path.isEmpty then none
      else do pure (members.replace name (.table .path (← insert? key value path inner)))
    | some (.tables elements) =>
      if path.isEmpty then none
      else do
        let last ← elements.getLast?
        pure (members.replace name
          (.tables (elements.dropLast ++ [← insert? key value path last])))
    | some _ => none

/-- Adds pairs in order. -/
def insertAll? (members : Members) (pairs : List Pair) : Option Members :=
  pairs.foldlM (fun members pair => insert? pair.key pair.value pair.path members) members

/-- Changes the table that the path of a header leads to. Tables on the way are made if they are
missing; of an array of tables it is the last one. -/
def updateAt? (change : Members → Option Members) : List String → Members → Option Members
  | [], members => change members
  | name :: path, members =>
    match members.lookup name with
    | none => do
      let inner ← updateAt? change path []
      pure (members ++ [(name, .table .path inner)])
    | some (.table .inline _) => none
    | some (.table origin inner) => do
      pure (members.replace name (.table origin (← updateAt? change path inner)))
    | some (.tables elements) => do
      let last ← elements.getLast?
      pure (members.replace name (.tables (elements.dropLast ++ [← updateAt? change path last])))
    | some _ => none

end Members

end ExtractMethod.Toml
