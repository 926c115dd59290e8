import ExtractMethod.Toml.Grammar

namespace ExtractMethod.Toml

/-- What a header announces: a table, or one more element of an array of tables. -/
inductive Heading where
  | table (path : List String) (key : String)
  | element (path : List String) (key : String)

/-- A header with the pairs below it. -/
structure Part where
  heading : Heading
  pairs : List Pair

/-- The pairs before the first header, and the parts that follow. -/
def parts : List Line → List Pair × List Part
  | [] => ([], [])
  | .pair p :: rest =>
    let (pairs, later) := parts rest
    (p :: pairs, later)
  | .table path key :: rest =>
    let (pairs, later) := parts rest
    ([], ⟨.table path key, pairs⟩ :: later)
  | .element path key :: rest =>
    let (pairs, later) := parts rest
    ([], ⟨.element path key, pairs⟩ :: later)

/-- Defines a table by its header. If it was made on the way to another table, it is completed and
counts as defined here. -/
def defineTable? (key : String) (pairs : List Pair) (parent : Members) : Option Members :=
  match parent.lookup key with
  | none => do pure (parent ++ [(key, .table .header (← Members.insertAll? [] pairs))])
  | some (.table .path inner) => do
    let members ← Members.insertAll? inner pairs
    pure ((parent.filter fun member => member.1 ≠ key) ++ [(key, .table .header members)])
  | some _ => none

/-- Adds an element to an array of tables. -/
def defineElement? (key : String) (pairs : List Pair) (parent : Members) : Option Members := do
  let members ← Members.insertAll? [] pairs
  match parent.lookup key with
  | none => pure (parent ++ [(key, .tables [members])])
  | some (.tables elements) => pure (parent.replace key (.tables (elements ++ [members])))
  | some _ => none

def Part.apply? (root : Members) (part : Part) : Option Members :=
  match part.heading with
  | .table path key => root.updateAt? (defineTable? key part.pairs) path
  | .element path key => root.updateAt? (defineElement? key part.pairs) path

/-- The table that the lines define together, unless they contradict each other. -/
def ofLines? (found : List Line) : Option Members := do
  let (pairs, later) := parts found
  later.foldlM Part.apply? (← Members.insertAll? [] pairs)

/-- Reads a document. -/
def parse? (source : String) : Option Members := do
  let (found, _) ← lines.run source.toList
  ofLines? found

end ExtractMethod.Toml
