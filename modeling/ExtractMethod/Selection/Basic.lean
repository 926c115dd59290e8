import ExtractMethod.Document.Lookup
import ExtractMethod.Flow.Region
import ExtractMethod.Options.Basic
import ExtractMethod.Selection.Scope
import ExtractMethod.Verdict

namespace ExtractMethod

open ExtractMethod.Flow (Region)
open Text (Range)

inductive SelectionType where
  | expression
  | singleStatement
  | multipleStatements
deriving DecidableEq

def SelectionType.name : SelectionType → String
  | .expression => "expression"
  | .singleStatement => "single_statement"
  | .multipleStatements => "multiple_statements"

/-- What the tree tells about the selected code and its scope. -/
structure Traits where
  containsAwait : Bool
  containsConfigureAwaitFalse : Bool
  scopeIsAsync : Bool
  scopeIsStatic : Bool
  inPrimaryConstructorBaseType : Bool
  inConstructor : Bool
deriving DecidableEq

/-- Code that can be extracted: an expression or a run of statements, with the scope around it. -/
structure Selection where
  document : Document
  /-- The span that the user asked for. -/
  requestedSpan : Range
  /-- The span that a call replaces. -/
  finalSpan : Range
  /-- The tokens at the ends differ from those of the requested span. -/
  changed : Bool
  firstToken : Nat
  lastToken : Nat
  scope : Scope
  /-- The expression, or the list that holds the statements. -/
  root : Nat
  region : Region
  facts : Traits
  /-- Notes that block nothing. -/
  notes : Verdict
  allowExpansion : Bool

namespace Selection

variable (s : Selection)

def type : SelectionType :=
  match s.region with
  | .expression _ => .expression
  | .statements first last => if first = last then .singleStatement else .multipleStatements

def isExpression : Bool := s.region matches .expression _

/-- The new method has to be asynchronous. -/
def needsAsync : Bool := s.facts.containsAwait

end Selection

end ExtractMethod
