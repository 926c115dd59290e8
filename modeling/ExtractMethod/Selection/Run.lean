import ExtractMethod.Selection.Scope

namespace ExtractMethod

open Text (Range)

/-- Consecutive statements of one statement list. -/
structure Run where
  container : Nat
  first : Nat
  last : Nat
deriving DecidableEq

namespace Document

variable (d : Document)

/-- The node is an element of a statement list. -/
def isInStatementList (n : Nat) : Bool :=
  (d.kind n).isStatement && (d.parent? n).any fun p => (d.kind p).isStatementContainer

/-- The child of a container that has the node at or below it. -/
def childAbove? (container n : Nat) : Option Nat :=
  (d.ancestors n).find? fun a => d.parent? a = some container

/-- The nearest listed statement around a node, strictly below the body of the scope. -/
def listedAncestor (scope : Scope) (n : Nat) : Poll (Option Nat) := do
  let visit (a : Nat) : Option (Option Nat) :=
    if a = scope.body then some none else if d.isInStatementList a then some (some a) else none
  pure (← Poll.search visit (d.ancestors n)).join

/-- The statements of a container from the one around the first node to the one around the
second. -/
def runIn? (start stop container : Nat) : Option Run :=
  match d.childAbove? container start, d.childAbove? container stop with
  | some first, some last =>
    if d.isInStatementList first && d.isInStatementList last then some ⟨container, first, last⟩
    else none
  | _, _ => none

/-- The smallest run of statements that covers both tokens. -/
def smallestRun (scope : Scope) (firstToken lastToken : Nat) : Poll (Option Run) := do
  let start ← d.listedAncestor scope (d.token firstToken).parent
  let stop ← d.listedAncestor scope (d.token lastToken).parent
  match start, stop with
  | some start, some stop =>
    match d.commonAncestor? start stop with
    | none => pure none
    | some common =>
      let visit (container : Nat) : Option (Option Run) :=
        if !d.isAncestor scope.body container then some none
        else if container = start || container = stop then none
        else if (d.kind container).isStatementContainer then
          some (d.runIn? start stop container)
        else none
      pure (← Poll.search visit (d.ancestors common)).join
  | _, _ => pure none

/-- Adds a listed statement of the span, unless it lies below the one that was added last. -/
def addOutermost (scope : Scope) (span : Range) (found : List Nat) (n : Nat) : List Nat :=
  if n ≠ scope.body && d.isInStatementList n && span.covers (d.span n) &&
      !found.head?.any (fun last => d.isAncestor last n) then
    n :: found
  else found

/-- The largest run of statements that lies in the span. Statements of several lists form none. -/
def largestRun (scope : Scope) (span : Range) : Poll (Option Run) := do
  let found ← Poll.fold (d.addOutermost scope span) [] (d.descendants scope.body)
  pure do
    let last ← found.head?
    let first ← found.getLast?
    let container ← d.parent? first
    if found.all fun n => d.parent? n = some container then some ⟨container, first, last⟩ else none

def isLoopEdge (n : Nat) : Bool := d.kind n = .loopHeader || d.kind n = .loopTrailer

/-- The list that holds a loop of which a run has the header or the trailer. -/
def loopContainer? (run : Run) : Option Nat :=
  if d.kind run.container = .loopBlock && (d.isLoopEdge run.first || d.isLoopEdge run.last) then
    (d.parent? run.container).filter fun p => (d.kind p).isStatementContainer
  else none

/-- The run goes from the header to the trailer. -/
def isWholeLoop (run : Run) : Bool :=
  d.kind run.first = .loopHeader && d.kind run.last = .loopTrailer

/-- Widens a run that has the header or the trailer of a loop to the loop, and tells whether some
of the loop was left out before. -/
def widenLoop (run : Run) : Run × Bool :=
  match d.loopContainer? run with
  | some container => (⟨container, run.container, run.container⟩, !d.isWholeLoop run)
  | none => (run, false)

end Document

end ExtractMethod
