import ExtractMethod.Cancel.Poll
import ExtractMethod.Document.Basic
import ExtractMethod.Flow.Region

namespace ExtractMethod

open ExtractMethod.Flow (Region)

namespace Document

variable (d : Document)

/-- Numbers the nodes from `n` up to `stop` in preorder, and passes over what lies below a nested
function. -/
def visitedFrom (n stop : Nat) : List Nat :=
  if n < stop then
    if (d.kind n).isNestedFunction then
      n :: visitedFrom (max (n + 1) (d.node n).subtreeStop) stop
    else n :: visitedFrom (n + 1) stop
  else []
termination_by stop - n

/-- The nodes of a tree, nested functions included but not what lies below them. -/
def visited (root : Nat) : List Nat := d.visitedFrom root (d.node root).subtreeStop

/-- The expression, or the statements of the run. -/
def roots : Region → List Nat
  | .expression n => [n]
  | .statements first last =>
    match d.parent? first with
    | none => [first]
    | some container =>
      ((d.childNodes container).dropWhile (· ≠ first)).takeWhile (· ≤ last)

/-- The nodes of a region that run when the region runs: those outside nested functions. -/
def ownNodes (region : Region) : Poll (List Nat) := do
  let keep (found : List Nat) (n : Nat) : List Nat :=
    if (d.kind n).isNestedFunction then found else n :: found
  pure (← Poll.fold keep [] ((d.roots region).flatMap d.visited)).reverse

/-- An `await`, also in the head of a loop or of a declaration. -/
def isAwait (n : Nat) : Bool :=
  match d.kind n with
  | .awaitExpression => true
  | .forEachStatement | .usingStatement | .localDeclarationStatement =>
    d.hasChildToken n .awaitKw
  | _ => false

def isYield (n : Nat) : Bool := d.kind n = .yieldStatement

/-- The only argument of a call. -/
def soleArgument? (call : Nat) : Option Nat := do
  let arguments ← d.childOfKind? call .argumentList
  match (d.childNodes arguments).filter fun n => d.kind n = .argument with
  | [argument] => some argument
  | _ => none

/-- A call `e.ConfigureAwait(false)`. -/
def isConfigureAwaitFalse (n : Nat) : Bool :=
  d.kind n = .invocationExpression &&
    (d.childNodes n).head?.any (fun callee =>
      d.kind callee = .memberAccessExpression &&
        (d.lastToken? callee).any fun t => (d.token t).text = "ConfigureAwait") &&
    (d.soleArgument? n).any fun argument =>
      (d.tokensUnder argument).any fun t => (d.token t).kind = .falseKw

end Document

end ExtractMethod
