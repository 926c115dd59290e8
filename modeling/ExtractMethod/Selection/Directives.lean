import ExtractMethod.Document.Lookup

namespace ExtractMethod

open Text (Range)
open ExtractMethod.Tree (TokenKind)

/-- Directives that open as many regions as they close, none of which reaches below the first.
An alternative belongs to an open region. -/
def isBalanced (depth : Nat) : List TokenKind → Bool
  | [] => depth = 0
  | kind :: rest =>
    if kind.isOpening then isBalanced (depth + 1) rest
    else if kind.isClosing then
      match depth with
      | 0 => false
      | depth + 1 => isBalanced depth rest
    else depth ≠ 0 && isBalanced depth rest

namespace Document

variable (d : Document)

def directivesIn (r : Range) : List TokenKind :=
  ((d.tokensIn r).map fun t => (d.token t).kind).filter TokenKind.isDirective

/-- A directive of the range belongs to one outside it. -/
def cutsDirectives (r : Range) : Bool := !isBalanced 0 (d.directivesIn r)

end Document

end ExtractMethod
