import ExtractMethod.Reason
import ExtractMethod.Selection.Scope
import ExtractMethod.Verdict

namespace ExtractMethod.Document

variable (d : Document)

/-- The two tokens are the first and the last significant one of the node. -/
def spansTokens (n firstToken lastToken : Nat) : Bool :=
  d.firstToken? n = some firstToken && d.lastToken? n = some lastToken

/-- The expression in the scope that goes from the first token exactly to the last. -/
def expressionOver (scope : Scope) (common firstToken lastToken : Nat) : Poll (Option Nat) := do
  let visit (n : Nat) : Option (Option Nat) :=
    if !d.spansTokens n firstToken lastToken then some none
    else if !d.isAncestor scope.body n then some none
    else if (d.kind n).isExpression then some (some n)
    else none
  pure (← Poll.search visit (d.ancestors common)).join

/-- A declaration of constants. -/
def isConstDeclaration (n : Nat) : Bool :=
  (d.kind n = .localDeclarationStatement || d.kind n = .fieldDeclaration) &&
    d.hasChildToken n .constKw

/-- The expression lies in a declaration of constants below the member. -/
def inConstDeclaration (scope : Scope) (expression : Nat) : Poll Bool := do
  let visit (n : Nat) : Option Bool :=
    if n = scope.member then some false
    else if d.isConstDeclaration n then some true
    else none
  pure ((← Poll.search visit (d.ancestors expression)).getD false)

/-- The scope is the initializer of a constant field. -/
def isConstField (scope : Scope) : Bool :=
  scope.kind = .fieldInitializer &&
    ((d.ancestors scope.member).find? fun n => d.kind n = .fieldDeclaration).any fun field =>
      d.hasChildToken field .constKw

/-- The expression is an argument that is passed by reference. -/
def isByRefArgument (expression : Nat) : Bool :=
  (d.parent? expression).any fun p =>
    d.kind p = .argument && (d.hasChildToken p .refKw || d.hasChildToken p .outKw)

/-- Refuses an expression that a call cannot replace. -/
def checkExpression (scope : Scope) (expression : Nat) : ExceptT Verdict Poll Unit := do
  if (← d.inConstDeclaration scope expression) || d.isConstField scope then
    throw (.failed Reason.constantInitializer)
  if d.isByRefArgument expression then
    throw (.failed Reason.refOrOutArgument)

end ExtractMethod.Document
