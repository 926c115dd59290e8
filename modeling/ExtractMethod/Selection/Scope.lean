import ExtractMethod.Cancel.Poll
import ExtractMethod.Document.Basic

namespace ExtractMethod

/-- The kinds of bodies that code can be extracted from. -/
inductive ScopeKind where
  | method
  | constructor
  | accessor
  | localFunction
  | lambda
  | fieldInitializer
  | primaryConstructorBaseType
deriving DecidableEq

def ScopeKind.name : ScopeKind → String
  | .method => "method"
  | .constructor => "constructor"
  | .accessor => "accessor"
  | .localFunction => "local_function"
  | .lambda => "lambda"
  | .fieldInitializer => "field_initializer"
  | .primaryConstructorBaseType => "primary_constructor_base_type"

/-- A body and the declaration that owns it. -/
structure Scope where
  member : Nat
  body : Nat
  kind : ScopeKind
deriving DecidableEq

namespace Document

variable (d : Document)

/-- The declarator belongs to a field, and not to a statement inside one. -/
def declaresField (declarator : Nat) : Bool :=
  ((d.ancestors declarator).map d.kind).find?
    (fun kind => kind = .fieldDeclaration || kind.isStatement) = some .fieldDeclaration

/-- The kind of scope that a member forms with one of its children as the body. -/
def kindOfScope? (body member : Nat) : Option ScopeKind :=
  let inside := d.kind body
  let isBody := inside = .block ∨ inside = .arrowExpressionClause
  match d.kind member with
  | .methodDeclaration => if isBody then some .method else none
  | .constructorDeclaration => if isBody then some .constructor else none
  | .accessorDeclaration => if isBody then some .accessor else none
  | .propertyDeclaration =>
    if inside = .arrowExpressionClause then some .accessor
    else if inside = .equalsValueClause then some .fieldInitializer
    else none
  | .localFunctionStatement => if isBody then some .localFunction else none
  | .lambdaExpression => if inside = .block ∨ inside.isExpression then some .lambda else none
  | .variableDeclarator =>
    if inside = .equalsValueClause ∧ d.declaresField member then some .fieldInitializer
    else none
  | .primaryConstructorBaseType =>
    if inside = .argumentList then some .primaryConstructorBaseType else none
  | _ => none

def scopeAt? (body member : Nat) : Option Scope :=
  (d.kindOfScope? body member).map fun kind => ⟨member, body, kind⟩

/-- Each node from the given one upwards with its parent. -/
def links (n : Nat) : List (Nat × Nat) := (d.ancestors n).zip (d.ancestors n).tail

/-- The innermost scope whose body holds a node. -/
def innermostScope (n : Nat) : Poll (Option Scope) :=
  Poll.search (fun link => d.scopeAt? link.1 link.2) (d.links n)

/-- The nodes up to and including the nearest type declaration. -/
def upToType : List Nat → List Nat
  | [] => []
  | n :: rest => if (d.kind n).isTypeDeclaration then [n] else n :: upToType rest

/-- The member, or something around it within its type, or the type itself, is static. -/
def hasNoInstance (member : Nat) : Bool :=
  (d.upToType (d.ancestors member)).any fun n => d.hasChildToken n .staticKw

end Document

end ExtractMethod
