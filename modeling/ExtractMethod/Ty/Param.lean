import ExtractMethod.Cancel.Poll
import ExtractMethod.Ty.Basic

namespace ExtractMethod

inductive ParamOwner where
  | method
  | type
deriving DecidableEq

/-- The declaration of a type parameter with the types of its constraint clause. -/
structure ParamDecl where
  id : Nat
  name : Name
  owner : ParamOwner
  constraints : List Ty

namespace ParamDecl

def ref (decl : ParamDecl) : TypeParamRef := ⟨decl.id, decl.name⟩

def hasConstraints (decl : ParamDecl) : Bool := !decl.constraints.isEmpty

/-- The parameters that the constraints mention, in the order of their first use. -/
def mentioned (decl : ParamDecl) : List Nat :=
  (Ty.collectParamsAll [] decl.constraints).map TypeParamRef.id

end ParamDecl

/-- How an identifier of a type parameter is written in messages. -/
def describeParam (id : Nat) : String := s!"TypeParamId({id})"

inductive ParamError where
  | unknown (id : Nat)
deriving DecidableEq

def ParamError.message : ParamError → String
  | .unknown id => s!"type parameter {describeParam id} has no declaration in the semantic model"

/-- The distinct identifiers that are not known yet, in order. -/
def newIds (known : List Nat) : List Nat → List Nat
  | [] => []
  | id :: rest =>
    if known.contains id then newIds known rest else id :: newIds (known ++ [id]) rest

/-- The declarations of all other parameters. -/
def without (id : Nat) (decls : List ParamDecl) : List ParamDecl :=
  decls.filter fun decl => decl.id ≠ id

theorem length_without_lt {id : Nat} {decls : List ParamDecl} {decl : ParamDecl}
    (h : decls.find? (fun decl => decl.id = id) = some decl) :
    (without id decls).length < decls.length := by
  have hid := List.find?_some h
  exact List.length_filter_lt_length_iff_exists.mpr
    ⟨decl, List.mem_of_find?_eq_some h, by simpa using hid⟩

/-- Walks the queue of parameters that were reached. `unvisited` holds the declarations of those
that were not walked yet, so it shrinks with every step. -/
def reachableFrom (unvisited : List ParamDecl) (reached : List Nat) :
    List Nat → ExceptT ParamError Poll (List ParamDecl)
  | [] => pure []
  | id :: queue => do
    Poll.ask
    match _h : unvisited.find? fun decl => decl.id = id with
    | none => throw (.unknown id)
    | some decl =>
      let fresh := newIds reached decl.mentioned
      let rest ← reachableFrom (without id unvisited) (reached ++ fresh)
        (queue ++ fresh)
      pure (decl :: rest)
termination_by unvisited.length
decreasing_by exact length_without_lt _h

/-- The declarations of the method's own type parameters that are needed to declare the roots: the
roots, in the order of their first use, and then every parameter reached through constraints, in
the order it was reached. -/
def constraintClosure (env : List ParamDecl) (roots : List TypeParamRef) :
    ExceptT ParamError Poll (List ParamDecl) := do
  let start := newIds [] (roots.map TypeParamRef.id)
  let reached ← reachableFrom env start start
  pure (reached.filter fun decl => decl.owner = .method)

end ExtractMethod
