import ExtractMethod.Ty.Param

/-! The type parameters that roots lead to through constraints. -/
namespace ExtractMethod

variable {env : List ParamDecl} {roots : List Nat} {id : Nat}

/-- The parameter is one of the roots, or the constraints of one that is reachable mention it. -/
inductive Reachable (env : List ParamDecl) (roots : List Nat) : Nat → Prop where
  | root {id : Nat} (h : id ∈ roots) : Reachable env roots id
  | mentioned {decl : ParamDecl} {ty : Ty} {param : TypeParamRef}
    (h : Reachable env roots decl.id) (hdecl : decl ∈ env) (hty : ty ∈ decl.constraints)
    (hparam : param ∈ ty.paramUses) : Reachable env roots param.id

/-- Nothing is reachable that the environment does not declare. -/
def DeclaresReachable (env : List ParamDecl) (roots : List Nat) : Prop :=
  ∀ id, Reachable env roots id → ∃ decl ∈ env, decl.id = id

theorem Reachable.of_subset {roots' : List Nat} (h : Reachable env roots id)
    (hsub : ∀ id ∈ roots, id ∈ roots') : Reachable env roots' id := by
  induction h with
  | root hid => exact .root (hsub _ hid)
  | mentioned _ hdecl hty hparam ih => exact .mentioned ih hdecl hty hparam

theorem not_reachable_nil : ¬ Reachable env [] id := by
  intro h
  induction h with
  | root hid => cases hid
  | mentioned _ _ _ _ ih => exact ih

theorem declaresReachable_congr {roots' : List Nat} (h : ∀ id, id ∈ roots ↔ id ∈ roots') :
    DeclaresReachable env roots ↔ DeclaresReachable env roots' := by
  constructor
  · intro hdeclared id hid
    exact hdeclared id (hid.of_subset fun root => (h root).mpr)
  · intro hdeclared id hid
    exact hdeclared id (hid.of_subset fun root => (h root).mp)

/-- So many mentions lead from a root to the parameter. -/
inductive ReachableIn (env : List ParamDecl) (roots : List Nat) : Nat → Nat → Prop where
  | root {id : Nat} (h : id ∈ roots) : ReachableIn env roots 0 id
  | mentioned {n : Nat} {decl : ParamDecl} {ty : Ty} {param : TypeParamRef}
    (h : ReachableIn env roots n decl.id) (hdecl : decl ∈ env) (hty : ty ∈ decl.constraints)
    (hparam : param ∈ ty.paramUses) : ReachableIn env roots (n + 1) param.id

theorem reachable_iff_exists_reachableIn : Reachable env roots id ↔
    ∃ n, ReachableIn env roots n id := by
  constructor
  · intro h
    induction h with
    | root hid => exact ⟨0, .root hid⟩
    | mentioned _ hdecl hty hparam ih =>
      obtain ⟨n, hn⟩ := ih
      exact ⟨n + 1, .mentioned hn hdecl hty hparam⟩
  · rintro ⟨n, h⟩
    induction h with
    | root hid => exact .root hid
    | mentioned _ hdecl hty hparam ih => exact .mentioned ih hdecl hty hparam

end ExtractMethod
