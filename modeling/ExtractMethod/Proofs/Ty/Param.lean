import ExtractMethod.Proofs.Patience
import ExtractMethod.Ty.Param
import Mathlib.Data.List.Nodup

/-! Closing over constraints gives the same answer whoever asks, and what it takes for new is
new. -/
namespace ExtractMethod

open Poll (Steady)

variable {known ids seen : List Nat} {id : Nat}

theorem steady_reachableFrom (unvisited : List ParamDecl) (reached queue : List Nat) :
    Steady (reachableFrom unvisited reached queue).run := by
  induction unvisited, reached, queue using reachableFrom.induct with
  | case1 unvisited reached =>
    rw [reachableFrom]
    infer_instance
  | case2 unvisited reached id queue ih =>
    rw [reachableFrom]
    refine Poll.steady_run_bind inferInstance fun _ => ?_
    split
    · infer_instance
    · next decl hdecl =>
      have := ih decl hdecl
      infer_instance

instance (unvisited : List ParamDecl) (reached queue : List Nat) :
    Steady (reachableFrom unvisited reached queue).run :=
  steady_reachableFrom unvisited reached queue

instance (env : List ParamDecl) (roots : List TypeParamRef) :
    Steady (constraintClosure env roots).run := by
  simp only [constraintClosure]
  infer_instance

theorem newIds_eq_eraseDups (known ids : List Nat) :
    newIds known ids = (ids.filter fun id => id ∉ known).eraseDups := by
  induction ids generalizing known with
  | nil => rfl
  | cons head rest ih =>
    rw [newIds]
    by_cases hhead : head ∈ known
    · rw [if_pos (List.contains_iff_mem.mpr hhead),
        List.filter_cons_of_neg (by simpa using hhead), ih]
    · rw [if_neg (by simpa using hhead), List.filter_cons_of_pos (by simpa using hhead), ih,
        List.eraseDups_cons, List.filter_filter]
      congr 3
      funext id
      simp [not_or, Bool.and_comm, beq_eq_decide]

theorem eraseDups_eq_newIds (ids : List Nat) : ids.eraseDups = newIds [] ids := by
  rw [newIds_eq_eraseDups]
  simp

theorem mem_newIds : id ∈ newIds known ids ↔ id ∈ ids ∧ id ∉ known := by
  rw [newIds_eq_eraseDups, List.mem_eraseDups, List.mem_filter, decide_eq_true_eq]

theorem newIds_append (known ids more : List Nat) :
    newIds known (ids ++ more) = newIds known ids ++ newIds (known ++ newIds known ids) more := by
  induction ids generalizing known with
  | nil => rw [newIds, List.append_nil, List.nil_append, List.nil_append]
  | cons head rest ih =>
    rw [List.cons_append, newIds, newIds]
    split
    · exact ih known
    · rw [ih, List.cons_append, List.append_assoc, List.singleton_append]

theorem nodup_newIds (known ids : List Nat) : (newIds known ids).Nodup := by
  induction ids generalizing known with
  | nil => exact List.nodup_nil
  | cons head rest ih =>
    rw [newIds]
    split
    · exact ih known
    · refine List.nodup_cons.mpr ⟨?_, ih _⟩
      intro hmem
      exact (mem_newIds.mp hmem).2 (List.mem_append_right _ (List.mem_singleton.mpr rfl))

/-- What is listed twice is new only once. -/
theorem newIds_newIds {known seen : List Nat} (ids : List Nat) (hseen : ∀ id ∈ seen, id ∈ known) :
    newIds known (newIds seen ids) = newIds known ids := by
  induction ids generalizing known seen with
  | nil => rfl
  | cons head rest ih =>
    by_cases hhead : head ∈ seen
    · rw [newIds, if_pos (List.contains_iff_mem.mpr hhead), ih hseen, newIds,
        if_pos (List.contains_iff_mem.mpr (hseen head hhead))]
    · rw [newIds, if_neg (by simpa using hhead), newIds, newIds]
      split
      · next hknown =>
        have hknown : head ∈ known := List.contains_iff_mem.mp hknown
        refine ih ?_
        simpa [or_imp, forall_and] using ⟨hseen, hknown⟩
      · rw [ih]
        simp only [List.mem_append]
        exact fun id hid => hid.imp_left (hseen id)

end ExtractMethod
