import ExtractMethod.Verdict

/-! Verdicts together: every one has to succeed, and no reason is dropped or made up. -/
namespace ExtractMethod.Verdict

variable {first second v : Verdict} {concerns : List Verdict} {succeeded : Bool}
  {reason other : String}

theorem succeeded_foldl_and : (concerns.foldl and first).succeeded ↔
    first.succeeded ∧ ∀ v ∈ concerns, v.succeeded := by
  induction concerns generalizing first with
  | nil => simp
  | cons v rest ih =>
    rw [List.foldl_cons, ih, List.forall_mem_cons, ← and_assoc, Verdict.and, Bool.and_eq_true]

theorem reasons_foldl_and : (concerns.foldl and first).reasons =
    first.reasons ++ concerns.flatMap reasons := by
  induction concerns generalizing first with
  | nil => simp
  | cons v rest ih => rw [List.foldl_cons, ih, Verdict.and, List.append_assoc, List.flatMap_cons]

theorem mem_reasons_because : other ∈ (because succeeded reason).reasons ↔
    other = reason ∧ reason ≠ "" := by
  rw [because]
  split
  · next h => simp [h]
  · next h => simp [h]

end ExtractMethod.Verdict
