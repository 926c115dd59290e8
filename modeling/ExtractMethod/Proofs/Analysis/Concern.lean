import ExtractMethod.Analysis.Concern
import ExtractMethod.Proofs.Verdict

/-! The reasons of a verdict tell which concerns were raised. -/
namespace ExtractMethod

variable {f : Findings} {options : Options} {signature : Signature} {w : Verdict}
  {first rest reason : String} {names : List String}

namespace Reason

/-- The letters that a reason starts with. They tell most kinds of reasons apart. -/
def head (reason : String) : List Char := reason.toList.take 3

theorem head_append (h : 3 ≤ first.toList.length) : head (first ++ rest) = head first := by
  rw [head, head, String.toList_append, List.take_append_of_le_length h]

theorem ne_empty_of_head (h : head reason ≠ []) : reason ≠ "" := by
  rintro rfl
  exact h rfl

@[simp] theorem head_loopWidened : head loopWidened = ['T', 'h', 'e'] := by
  simp [head, loopWidened]

@[simp] theorem head_addressTaken : head addressTaken = ['T', 'h', 'e'] := by
  simp [head, addressTaken]

@[simp] theorem head_localFunctionCall : head localFunctionCall = ['T', 'h', 'e'] := by
  simp [head, localFunctionCall]

@[simp] theorem head_notAllPathsReturn : head notAllPathsReturn = ['N', 'o', 't'] := by
  simp [head, notAllPathsReturn]

@[simp] theorem head_readonlyAssigned : head (readonlyAssigned names) = ['A', 's', 's'] := by
  unfold readonlyAssigned
  rw [String.append_assoc, head_append (by simp)]
  simp [head]

@[simp] theorem head_anonymousTypes : head (anonymousTypes names) = ['P', 'a', 'r'] := by
  unfold anonymousTypes
  rw [String.append_assoc, head_append (by simp)]
  simp [head]

@[simp] theorem head_asyncByReference : head (asyncByReference names) = ['A', 's', 'y'] := by
  unfold asyncByReference
  rw [String.append_assoc, head_append (by simp)]
  simp [head]

@[simp] theorem head_unresolved : head (unresolved names) = ['F', 'a', 'i'] := by
  unfold unresolved
  rw [head_append (by simp)]
  simp [head]

@[simp] theorem head_jumpOut {keyword : String} : head (jumpOut keyword) = ['S', 'e', 'l'] := by
  unfold jumpOut
  rw [String.append_assoc, head_append (by simp)]
  simp [head]

end Reason

namespace Findings

/-- Among all concerns only the one about references gives a reason about them. -/
theorem asyncConcern?_of_mem_concerns (hw : w ∈ f.concerns options signature)
    (hnames : Reason.asyncByReference names ∈ w.reasons) : f.asyncConcern? signature = some w := by
  -- Every other concern gives a single reason, and that starts with other letters.
  have hother {succeeded : Bool} {reason : String} (hhead : Reason.head reason ≠ ['A', 's', 'y'])
      (heq : .because succeeded reason = w) : f.asyncConcern? signature = some w := by
    rw [← heq, Verdict.mem_reasons_because] at hnames
    exact absurd (hnames.1 ▸ Reason.head_asyncByReference) hhead
  have hjump {kind : Flow.ExitKind} (hw : some w = f.jumpConcern? kind) :
      f.asyncConcern? signature = some w := by
    rw [eq_comm, jumpConcern?, Option.ite_none_right_eq_some, Option.some.injEq] at hw
    exact hother (by simp) hw.2
  simp only [concerns, List.mem_filterMap, id, exists_eq_right, List.mem_cons, List.not_mem_nil,
    or_false] at hw
  rcases hw with hw | hw | hw | hw | hw | hw | hw | hw | hw | hw
  · rw [eq_comm, readonlyConcern?, Option.ite_none_right_eq_some, Option.some.injEq] at hw
    exact hother (by simp) hw.2
  · rw [eq_comm, anonymousConcern?, Option.ite_none_left_eq_some, Option.some.injEq] at hw
    exact hother (by simp) hw.2
  · rw [eq_comm, addressConcern?, Option.ite_none_right_eq_some, Option.some.injEq] at hw
    exact hother (by simp) hw.2
  · exact hw.symm
  · rw [eq_comm, unresolvedConcern?, Option.ite_none_left_eq_some, Option.some.injEq] at hw
    exact hother (by simp) hw.2
  · rw [eq_comm, localCallConcern?, Option.ite_none_right_eq_some, Option.some.injEq] at hw
    exact hother (by simp) hw.2
  · exact hjump hw
  · exact hjump hw
  · exact hjump hw
  · rw [eq_comm, returnConcern?, Option.ite_none_right_eq_some, Option.some.injEq] at hw
    exact hother (by simp) hw.2

end Findings

end ExtractMethod
