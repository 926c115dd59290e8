import ExtractMethod.Proofs.Analysis.Sufficient

/-! What code returns from an asynchronous method is taken out of its task. It is put into one again
exactly if the new method is asynchronous too, so no task is lost and none is put into another
one. -/
namespace ExtractMethod

open Model (Snapshot Write)
open Poll (Gives)
open Text (Range)

namespace Ty

/-- The type of an asynchronous method: a task that has no result, or one whose result is a
value. -/
inductive IsTask : Ty → Prop where
  | bare : IsTask .bareTask
  | of {result : Ty} (h : ¬ result.isVoid) : IsTask (.taskOf result)

theorem awaited_asTask (ty : Ty) : ty.asTask.awaited = ty := by
  cases ty <;> rfl

/-- What a task produces makes the same task again. Any other type makes a different one. -/
theorem asTask_awaited_eq_iff (ty : Ty) : ty.awaited.asTask = ty ↔ ty.IsTask := by
  cases ty with
  | bareTask => exact iff_of_true rfl .bare
  | taskOf result =>
    by_cases hvoid : result.isVoid
    · cases result with
      | void => exact iff_of_false (by simp [awaited, asTask]) fun | .of h => h hvoid
      | _ => cases hvoid
    · refine iff_of_true ?_ (.of hvoid)
      cases result with
      | void => exact absurd rfl hvoid
      | _ => rfl
  | _ => exact iff_of_false (by simp [awaited, asTask]) nofun

/-- No other type becomes the void type, so the two commute. -/
theorem eraseAnonymous_asTask (ty : Ty) : ty.asTask.eraseAnonymous = ty.eraseAnonymous.asTask := by
  cases ty <;> simp only [asTask, eraseAnonymous]

/-- No other type becomes a task, so the two commute. -/
theorem eraseAnonymous_awaited (ty : Ty) :
    ty.awaited.eraseAnonymous = ty.eraseAnonymous.awaited := by
  cases ty <;> simp only [awaited, eraseAnonymous]

end Ty

namespace Findings

variable {f : Findings} {ty : Ty} {env : List ParamDecl} {options : Options} {signature : Signature}

/-- The findings are about statements that return from an asynchronous method of the given type. -/
structure ReturnsFrom (f : Findings) (ty : Ty) : Prop where
  not_isExpression : ¬ f.selection.isExpression
  containsReturn : f.controlFlow.containsReturn
  scopeIsAsync : f.selection.facts.scopeIsAsync
  containing_eq : f.returnTypes.containing = some ty
  not_isError : ¬ ty.isError

theorem ReturnsFrom.result_ty (h : f.ReturnsFrom ty) : (f.result options).ty = ty.awaited := by
  have hresolved : Ty.resolved? f.returnTypes.containing = some ty := by
    rw [h.containing_eq, Ty.resolved?]
    simpa using h.not_isError
  rw [Findings.result, if_neg h.not_isExpression, if_pos h.containsReturn, hresolved]
  exact if_pos h.scopeIsAsync

/-- The type that is returned is made of that of the containing method. -/
theorem ReturnsFrom.returnType (h : f.ReturnsFrom ty) (hs : signature.InferredFrom f env options) :
    signature.returnType =
      if f.selection.needsAsync then ty.awaited.asTask.eraseAnonymous
      else ty.awaited.eraseAnonymous := by
  rw [hs.returnType, h.result_ty, Ty.eraseAnonymous_asTask]

/-- The signature of a method has the type that the containing method has. -/
structure Rewraps (f : Findings) (ty : Ty) (signature : Signature) : Prop where
  task : f.selection.needsAsync → signature.returnType = ty.awaited.asTask.eraseAnonymous
  same : f.selection.needsAsync → ty.IsTask → signature.returnType = ty.eraseAnonymous
  plain : ¬ f.selection.needsAsync → signature.returnType = ty.awaited.eraseAnonymous

theorem ReturnsFrom.rewraps (h : f.ReturnsFrom ty) (hs : signature.InferredFrom f env options) :
    f.Rewraps ty signature := by
  refine ⟨fun hasync => ?_, fun hasync htask => ?_, fun hnot => ?_⟩
  · rw [h.returnType hs, if_pos hasync]
  · rw [h.returnType hs, if_pos hasync, (Ty.asTask_awaited_eq_iff ty).mpr htask]
  · rw [h.returnType hs, if_neg hnot]

end Findings

/-- To make a task and to await it undo each other, the one way always and the other way just for
tasks that have no result or a value, and neither minds the erasure of anonymous types. So for code
that returns from an asynchronous method the signature, which is found exactly if the host declares
all type parameters that are needed, has the type of that method if it is asynchronous as well, and
else what its task produces. -/
theorem Findings.infer_rewraps :
    (∀ ty : Ty, ty.asTask.awaited = ty ∧ (ty.awaited.asTask = ty ↔ ty.IsTask) ∧
      ty.asTask.eraseAnonymous = ty.eraseAnonymous.asTask ∧
      ty.awaited.eraseAnonymous = ty.eraseAnonymous.awaited) ∧
    ∀ (f : Findings) (ty : Ty) (options : Options), f.ReturnsFrom ty →
      (∀ writes : List Write, (∃ signature, Poll.run
          (f.infer (Snapshot.ofWrites writes).typeParams.values options).run .unlimited =
            .ok (.ok signature)) ↔
        DeclaresReachable (Snapshot.ofWrites writes).typeParams.values (f.roots options)) ∧
      ∀ (env : List ParamDecl) (patience : Patience) (signature : Signature),
        Poll.run (f.infer env options).run patience = .ok (.ok signature) →
          f.Rewraps ty signature := by
  refine ⟨fun ty => ⟨ty.awaited_asTask, ty.asTask_awaited_eq_iff, ty.eraseAnonymous_asTask,
    ty.eraseAnonymous_awaited⟩, fun f ty options hreturns => ⟨fun writes => ?_, ?_⟩⟩
  · simp only [← Poll.answers_iff_run]
    exact Findings.exists_gives_infer_iff Snapshot.isNumbered_ofWrites
  · intro env patience signature h
    exact hreturns.rewraps (gives_infer (Poll.gives_of_run h))

/-- A method with an asynchronous function that returns what it awaits. -/
def Document.ofAsyncReturn : Document := .ofStatements [.node .expressionStatement [
  .node .lambdaExpression [.token .asyncKw "async",
    .node .parameterList [.token .lParen "(", .token .rParen ")"], .token .arrow "=>",
    .node .block [.token .lBrace "\x7b", .node .returnStatement [
      .token .returnKw "return", .token .whitespace " ", .node .awaitExpression [
        .token .awaitKw "await", .token .whitespace " ",
        .node .nameExpression [.token .identifier "x"]],
      .token .semicolon ";"], .token .rBrace "\x7d"]],
  .token .semicolon ";"]]

/-- From a function that produces an anonymous type an asynchronous method is extracted that
produces an object. -/
theorem ofAsyncReturn_infer_rewraps : ∃ (f : Findings) (signature : Signature),
    f.ReturnsFrom (.taskOf (.anonymous "A")) ∧ f.selection.needsAsync ∧
      Poll.run (f.infer [] {}).run .unlimited = .ok (.ok signature) ∧
      signature.returnType = .taskOf .object := by
  have h : (Document.ofAsyncReturn.select (.ofLength 27 15) {}).toOption.map (fun s =>
      (s.isExpression, s.facts.scopeIsAsync, s.needsAsync)) = some (false, true, true) := by
    decide +kernel
  obtain ⟨s, -, hview⟩ := Document.exists_of_select_map h
  simp only [Prod.mk.injEq] at hview
  obtain ⟨hexpression, hscope, hasync⟩ := hview
  let f : Findings := ⟨s, { exits := [⟨.ofLength 27 15, .return⟩] },
    { containing := some (.taskOf (.anonymous "A")) }, {}, {}⟩
  have hreturns : f.ReturnsFrom (.taskOf (.anonymous "A")) :=
    ⟨by simp [f, hexpression], rfl, hscope, rfl, by simp [Ty.isError]⟩
  obtain ⟨hexists, hrewraps⟩ := Findings.infer_rewraps.2 f _ {} hreturns
  have hroots : f.roots {} = [] := by
    rw [Findings.roots, hreturns.result_ty]
    rfl
  have hdeclared : DeclaresReachable (Snapshot.ofWrites []).typeParams.values (f.roots {}) := by
    rw [hroots]
    exact fun id hid => absurd hid not_reachable_nil
  obtain ⟨signature, hsignature⟩ := (hexists []).mpr hdeclared
  refine ⟨f, signature, hreturns, hasync, hsignature, ?_⟩
  exact (hrewraps _ _ _ hsignature).same hasync (.of (by simp [Ty.isVoid]))

end ExtractMethod
