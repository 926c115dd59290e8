import ExtractMethod.Proofs.Analysis.Exchange
import ExtractMethod.Proofs.Model.Snapshot
import ExtractMethod.Proofs.Ty.Discovery

/-! The signature declares the type parameters that it uses. -/
namespace ExtractMethod

open Boundary (Variable)
open Model (Snapshot Write)

variable {f : Findings} {options : Options} {signature : Signature} {decl : ParamDecl}
  {param : TypeParamRef} {ty : Ty}

namespace Signature

/-- The types that a reader of the new method sees. -/
def shownTypes (signature : Signature) : List Ty :=
  signature.parameters.map Parameter.ty ++ signature.returned.map Variable.ty ++
    [signature.returnType] ++ signature.typeParams.flatMap ParamDecl.constraints

/-- A type parameter that the signature shows is known, and belongs to the type or is declared by
the method. The method declares none but its own, and none twice. -/
structure IsClosed (model : Snapshot) (signature : Signature) : Prop where
  declared : ∀ ty ∈ signature.shownTypes, ∀ param ∈ ty.paramUses, ∃ decl,
    model.typeParam? param.id = some decl ∧ (decl.owner = .type ∨ decl ∈ signature.typeParams)
  owned : ∀ decl ∈ signature.typeParams,
    model.typeParam? decl.id = some decl ∧ decl.owner = .method
  nodup : (signature.typeParams.map ParamDecl.id).Nodup
  constrained : signature.constrainedParams.Sublist signature.typeParams
  mem_constrained : ∀ decl,
    decl ∈ signature.constrainedParams ↔ decl ∈ signature.typeParams ∧ decl.constraints ≠ []

theorem mem_constrainedParams : decl ∈ signature.constrainedParams ↔
    decl ∈ signature.typeParams ∧ decl.constraints ≠ [] := by
  rw [constrainedParams, List.mem_filter]
  simp [ParamDecl.hasConstraints]

/-- The parameters at which the closure begins: those in the types of the variables and of the
result. -/
def collected (signature : Signature) : List TypeParamRef :=
  Ty.collectParamsAll []
    ((signature.passed ++ signature.returned).map Variable.ty ++ [signature.returnType])

/-- The parameters that a shown type uses were collected, or are mentioned by one of the
declarations in the closure. -/
theorem InferredFrom.isReachable {env : List ParamDecl} (h : signature.InferredFrom f env options)
    (hdecls : ∀ decl ∈ signature.typeParams,
      decl ∈ env ∧ Reachable env (signature.collected.map TypeParamRef.id) decl.id)
    (hty : ty ∈ signature.shownTypes) (hparam : param ∈ ty.paramUses) :
    Reachable env (signature.collected.map TypeParamRef.id) param.id := by
  have hroot (hty : ty ∈ (signature.passed ++ signature.returned).map Variable.ty ++
      [signature.returnType]) :
        Reachable env (signature.collected.map TypeParamRef.id) param.id :=
    .root (Ty.id_mem_collectParamsAll hty hparam)
  simp only [shownTypes, List.mem_append] at hty
  rcases hty with ((hty | hty) | hty) | hty
  · obtain ⟨p, hp, rfl⟩ := List.mem_map.mp hty
    rw [h.parameters] at hp
    obtain ⟨v, hv, heq⟩ := exists_of_mem_parametersOf hp
    exact hroot (List.mem_append_left _ (List.mem_map.mpr ⟨v, hv, heq⟩))
  · refine hroot (List.mem_append_left _ ?_)
    rw [List.map_append]
    exact List.mem_append_right _ hty
  · exact hroot (List.mem_append_right _ hty)
  · obtain ⟨decl, hdecl, hty⟩ := List.mem_flatMap.mp hty
    exact .mentioned (hdecls decl hdecl).2 (hdecls decl hdecl).1 hty hparam

theorem InferredFrom.isClosed {model : Snapshot} (hmodel : model.IsNumbered)
    (h : signature.InferredFrom f model.typeParams.values options) : signature.IsClosed model := by
  obtain ⟨hdeclared, hnodup, hmem⟩ := gives_constraintClosure hmodel.nodup_map_id h.typeParams
  refine ⟨?_, ?_, hnodup, List.filter_sublist, fun decl => mem_constrainedParams⟩
  · intro ty hty param hparam
    have hreach := h.isReachable
      (fun decl hdecl => ((hmem decl).mp hdecl).imp_right And.right) hty hparam
    obtain ⟨decl, hdecl, hid⟩ := hdeclared _ hreach
    refine ⟨decl, hid ▸ hmodel.typeParam?_eq_some hdecl, ?_⟩
    cases howner : decl.owner with
    | type => exact Or.inl rfl
    | method => exact Or.inr ((hmem decl).mpr ⟨hdecl, howner, hid ▸ hreach⟩)
  · intro decl hdecl
    obtain ⟨hknown, howner, -⟩ := (hmem decl).mp hdecl
    exact ⟨hmodel.typeParam?_eq_some hknown, howner⟩

end Signature

/-- Whatever a host wrote, an analysis that ended gives a signature that declares what it uses. -/
theorem Selection.analyze_isClosed {s : Selection} {writes : List Write} {patience : Patience}
    {a : Analysis}
    (h : Poll.run (s.analyze (.ofWrites writes) options).run patience = .ok (.ok a)) :
    a.signature.IsClosed (.ofWrites writes) := by
  obtain ⟨facts, f, hstages⟩ := gives_analyze (Poll.gives_of_run h)
  exact (gives_infer hstages.signature).isClosed Snapshot.isNumbered_ofWrites

/-- A host that knows a variable of the method's type parameter `T`. Its constraint mentions the
type's own `U`, and the constraint of that mentions the method's `V`. -/
def writesOfConstraints : List Write := [
  .typeParam ⟨0, "T", .method, [.named "IList" [.typeParam ⟨1, "U"⟩] .interfaceType]⟩,
  .typeParam ⟨1, "U", .type, [.typeParam ⟨2, "V"⟩]⟩, .typeParam ⟨2, "V", .method, []⟩,
  .symbol ⟨0, "x", .ordinaryLocal, some (.typeParam ⟨0, "T"⟩), none⟩,
  .dataFlow none (.ofList [(0, .ofFacts [.flowsIn, .readInside])]),
  .controlFlow none {}, .returnTypes none {}]

/-- The method declares `T` and, reached through `U`, also `V`. -/
theorem ofAssignment_analyze_isClosed : ∃ (s : Selection) (a : Analysis),
    Poll.run (s.analyze (.ofWrites writesOfConstraints) {}).run .unlimited = .ok (.ok a) ∧
      a.signature.parameters.map Parameter.name = ["x"] ∧
      a.signature.typeParams.map ParamDecl.name = ["T", "V"] ∧
      a.signature.constrainedParams.map ParamDecl.name = ["T"] ∧
      a.signature.IsClosed (.ofWrites writesOfConstraints) := by
  have h : (Document.ofAssignment.analyzed? (.ofLength 17 4) {}
      (.ofWrites writesOfConstraints)).map (fun r => (r.2.signature.parameters.map Parameter.name,
        r.2.signature.typeParams.map ParamDecl.name,
        r.2.signature.constrainedParams.map ParamDecl.name)) =
          some (["x"], ["T", "V"], ["T"]) := by decide +kernel
  obtain ⟨s, a, -, ha, hview⟩ := Document.exists_of_analyzed?_map h
  simp only [Prod.mk.injEq] at hview
  exact ⟨s, a, ha, hview.1, hview.2.1, hview.2.2, Selection.analyze_isClosed ha⟩

end ExtractMethod
