import ExtractMethod.Proofs.Analysis.Conditions
import ExtractMethod.Proofs.Ty.Erasure

/-! Anonymous types are replaced everywhere in a signature, and the verdict tells of it. -/
namespace ExtractMethod

open Boundary (Variable)
open Model (Snapshot Write)

variable {d : Document} {s : Selection} {model : Snapshot} {options options' : Options}
  {facts : Flow.DataFlow} {f : Findings} {a : Analysis} {c : Condition} {v : Variable}
  {signature : Signature} {names : List String}

/-- No anonymous type occurs in the type of a parameter, of a classified variable, or of the
result. -/
structure Signature.HidesAnonymous (crossing : List Variable) (signature : Signature) : Prop where
  crossing : ∀ v ∈ crossing, ¬ v.ty.MentionsAnonymous
  divided : ∀ v ∈ signature.passed ++ signature.returned, ¬ v.ty.MentionsAnonymous
  parameters : ∀ p ∈ signature.parameters, ¬ p.ty.MentionsAnonymous
  returnType : ¬ signature.returnType.MentionsAnonymous

theorem Ty.not_mentionsAnonymous_asTask {ty : Ty} (h : ¬ ty.MentionsAnonymous) :
    ¬ ty.asTask.MentionsAnonymous := by
  rw [← hasAnonymous_iff] at h ⊢
  rwa [hasAnonymous_asTask]

/-- Among all conditions only the one about anonymous types gives a reason about them. -/
theorem Findings.mentionsAnonymous_of_reason (hc : c ∈ f.conditions model options facts signature)
    (hholds : c.holds) (hreason : c.reason = Reason.anonymousTypes names) :
    f.MentionsAnonymous model options := by
  -- The other reasons start with other letters.
  have hhead := congrArg Reason.head hreason
  rw [Reason.head_anonymousTypes] at hhead
  simp only [conditions, List.mem_cons, List.not_mem_nil, or_false] at hc
  rcases hc with rfl | rfl | rfl | rfl | rfl | rfl | rfl | rfl | rfl | rfl
  case inr.inl => exact hholds
  all_goals simp at hhead

namespace Analysis.Stages

variable (h : a.Stages s model options facts f)
include h

theorem not_mentionsAnonymous (hv : v ∈ f.crossing) : ¬ v.ty.MentionsAnonymous := by
  obtain ⟨raw, symbol, ty, -, hmade⟩ :=
    Boundary.exists_madeOf_of_mem_crossing h.classification hv
  rw [hmade.emitted, Boundary.emittedType]
  exact Ty.not_mentionsAnonymous_eraseAnonymous _

theorem hidesAnonymous : a.signature.HidesAnonymous f.crossing := by
  have hinferred := gives_infer h.signature
  have hdivided : ∀ v ∈ a.signature.passed ++ a.signature.returned, ¬ v.ty.MentionsAnonymous := by
    intro v hv
    have hty := (hinferred.mem_map_iff fun _ => rfl).mp (List.mem_map_of_mem (f := Variable.ty) hv)
    obtain ⟨w, hw, heq⟩ := List.mem_map.mp hty
    rw [← heq]
    exact h.not_mentionsAnonymous hw
  refine ⟨fun v hv => h.not_mentionsAnonymous hv, hdivided, ?_, ?_⟩
  · intro p hp
    rw [hinferred.parameters] at hp
    obtain ⟨v, hv, heq⟩ := exists_of_mem_parametersOf hp
    rw [← heq]
    exact hdivided v hv
  · rw [hinferred.returnType]
    split
    · exact Ty.not_mentionsAnonymous_asTask (Ty.not_mentionsAnonymous_eraseAnonymous _)
    · exact Ty.not_mentionsAnonymous_eraseAnonymous _

theorem exists_anonymousTypes_iff (hnotes : s.notes.IsTargetNote) :
    (∃ names, Reason.anonymousTypes names ∈ a.verdict.reasons) ↔
      f.MentionsAnonymous model options := by
  obtain ⟨reasons, heq, hreports⟩ := h.exists_reports
  simp only [heq, List.mem_append, hreports.mem_iff]
  constructor
  · rintro ⟨names, hmem | ⟨c, hc, hholds, hreason⟩⟩
    · have hhead := congrArg Reason.head (hnotes.eq_loopWidened hmem)
      simp at hhead
    · exact Findings.mentionsAnonymous_of_reason hc hholds hreason
  · intro hmentions
    exact ⟨_, Or.inr ⟨_, List.mem_cons_of_mem _ List.mem_cons_self, hmentions, rfl⟩⟩

end Analysis.Stages

/-- No anonymous type is left in a signature. The verdict has the reason about them exactly if there
was one in the type of a variable or of the result. -/
theorem Selection.analyze_anonymous {span : Text.Range} {patience patience' : Patience}
    (hs : Poll.run (d.classify span options').run patience' = .ok (.ok s))
    (h : Poll.run (s.analyze model options).run patience = .ok (.ok a)) :
    ∃ facts f, a.Stages s model options facts f ∧ a.signature.HidesAnonymous f.crossing ∧
      ((∃ names, Reason.anonymousTypes names ∈ a.verdict.reasons) ↔
        f.MentionsAnonymous model options) := by
  obtain ⟨facts, f, hstages⟩ := gives_analyze (Poll.gives_of_run h)
  exact ⟨facts, f, hstages, hstages.hidesAnonymous,
    hstages.exists_anonymousTypes_iff (Document.isTargetNote_notes hs)⟩

/-- A host that knows a variable whose type is a list of anonymous types. -/
def writesOfAnonymous : List Write := [
  .symbol ⟨0, "x", .ordinaryLocal,
    some (.named "List" [.anonymous "<>f__AnonymousType0"] .classType), none⟩,
  .dataFlow none (.ofList [(0, .ofFacts [.flowsIn, .readInside])]),
  .controlFlow none {}, .returnTypes none {}]

/-- The anonymous type in the list is replaced in the signature, and reported. -/
theorem ofAssignment_analyze_anonymous : ∃ (s : Selection) (a : Analysis) (facts : Flow.DataFlow)
    (f : Findings), a.Stages s (.ofWrites writesOfAnonymous) {} facts f ∧
    a.signature.parameters.map Parameter.name = ["x"] ∧
    a.verdict.reasons = [Reason.anonymousTypes ["x"]] ∧
    a.signature.HidesAnonymous f.crossing ∧
    f.MentionsAnonymous (.ofWrites writesOfAnonymous) {} := by
  have h : (Document.ofAssignment.analyzed? (.ofLength 17 4) {}
      (.ofWrites writesOfAnonymous)).map (fun r =>
        (r.2.signature.parameters.map Parameter.name, r.2.verdict.reasons)) =
          some (["x"], [Reason.anonymousTypes ["x"]]) := by decide +kernel
  obtain ⟨s, a, hs, ha, hview⟩ := Document.exists_of_analyzed?_map h
  simp only [Prod.mk.injEq] at hview
  obtain ⟨facts, f, hstages, hhides, hiff⟩ := Selection.analyze_anonymous hs ha
  refine ⟨s, a, facts, f, hstages, hview.1, hview.2, hhides, hiff.mp ⟨["x"], ?_⟩⟩
  rw [hview.2]
  exact List.mem_singleton.mpr rfl

end ExtractMethod
