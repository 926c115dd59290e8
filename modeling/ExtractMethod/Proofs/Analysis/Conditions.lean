import ExtractMethod.Proofs.Analysis.Concern
import ExtractMethod.Proofs.Analysis.Exchange
import ExtractMethod.Proofs.Analysis.References
import ExtractMethod.Proofs.Boundary.Account
import ExtractMethod.Proofs.Ty.Part

/-! The verdict on an extraction gives one reason for each condition that holds, in a fixed
order. -/
namespace ExtractMethod

open Boundary (Variable)
open ExtractMethod.Flow (ControlFlow DataFlow ExitKind ExitPoint)
open Model (Snapshot Write)
open Poll (Gives)

/-- Something that may hold of an extraction, whether that blocks it, and the reason that it
gives. -/
structure Condition where
  holds : Prop
  blocks : Bool
  reason : String

/-- The reasons are those of the conditions that hold, one for each and in the same order. -/
inductive Reports : List Condition → List String → Prop where
  | nil : Reports [] []
  | raised {c : Condition} {checks : List Condition} {reasons : List String} (hc : c.holds)
    (h : Reports checks reasons) : Reports (c :: checks) (c.reason :: reasons)
  | quiet {c : Condition} {checks : List Condition} {reasons : List String} (hc : ¬ c.holds)
    (h : Reports checks reasons) : Reports (c :: checks) reasons

/-- The concern is there exactly if the condition holds. -/
structure Condition.Raises (c : Condition) (concern : Option Verdict) : Prop where
  raised : c.holds → concern = some (.because (!c.blocks) c.reason)
  quiet : ¬ c.holds → concern = none

variable {s : Selection} {model : Snapshot} {options : Options} {facts : DataFlow} {f : Findings}
  {a : Analysis} {signature : Signature} {v : Variable} {c : Condition} {checks : List Condition}
  {concerns : List (Option Verdict)} {reason : String} {reasons : List String}

namespace Findings

/-- The address of a variable is taken. -/
def TakesAddress (f : Findings) (facts : DataFlow) : Prop :=
  ∃ v ∈ f.crossing, ∃ raw, facts.get? v.symbol = some raw ∧ raw.addressTaken

/-- An anonymous type occurs in the type of a variable, as the host knows it, or in the type of what
the method produces. -/
def MentionsAnonymous (f : Findings) (model : Snapshot) (options : Options) : Prop :=
  (∃ v ∈ f.crossing, ∃ symbol ty, model.symbol? v.symbol = some symbol ∧ symbol.ty = some ty ∧
    ty.MentionsAnonymous) ∨ (f.result options).ty.MentionsAnonymous

/-- Control leaves the selected code in the given way. -/
def Leaves (f : Findings) (kind : ExitKind) : Prop :=
  ∃ point ∈ f.controlFlow.exits, point.kind = kind

/-- What is checked of an extraction, in the order in which it is reported. -/
def conditions (f : Findings) (model : Snapshot) (options : Options) (facts : DataFlow)
    (signature : Signature) : List Condition := [
  { holds := f.selection.facts.inConstructor ∧ model.AssignsReadonly f.selection
    blocks := false
    reason := Reason.readonlyAssigned f.references.readonlyWrites },
  { holds := f.MentionsAnonymous model options
    blocks := false
    reason := Reason.anonymousTypes (anonymousNames signature) },
  { holds := f.TakesAddress facts
    blocks := false
    reason := Reason.addressTaken },
  { holds := f.selection.needsAsync ∧
      ∃ p ∈ signature.parameters, p.modifier = .ref ∨ p.modifier = .out
    blocks := true
    reason := Reason.asyncByReference
      ((signature.parameters.filter fun p => p.modifier ≠ .none).map Parameter.name) },
  { holds := ¬ options.bestEffort ∧
      ∃ id, id ∉ f.classification.ignored.keys ∧ Boundary.IsUnclear model facts id
    blocks := false
    reason := Reason.unresolved (f.classification.unresolved.map Prod.snd) },
  { holds := ¬ options.extractLocalFunction ∧ model.NamesOuterFunction f.selection
    blocks := true
    reason := Reason.localFunctionCall },
  { holds := f.Leaves .break, blocks := true, reason := Reason.jumpOut "break" },
  { holds := f.Leaves .continue, blocks := true, reason := Reason.jumpOut "continue" },
  { holds := f.Leaves .goto, blocks := true, reason := Reason.jumpOut "goto" },
  { holds := ¬ f.selection.isExpression ∧ f.Leaves .return ∧ f.controlFlow.endReachable ∧
      ¬ signature.returnType.awaited.isVoid
    blocks := false
    reason := Reason.notAllPathsReturn }]

/-- What blocks an extraction. -/
inductive IsBlocked (f : Findings) (model : Snapshot) (options : Options) (signature : Signature) :
    Prop where
  | byReference {p : Parameter} (ha : f.selection.needsAsync) (hp : p ∈ signature.parameters)
    (hm : p.modifier = .ref ∨ p.modifier = .out) : IsBlocked f model options signature
  | outerFunction (hoption : ¬ options.extractLocalFunction)
    (hn : model.NamesOuterFunction f.selection) : IsBlocked f model options signature
  | jump {point : ExitPoint} (hp : point ∈ f.controlFlow.exits)
    (hkind : point.kind = .break ∨ point.kind = .continue ∨ point.kind = .goto) :
    IsBlocked f model options signature

end Findings

namespace Condition

theorem raises_of_iff {p : Bool} (h : p ↔ c.holds) :
    c.Raises (if p then some (.because (!c.blocks) c.reason) else none) := by
  refine ⟨?_, ?_⟩
  · intro hc
    rw [if_pos (h.mpr hc)]
  · intro hc
    rw [if_neg (mt h.mp hc)]

theorem raises_of_eq_false_iff {p : Bool} (h : p = false ↔ c.holds) :
    c.Raises (if p then none else some (.because (!c.blocks) c.reason)) := by
  refine ⟨?_, ?_⟩
  · intro hc
    rw [h.mpr hc, if_neg Bool.false_ne_true]
  · intro hc
    rw [eq_true_of_ne_false (mt h.mp hc), if_pos rfl]

end Condition

section Raised

variable (h : List.Forall₂ Condition.Raises checks concerns)
include h

theorem reports_of_raises (hreasons : ∀ c ∈ checks, c.reason ≠ "") :
    Reports checks ((concerns.filterMap id).flatMap Verdict.reasons) := by
  induction h with
  | nil => exact .nil
  | @cons c concern checks concerns hraises _ ih =>
    obtain ⟨hreason, hrest⟩ := List.forall_mem_cons.mp hreasons
    by_cases hc : c.holds
    · have hone : (Verdict.because (!c.blocks) c.reason).reasons = [c.reason] := by
        rw [Verdict.because, if_neg hreason]
      rw [hraises.raised hc, List.filterMap_cons_some (f := id) rfl, List.flatMap_cons, hone]
      exact .raised hc (ih hrest)
    · rw [hraises.quiet hc, List.filterMap_cons_none (f := id) rfl]
      exact .quiet hc (ih hrest)

/-- Only conditions that block an extraction keep it from succeeding. -/
theorem succeeded_iff_of_raises : (∀ v ∈ concerns.filterMap id, v.succeeded) ↔
    ∀ c ∈ checks, c.blocks → ¬ c.holds := by
  induction h with
  | nil => simp
  | @cons c concern checks concerns hraises _ ih =>
    rw [List.forall_mem_cons, ← ih]
    by_cases hc : c.holds
    · rw [hraises.raised hc, List.filterMap_cons_some (f := id) rfl, List.forall_mem_cons,
        Verdict.because]
      simp [hc]
    · rw [hraises.quiet hc, List.filterMap_cons_none (f := id) rfl]
      simp [hc]

end Raised

theorem Reports.mem_iff (h : Reports checks reasons) :
    reason ∈ reasons ↔ ∃ c ∈ checks, c.holds ∧ c.reason = reason := by
  induction h with
  | nil => simp
  | raised hc _ ih => simp [ih, hc, eq_comm]
  | quiet hc _ ih => simp [ih, hc]

namespace Findings

theorem isEmpty_anonymousNames :
    (anonymousNames signature).isEmpty = false ↔
      (∃ v ∈ signature.passed ++ signature.returned, v.hadAnonymous) ∨
        signature.returnTypeHadAnonymous := by
  have hnames : (((signature.passed ++ signature.returned).filter fun v => v.hadAnonymous).map
      fun v => v.name).isEmpty = false ↔
        ∃ v ∈ signature.passed ++ signature.returned, v.hadAnonymous := by
    rw [List.isEmpty_map, List.isEmpty_eq_false_iff_exists_mem]
    simp only [List.mem_filter]
  rw [anonymousNames, ← hnames]
  split
  · next h => exact iff_of_true rfl (Or.inr (Bool.and_eq_true_iff.mp h).1)
  · next h =>
    refine (or_iff_left_of_imp ?_).symm
    intro hreturn
    exact eq_false_of_ne_true fun hempty => h (Bool.and_eq_true_iff.mpr ⟨hreturn, hempty⟩)

/-- By reference are those parameters that are not passed by value. -/
theorem isEmpty_byReference :
    ((signature.parameters.filter fun p => p.modifier ≠ .none).map
      fun p => p.name).isEmpty = false ↔
        ∃ p ∈ signature.parameters, p.modifier = .ref ∨ p.modifier = .out := by
  rw [List.isEmpty_map, List.isEmpty_eq_false_iff_exists_mem]
  simp only [List.mem_filter, decide_eq_true_eq]
  refine exists_congr fun p => and_congr_right fun _ => ?_
  cases p.modifier <;> simp

theorem hasExit_iff {kind : ExitKind} : f.controlFlow.hasExit kind ↔ f.Leaves kind := by
  rw [ControlFlow.hasExit, List.any_eq_true, Leaves]
  simp only [decide_eq_true_eq]

/-- An extraction is blocked by the conditions that block it. -/
theorem isBlocked_iff : f.IsBlocked model options signature ↔
    ∃ c ∈ f.conditions model options facts signature, c.blocks ∧ c.holds := by
  simp only [conditions, List.mem_cons, List.not_mem_nil, or_false, exists_eq_or_imp,
    exists_eq_left, Bool.false_eq_true, false_and, false_or, true_and]
  constructor
  · rintro (⟨ha, hp, hm⟩ | ⟨hoption, hn⟩ | ⟨hp, hkind⟩)
    · exact Or.inl ⟨ha, _, hp, hm⟩
    · exact Or.inr (Or.inl ⟨hoption, hn⟩)
    · refine Or.inr (Or.inr ?_)
      rcases hkind with hkind | hkind | hkind
      · exact Or.inl ⟨_, hp, hkind⟩
      · exact Or.inr (Or.inl ⟨_, hp, hkind⟩)
      · exact Or.inr (Or.inr ⟨_, hp, hkind⟩)
  · rintro (⟨ha, p, hp, hm⟩ | ⟨hoption, hn⟩ | ⟨_, hp, hkind⟩ | ⟨_, hp, hkind⟩ | ⟨_, hp, hkind⟩)
    · exact .byReference ha hp hm
    · exact .outerFunction hoption hn
    · exact .jump hp (Or.inl hkind)
    · exact .jump hp (Or.inr (Or.inl hkind))
    · exact .jump hp (Or.inr (Or.inr hkind))

theorem reason_ne_empty (hc : c ∈ f.conditions model options facts signature) :
    c.reason ≠ "" := by
  refine Reason.ne_empty_of_head ?_
  simp only [conditions, List.mem_cons, List.not_mem_nil, or_false] at hc
  rcases hc with rfl | rfl | rfl | rfl | rfl | rfl | rfl | rfl | rfl | rfl <;> simp

end Findings

namespace Analysis.Stages

variable (h : a.Stages s model options facts f)
include h

theorem hadAnonymous_iff (hv : v ∈ f.crossing) : v.hadAnonymous ↔ ∃ symbol ty,
    model.symbol? v.symbol = some symbol ∧ symbol.ty = some ty ∧ ty.MentionsAnonymous := by
  obtain ⟨raw, symbol, ty, -, hmade⟩ :=
    Boundary.exists_madeOf_of_mem_crossing h.classification hv
  rw [hmade.hadAnonymous, Ty.hasAnonymous_iff]
  constructor
  · intro hty
    exact ⟨symbol, ty, hmade.symbol_eq, hmade.ty_eq, hty⟩
  · rintro ⟨symbol', ty', hsymbol, hty, hanonymous⟩
    cases hmade.symbol_eq.symm.trans hsymbol
    cases hmade.ty_eq.symm.trans hty
    exact hanonymous

theorem isEmpty_anonymousNames_iff :
    (Findings.anonymousNames a.signature).isEmpty = false ↔ f.MentionsAnonymous model options := by
  have hinferred := gives_infer h.signature
  have hmarked : (∃ v ∈ a.signature.passed ++ a.signature.returned, v.hadAnonymous) ↔
      ∃ v ∈ f.crossing, v.hadAnonymous := by
    rw [← List.mem_map, ← List.mem_map]
    exact hinferred.mem_map_iff fun _ => rfl
  rw [Findings.isEmpty_anonymousNames, hmarked, hinferred.returnTypeHadAnonymous,
    Ty.hasAnonymous_iff]
  refine or_congr (exists_congr fun v => and_congr_right fun hv => ?_) Iff.rfl
  exact h.hadAnonymous_iff hv

/-- Each concern is the one about its condition. -/
theorem exists_raised : ∃ concerns, f.concerns options a.signature = concerns.filterMap id ∧
    List.Forall₂ Condition.Raises (f.conditions model options facts a.signature) concerns := by
  have hselection := h.selection
  have hreferences := h.references
  rw [← hselection] at hreferences
  refine ⟨_, rfl, .cons ?readonly (.cons ?anonymous (.cons ?address (.cons ?async
    (.cons ?unresolved (.cons ?call (.cons ?breaks (.cons ?continues (.cons ?jumps
      (.cons ?paths .nil)))))))))⟩
  case readonly =>
    refine Condition.raises_of_iff ?_
    rw [Bool.and_eq_true, Bool.not_eq_true', isEmpty_readonlyWrites hreferences]
  case anonymous => exact Condition.raises_of_eq_false_iff h.isEmpty_anonymousNames_iff
  case address => exact Condition.raises_of_iff (Boundary.addressTaken_iff h.classification)
  case async =>
    refine Condition.raises_of_iff ?_
    rw [Bool.and_eq_true, Bool.not_eq_true', Findings.isEmpty_byReference]
  case unresolved =>
    exact Condition.raises_of_eq_false_iff (Boundary.isResolved_eq_false_iff h.classification)
  case call =>
    refine Condition.raises_of_iff ?_
    rw [Bool.and_eq_true, Bool.not_eq_true', Bool.not_eq_true', isEmpty_outerCalls hreferences,
      Bool.not_eq_true]
  case breaks => exact Condition.raises_of_iff Findings.hasExit_iff
  case continues => exact Condition.raises_of_iff Findings.hasExit_iff
  case jumps => exact Condition.raises_of_iff Findings.hasExit_iff
  case paths =>
    refine Condition.raises_of_iff ?_
    rw [Bool.and_eq_true, Bool.and_eq_true, Bool.and_eq_true, Flow.ControlFlow.containsReturn,
      Findings.hasExit_iff, Bool.not_eq_true', Bool.not_eq_true', Bool.not_eq_true,
      Bool.not_eq_true, and_assoc, and_assoc]

theorem verdict_eq : a.verdict = f.verdict options a.signature := congrArg Analysis.verdict h.eq

/-- The reasons follow the notes on the selection. -/
theorem exists_reports : ∃ reasons, a.verdict.reasons = s.notes.reasons ++ reasons ∧
    Reports (f.conditions model options facts a.signature) reasons := by
  obtain ⟨concerns, hconcerns, hraises⟩ := h.exists_raised
  refine ⟨_, ?_, reports_of_raises hraises fun c hc => Findings.reason_ne_empty hc⟩
  rw [h.verdict_eq, Findings.verdict, Verdict.reasons_foldl_and, hconcerns, h.selection]

/-- The notes on the selection and what blocks the extraction decide together. -/
theorem succeeded_iff_and :
    a.succeeded ↔ s.notes.succeeded ∧ ¬ f.IsBlocked model options a.signature := by
  obtain ⟨concerns, hconcerns, hraises⟩ := h.exists_raised
  have hblocked : f.IsBlocked model options a.signature ↔
      ∃ c ∈ f.conditions model options facts a.signature, c.blocks ∧ c.holds :=
    Findings.isBlocked_iff
  rw [Analysis.succeeded, h.verdict_eq, Findings.verdict, Verdict.succeeded_foldl_and, hconcerns,
    succeeded_iff_of_raises hraises, h.selection, hblocked]
  simp only [not_exists, not_and]

theorem succeeded_iff (hnotes : s.notes.succeeded) :
    a.succeeded ↔ ¬ f.IsBlocked model options a.signature := by
  rw [h.succeeded_iff_and, and_iff_right hnotes]

end Analysis.Stages

/-- An extraction succeeds exactly if nothing blocks it. The reasons are the notes on the selection
and then one for each condition that holds. -/
theorem Selection.analyze_verdict {d : Document} {span : Text.Range} {options' : Options}
    {patience patience' : Patience}
    (hs : Poll.run (d.classify span options').run patience' = .ok (.ok s))
    (h : Poll.run (s.analyze model options).run patience = .ok (.ok a)) :
    ∃ facts f, a.Stages s model options facts f ∧
      (a.succeeded ↔ ¬ f.IsBlocked model options a.signature) ∧
      ∃ reasons, a.verdict.reasons = s.notes.reasons ++ reasons ∧
        Reports (f.conditions model options facts a.signature) reasons := by
  obtain ⟨facts, f, hstages⟩ := gives_analyze (Poll.gives_of_run h)
  have hnotes := (Document.isTargetNote_notes hs).succeeded
  exact ⟨facts, f, hstages, hstages.succeeded_iff hnotes, hstages.exists_reports⟩

/-- A host that knows a variable whose address is taken and a local function that is called, and
that states a `return` and a `break`. -/
def writesOfTrouble : List Write := [
  .symbol ⟨0, "x", .ordinaryLocal, some .int, none⟩,
  .symbol ⟨1, "F", .localFunction false, none, none⟩,
  .reference ⟨1, .ofLength 17 1, false⟩,
  .dataFlow none (.ofList [(0, .ofFacts [.flowsIn, .readInside, .addressTaken])]),
  .controlFlow none { exits := [⟨.ofLength 17 1, .break⟩, ⟨.ofLength 18 1, .return⟩] },
  .returnTypes none { containing := some .int }]

/-- Two warnings and two failures are reported in their order, and the failures block the
extraction. -/
theorem ofAssignment_analyze_verdict : ∃ (s : Selection) (a : Analysis) (facts : DataFlow)
    (f : Findings), a.Stages s (.ofWrites writesOfTrouble) {} facts f ∧
    a.verdict.reasons = [Reason.addressTaken, Reason.localFunctionCall, Reason.jumpOut "break",
      Reason.notAllPathsReturn] ∧
    f.IsBlocked (.ofWrites writesOfTrouble) {} a.signature := by
  have h : (Document.ofAssignment.analyzed? (.ofLength 17 4) {}
      (.ofWrites writesOfTrouble)).map (fun r => (r.2.succeeded, r.2.verdict.reasons)) =
        some (false, [Reason.addressTaken, Reason.localFunctionCall, Reason.jumpOut "break",
          Reason.notAllPathsReturn]) := by decide +kernel
  obtain ⟨s, a, hs, ha, hview⟩ := Document.exists_of_analyzed?_map h
  simp only [Prod.mk.injEq] at hview
  obtain ⟨facts, f, hstages, hiff, -⟩ := Selection.analyze_verdict hs ha
  refine ⟨s, a, facts, f, hstages, hview.2, ?_⟩
  by_contra hnot
  have hsucceeded := hiff.mpr hnot
  rw [hview.1] at hsucceeded
  exact Bool.false_ne_true hsucceeded

end ExtractMethod
