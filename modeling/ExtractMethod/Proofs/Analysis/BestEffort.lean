import ExtractMethod.Proofs.Analysis.Conditions
import ExtractMethod.Proofs.Analysis.Rearranged
import ExtractMethod.Proofs.Analysis.Sufficient
import ExtractMethod.Proofs.Boundary.BestEffort

/-! An analysis in best-effort mode gives a method with the contract that strict mode gives it. What
best effort leaves alone is no part of the contract. -/
namespace ExtractMethod

open Boundary (Classification Modifier Variable)
open ExtractMethod.Flow (DataFlow)
open Model (Snapshot Write)
open Poll (Gives)

variable {s : Selection} {model : Snapshot} {options : Options} {facts : DataFlow} {f : Findings}
  {c : Classification} {signature signature' : Signature} {a b : Analysis} {v : Variable}
  {promoted : List Modifier} {env : List ParamDecl} {writes : List Write}

/-- The methods are called in the same way and give back the same. -/
structure Signature.SameContract (signature signature' : Signature) : Prop where
  parameters : signature.parameters = signature'.parameters
  returned : signature.returned = signature'.returned
  returnType : signature.returnType = signature'.returnType
  returnsByRef : signature.returnsByRef = signature'.returnsByRef
  awaitsBareTask : signature.awaitsBareTask = signature'.awaitsBareTask
  instanceRequired : signature.instanceRequired = signature'.instanceRequired
  shouldBeReadonly : signature.shouldBeReadonly = signature'.shouldBeReadonly
  staticRequired : signature.staticRequired = signature'.staticRequired

/-- A degraded variable has no parameter. -/
theorem modifier?_of_isDegraded (hv : v.IsDegraded) : v.modifier? = none := by
  change v.style.modifier? = none
  rw [show v.style = .none from hv]
  rfl

theorem passedBy_of_isDegraded (hv : v.IsDegraded) : passedBy promoted v = false := by
  simp [passedBy, modifier?_of_isDegraded hv]

theorem parameter?_of_isDegraded (hv : v.IsDegraded) : parameter? promoted v = none := by
  simp [parameter?, passedBy_of_isDegraded hv, modifier?_of_isDegraded hv]

namespace Findings

section Strengthens

variable (hc : c.Strengthens f.classification)
include hc

/-- What asks for more than degraded variables have does not see that they are missing. -/
theorem filter_crossing_strengthens {p : Variable → Bool} (hp : ∀ v, v.IsDegraded → p v = false) :
    (f.reclassified c).crossing.filter p = f.crossing.filter p := by
  have hcrossing : (f.reclassified c).crossing = f.crossing.filter fun v => ¬ v.IsDegraded :=
    hc.crossing
  rw [hcrossing, List.filter_filter]
  refine List.filter_congr fun v _ => ?_
  by_cases hv : v.IsDegraded
  · simp [hp v hv]
  · simp [hv]

/-- Degraded variables neither are promoted nor keep a lone output from being promoted. -/
theorem result_strengthens :
    (f.reclassified c).result options.strictMode = f.result options.bestEffortMode := by
  have hlone (modifier : Modifier) :
      ((f.reclassified c).crossing.filter fun v => v.modifier? = some modifier) =
        f.crossing.filter fun v => v.modifier? = some modifier :=
    filter_crossing_strengthens hc fun v hv => by simp [modifier?_of_isDegraded hv]
  have hpassed (promoted : List Modifier) : (f.reclassified c).crossing.filter (passedBy promoted) =
      f.crossing.filter (passedBy promoted) :=
    filter_crossing_strengthens hc fun v hv => passedBy_of_isDegraded hv
  have hpromoted (needsAsync : Bool) :
      promotedModifiers (f.reclassified c).crossing needsAsync
          (f.reclassified c).classification.returnForced options.strictMode =
        promotedModifiers f.crossing needsAsync f.classification.returnForced
          options.bestEffortMode := by
    have hforced : (f.reclassified c).classification.returnForced =
        f.classification.returnForced := hc.returnForced
    simp only [promotedModifiers, hlone, hforced]
    rfl
  simp only [result, hpromoted, hpassed]
  rfl

theorem instanceRequired_strengthens :
    (f.reclassified c).instanceRequired = f.instanceRequired := by
  simp only [instanceRequired, reclassified, hc.receiver, hc.primaryParametersUsed]

theorem shouldBeReadonly_strengthens :
    (f.reclassified c).shouldBeReadonly = f.shouldBeReadonly := by
  simp only [shouldBeReadonly, reclassified, hc.receiver]

theorem roots_strengthens {id : Nat} (hid : id ∈ (f.reclassified c).roots options.strictMode) :
    id ∈ f.roots options.bestEffortMode := by
  have hcrossing : (f.reclassified c).crossing = f.crossing.filter fun v => ¬ v.IsDegraded :=
    hc.crossing
  simp only [roots, result_strengthens hc, hcrossing, List.mem_map (f := TypeParamRef.id),
    Ty.mem_paramUsesAll, List.mem_append] at hid ⊢
  obtain ⟨param, ⟨ty, hty, hparam⟩, rfl⟩ := hid
  refine ⟨param, ⟨ty, hty.imp_left fun hty => ?_, hparam⟩, rfl⟩
  exact List.map_subset _ (List.filter_subset_self _) hty

/-- With fewer variables there is no more to declare. -/
theorem exists_gives_infer_strengthens (hmodel : model.IsNumbered)
    (h : ∃ signature, Gives (f.infer model.typeParams.values options.bestEffortMode) signature) :
    ∃ signature, Gives ((f.reclassified c).infer model.typeParams.values options.strictMode)
      signature := by
  rw [exists_gives_infer_iff hmodel] at h ⊢
  intro id hid
  exact h id (hid.of_subset fun root => roots_strengthens hc)

/-- The parameters are those of all variables in order, and degraded variables have none. -/
theorem sameContract_strengthens (hordered : f.crossing.Pairwise Variable.Precedes)
    (h : signature.InferredFrom f env options.bestEffortMode)
    (h' : signature'.InferredFrom (f.reclassified c) env options.strictMode) :
    signature.SameContract signature' := by
  have hcrossing : (f.reclassified c).crossing = f.crossing.filter fun v => ¬ v.IsDegraded :=
    hc.crossing
  have hresult : (f.reclassified c).result options.strictMode = f.result options.bestEffortMode :=
    result_strengthens hc
  have hordered' : (f.reclassified c).crossing.Pairwise Variable.Precedes := by
    rw [hcrossing]
    exact hordered.filter _
  refine ⟨?parameters, ?returned, ?returnType, ?byRef, ?task, ?receiver, ?readonly, ?static⟩
  case parameters =>
    rw [(h.divides hordered).parameters, (h'.divides hordered').parameters, hcrossing, hresult,
      List.filterMap_filter]
    refine List.filterMap_congr fun v _ => ?_
    by_cases hv : v.IsDegraded
    · simp [hv, parameter?_of_isDegraded hv]
    · simp [hv]
  case returned =>
    rw [h.returned, h'.returned, hresult,
      filter_crossing_strengthens hc fun v hv => passedBy_of_isDegraded hv]
  case returnType =>
    rw [h.returnType, h'.returnType, hresult]
    rfl
  case byRef => rw [h.returnsByRef, h'.returnsByRef, hresult]
  case task =>
    rw [h.awaitsBareTask, h'.awaitsBareTask, hresult]
    rfl
  case receiver =>
    rw [h.instanceRequired, h'.instanceRequired, instanceRequired_strengthens hc]
  case readonly =>
    rw [h.shouldBeReadonly, h'.shouldBeReadonly, shouldBeReadonly_strengthens hc]
  case static =>
    rw [h.staticRequired, h'.staticRequired]
    rfl

/-- What best effort passes on without being asked to is what strict mode leaves unresolved. -/
theorem passed_strengthens (h : signature.InferredFrom f env options.bestEffortMode)
    (h' : signature'.InferredFrom (f.reclassified c) env options.strictMode) :
    (signature.passed.filter fun v => v.symbol ∉ c.unresolved.map Prod.fst) =
      signature'.passed := by
  have hcrossing : (f.reclassified c).crossing = f.crossing.filter fun v => ¬ v.IsDegraded :=
    hc.crossing
  rw [h.passed, h'.passed, hcrossing, result_strengthens hc, List.filter_filter, List.filter_filter]
  refine List.filter_congr fun v hv => ?_
  have hunresolved := hc.unresolved v hv
  rw [Bool.and_comm]
  simp [hunresolved]

end Strengthens

/-- Of a classification and a signature, only the parameters can block an extraction. -/
theorem IsBlocked.congr {g : Findings} {options' : Options} (hselection : f.selection = g.selection)
    (hflow : f.controlFlow = g.controlFlow)
    (hoption : options.extractLocalFunction = options'.extractLocalFunction)
    (hparameters : signature.parameters = signature'.parameters)
    (h : f.IsBlocked model options signature) : g.IsBlocked model options' signature' := by
  cases h with
  | byReference ha hp hm => exact .byReference (hselection ▸ ha) (hparameters ▸ hp) hm
  | outerFunction hlocal hn => exact .outerFunction (hoption ▸ hlocal) (hselection ▸ hn)
  | jump hp hkind => exact .jump (hflow ▸ hp) hkind

end Findings

/-- Whatever a host wrote, strict mode analyzes what best-effort mode does. The methods have the
same contract and the extractions the same outcome, and best effort names no variables but those of
strict mode and those that are unresolved in it. -/
theorem Selection.analyze_bestEffort {patience : Patience}
    (h : Poll.run (s.analyze (.ofWrites writes) options.bestEffortMode).run patience =
      .ok (.ok a)) :
    ∃ b facts c,
      Poll.run (s.analyze (.ofWrites writes) options.strictMode).run .unlimited = .ok (.ok b) ∧
      (Snapshot.ofWrites writes).dataFlowOf s.document s.region = .ok facts ∧
      Poll.run (Boundary.classify s options.strictMode (.ofWrites writes) facts).run .unlimited =
        .ok (.ok c) ∧
      a.signature.SameContract b.signature ∧ a.succeeded = b.succeeded ∧
      (a.signature.passed.filter fun v => v.symbol ∉ c.unresolved.map Prod.fst) =
        b.signature.passed := by
  obtain ⟨facts, f, hstages⟩ := gives_analyze (Poll.gives_of_run h)
  obtain ⟨c, hc, hstrengthens⟩ :=
    Boundary.exists_gives_classify_strictMode hstages.classification
  obtain ⟨signature, hsignature⟩ := Findings.exists_gives_infer_strengthens hstrengthens
    Snapshot.isNumbered_ofWrites ⟨_, hstages.signature⟩
  have hb : Analysis.Stages s (.ofWrites writes) options.strictMode facts (f.reclassified c)
      ⟨s.type, s.finalSpan, s.changed, signature,
        (f.reclassified c).verdict options.strictMode signature⟩ :=
    ⟨hstages.dataFlow, hstages.controlFlow, hstages.returnTypes, hc, hstages.references,
      hstages.selection, hsignature, rfl⟩
  have hcontract := Findings.sameContract_strengthens hstrengthens
    (Boundary.pairwise_precedes_of_classify hstages.classification)
    (gives_infer hstages.signature) (gives_infer hsignature)
  refine ⟨_, facts, c, Poll.answers_iff_run.mp (gives_analyze_of_stages hb), hstages.dataFlow,
    Poll.answers_iff_run.mp hc, hcontract, ?_,
    Findings.passed_strengthens hstrengthens (gives_infer hstages.signature)
      (gives_infer hsignature)⟩
  rw [Bool.eq_iff_iff, hstages.succeeded_iff_and, hb.succeeded_iff_and]
  refine and_congr_right fun _ => not_congr ⟨?_, ?_⟩
  · exact Findings.IsBlocked.congr rfl rfl rfl hcontract.parameters
  · exact Findings.IsBlocked.congr rfl rfl rfl hcontract.parameters.symm

/-- Best effort leaves `a` and `b` alone, which strict mode reports. The method takes `x` in both
modes. -/
theorem ofAssignment_analyze_bestEffort : ∃ (s : Selection) (a b : Analysis),
    Poll.run (s.analyze (.ofWrites (writesOfUnclear unclearFacts))
      (Options.bestEffortMode {})).run .unlimited = .ok (.ok a) ∧
    Poll.run (s.analyze (.ofWrites (writesOfUnclear unclearFacts))
      (Options.strictMode {})).run .unlimited = .ok (.ok b) ∧
    a.signature.passed.map Variable.name = ["a", "b", "x"] ∧
    b.signature.parameters.map Parameter.name = ["x"] ∧
    a.signature.SameContract b.signature ∧ a.succeeded = b.succeeded := by
  have h : (Document.ofAssignment.analyzed? (.ofLength 17 4) (Options.bestEffortMode {})
      (.ofWrites (writesOfUnclear unclearFacts))).map (fun r =>
        (r.2.signature.passed.map Variable.name, r.2.signature.parameters.map Parameter.name)) =
          some (["a", "b", "x"], ["x"]) := by
    simp only [Document.analyzed?, Selection.analyze, Boundary.classify,
      Boundary.Classification.ofJudgements, Variable.mergeSort_eq_insertionSort fun v => v,
      Findings.infer, parametersOf, Variable.mergeSort_eq_insertionSort Prod.fst]
    decide +kernel
  obtain ⟨s, a, -, ha, hview⟩ := Document.exists_of_analyzed?_map h
  simp only [Prod.mk.injEq] at hview
  obtain ⟨b, -, -, hb, -, -, hcontract, hsucceeded, -⟩ := Selection.analyze_bestEffort ha
  exact ⟨s, a, b, ha, hb, hview.1, hcontract.parameters ▸ hview.2, hcontract, hsucceeded⟩

end ExtractMethod
