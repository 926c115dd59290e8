import ExtractMethod.Proofs.Boundary.Account

/-! The same candidates in best-effort and in strict mode. Strict mode leaves those unresolved that
best effort leaves alone, and judges all others alike. -/
namespace ExtractMethod

/-- The options with a variable left alone if no rule applies to it. -/
def Options.bestEffortMode (options : Options) : Options := { options with bestEffort := true }

/-- The options with a variable unresolved if no rule applies to it. -/
def Options.strictMode (options : Options) : Options := { options with bestEffort := false }

namespace Boundary

open ExtractMethod.Flow (DataFlow Flags)
open Model (Snapshot Symbol)
open Poll (Gives)

variable {s : Selection} {options : Options} {model : Snapshot} {facts : DataFlow}
  {c : Classification} {v : Variable} {j : Judgement} {judgements : List Judgement} {flags : Flags}
  {ty : Ty} {fate : Fate}

/-- The variable crosses the boundary by none of the ways that a method has. -/
def Variable.IsDegraded (v : Variable) : Prop := v.style = .none

instance : DecidablePred Variable.IsDegraded := fun v => inferInstanceAs (Decidable (v.style = _))

/-- What becomes in strict mode of a candidate with a fate in best-effort mode. -/
def Fate.strictly : Fate → Fate
  | .crosses v forces => if v.IsDegraded then .unresolved else .crosses v forces
  | fate => fate

def Judgement.strictly (j : Judgement) : Judgement := { j with fate := j.fate.strictly }

/-- The strict classification has what the other one has, without the degraded variables. Those are
unresolved in it. -/
structure Classification.Strengthens (c lenient : Classification) : Prop where
  crossing : c.crossing.values = lenient.crossing.values.filter fun v => ¬ v.IsDegraded
  unresolved : ∀ v ∈ lenient.crossing.values,
    v.symbol ∈ c.unresolved.map Prod.fst ↔ v.IsDegraded
  returnForced : c.returnForced = lenient.returnForced
  receiver : c.receiver = lenient.receiver
  primaryParametersUsed : c.primaryParametersUsed = lenient.primaryParametersUsed

/-- Without a rule there is no style in strict mode, and none that would be a way to cross in
best-effort mode. A rule gives both modes the same style. -/
theorem styleOf?_strictMode (hl : ¬ isLocalToRegion flags) :
    styleOf? s options.strictMode ty flags =
      (styleOf? s options.bestEffortMode ty flags).filter fun style => style ≠ .none := by
  have hforced : isReturnForced s options.strictMode ty =
      isReturnForced s options.bestEffortMode ty := rfl
  rw [styleOf?, styleOf?, hforced]
  split
  · next style hstyle =>
    have hne : style ≠ .none := by
      rintro rfl
      exact hl (isLocalToRegion_of_style? (eq_none_of_overridden? hstyle))
    simp [Option.filter_some, hne]
  · rfl

theorem judgeVariable_strictMode (id : Nat) (symbol : Symbol) (raw : Flags) :
    judgeVariable s options.strictMode model id symbol raw =
      (judgeVariable s options.bestEffortMode model id symbol raw).map Fate.strictly := by
  unfold judgeVariable
  dsimp only
  split
  · rfl
  · next hl =>
    split
    · rfl
    · next ty hty =>
      rw [styleOf?_strictMode hl]
      cases hstyle : styleOf? s options.bestEffortMode ty (adjust raw symbol.isStaticLocal) with
      | none => rfl
      | some style =>
        by_cases hnone : style = .none
        · simp [Option.filter_some, hnone, Except.map, Fate.strictly, Variable.IsDegraded]
        · simp [Option.filter_some, hnone, Except.map, Fate.strictly, Variable.IsDegraded]
          rfl

theorem judge_strictMode (entry : Nat × Flags) :
    judge s options.strictMode model entry =
      (judge s options.bestEffortMode model entry).map (Option.map Judgement.strictly) := by
  obtain ⟨id, raw⟩ := entry
  simp only [judge]
  split
  · split
    · rfl
    · next symbol hsymbol =>
      split
      · rfl
      · rw [judgeVariable_strictMode]
        cases judgeVariable s options.bestEffortMode model id symbol raw <;> rfl
  · rfl

namespace Judgement

theorem crossing?_strictly :
    j.strictly.crossing? = j.crossing?.filter fun v => ¬ v.IsDegraded := by
  obtain ⟨id, symbol, flags, fate⟩ := j
  cases fate with
  | ignored reason => rfl
  | unresolved => rfl
  | crosses v forces =>
    by_cases hv : v.IsDegraded <;>
      simp [strictly, Fate.strictly, crossing?, Option.filter_some, hv]

theorem unresolved_strictly (hv : j.crossing? = some v) :
    j.strictly.fate = .unresolved ↔ v.IsDegraded := by
  obtain ⟨forces, hfate⟩ := crossing?_eq_some_iff.mp hv
  rw [strictly, hfate]
  by_cases hdegraded : v.IsDegraded <;> simp [Fate.strictly, hdegraded]

theorem isReceiver_strictly : j.strictly.isReceiver = j.isReceiver := by
  obtain ⟨id, symbol, flags, fate⟩ := j
  cases fate with
  | ignored reason => rfl
  | unresolved => rfl
  | crosses v forces =>
    by_cases hv : v.IsDegraded <;> simp [strictly, Fate.strictly, isReceiver, hv]

theorem usesPrimaryParameter_strictly :
    j.strictly.usesPrimaryParameter = j.usesPrimaryParameter := by
  obtain ⟨id, symbol, flags, fate⟩ := j
  cases fate with
  | ignored reason => rfl
  | unresolved => rfl
  | crosses v forces =>
    by_cases hv : v.IsDegraded <;> simp [strictly, Fate.strictly, usesPrimaryParameter, hv]

end Judgement

/-- The facts about a degraded variable contradict each other. So it is not written, and forces
nothing to be returned. -/
theorem not_forces_of_isDegraded {id : Nat} {symbol : Symbol} {raw : Flags} {forces : Bool}
    (hc : raw.isCandidate)
    (h : judgeVariable s options model id symbol raw = .ok (.crosses v forces))
    (hv : v.IsDegraded) : forces = false := by
  unfold judgeVariable at h
  dsimp only at h
  split at h
  · cases h
  · next hl =>
    split at h
    · cases h
    · split at h
      · cases h
      · next style hstyle =>
        cases h
        change style = .none at hv
        have hcandidate : (adjust raw symbol.isStaticLocal).isCandidate := hc
        rw [hv, styleOf?_eq_some_none_iff hcandidate hl] at hstyle
        have hwritten := hstyle.2.1.notWrittenInside
        rw [Bool.not_eq_true] at hwritten
        rw [hwritten, Bool.and_false]

theorem forcesReturn_strictly {entry : Nat × Flags}
    (h : judge s options model entry = .ok (some j)) :
    j.strictly.forcesReturn = j.forcesReturn := by
  obtain ⟨id, raw⟩ := entry
  simp only [judge] at h
  split at h
  · next hc =>
    split at h
    · cases h
    · next symbol hsymbol =>
      split at h
      · cases h
        rfl
      · cases hfate : judgeVariable s options model id symbol raw with
        | error e =>
          rw [hfate] at h
          cases h
        | ok fate =>
          rw [hfate] at h
          cases h
          cases fate with
          | ignored reason => rfl
          | unresolved => rfl
          | crosses v forces =>
            by_cases hv : v.IsDegraded
            · have hforces := not_forces_of_isDegraded hc hfate hv
              simp [Judgement.strictly, Fate.strictly, Judgement.forcesReturn, hv, hforces]
            · simp [Judgement.strictly, Fate.strictly, hv]
  · cases h

/-- The candidates are judged in strict mode as they are in best-effort mode, strictly. -/
theorem gives_judgements_strictMode
    (h : Gives (Poll.collect (judge s options.bestEffortMode model) facts.entries) judgements) :
    Gives (Poll.collect (judge s options.strictMode model) facts.entries)
      (judgements.map Judgement.strictly) := by
  obtain ⟨hall, rfl⟩ := Poll.gives_collect.mp h
  refine Poll.gives_collect.mpr ⟨?_, ?_⟩
  · intro entry hentry
    obtain ⟨found, hfound⟩ := hall entry hentry
    exact ⟨found.map Judgement.strictly, by rw [judge_strictMode, hfound]; rfl⟩
  · rw [List.map_filterMap]
    refine List.filterMap_congr fun entry hentry => ?_
    obtain ⟨found, hfound⟩ := hall entry hentry
    rw [judge_strictMode, hfound]
    rfl

section OfJudgements

variable (h : Gives (Poll.collect (judge s options.bestEffortMode model) facts.entries) judgements)
include h

/-- Leaving variables out of a sorted list leaves it sorted. -/
theorem values_crossing_strictly :
    (Classification.ofJudgements (judgements.map Judgement.strictly)).crossing.values =
      (Classification.ofJudgements judgements).crossing.values.filter fun v => ¬ v.IsDegraded := by
  have hcrossing : (judgements.map Judgement.strictly).filterMap Judgement.crossing? =
      (judgements.filterMap Judgement.crossing?).filter fun v => ¬ v.IsDegraded := by
    rw [List.filterMap_map, List.filter_filterMap]
    exact List.filterMap_congr fun j _ => Judgement.crossing?_strictly
  rw [values_crossing (gives_judgements_strictMode h), hcrossing]
  refine Variable.mergeSort_eq_of_perm ?_ ((pairwise_precedes h).filter _)
  rw [values_crossing h]
  exact ((List.mergeSort_perm _ _).filter _).symm

theorem mem_unresolved_strictly
    (hv : v ∈ (Classification.ofJudgements judgements).crossing.values) :
    v.symbol ∈ (Classification.ofJudgements (judgements.map Judgement.strictly)).unresolved.map
      Prod.fst ↔ v.IsDegraded := by
  obtain ⟨j, hj, hcrossing⟩ := (mem_crossing_iff h).mp hv
  obtain ⟨raw, hstands⟩ := exists_stands h hj
  have hid := (hstands.madeOf hcrossing).1
  rw [mem_unresolved_iff, ← Judgement.unresolved_strictly hcrossing]
  constructor
  · rintro ⟨_, hk, heq, hfate⟩
    obtain ⟨k, hmem, rfl⟩ := List.mem_map.mp hk
    cases List.inj_on_of_nodup_map (nodup_map_id h) hmem hj (heq.trans hid)
    exact hfate
  · intro hfate
    exact ⟨j.strictly, List.mem_map_of_mem hj, hid.symm, hfate⟩

theorem any_forcesReturn_strictly :
    (judgements.map Judgement.strictly).any Judgement.forcesReturn =
      judgements.any Judgement.forcesReturn := by
  rw [Bool.eq_iff_iff, List.any_map, List.any_eq_true, List.any_eq_true]
  refine exists_congr fun j => and_congr_right fun hj => ?_
  obtain ⟨entry, -, hjudge⟩ := Poll.exists_visit_of_mem h hj
  rw [Function.comp, forcesReturn_strictly hjudge]

theorem strengthens_strictly :
    (Classification.ofJudgements (judgements.map Judgement.strictly)).Strengthens
      (.ofJudgements judgements) := by
  have hreceivers : (judgements.map Judgement.strictly).filter Judgement.isReceiver =
      (judgements.filter Judgement.isReceiver).map Judgement.strictly := by
    rw [List.filter_map]
    simp only [Function.comp_def, Judgement.isReceiver_strictly]
  refine ⟨values_crossing_strictly h, fun v hv => mem_unresolved_strictly h hv,
    any_forcesReturn_strictly h, ?_, ?_⟩
  · simp only [Classification.ofJudgements, hreceivers, List.any_map, List.findSome?_map]
    rfl
  · simp only [Classification.ofJudgements, List.any_map, Function.comp_def,
      Judgement.usesPrimaryParameter_strictly]

end OfJudgements

/-- What is classified in best-effort mode is classified in strict mode too. -/
theorem exists_gives_classify_strictMode
    (h : Gives (classify s options.bestEffortMode model facts) c) :
    ∃ strict, Gives (classify s options.strictMode model facts) strict ∧ strict.Strengthens c := by
  obtain ⟨judgements, hj, rfl⟩ := gives_classify.mp h
  exact ⟨_, gives_classify.mpr ⟨_, gives_judgements_strictMode hj, rfl⟩, strengthens_strictly hj⟩

end Boundary

end ExtractMethod
