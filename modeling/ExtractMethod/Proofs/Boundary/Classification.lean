import ExtractMethod.Boundary.Classification
import ExtractMethod.Proofs.Boundary.Table
import ExtractMethod.Proofs.Keyed
import ExtractMethod.Proofs.Patience
import ExtractMethod.Proofs.Ty.Traversal

/-! Where the variables of a classification come from. -/
namespace ExtractMethod.Boundary

open ExtractMethod.Flow (DataFlow Flags)
open Model (Snapshot Symbol)
open Poll (Gives Steady)

variable {s : Selection} {options : Options} {model : Snapshot} {facts : DataFlow}
  {c : Classification} {v w : Variable} {raw : Flags} {symbol : Symbol} {j : Judgement}
  {judgements : List Judgement} {id : Nat}

/-- The variable was made of a symbol and the facts about it. -/
structure MadeOf (s : Selection) (options : Options) (model : Snapshot) (raw : Flags)
    (symbol : Symbol) (ty : Ty) (v : Variable) : Prop where
  symbol_eq : model.symbol? v.symbol = some symbol
  ty_eq : symbol.ty = some ty
  name : v.name = symbol.name
  emitted : v.ty = emittedType model v.symbol ty
  style_eq : styleOf? s options ty (adjust raw symbol.isStaticLocal) = some v.style
  notReturned : v.isReturned = false
  hadAnonymous : v.hadAnonymous = ty.hasAnonymous

variable {ty : Ty}

/-- What is known of a variable changes nothing about its anonymous types. -/
theorem hasAnonymous_knownType (id : Nat) (ty : Ty) :
    (knownType model id ty).hasAnonymous = ty.hasAnonymous := by
  rw [knownType]
  split
  · exact ty.hasAnonymous_withoutAnnotation
  · rfl

theorem exists_styleOf?_of_isOutput {flags : Flags} (h : IsOutput flags) :
    ∃ style, styleOf? s options ty flags = some style ∧ style.canBeReturned := by
  obtain ⟨style, hstyle, hreturned⟩ := exists_overridden?_of_isOutput h
  exact ⟨style, by rw [styleOf?, hstyle], hreturned⟩

theorem styleOf?_of_isInput {flags : Flags} (h : IsInput flags) :
    styleOf? s options ty flags = some (inputStyle flags (isReturnForced s options ty)) := by
  rw [styleOf?, overridden?_of_isInput h]

namespace MadeOf

variable (h : MadeOf s options model raw symbol ty v)
include h

theorem canBeReturned (ho : IsOutput (adjust raw symbol.isStaticLocal)) :
    v.style.canBeReturned := by
  obtain ⟨style, hstyle, hreturned⟩ := exists_styleOf?_of_isOutput ho
  have heq : v.style = style := Option.some.inj (h.style_eq.symm.trans hstyle)
  rwa [heq]

theorem bringsIn_iff (hi : IsInput raw) :
    v.style.BringsIn ↔ (raw.writtenInside → raw.flowsOut) := by
  have heq := Option.some.inj (h.style_eq.symm.trans (styleOf?_of_isInput (isInput_adjust hi)))
  rw [heq, bringsIn_inputStyle, adjust_of_not_declaredInside hi.notDeclaredInside]

end MadeOf

/-- What may become of a candidate, and when. -/
inductive FateOf (s : Selection) (options : Options) (model : Snapshot) (id : Nat) (symbol : Symbol)
    (raw : Flags) : Fate → Prop where
  | exempt {reason : Exemption} (h : exemption? s symbol = some reason) :
    FateOf s options model id symbol raw (.ignored reason)
  | isLocal (he : exemption? s symbol = none)
    (hl : isLocalToRegion (adjust raw symbol.isStaticLocal)) :
    FateOf s options model id symbol raw (.ignored .localToSelection)
  | unresolved {ty : Ty} (he : exemption? s symbol = none)
    (hl : ¬ isLocalToRegion (adjust raw symbol.isStaticLocal)) (hty : symbol.ty = some ty)
    (hstyle : styleOf? s options ty (adjust raw symbol.isStaticLocal) = none) :
    FateOf s options model id symbol raw .unresolved
  | crosses {ty : Ty} {v : Variable} {forces : Bool} (he : exemption? s symbol = none)
    (hl : ¬ isLocalToRegion (adjust raw symbol.isStaticLocal)) (hid : v.symbol = id)
    (hmade : MadeOf s options model raw symbol ty v) :
    FateOf s options model id symbol raw (.crosses v forces)

theorem fateOf_judgeVariable {fate : Fate} (hsymbol : model.symbol? id = some symbol)
    (he : exemption? s symbol = none)
    (h : judgeVariable s options model id symbol raw = .ok fate) :
    FateOf s options model id symbol raw fate := by
  unfold judgeVariable at h
  dsimp only at h
  split at h
  · next hl =>
    cases h
    exact .isLocal he hl
  · next hl =>
    split at h
    · cases h
    · next ty hty =>
      split at h
      · next hstyle =>
        cases h
        exact .unresolved he hl hty hstyle
      · next style hstyle =>
        cases h
        exact .crosses he hl rfl ⟨hsymbol, hty, rfl, rfl, hstyle, rfl,
          hasAnonymous_knownType _ ty⟩

/-- Exactly the candidates are judged, and the host knows their symbols. -/
theorem judge_eq_ok {found : Option Judgement}
    (h : judge s options model (id, raw) = .ok found) :
    (¬ raw.isCandidate ∧ found = none) ∨ ∃ j, found = some j ∧ j.id = id ∧ j.flags = raw ∧
      raw.isCandidate ∧ model.symbol? id = some j.symbol ∧
        FateOf s options model id j.symbol raw j.fate := by
  unfold judge at h
  dsimp only at h
  split at h
  · next hc =>
    refine Or.inr ?_
    split at h
    · cases h
    · next symbol hsymbol =>
      split at h
      · next reason he =>
        cases h
        exact ⟨_, rfl, rfl, rfl, hc, hsymbol, .exempt he⟩
      · next he =>
        cases hfate : judgeVariable s options model id symbol raw with
        | error e =>
          rw [hfate] at h
          cases h
        | ok fate =>
          rw [hfate] at h
          cases h
          exact ⟨_, rfl, rfl, rfl, hc, hsymbol, fateOf_judgeVariable hsymbol he hfate⟩
  · next hc =>
    cases h
    exact Or.inl ⟨hc, rfl⟩

/-- A judgement of a classification is about the facts that the host gave. -/
structure Judgement.Stands (s : Selection) (options : Options) (model : Snapshot) (facts : DataFlow)
    (j : Judgement) (raw : Flags) : Prop where
  facts_eq : facts.get? j.id = some raw
  flags_eq : j.flags = raw
  isCandidate : raw.isCandidate
  symbol_eq : model.symbol? j.id = some j.symbol
  fate : FateOf s options model j.id j.symbol raw j.fate

theorem Judgement.crossing?_eq_some_iff :
    j.crossing? = some v ↔ ∃ forces, j.fate = .crosses v forces := by
  rw [crossing?]
  cases j.fate <;> simp

theorem Judgement.ignored?_eq_some_iff {entry : Nat × Exemption} :
    j.ignored? = some entry ↔ ∃ reason, j.fate = .ignored reason ∧ (j.id, reason) = entry := by
  rw [ignored?]
  cases j.fate <;> simp

theorem Judgement.unresolved?_eq_some_iff {entry : Nat × Name} :
    j.unresolved? = some entry ↔ j.fate = .unresolved ∧ (j.id, j.symbol.name) = entry := by
  rw [unresolved?]
  cases j.fate <;> simp

theorem Judgement.Stands.madeOf (h : j.Stands s options model facts raw)
    (hv : j.crossing? = some v) :
    v.symbol = j.id ∧ ∃ ty, MadeOf s options model raw j.symbol ty v := by
  obtain ⟨forces, hj⟩ := crossing?_eq_some_iff.mp hv
  have hfate := h.fate
  rw [hj] at hfate
  cases hfate with
  | crosses he hl hid hmade => exact ⟨hid, _, hmade⟩

instance : Steady (classify s options model facts).run := by
  simp only [classify]
  infer_instance

theorem gives_classify : Gives (classify s options model facts) c ↔
    ∃ judgements, Gives (Poll.collect (judge s options model) facts.entries) judgements ∧
      c = .ofJudgements judgements := by
  simp only [classify]
  simp only [Poll.gives_bind, Poll.gives_pure, eq_comm]

theorem exists_stands
    (h : Gives (Poll.collect (judge s options model) facts.entries) judgements)
    (hj : j ∈ judgements) : ∃ raw, j.Stands s options model facts raw := by
  obtain ⟨⟨id, raw⟩, hfacts, hjudge⟩ := Poll.exists_visit_of_mem h hj
  rcases judge_eq_ok hjudge with ⟨-, hnone⟩ | ⟨_, hsome, rfl, hflags, hc, hsymbol, hfate⟩
  · cases hnone
  · cases hsome
    exact ⟨raw, Keyed.get?_eq_some_iff.mpr hfacts, hflags, hc, hsymbol, hfate⟩

theorem mem_crossing_ofJudgements {entry : Nat × Variable}
    (h : entry ∈ (Classification.ofJudgements judgements).crossing.entries) :
    entry.1 = entry.2.symbol ∧ ∃ j ∈ judgements, j.crossing? = some entry.2 := by
  have hmem := Keyed.mem_of_mem_ofList h
  simp only [List.mem_map, List.mem_mergeSort, List.mem_filterMap] at hmem
  obtain ⟨v, hv, rfl⟩ := hmem
  exact ⟨rfl, hv⟩

/-- Every variable was made of facts that the host gave. -/
theorem exists_madeOf_of_mem_crossing (h : Gives (classify s options model facts) c)
    (hv : v ∈ c.crossing.values) :
    ∃ raw symbol ty, facts.get? v.symbol = some raw ∧ MadeOf s options model raw symbol ty v := by
  obtain ⟨judgements, hjudgements, rfl⟩ := gives_classify.mp h
  obtain ⟨entry, hentry, rfl⟩ := List.mem_map.mp hv
  obtain ⟨-, j, hj, hcrossing⟩ := mem_crossing_ofJudgements hentry
  obtain ⟨raw, hstands⟩ := exists_stands hjudgements hj
  obtain ⟨hid, ty, hmade⟩ := hstands.madeOf hcrossing
  exact ⟨raw, j.symbol, ty, hid ▸ hstands.facts_eq, hmade⟩

/-- No symbol has two variables. -/
theorem eq_of_mem_crossing (h : Gives (classify s options model facts) c)
    (hv : v ∈ c.crossing.values) (hw : w ∈ c.crossing.values) (hsymbol : v.symbol = w.symbol) :
    v = w := by
  obtain ⟨judgements, -, rfl⟩ := gives_classify.mp h
  obtain ⟨a, ha, rfl⟩ := List.mem_map.mp hv
  obtain ⟨b, hb, rfl⟩ := List.mem_map.mp hw
  have hkey : a.1 = b.1 := by
    rw [(mem_crossing_ofJudgements ha).1, (mem_crossing_ofJudgements hb).1, hsymbol]
  rw [List.inj_on_of_nodup_map (Keyed.nodup _) ha hb hkey]

end ExtractMethod.Boundary
