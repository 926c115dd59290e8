import ExtractMethod.Proofs.Boundary.Judgements
import ExtractMethod.Proofs.Selection.Legal

/-! Every candidate of the facts is accounted for once: it crosses the boundary, or is left out for
a reason, or is reported because the facts about it contradict each other. -/
namespace ExtractMethod.Boundary

open ExtractMethod.Flow (DataFlow Flags)
open Model (Snapshot Symbol)
open Poll (Gives)

variable {s : Selection} {options : Options} {model : Snapshot} {facts : DataFlow}
  {c : Classification} {v : Variable} {raw flags : Flags} {symbol : Symbol} {ty : Ty}
  {j : Judgement} {judgements : List Judgement} {fate : Fate} {id : Nat}

/-- The symbols that a classification says something about: those that cross the boundary, those
that are left out, and those that no rule applies to. -/
def Classification.accounted (c : Classification) : List Nat :=
  c.crossing.keys ++ c.ignored.keys ++ c.unresolved.map Prod.fst

/-- The facts about a symbol contradict each other, and its type does not decide how it is
passed. -/
def IsUnclear (model : Snapshot) (facts : DataFlow) (id : Nat) : Prop :=
  ∃ raw symbol ty, facts.get? id = some raw ∧ model.symbol? id = some symbol ∧
    symbol.ty = some ty ∧ IsContradictory raw ∧ ¬ ty.isValueType

theorem styleOf?_eq_none_iff (hc : flags.isCandidate) : styleOf? s options ty flags = none ↔
    ¬ options.bestEffort ∧ IsContradictory flags ∧ ¬ ty.isValueType := by
  rw [← overridden?_style?_eq_none_iff hc (isReturnForced s options ty), styleOf?]
  cases overridden? (style? flags) flags ty.isValueType (isReturnForced s options ty) with
  | none => cases options.bestEffort <;> simp
  | some style => simp

/-- A variable that is seen outside is left alone only where no rule applies to it. -/
theorem styleOf?_eq_some_none_iff (hc : flags.isCandidate) (hl : ¬ isLocalToRegion flags) :
    styleOf? s options ty flags = some .none ↔
      options.bestEffort ∧ IsContradictory flags ∧ ¬ ty.isValueType := by
  rw [← overridden?_style?_eq_none_iff hc (isReturnForced s options ty), styleOf?]
  cases hstyle : overridden? (style? flags) flags ty.isValueType (isReturnForced s options ty) with
  | none => cases options.bestEffort <;> simp
  | some style =>
    have hne : style ≠ .none := by
      rintro rfl
      exact hl (isLocalToRegion_of_style? (eq_none_of_overridden? hstyle))
    simp [hne]

namespace Judgement.Stands

variable (h : j.Stands s options model facts raw)
include h

theorem isUnclear_iff (hty : j.symbol.ty = some ty) :
    IsUnclear model facts j.id ↔ IsContradictory raw ∧ ¬ ty.isValueType := by
  constructor
  · rintro ⟨raw', symbol', ty', hraw, hsymbol, hty', hunclear⟩
    rw [h.facts_eq, Option.some.injEq] at hraw
    rw [h.symbol_eq, Option.some.injEq] at hsymbol
    rw [← hsymbol, hty, Option.some.injEq] at hty'
    rw [hraw, hty']
    exact hunclear
  · rintro ⟨hcontra, hvalue⟩
    exact ⟨raw, j.symbol, ty, h.facts_eq, h.symbol_eq, hty, hcontra, hvalue⟩

/-- What is unresolved is unclear, and the options leave nothing alone. -/
theorem isUnclear_of_unresolved (hj : j.fate = .unresolved) :
    ¬ options.bestEffort ∧ IsUnclear model facts j.id := by
  have hc : (adjust raw j.symbol.isStaticLocal).isCandidate := h.isCandidate
  have hfate := h.fate
  rw [hj] at hfate
  cases hfate with
  | unresolved he hl hty hstyle =>
    rw [styleOf?_eq_none_iff hc, isContradictory_adjust] at hstyle
    exact ⟨hstyle.1, (h.isUnclear_iff hty).mpr hstyle.2⟩

/-- What crosses the boundary is left alone exactly if it is unclear, and then the options ask for
that. -/
theorem style_eq_none_iff {forces : Bool} (hj : j.fate = .crosses v forces) :
    (v.style = .none ↔ IsUnclear model facts j.id) ∧
      (IsUnclear model facts j.id → options.bestEffort) := by
  have hc : (adjust raw j.symbol.isStaticLocal).isCandidate := h.isCandidate
  have hfate := h.fate
  rw [hj] at hfate
  cases hfate with
  | crosses he hl hid hmade =>
    have hbest : IsUnclear model facts j.id → options.bestEffort := by
      intro hunclear
      rw [h.isUnclear_iff hmade.ty_eq, ← isContradictory_adjust] at hunclear
      by_contra hnot
      have hsome := hmade.style_eq
      rw [(styleOf?_eq_none_iff hc).mpr ⟨hnot, hunclear⟩] at hsome
      cases hsome
    refine ⟨?_, hbest⟩
    constructor
    · intro hstyle
      have hsome := hmade.style_eq
      rw [hstyle, styleOf?_eq_some_none_iff hc hl, isContradictory_adjust] at hsome
      exact (h.isUnclear_iff hmade.ty_eq).mpr hsome.2
    · intro hunclear
      have hcontra := (h.isUnclear_iff hmade.ty_eq).mp hunclear
      rw [← isContradictory_adjust] at hcontra
      have hsome := hmade.style_eq
      rw [(styleOf?_eq_some_none_iff hc hl).mpr ⟨hbest hunclear, hcontra⟩, Option.some.injEq]
        at hsome
      exact hsome.symm

end Judgement.Stands

/-- What a classification says of the candidates of some facts. -/
structure Classification.Accounts (options : Options) (model : Snapshot) (facts : DataFlow)
    (c : Classification) : Prop where
  /-- No symbol is accounted for twice. -/
  nodup : c.accounted.Nodup
  mem_iff (id : Nat) : id ∈ c.accounted ↔ ∃ raw, facts.get? id = some raw ∧ raw.isCandidate
  keys_eq : c.crossing.keys = c.crossing.values.map Variable.symbol
  ordered : c.crossing.values.Pairwise Variable.Precedes
  unresolved_iff (id : Nat) : id ∈ c.unresolved.map Prod.fst ↔
    ¬ options.bestEffort ∧ id ∉ c.ignored.keys ∧ IsUnclear model facts id
  unresolved_eq_nil : options.bestEffort → c.unresolved = []
  leftAlone_iff (id : Nat) : (∃ v ∈ c.crossing.values, v.symbol = id ∧ v.style = .none) ↔
    options.bestEffort ∧ id ∉ c.ignored.keys ∧ IsUnclear model facts id

theorem not_mem_ignored (hnodup : c.accounted.Nodup)
    (hid : id ∈ c.crossing.keys ∨ id ∈ c.unresolved.map Prod.fst) : id ∉ c.ignored.keys := by
  intro hignored
  rw [Classification.accounted, List.nodup_append, List.nodup_append] at hnodup
  obtain ⟨⟨-, -, hcrossing⟩, -, hunresolved⟩ := hnodup
  rcases hid with hid | hid
  · exact hcrossing id hid id hignored rfl
  · exact hunresolved id (List.mem_append_right _ hignored) id hid rfl

section OfJudgements

variable (h : Gives (Poll.collect (judge s options model) facts.entries) judgements)
include h

theorem perm_accounted :
    (Classification.ofJudgements judgements).accounted.Perm (judgements.map Judgement.id) := by
  refine List.Perm.trans ?_ (perm_map_id_of_gives h)
  rw [Classification.accounted, Keyed.keys, entries_crossing h, List.map_map, Keyed.keys,
    entries_ignored h]
  exact (((List.mergeSort_perm _ _).map Variable.symbol).append_right _).append_right _

theorem mem_accounted_iff : id ∈ (Classification.ofJudgements judgements).accounted ↔
    ∃ raw, facts.get? id = some raw ∧ raw.isCandidate := by
  rw [(perm_accounted h).mem_iff, mem_map_id_iff h]

theorem nodup_accounted : (Classification.ofJudgements judgements).accounted.Nodup :=
  (perm_accounted h).nodup_iff.mpr (nodup_map_id h)

/-- An unclear symbol that is not ignored has a judgement that says so. -/
theorem exists_of_isUnclear
    (hignored : id ∉ (Classification.ofJudgements judgements).ignored.keys)
    (hunclear : IsUnclear model facts id) : ∃ j ∈ judgements, j.id = id ∧
      (j.fate = .unresolved ∨ ∃ v forces, j.fate = .crosses v forces) := by
  obtain ⟨raw, symbol, ty, hraw, -, -, hcontra, -⟩ := hunclear
  have hc : raw.isCandidate := by simp [Flags.isCandidate, hcontra.declaredInside]
  obtain ⟨j, hj, rfl⟩ := List.mem_map.mp ((mem_map_id_iff h).mpr ⟨raw, hraw, hc⟩)
  refine ⟨j, hj, rfl, ?_⟩
  cases hfate : j.fate with
  | ignored reason => exact absurd ((mem_ignored_iff h).mpr ⟨j, hj, rfl, reason, hfate⟩) hignored
  | unresolved => exact Or.inl rfl
  | crosses v forces => exact Or.inr ⟨v, forces, rfl⟩

theorem mem_unresolved_iff_isUnclear :
    id ∈ (Classification.ofJudgements judgements).unresolved.map Prod.fst ↔ ¬ options.bestEffort ∧
      id ∉ (Classification.ofJudgements judgements).ignored.keys ∧ IsUnclear model facts id := by
  constructor
  · intro hid
    have hignored := not_mem_ignored (nodup_accounted h) (Or.inr hid)
    obtain ⟨j, hj, rfl, hfate⟩ := mem_unresolved_iff.mp hid
    obtain ⟨raw, hstands⟩ := exists_stands h hj
    obtain ⟨hbest, hunclear⟩ := hstands.isUnclear_of_unresolved hfate
    exact ⟨hbest, hignored, hunclear⟩
  · rintro ⟨hbest, hignored, hunclear⟩
    obtain ⟨j, hj, rfl, hfate | ⟨v, forces, hfate⟩⟩ := exists_of_isUnclear h hignored hunclear
    · exact mem_unresolved_iff.mpr ⟨j, hj, rfl, hfate⟩
    · obtain ⟨raw, hstands⟩ := exists_stands h hj
      exact absurd ((hstands.style_eq_none_iff hfate).2 hunclear) hbest

theorem exists_style_none_iff :
    (∃ v ∈ (Classification.ofJudgements judgements).crossing.values, v.symbol = id ∧
      v.style = .none) ↔ options.bestEffort ∧
        id ∉ (Classification.ofJudgements judgements).ignored.keys ∧ IsUnclear model facts id := by
  constructor
  · rintro ⟨v, hv, rfl, hstyle⟩
    have hkey : v.symbol ∈ (Classification.ofJudgements judgements).crossing.keys := by
      rw [keys_crossing h]
      exact List.mem_map_of_mem hv
    have hignored := not_mem_ignored (nodup_accounted h) (Or.inl hkey)
    obtain ⟨j, hj, hcrossing⟩ := (mem_crossing_iff h).mp hv
    obtain ⟨raw, hstands⟩ := exists_stands h hj
    obtain ⟨forces, hfate⟩ := Judgement.crossing?_eq_some_iff.mp hcrossing
    obtain ⟨hiff, hbest⟩ := hstands.style_eq_none_iff hfate
    rw [(hstands.madeOf hcrossing).1] at hignored ⊢
    have hunclear := hiff.mp hstyle
    exact ⟨hbest hunclear, hignored, hunclear⟩
  · rintro ⟨hbest, hignored, hunclear⟩
    obtain ⟨j, hj, rfl, hfate | ⟨v, forces, hfate⟩⟩ := exists_of_isUnclear h hignored hunclear
    · obtain ⟨raw, hstands⟩ := exists_stands h hj
      exact absurd hbest (hstands.isUnclear_of_unresolved hfate).1
    · obtain ⟨raw, hstands⟩ := exists_stands h hj
      have hcrossing := Judgement.crossing?_eq_some_iff.mpr ⟨forces, hfate⟩
      exact ⟨v, (mem_crossing_iff h).mpr ⟨j, hj, hcrossing⟩, (hstands.madeOf hcrossing).1,
        (hstands.style_eq_none_iff hfate).1.mpr hunclear⟩

end OfJudgements

theorem isResolved_eq_false_iff (h : Gives (classify s options model facts) c) :
    c.isResolved = false ↔ ¬ options.bestEffort ∧
      ∃ id, id ∉ c.ignored.keys ∧ IsUnclear model facts id := by
  obtain ⟨judgements, hj, rfl⟩ := gives_classify.mp h
  rw [Classification.isResolved, List.isEmpty_eq_false_iff_exists_mem]
  constructor
  · rintro ⟨entry, hentry⟩
    obtain ⟨hbest, hignored, hunclear⟩ :=
      (mem_unresolved_iff_isUnclear hj).mp (List.mem_map_of_mem hentry)
    exact ⟨hbest, entry.1, hignored, hunclear⟩
  · rintro ⟨hbest, id, hignored, hunclear⟩
    obtain ⟨entry, hentry, -⟩ :=
      List.mem_map.mp ((mem_unresolved_iff_isUnclear hj).mpr ⟨hbest, hignored, hunclear⟩)
    exact ⟨entry, hentry⟩

/-- Every candidate is accounted for exactly once, and nothing else is. -/
theorem classify_accounts {patience : Patience}
    (h : Poll.run (classify s options model facts).run patience = .ok (.ok c)) :
    c.Accounts options model facts := by
  obtain ⟨judgements, hj, rfl⟩ := gives_classify.mp (Poll.gives_of_run h)
  refine ⟨nodup_accounted hj, fun id => mem_accounted_iff hj, keys_crossing hj,
    pairwise_precedes hj, fun id => mem_unresolved_iff_isUnclear hj, ?_,
    fun id => exists_style_none_iff hj⟩
  intro hbest
  rw [← List.map_eq_nil_iff, List.eq_nil_iff_forall_not_mem]
  intro id hid
  exact ((mem_unresolved_iff_isUnclear hj).mp hid).1 hbest

/-- A host that knows a receiver, two variables, one that is declared and seen only inside, one that
flows out without ever being written, and one that the code does not touch. -/
def ofSixSymbols : Snapshot := .ofWrites [
  .symbol ⟨0, "this", .receiver, none, none⟩, .symbol ⟨1, "z", .ordinaryLocal, some .int, none⟩,
  .symbol ⟨2, "a", .ordinaryLocal, some .object, none⟩,
  .symbol ⟨3, "b", .ordinaryLocal, some .object, none⟩,
  .symbol ⟨4, "c", .ordinaryLocal, some .object, none⟩,
  .symbol ⟨5, "d", .ordinaryLocal, some .object, none⟩]

def factsOfSixSymbols : DataFlow := .ofList [
  (0, .ofFacts [.readInside]), (1, .ofFacts [.readInside]), (2, .ofFacts [.writtenInside]),
  (3, .ofFacts [.declaredInside, .writtenInside]), (4, .ofFacts [.declaredInside, .flowsOut]),
  (5, .ofFacts [.readOutside])]

/-- The five candidates are accounted for, and the variables are in the order of their names. -/
theorem ofSixSymbols_classify_accounts : ∃ s c,
    Poll.run (classify s {} ofSixSymbols factsOfSixSymbols).run .unlimited = .ok (.ok c) ∧
      c.crossing.keys = [2, 1] ∧ c.ignored.keys = [0, 3] ∧ c.unresolved = [(4, "c")] ∧
      c.Accounts {} ofSixSymbols factsOfSixSymbols := by
  have h : ((Document.ofTwoNames.select (.ofLength 17 4) {}).toOption.bind fun s =>
      (Poll.run (classify s {} ofSixSymbols factsOfSixSymbols).run .unlimited).toOption.bind
        Except.toOption).map (fun c => (c.crossing.keys, c.ignored.keys, c.unresolved)) =
          some ([2, 1], [0, 3], [(4, "c")]) := by
    simp only [classify, Classification.ofJudgements,
      Variable.mergeSort_eq_insertionSort fun v => v]
    decide +kernel
  obtain ⟨c, hc, hview⟩ := Option.map_eq_some_iff.mp h
  obtain ⟨s, -, hrun⟩ := Option.bind_eq_some_iff.mp hc
  obtain ⟨result, hresult, hok⟩ := Option.bind_eq_some_iff.mp hrun
  cases Poll.eq_ok_of_toOption hok
  have hclassify := Poll.eq_ok_of_toOption hresult
  simp only [Prod.mk.injEq] at hview
  exact ⟨s, c, hclassify, hview.1, hview.2.1, hview.2.2, classify_accounts hclassify⟩

end ExtractMethod.Boundary
