import ExtractMethod.Proofs.Boundary.Classification
import ExtractMethod.Proofs.Boundary.Order

/-! The judgements about the candidates, and the three lists that a classification makes of them. -/
namespace ExtractMethod.Boundary

open ExtractMethod.Flow (DataFlow Flags)
open Model (Snapshot)
open Poll (Gives)

variable {s : Selection} {options : Options} {model : Snapshot} {facts : DataFlow}
  {c : Classification} {v : Variable} {j : Judgement} {judgements : List Judgement} {id : Nat}

theorem sublist_of_filterMap {α β γ : Type} {f : α → Option β} {g : β → γ} {k : α → γ}
    {xs : List α} (h : ∀ a ∈ xs, ∀ b, f a = some b → g b = k a) :
    ((xs.filterMap f).map g).Sublist (xs.map k) := by
  induction xs with
  | nil => exact .slnil
  | cons a rest ih =>
    have hrest := ih fun b hb => h b (List.mem_cons_of_mem _ hb)
    cases hf : f a with
    | none =>
      rw [List.filterMap_cons_none hf]
      exact hrest.cons _
    | some b =>
      rw [List.filterMap_cons_some hf, List.map_cons, List.map_cons, h a List.mem_cons_self b hf]
      exact hrest.cons_cons _

theorem nodup_map_id (h : Gives (Poll.collect (judge s options model) facts.entries) judgements) :
    (judgements.map Judgement.id).Nodup := by
  obtain ⟨-, rfl⟩ := Poll.gives_collect.mp h
  refine List.Sublist.nodup (sublist_of_filterMap ?_) facts.nodup
  rintro ⟨id, raw⟩ - j hfound
  have hjudge : judge s options model (id, raw) = .ok (some j) :=
    Poll.eq_ok_of_toOption (Option.join_eq_some_iff.mp hfound)
  rcases judge_eq_ok hjudge with ⟨-, hnone⟩ | ⟨_, hsome, hid, -⟩
  · cases hnone
  · cases hsome
    exact hid

/-- The candidates are exactly what is judged. -/
theorem mem_map_id_iff (h : Gives (Poll.collect (judge s options model) facts.entries) judgements) :
    id ∈ judgements.map Judgement.id ↔ ∃ raw, facts.get? id = some raw ∧ raw.isCandidate := by
  constructor
  · intro hid
    obtain ⟨j, hj, rfl⟩ := List.mem_map.mp hid
    obtain ⟨raw, hstands⟩ := exists_stands h hj
    exact ⟨raw, hstands.facts_eq, hstands.isCandidate⟩
  · rintro ⟨raw, hraw, hc⟩
    obtain ⟨hall, rfl⟩ := Poll.gives_collect.mp h
    have hentry := Keyed.get?_eq_some_iff.mp hraw
    obtain ⟨found, hfound⟩ := hall _ hentry
    rcases judge_eq_ok hfound with ⟨hnot, -⟩ | ⟨j, rfl, hid, -⟩
    · exact absurd hc hnot
    · exact List.mem_map.mpr ⟨j, List.mem_filterMap.mpr ⟨_, hentry, by rw [hfound]; rfl⟩, hid⟩

/-- Every judgement is in one of the three lists. -/
theorem perm_map_id (h : ∀ j ∈ judgements, ∀ v, j.crossing? = some v → v.symbol = j.id) :
    ((judgements.filterMap Judgement.crossing?).map Variable.symbol ++
      (judgements.filterMap Judgement.ignored?).map Prod.fst ++
      (judgements.filterMap Judgement.unresolved?).map Prod.fst).Perm
        (judgements.map Judgement.id) := by
  induction judgements with
  | nil => exact .nil
  | cons j rest ih =>
    have hrest := (ih fun k hk => h k (List.mem_cons_of_mem _ hk)).cons j.id
    cases hfate : j.fate with
    | crosses v forces =>
      have hcrossing : j.crossing? = some v := by rw [Judgement.crossing?, hfate]
      have hignored : j.ignored? = none := by rw [Judgement.ignored?, hfate]
      have hunresolved : j.unresolved? = none := by rw [Judgement.unresolved?, hfate]
      rw [List.filterMap_cons_some hcrossing, List.filterMap_cons_none hignored,
        List.filterMap_cons_none hunresolved, List.map_cons, List.map_cons,
        h j List.mem_cons_self v hcrossing]
      exact hrest
    | ignored reason =>
      have hcrossing : j.crossing? = none := by rw [Judgement.crossing?, hfate]
      have hignored : j.ignored? = some (j.id, reason) := by rw [Judgement.ignored?, hfate]
      have hunresolved : j.unresolved? = none := by rw [Judgement.unresolved?, hfate]
      rw [List.filterMap_cons_none hcrossing, List.filterMap_cons_some hignored,
        List.filterMap_cons_none hunresolved, List.map_cons, List.append_assoc]
      rw [List.append_assoc] at hrest
      exact List.perm_middle.trans hrest
    | unresolved =>
      have hcrossing : j.crossing? = none := by rw [Judgement.crossing?, hfate]
      have hignored : j.ignored? = none := by rw [Judgement.ignored?, hfate]
      have hunresolved : j.unresolved? = some (j.id, j.symbol.name) := by
        rw [Judgement.unresolved?, hfate]
      rw [List.filterMap_cons_none hcrossing, List.filterMap_cons_none hignored,
        List.filterMap_cons_some hunresolved, List.map_cons]
      exact List.perm_middle.trans hrest

section OfJudgements

variable (h : Gives (Poll.collect (judge s options model) facts.entries) judgements)
include h

theorem perm_map_id_of_gives :
    ((judgements.filterMap Judgement.crossing?).map Variable.symbol ++
      (judgements.filterMap Judgement.ignored?).map Prod.fst ++
      (judgements.filterMap Judgement.unresolved?).map Prod.fst).Perm
        (judgements.map Judgement.id) := by
  refine perm_map_id fun j hj v hv => ?_
  obtain ⟨raw, hstands⟩ := exists_stands h hj
  exact (hstands.madeOf hv).1

theorem nodup_crossing :
    ((judgements.filterMap Judgement.crossing?).map Variable.symbol).Nodup := by
  have hnodup := (perm_map_id_of_gives h).nodup_iff.mpr (nodup_map_id h)
  exact (List.nodup_append.mp (List.nodup_append.mp hnodup).1).1

theorem entries_crossing : (Classification.ofJudgements judgements).crossing.entries =
    ((judgements.filterMap Judgement.crossing?).mergeSort Variable.le).map fun v =>
      (v.symbol, v) := by
  refine Keyed.entries_ofList ?_
  rw [List.map_map]
  exact (((List.mergeSort_perm _ _).map Variable.symbol).nodup_iff).mpr (nodup_crossing h)

theorem values_crossing : (Classification.ofJudgements judgements).crossing.values =
    (judgements.filterMap Judgement.crossing?).mergeSort Variable.le := by
  rw [Keyed.values, entries_crossing h, List.map_map]
  exact List.map_id _

theorem mem_crossing_iff : v ∈ (Classification.ofJudgements judgements).crossing.values ↔
    ∃ j ∈ judgements, j.crossing? = some v := by
  rw [values_crossing h, List.mem_mergeSort, List.mem_filterMap]

theorem entries_ignored : (Classification.ofJudgements judgements).ignored.entries =
    judgements.filterMap Judgement.ignored? := by
  have hnodup := (perm_map_id_of_gives h).nodup_iff.mpr (nodup_map_id h)
  exact Keyed.entries_ofList (List.nodup_append.mp (List.nodup_append.mp hnodup).1).2.1

theorem mem_ignored_iff : id ∈ (Classification.ofJudgements judgements).ignored.keys ↔
    ∃ j ∈ judgements, j.id = id ∧ ∃ reason, j.fate = .ignored reason := by
  rw [Keyed.keys, entries_ignored h, List.mem_map]
  constructor
  · rintro ⟨entry, hentry, rfl⟩
    obtain ⟨j, hj, hignored⟩ := List.mem_filterMap.mp hentry
    obtain ⟨reason, hfate, rfl⟩ := Judgement.ignored?_eq_some_iff.mp hignored
    exact ⟨j, hj, rfl, reason, hfate⟩
  · rintro ⟨j, hj, rfl, reason, hfate⟩
    have hignored := Judgement.ignored?_eq_some_iff.mpr ⟨reason, hfate, rfl⟩
    exact ⟨_, List.mem_filterMap.mpr ⟨j, hj, hignored⟩, rfl⟩

omit h in
theorem mem_unresolved_iff : id ∈ (Classification.ofJudgements judgements).unresolved.map Prod.fst ↔
    ∃ j ∈ judgements, j.id = id ∧ j.fate = .unresolved := by
  rw [Classification.ofJudgements, List.mem_map]
  constructor
  · rintro ⟨entry, hentry, rfl⟩
    obtain ⟨j, hj, hunresolved⟩ := List.mem_filterMap.mp hentry
    obtain ⟨hfate, rfl⟩ := Judgement.unresolved?_eq_some_iff.mp hunresolved
    exact ⟨j, hj, rfl, hfate⟩
  · rintro ⟨j, hj, rfl, hfate⟩
    have hunresolved := Judgement.unresolved?_eq_some_iff.mpr ⟨hfate, rfl⟩
    exact ⟨_, List.mem_filterMap.mpr ⟨j, hj, hunresolved⟩, rfl⟩

theorem keys_crossing : (Classification.ofJudgements judgements).crossing.keys =
    (Classification.ofJudgements judgements).crossing.values.map Variable.symbol := by
  rw [Keyed.keys, Keyed.values, entries_crossing h, List.map_map, List.map_map, List.map_map]
  rfl

theorem pairwise_precedes :
    (Classification.ofJudgements judgements).crossing.values.Pairwise Variable.Precedes := by
  rw [values_crossing h]
  refine Variable.pairwise_mergeSort
    (List.Pairwise.imp ?_ (List.pairwise_map.mp (nodup_crossing h)))
  intro v w hne heq
  exact hne (Variable.symbol_eq_of_compare heq)

/-- The address of some variable is taken. -/
theorem addressTaken_ofJudgements : (Classification.ofJudgements judgements).addressTaken ↔
    ∃ v ∈ (Classification.ofJudgements judgements).crossing.values, ∃ raw,
      facts.get? v.symbol = some raw ∧ raw.addressTaken := by
  simp only [mem_crossing_iff h]
  rw [Classification.ofJudgements, List.any_eq_true]
  constructor
  · rintro ⟨j, hj, htakes⟩
    obtain ⟨raw, hstands⟩ := exists_stands h hj
    rw [Judgement.takesAddress, Bool.and_eq_true, hstands.flags_eq,
      Option.isSome_iff_exists] at htakes
    obtain ⟨⟨v, hv⟩, htaken⟩ := htakes
    have hsymbol := (hstands.madeOf hv).1
    exact ⟨v, ⟨j, hj, hv⟩, raw, hsymbol ▸ hstands.facts_eq, htaken⟩
  · rintro ⟨v, ⟨j, hj, hv⟩, raw, hraw, htaken⟩
    obtain ⟨raw', hstands⟩ := exists_stands h hj
    rw [(hstands.madeOf hv).1, hstands.facts_eq, Option.some.injEq] at hraw
    refine ⟨j, hj, ?_⟩
    rw [Judgement.takesAddress, hv, hstands.flags_eq, hraw, htaken]
    rfl

end OfJudgements

theorem addressTaken_iff (h : Gives (classify s options model facts) c) : c.addressTaken ↔
    ∃ v ∈ c.crossing.values, ∃ raw, facts.get? v.symbol = some raw ∧ raw.addressTaken := by
  obtain ⟨judgements, hj, rfl⟩ := gives_classify.mp h
  exact addressTaken_ofJudgements hj

/-- The variables of a classification are in their strict order. -/
theorem pairwise_precedes_of_classify (h : Gives (classify s options model facts) c) :
    c.crossing.values.Pairwise Variable.Precedes := by
  obtain ⟨judgements, hj, rfl⟩ := gives_classify.mp h
  exact pairwise_precedes hj

end ExtractMethod.Boundary
