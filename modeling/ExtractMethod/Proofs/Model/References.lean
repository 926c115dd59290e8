import ExtractMethod.Model.Snapshot
import ExtractMethod.Proofs.Text.PartitionPoint
import Mathlib.Data.List.Induction

/-! Every reference is put where a stable sort of all of them has it. -/
namespace ExtractMethod.Model

open Text (lt_partitionPoint_iff partitionPoint partitionPoint_le)

variable {reference : Reference} {references others : List Reference} {start : Nat}

theorem insertIdx_eq_append {α : Type} {xs : List α} {i : Nat} (x : α) (h : i ≤ xs.length) :
    xs.insertIdx i x = xs.take i ++ x :: xs.drop i := by
  induction xs generalizing i with
  | nil => simp [Nat.le_zero.mp h]
  | cons head rest ih =>
    cases i with
    | zero => rfl
    | succ i => simp [ih (Nat.le_of_succ_le_succ h)]

namespace Reference

def startsBy (a b : Reference) : Bool := a.range.start ≤ b.range.start

theorem startsBy_iff {a b : Reference} : a.startsBy b ↔ a.range.start ≤ b.range.start :=
  decide_eq_true_iff

theorem startsBy_trans (a b c : Reference) (hab : a.startsBy b) (hbc : b.startsBy c) :
    a.startsBy c :=
  startsBy_iff.mpr (Nat.le_trans (startsBy_iff.mp hab) (startsBy_iff.mp hbc))

theorem startsBy_total (a b : Reference) : (a.startsBy b || b.startsBy a) = true := by
  rw [Bool.or_eq_true, startsBy_iff, startsBy_iff]
  exact Nat.le_total _ _

/-- By where they start. Those that start together keep their order. -/
def inDocumentOrder (references : List Reference) : List Reference := references.mergeSort startsBy

theorem pairwise_inDocumentOrder : (inDocumentOrder references).Pairwise (startsBy · ·) :=
  List.pairwise_mergeSort startsBy_trans startsBy_total _

def startsAt (start : Nat) (reference : Reference) : Bool := reference.range.start = start

theorem startsAt_iff : reference.startsAt start ↔ reference.range.start = start :=
  decide_eq_true_iff

theorem filter_startsAt_inDocumentOrder :
    (inDocumentOrder references).filter (startsAt start) = references.filter (startsAt start) := by
  have hpairwise : (references.filter (startsAt start)).Pairwise (startsBy · ·) := by
    rw [List.pairwise_filter]
    refine List.pairwise_of_forall fun a b ha hb => startsBy_iff.mpr ?_
    exact Nat.le_of_eq ((startsAt_iff.mp ha).trans (startsAt_iff.mp hb).symm)
  have hsublist : (references.filter (startsAt start)).Sublist
      ((inDocumentOrder references).filter (startsAt start)) := by
    have h := List.sublist_mergeSort startsBy_trans startsBy_total hpairwise List.filter_sublist
    simpa [inDocumentOrder] using h.filter (startsAt start)
  exact (hsublist.eq_of_length ((List.mergeSort_perm _ _).filter _).length_eq.symm).symm

theorem mem_iff_of_filter_startsAt
    (heq : ∀ start, references.filter (startsAt start) = others.filter (startsAt start)) :
    reference ∈ references ↔ reference ∈ others := by
  have hmem : reference ∈ references.filter (startsAt reference.range.start) ↔
      reference ∈ others.filter (startsAt reference.range.start) := by rw [heq]
  simpa [startsAt] using hmem

theorem start_le_of_mem (h : (reference :: references).Pairwise (startsBy · ·)) {r : Reference}
    (hr : r ∈ reference :: references) : reference.range.start ≤ r.range.start := by
  rcases List.mem_cons.mp hr with rfl | hr
  · exact Nat.le_refl _
  · exact startsBy_iff.mp ((List.pairwise_cons.mp h).1 r hr)

/-- Two lists in document order are the same if they have the same references at each start, in the
same order. -/
theorem eq_of_filter_startsAt (h : references.Pairwise (startsBy · ·))
    (h' : others.Pairwise (startsBy · ·))
    (heq : ∀ start, references.filter (startsAt start) = others.filter (startsAt start)) :
    references = others := by
  induction references generalizing others with
  | nil =>
    symm
    rw [List.eq_nil_iff_forall_not_mem]
    exact fun r hr => nomatch (mem_iff_of_filter_startsAt heq).mpr hr
  | cons x xs ih =>
    cases others with
    | nil => exact nomatch (mem_iff_of_filter_startsAt heq).mp List.mem_cons_self
    | cons y ys =>
      -- Each head stands somewhere in the other list, so neither starts before the other.
      have hstart : x.range.start = y.range.start := Nat.le_antisymm
        (start_le_of_mem h ((mem_iff_of_filter_startsAt heq).mpr List.mem_cons_self))
        (start_le_of_mem h' ((mem_iff_of_filter_startsAt heq).mp List.mem_cons_self))
      obtain rfl : x = y := by
        have := heq x.range.start
        rw [List.filter_cons_of_pos (startsAt_iff.mpr rfl),
          List.filter_cons_of_pos (startsAt_iff.mpr hstart.symm)] at this
        exact (List.cons.inj this).1
      rw [ih (List.pairwise_cons.mp h).2 (List.pairwise_cons.mp h').2 fun start => ?_]
      have := heq start
      rw [List.filter_cons, List.filter_cons] at this
      split at this
      · exact (List.cons.inj this).2
      · exact this

end Reference

open Reference

/-- Halving a list in document order splits it into the references that start no later than the new
one and those that start after it. -/
theorem exists_insertReference_eq (reference : Reference)
    (h : references.Pairwise (startsBy · ·)) :
    ∃ before after, references = before ++ after ∧
      insertReference reference references = before ++ reference :: after ∧
      (∀ r ∈ before, r.range.start ≤ reference.range.start) ∧
      ∀ r ∈ after, reference.range.start < r.range.start := by
  let place := partitionPoint (fun kept => kept.range.start ≤ reference.range.start)
    references.toArray
  -- Halving finds the place only because the list is ordered already.
  have hmono (i j : Nat) (hij : i < j) (hj : j < references.length)
      (hle : references[j].range.start ≤ reference.range.start) :
      references[i].range.start ≤ reference.range.start :=
    Nat.le_trans (startsBy_iff.mp (List.pairwise_iff_getElem.mp h i j (by omega) hj hij)) hle
  have hlt (i : Nat) (hi : i < references.length) :
      i < place ↔ references[i].range.start ≤ reference.range.start :=
    (lt_partitionPoint_iff (by simpa using hmono) (by simpa using hi)).trans (by simp)
  have hplace : place ≤ references.length := partitionPoint_le
  refine ⟨references.take place, references.drop place, (List.take_append_drop _ _).symm,
    insertIdx_eq_append reference hplace, fun r hr => ?_, fun r hr => ?_⟩
  · obtain ⟨i, hi, rfl⟩ := List.mem_take_iff_getElem.mp hr
    exact (hlt i (by omega)).mp (by omega)
  · obtain ⟨i, hi, rfl⟩ := List.mem_drop_iff_getElem.mp hr
    have := hlt (place + i) (by omega)
    omega

theorem pairwise_insertReference (h : references.Pairwise (startsBy · ·)) :
    (insertReference reference references).Pairwise (startsBy · ·) := by
  obtain ⟨before, after, rfl, heq, hbefore, hafter⟩ := exists_insertReference_eq reference h
  rw [List.pairwise_append] at h
  rw [heq, List.pairwise_append, List.pairwise_cons]
  refine ⟨h.1, ⟨fun r hr => startsBy_iff.mpr (Nat.le_of_lt (hafter r hr)), h.2.1⟩, ?_⟩
  intro r hr r' hr'
  rcases List.mem_cons.mp hr' with rfl | hr'
  · exact startsBy_iff.mpr (hbefore r hr)
  · exact h.2.2 r hr r' hr'

/-- Among those that start with it, a new reference is the last. -/
theorem filter_startsAt_insertReference (h : references.Pairwise (startsBy · ·)) :
    (insertReference reference references).filter (startsAt start) =
      (references ++ [reference]).filter (startsAt start) := by
  obtain ⟨before, after, rfl, heq, -, hafter⟩ := exists_insertReference_eq reference h
  rw [heq]
  by_cases hstart : reference.startsAt start
  · have hnone : after.filter (startsAt start) = [] := by
      rw [List.filter_eq_nil_iff]
      intro r hr hat
      have := hafter r hr
      rw [startsAt_iff] at hat hstart
      omega
    simp [hstart, hnone]
  · simp [hstart]

theorem insertReference_inDocumentOrder :
    insertReference reference (inDocumentOrder references) =
      inDocumentOrder (references ++ [reference]) := by
  refine eq_of_filter_startsAt (pairwise_insertReference pairwise_inDocumentOrder)
    pairwise_inDocumentOrder fun start => ?_
  rw [filter_startsAt_insertReference pairwise_inDocumentOrder, List.filter_append,
    filter_startsAt_inDocumentOrder, filter_startsAt_inDocumentOrder, List.filter_append]

/-- References put one after the other stand as a stable sort of all of them has them. -/
theorem foldl_insertReference (references : List Reference) :
    references.foldl (fun kept r => insertReference r kept) [] = inDocumentOrder references := by
  induction references using List.reverseRecOn with
  | nil => simp [inDocumentOrder]
  | append_singleton references reference ih =>
    rw [List.foldl_append, ih]
    exact insertReference_inDocumentOrder

end ExtractMethod.Model
