import ExtractMethod.Boundary.Variable
import Mathlib.Data.List.Pairwise
import Mathlib.Data.List.Sort

/-! The order of the variables of a boundary. Variables of different symbols are never equal in it,
so every sorting of them gives the same list. -/
namespace ExtractMethod

theorem Name.compare_eq (a b : Name) : Name.compare a b = Ord.compare a b := by
  change _ = compareOfLessAndEq a b
  simp only [Name.compare, compareOfLessAndEq]
  by_cases hlt : a < b
  · rw [if_pos hlt, if_pos hlt]
  · rw [if_neg hlt, if_neg hlt]
    by_cases hgt : b < a
    · have hne : a ≠ b := by
        rintro rfl
        exact hlt hgt
      rw [if_pos hgt, if_neg hne]
    · have heq : a = b := String.le_antisymm (String.not_lt.mp hgt) (String.not_lt.mp hlt)
      rw [if_neg hgt, if_pos heq]

theorem Name.compare_eq_lt {a b : Name} : Name.compare a b = .lt ↔ a < b := by
  rw [Name.compare_eq]
  exact compareOfLessAndEq_eq_lt

namespace Boundary

theorem compareOffsets_eq (m n : Option Nat) : compareOffsets m n = Ord.compare m n := by
  cases m <;> cases n <;> rfl

theorem compareOffsets_eq_lt {m n : Option Nat} : compareOffsets m n = .lt ↔ m < n := by
  cases m <;> cases n <;> simp [compareOffsets, Nat.compare_eq_lt]

namespace Variable

variable {α : Type} {v w : Variable} {key : α → Variable} {xs sorted : List α}

/-- A variable comes first by its name, then by its declaration, where none is before all others,
and then by its symbol. -/
def Precedes (v w : Variable) : Prop :=
  v.name < w.name ∨ v.name = w.name ∧
    (v.declaredAt < w.declaredAt ∨ v.declaredAt = w.declaredAt ∧ v.symbol < w.symbol)

theorem compare_eq : Variable.compare =
    compareLex (compareOn name) (compareLex (compareOn declaredAt) (compareOn symbol)) := by
  funext v w
  rw [Variable.compare, Name.compare_eq, compareOffsets_eq]
  rfl

instance : Std.TransCmp Variable.compare := by
  rw [compare_eq]
  infer_instance

theorem compare_eq_lt_iff : compare v w = .lt ↔ v.Precedes w := by
  rw [compare, Ordering.then_eq_lt, Ordering.then_eq_lt, Name.compare_eq_lt, compareOffsets_eq_lt,
    Name.compare_eq, compareOffsets_eq, Std.compare_eq_iff_eq, Std.compare_eq_iff_eq,
    Nat.compare_eq_lt]
  rfl

theorem symbol_eq_of_compare (h : compare v w = .eq) : v.symbol = w.symbol := by
  rw [compare, Ordering.then_eq_eq, Ordering.then_eq_eq, Std.compare_eq_iff_eq] at h
  exact h.2.2

theorem Precedes.asymm (h : v.Precedes w) : ¬ w.Precedes v := by
  rw [← compare_eq_lt_iff] at h ⊢
  rw [Std.OrientedCmp.gt_iff_lt.mpr h]
  decide

theorem Precedes.compare_ne (h : v.Precedes w) : compare v w ≠ .eq := by
  rw [compare_eq_lt_iff.mpr h]
  decide

theorem compare_ne_symm (h : compare v w ≠ .eq) : compare w v ≠ .eq :=
  fun heq => h (Std.OrientedCmp.eq_comm.mp heq)

theorem le_trans (key : α → Variable) (a b c : α) (hab : le (key a) (key b))
    (hbc : le (key b) (key c)) : le (key a) (key c) :=
  Std.TransCmp.isLE_trans hab hbc

theorem le_or_le (key : α → Variable) (a b : α) :
    (le (key a) (key b) || le (key b) (key a)) := by
  rw [Bool.or_eq_true, le, le, ← Std.OrientedCmp.isGE_iff_isLE (a := key a)]
  cases compare (key a) (key b) <;> decide

theorem pairwise_le_mergeSort (key : α → Variable) (xs : List α) :
    (xs.mergeSort fun a b => le (key a) (key b)).Pairwise fun a b => le (key a) (key b) :=
  List.pairwise_mergeSort (le_trans key) (le_or_le key) xs

/-- Sorting by merging, which the kernel cannot evaluate, gives what sorting by insertion gives,
also for variables that are equal in the order. -/
theorem mergeSort_eq_insertionSort (key : α → Variable) (xs : List α) :
    xs.mergeSort (fun a b => le (key a) (key b)) =
      xs.insertionSort fun a b => le (key a) (key b) := by
  induction xs with
  | nil => rw [List.mergeSort_nil, List.insertionSort_nil]
  | cons x xs ih =>
    -- `x` comes after those that are before it, and those that are not follow it.
    obtain ⟨before, after, hcons, hrest, hbefore⟩ :=
      List.mergeSort_cons (le_trans key) (le_or_le key) x xs
    have htake : ∀ y ∈ before, decide ¬le (key x) (key y) := by
      simpa using hbefore
    have hsorted := pairwise_le_mergeSort key (x :: xs)
    rw [hcons, List.pairwise_append, List.pairwise_cons] at hsorted
    have hafter : ∀ y ∈ after, le (key x) (key y) := hsorted.2.1.1
    rw [hcons, List.insertionSort_cons_eq_take_drop, ← ih, hrest,
      List.takeWhile_append_of_pos htake, List.dropWhile_append_of_pos htake]
    cases after with
    | nil => simp
    | cons y after => simp [hafter y List.mem_cons_self]

/-- What is sorted by variables no two of which are equal is in their strict order. -/
theorem pairwise_mergeSort (h : xs.Pairwise fun a b => compare (key a) (key b) ≠ .eq) :
    (xs.mergeSort fun a b => le (key a) (key b)).Pairwise
      fun a b => (key a).Precedes (key b) := by
  have hne := ((List.mergeSort_perm xs fun a b => le (key a) (key b)).pairwise_iff
    compare_ne_symm).mpr h
  refine (pairwise_le_mergeSort key xs).imp₂ ?_ hne
  intro a b hab hne
  rw [← compare_eq_lt_iff]
  rw [le] at hab
  cases hc : compare (key a) (key b) with
  | lt => rfl
  | eq => exact absurd hc hne
  | gt =>
    rw [hc] at hab
    cases hab

/-- A list in strict order is what all its rearrangements are sorted to. -/
theorem mergeSort_eq_of_perm (hperm : xs.Perm sorted)
    (h : sorted.Pairwise fun a b => (key a).Precedes (key b)) :
    xs.mergeSort (fun a b => le (key a) (key b)) = sorted := by
  have hne : xs.Pairwise fun a b => compare (key a) (key b) ≠ .eq :=
    (hperm.pairwise_iff compare_ne_symm).mpr (h.imp Precedes.compare_ne)
  exact List.Perm.eq_of_pairwise (fun _ _ _ _ hab hba => absurd hba hab.asymm)
    (pairwise_mergeSort hne) h ((List.mergeSort_perm xs _).trans hperm)

end Variable

end Boundary

end ExtractMethod
