import ExtractMethod.Text.PartitionPoint

/-! Halving finds the end of the initial segment on which a test holds. -/
namespace ExtractMethod.Text

variable {α : Type} {holds : α → Bool} {xs : Array α} {lo hi : Nat}

theorem partitionPointIn_le (h : hi ≤ xs.size) (hle : lo ≤ hi) :
    partitionPointIn holds xs lo hi h ≤ hi := by
  induction lo, hi, h using partitionPointIn.induct holds xs with
  | case1 lo hi h hlt mid hmid ih =>
    rw [partitionPointIn, dif_pos hlt, if_pos hmid]
    exact ih (by omega)
  | case2 lo hi h hlt mid hmid ih =>
    rw [partitionPointIn, dif_pos hlt, if_neg hmid]
    exact Nat.le_trans (ih (by omega)) (by omega)
  | case3 lo hi h hlt =>
    rw [partitionPointIn, dif_neg hlt]
    exact hle

theorem partitionPoint_le : partitionPoint holds xs ≤ xs.size :=
  partitionPointIn_le (Nat.le_refl _) (Nat.zero_le _)

/-- Halving finds the end of the initial segment on which the test holds. -/
theorem lt_partitionPointIn_iff
    (hmono : ∀ (i j : Nat) (_ : i < j) (_ : j < xs.size), holds xs[j] → holds xs[i])
    (h : hi ≤ xs.size)
    (hlo : ∀ (i : Nat) (_ : i < xs.size), i < lo → holds xs[i])
    (hhi : ∀ (i : Nat) (_ : i < xs.size), hi ≤ i → ¬ holds xs[i]) {i : Nat} (hi' : i < xs.size) :
    i < partitionPointIn holds xs lo hi h ↔ holds xs[i] := by
  induction lo, hi, h using partitionPointIn.induct holds xs with
  | case1 lo hi h hlt mid hmid ih =>
    rw [partitionPointIn, dif_pos hlt, if_pos hmid]
    refine ih (fun i hi hle => ?_) hhi
    rcases Nat.lt_or_eq_of_le (Nat.le_of_lt_succ hle) with hlt | rfl
    · exact hmono i mid hlt (by omega) hmid
    · exact hmid
  | case2 lo hi h hlt mid hmid ih =>
    rw [partitionPointIn, dif_pos hlt, if_neg hmid]
    refine ih hlo (fun i hi hle hholds => ?_)
    rcases Nat.lt_or_eq_of_le hle with hlt | rfl
    · exact hmid (hmono mid i hlt hi hholds)
    · exact hmid hholds
  | case3 lo hi h hlt =>
    rw [partitionPointIn, dif_neg hlt]
    constructor
    · exact hlo i hi'
    · intro hholds
      apply Nat.lt_of_not_le
      exact fun hle => hhi i hi' (by omega) hholds

theorem lt_partitionPoint_iff
    (hmono : ∀ (i j : Nat) (_ : i < j) (_ : j < xs.size), holds xs[j] → holds xs[i]) {i : Nat}
    (hi : i < xs.size) : i < partitionPoint holds xs ↔ holds xs[i] :=
  lt_partitionPointIn_iff hmono (Nat.le_refl _) (fun _ _ hlt => absurd hlt (Nat.not_lt_zero _))
    (fun _ hlt hle => absurd hlt (Nat.not_lt_of_le hle)) hi

/-- Where the test holds on just the first `k` elements, halving finds `k`. -/
theorem partitionPoint_eq {k : Nat} (hk : k ≤ xs.size)
    (hiff : ∀ (i : Nat) (_ : i < xs.size), holds xs[i] ↔ i < k) : partitionPoint holds xs = k := by
  have hmono (i j : Nat) (hij : i < j) (hj : j < xs.size) (hholds : holds xs[j]) : holds xs[i] := by
    have := (hiff j hj).mp hholds
    exact (hiff i (by omega)).mpr (by omega)
  have hlt (i : Nat) (hi : i < xs.size) : i < partitionPoint holds xs ↔ i < k := by
    rw [lt_partitionPoint_iff hmono hi, hiff]
  have hle : partitionPoint holds xs ≤ xs.size := partitionPoint_le
  rcases Nat.lt_trichotomy (partitionPoint holds xs) k with hbelow | heq | habove
  · have := (hlt _ (by omega)).mpr hbelow
    omega
  · exact heq
  · have := (hlt k (by omega)).mp habove
    omega

section Sorted

variable {xs : Array Nat} (h : xs.toList.Pairwise (· < ·)) {i bound : Nat}
include h

theorem getElem_lt_iff {i j : Nat} (hi : i < xs.size) (hj : j < xs.size) :
    xs[i] < xs[j] ↔ i < j := by
  have hlt {i j : Nat} (hij : i < j) (hj : j < xs.size) : xs[i] < xs[j] := by
    have hget := List.pairwise_iff_getElem.mp h i j (by simp; omega) (by simpa using hj) hij
    simpa using hget
  rcases Nat.lt_trichotomy i j with hij | rfl | hji
  · exact iff_of_true (hlt hij hj) hij
  · exact iff_of_false (Nat.lt_irrefl _) (Nat.lt_irrefl _)
  · have := hlt hji hi
    exact iff_of_false (by omega) (by omega)

theorem lt_partitionPoint_le_iff (hi : i < xs.size) :
    i < partitionPoint (· ≤ bound) xs ↔ xs[i] ≤ bound := by
  rw [lt_partitionPoint_iff ?_ hi, decide_eq_true_eq]
  intro j k hjk hk hle
  have := (getElem_lt_iff h (by omega) hk).mpr hjk
  rw [decide_eq_true_eq] at hle ⊢
  omega

/-- In a sorted array, the elements up to a given one are those that are not greater. -/
theorem partitionPoint_le_of_getElem? (hi : xs[i]? = some bound) :
    partitionPoint (· ≤ bound) xs = i + 1 := by
  obtain ⟨hsize, rfl⟩ := Array.getElem?_eq_some_iff.mp hi
  refine partitionPoint_eq (by omega) fun j hj => ?_
  have := getElem_lt_iff h hsize hj
  rw [decide_eq_true_eq]
  omega

/-- In a sorted array, the elements before a given one are those that are less. -/
theorem partitionPoint_lt_of_getElem? (hi : xs[i]? = some bound) :
    partitionPoint (· < bound) xs = i := by
  obtain ⟨hsize, rfl⟩ := Array.getElem?_eq_some_iff.mp hi
  refine partitionPoint_eq (by omega) fun j hj => ?_
  rw [decide_eq_true_eq]
  exact getElem_lt_iff h hj hsize

end Sorted

end ExtractMethod.Text
