import ExtractMethod.Proofs.Document.Ancestry
import ExtractMethod.Selection.OwnCode
import Mathlib.Data.List.Sort

/-! The interval of a tree, with what lies below nested functions left out, is visited in the order
of a walk that keeps the nodes still to be visited on a stack. -/
namespace ExtractMethod.Document

variable {d : Document} {top m n stop : Nat} {found stack : List Nat}

theorem descendants_sublist (hn : d.hasNode n) :
    (d.descendants n).Sublist (List.range d.nodeCount) := by
  have hle := Nat.le_of_lt (hasNode_iff.mp hn)
  have hstop := d.subtreeStop_le n
  have hsplit : List.range d.nodeCount = List.range' 0 n ++ List.range' n (d.nodeCount - n) := by
    rw [List.range_eq_range', ← Nat.add_sub_cancel' hle, ← List.range'_append_1]
    simp
  rw [hsplit, descendants]
  exact (List.range'_sublist_right.mpr (by omega)).trans (List.sublist_append_right _ _)

/-- No nested function, from `top` on, lies around the node. -/
def IsReachedFrom (d : Document) (top n : Nat) : Prop :=
  ∀ a < n, top ≤ a → (d.kind a).isNestedFunction → ¬ d.isAncestor a n

instance : Decidable (d.IsReachedFrom top n) := by
  unfold IsReachedFrom
  infer_instance

theorem isReachedFrom_self : d.IsReachedFrom n n := by
  intro a ha hna
  omega

theorem mem_visitedFrom_iff :
    m ∈ d.visitedFrom n stop ↔ n ≤ m ∧ m < stop ∧ d.IsReachedFrom n m := by
  induction n using visitedFrom.induct d stop with
  | case1 n hlt hnested ih =>
    rw [visitedFrom, if_pos hlt, if_pos hnested, List.mem_cons, ih]
    constructor
    · rintro (rfl | ⟨hle, hm, hreached⟩)
      · exact ⟨Nat.le_refl _, hlt, isReachedFrom_self⟩
      · refine ⟨by omega, hm, ?_⟩
        intro a ha hna hka ham
        -- A nested function below `n` ends with it, so it ends before what is visited next.
        by_cases hpast : max (n + 1) (d.node n).subtreeStop ≤ a
        · exact hreached a ha hpast hka ham
        · have hna : d.isAncestor n a := by
            rcases Nat.eq_or_lt_of_le hna with rfl | hlt
            · exact isAncestor_self (hasNode_of_isAncestor ham).1
            · exact isAncestor_iff.mpr ⟨hna, by omega⟩
          have := (isAncestor_iff.mp (isAncestor_trans hna ham)).2
          omega
    · rintro ⟨hle, hm, hreached⟩
      by_cases hne : m = n
      · exact Or.inl hne
      · have hout := hreached n (by omega) (Nat.le_refl _) hnested
        rw [isAncestor_iff] at hout
        exact Or.inr ⟨by omega, hm, fun a ha hna => hreached a ha (by omega)⟩
  | case2 n hlt hnested ih =>
    rw [visitedFrom, if_pos hlt, if_neg hnested, List.mem_cons, ih]
    constructor
    · rintro (rfl | ⟨hle, hm, hreached⟩)
      · exact ⟨Nat.le_refl _, hlt, isReachedFrom_self⟩
      · refine ⟨by omega, hm, ?_⟩
        intro a ha hna hka
        have hne : a ≠ n := by
          rintro rfl
          exact hnested hka
        exact hreached a ha (by omega) hka
    · rintro ⟨hle, hm, hreached⟩
      by_cases hne : m = n
      · exact Or.inl hne
      · exact Or.inr ⟨by omega, hm, fun a ha hna => hreached a ha (by omega)⟩
  | case3 n hlt =>
    rw [visitedFrom, if_neg hlt]
    simp only [List.not_mem_nil, false_iff]
    omega

theorem visitedFrom_pairwise (d : Document) (n stop : Nat) :
    (d.visitedFrom n stop).Pairwise (· < ·) := by
  induction n using visitedFrom.induct d stop with
  | case1 n hlt hnested ih =>
    rw [visitedFrom, if_pos hlt, if_pos hnested, List.pairwise_cons]
    refine ⟨?_, ih⟩
    intro m hm
    have := (mem_visitedFrom_iff.mp hm).1
    omega
  | case2 n hlt hnested ih =>
    rw [visitedFrom, if_pos hlt, if_neg hnested, List.pairwise_cons]
    refine ⟨?_, ih⟩
    intro m hm
    exact (mem_visitedFrom_iff.mp hm).1
  | case3 n hlt =>
    rw [visitedFrom, if_neg hlt]
    exact .nil

theorem visited_eq_filter (d : Document) (n : Nat) :
    d.visited n = (d.descendants n).filter fun m => decide (d.IsReachedFrom n m) := by
  refine (d.visitedFrom_pairwise n _).eq_of_mem_iff ((List.pairwise_lt_range' ..).filter _) ?_
  intro m
  rw [mem_visitedFrom_iff, List.mem_filter, mem_descendants, isAncestor_iff, decide_eq_true_eq,
    and_assoc]

/-- What is reached from a node that is no nested function is what is reached from its children. -/
theorem isReachedFrom_child {c : Nat} (hc : c ∈ d.childNodes n) (hn : ¬ (d.kind n).isNestedFunction)
    (hm : d.isAncestor c m) : d.IsReachedFrom n m ↔ d.IsReachedFrom c m := by
  have hparent := mem_childNodes_iff.mp hc
  have hlt := (parent?_isAncestor hparent).1
  constructor
  · intro hreached a ha hca
    exact hreached a ha (by omega)
  · intro hreached a ha hna hka ham
    rcases Nat.lt_or_ge a c with hac | hca
    · -- A node around `m` that comes before `c` is around `c`, and so around its parent.
      have han := isAncestor_of_parent? hparent (isAncestor_of_le ham hm (by omega)) (by omega)
      obtain rfl : a = n := Nat.le_antisymm (isAncestor_iff.mp han).1 hna
      exact hn hka
    · exact hreached a ha hca hka ham

/-- A visit of a tree is one of its root, and then of the trees below it unless the root is a nested
function. -/
theorem visited_eq (hn : d.hasNode n) : d.visited n =
    n :: if (d.kind n).isNestedFunction then [] else (d.childNodes n).flatMap d.visited := by
  rw [visited_eq_filter, descendants_eq hn,
    List.filter_cons_of_pos (by simpa using isReachedFrom_self), List.filter_flatMap]
  congr 1
  split
  · next hnested =>
    simp only [List.flatMap_eq_nil_iff, List.filter_eq_nil_iff, decide_eq_true_eq]
    intro c hc m hm hreached
    have hparent := parent?_isAncestor (mem_childNodes_iff.mp hc)
    have hcm := mem_descendants.mp hm
    have hlt := Nat.lt_of_lt_of_le hparent.1 (isAncestor_iff.mp hcm).1
    exact hreached n hlt (Nat.le_refl _) hnested (isAncestor_trans hparent.2 hcm)
  · next hnested =>
    refine List.flatMap_congr fun c hc => ?_
    rw [visited_eq_filter]
    refine List.filter_congr fun m hm => ?_
    rw [decide_eq_decide]
    exact isReachedFrom_child hc hnested (mem_descendants.mp hm)

theorem visited_sublist (d : Document) (n : Nat) : (d.visited n).Sublist (d.descendants n) := by
  rw [visited_eq_filter]
  exact List.filter_sublist

/-- How many nodes are at or below those on a stack. -/
def weight (d : Document) : List Nat → Nat
  | [] => 0
  | n :: stack => max 1 (d.descendants n).length + d.weight stack

theorem weight_append (d : Document) (front back : List Nat) :
    d.weight (front ++ back) = d.weight front + d.weight back := by
  induction front with
  | nil => simp [weight]
  | cons n rest ih =>
    rw [List.cons_append, weight, weight, ih, Nat.add_assoc]

theorem weight_eq_length (hstack : ∀ n ∈ stack, d.hasNode n) :
    d.weight stack = (stack.flatMap d.descendants).length := by
  induction stack with
  | nil => rfl
  | cons n rest ih =>
    obtain ⟨hn, hrest⟩ := List.forall_mem_cons.mp hstack
    have hlength := congrArg List.length (descendants_eq hn)
    rw [List.length_cons] at hlength
    rw [weight, ih hrest, List.flatMap_cons, List.length_append]
    omega

theorem weight_lt (d : Document) (n : Nat) (stack : List Nat) :
    d.weight (d.childNodes n ++ stack) < d.weight (n :: stack) := by
  rw [weight_append, weight]
  by_cases hn : d.hasNode n
  · have hlength := congrArg List.length (descendants_eq hn)
    have hchildren : d.weight (d.childNodes n) = ((d.childNodes n).flatMap d.descendants).length :=
      weight_eq_length fun c hc => hasNode_of_parent? (mem_childNodes_iff.mp hc)
    rw [List.length_cons, ← hchildren] at hlength
    omega
  · have hnone : d.childNodes n = [] := by
      rw [childNodes, node_of_not_hasNode hn]
      rfl
    have hnil : d.weight [] = 0 := rfl
    rw [hnone]
    omega

/-- The walk that takes a node from the stack, passes it over if it is a nested function, and else
puts its children on the stack, the first one on top. It asks the host before each node. -/
def stackWalk (d : Document) : List Nat → Poll (List Nat)
  | [] => pure []
  | n :: stack => do
    Poll.ask
    if (d.kind n).isNestedFunction then d.stackWalk stack
    else pure (n :: (← d.stackWalk (d.childNodes n ++ stack)))
termination_by stack => d.weight stack
decreasing_by
  · rw [weight]
    omega
  · exact d.weight_lt n stack

/-- What is found goes on the front of what was found before, as far as it is no nested function. -/
theorem reverse_foldl_keep (d : Document) (found nodes : List Nat) :
    (nodes.foldl
        (fun found n => if (d.kind n).isNestedFunction then found else n :: found) found).reverse =
      found.reverse ++ nodes.filter fun n => !(d.kind n).isNestedFunction := by
  induction nodes generalizing found with
  | nil => simp
  | cons n rest ih =>
    rw [List.foldl_cons, ih]
    by_cases hn : (d.kind n).isNestedFunction <;> simp [hn]

/-- Visiting the trees of a stack one after the other finds what the walk finds, question by
question. -/
theorem fold_visited (hstack : ∀ n ∈ stack, d.hasNode n) (found : List Nat) :
    (Poll.fold (fun found n => if (d.kind n).isNestedFunction then found else n :: found) found
        (stack.flatMap d.visited) >>= fun all => pure all.reverse) =
      d.stackWalk stack >>= fun rest => pure (found.reverse ++ rest) := by
  induction stack using stackWalk.induct d generalizing found with
  | case1 => simp [Poll.fold, stackWalk]
  | case2 n stack ihPassed ihEntered =>
    obtain ⟨hn, hrest⟩ := List.forall_mem_cons.mp hstack
    rw [List.flatMap_cons, visited_eq hn, stackWalk]
    by_cases hnested : (d.kind n).isNestedFunction
    · simp only [if_pos hnested, List.singleton_append, Poll.fold, bind_assoc, ihPassed hrest]
    · have hpushed : ∀ c ∈ d.childNodes n ++ stack, d.hasNode c := by
        intro c hc
        rcases List.mem_append.mp hc with hc | hc
        · exact hasNode_of_parent? (mem_childNodes_iff.mp hc)
        · exact hrest c hc
      rw [if_neg hnested, if_neg hnested, List.cons_append, ← List.flatMap_append]
      simp only [Poll.fold, if_neg hnested, bind_assoc, ihEntered hpushed, List.reverse_cons,
        List.append_assoc, List.singleton_append, pure_bind]

end ExtractMethod.Document
