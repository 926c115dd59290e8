import ExtractMethod.Document.Basic

/-! The numbering of nodes by intervals and the walk along parents describe the same tree. -/
namespace ExtractMethod.Document

open ExtractMethod.Tree

variable {d : Document} {a b c n p : Nat}

theorem wellLaid (d : Document) : ∃ hi, hi.node = d.nodeCount ∧ hi.token = d.tokenCount ∧
    WellLaid .start hi none d.nodes.toList d.tokens.toList := by
  obtain ⟨root, hroot⟩ := d.exists_root
  have h : WellLaid .start (Place.start.inside.afterAll root.children) none d.nodes.toList
      d.tokens.toList := by
    rw [hroot.nodes_eq, hroot.tokens_eq]
    exact .node (wellLaidAll Place.start.inside 0 root.children) rfl rfl rfl rfl rfl rfl
  refine ⟨_, ?_, ?_, h⟩
  · simpa [nodeCount, Place.start] using h.node_eq
  · simpa [tokenCount, Place.start] using h.token_eq

theorem hasNode_iff : d.hasNode n = true ↔ n < d.nodeCount := by simp [hasNode]

theorem node_mem (h : d.hasNode n) : (d.node n, n) ∈ d.nodes.toList.zipIdx Place.start.node := by
  have h : n < d.nodes.size := hasNode_iff.mp h
  simp [Place.start, List.mk_mem_zipIdx_iff_getElem?, node, Array.getD, h]

theorem node_of_not_hasNode (h : ¬ d.hasNode n) : d.node n = default := by
  have h : d.nodes.size ≤ n := Nat.le_of_not_lt fun hlt => h (hasNode_iff.mpr hlt)
  simp [node, Array.getD, Nat.not_lt.mpr h]

theorem eq_node_of_mem {r : NodeRow × Nat} (h : r ∈ d.nodes.toList.zipIdx Place.start.node) :
    d.hasNode r.2 ∧ r.1 = d.node r.2 := by
  rw [Place.start, List.mem_zipIdx_iff_getElem?, Array.getElem?_toList,
    Array.getElem?_eq_some_iff] at h
  obtain ⟨hlt, heq⟩ := h
  refine ⟨hasNode_iff.mpr hlt, ?_⟩
  simp [node, Array.getD, hlt, heq]

/-- The children of a node are in document order. -/
theorem childNodes_pairwise (d : Document) (n : Nat) : (d.childNodes n).Pairwise (· < ·) := by
  by_cases hn : d.hasNode n
  · obtain ⟨root, hroot⟩ := d.exists_root
    have hrow : d.node n ∈ nodeRows .start none root.element := by
      have hmem := List.fst_mem_of_mem_zipIdx (node_mem hn)
      rwa [hroot.nodes_eq] at hmem
    obtain ⟨place, elements, hchildren⟩ := exists_childrenAt _ _ _ _ hrow
    rw [childNodes, hchildren]
    exact (childrenAt_pairwise place elements).1
  · rw [childNodes, node_of_not_hasNode hn]
    exact .nil

theorem lt_subtreeStop (h : d.hasNode n) : n < (d.node n).subtreeStop := by
  obtain ⟨_, _, _, hd⟩ := d.wellLaid
  exact (hd.between _ (node_mem h)).lt_subtreeStop

theorem subtreeStop_le (d : Document) (n : Nat) : (d.node n).subtreeStop ≤ d.nodeCount := by
  obtain ⟨_, hnode, _, hd⟩ := d.wellLaid
  by_cases h : d.hasNode n
  · exact hnode ▸ (hd.between _ (node_mem h)).subtreeStop_le
  · rw [node_of_not_hasNode h]
    exact Nat.zero_le _

/-- Two nodes are nested or one comes after the other. -/
theorem holds_or_precedes (hab : a < b) (hb : d.hasNode b) :
    (d.node a).Holds a (d.node b) b ∨ (d.node a).Precedes (d.node b) b := by
  obtain ⟨_, _, _, hd⟩ := d.wellLaid
  have hb : b < d.nodes.size := hasNode_iff.mp hb
  have h := List.pairwise_iff_getElem.mp hd.laminar a b (by simp; omega) (by simp; omega) hab
  simpa [node, Array.getD, hb, Nat.lt_trans hab hb, Place.start] using h

theorem isAncestor_iff : d.isAncestor a n = true ↔ a ≤ n ∧ n < (d.node a).subtreeStop := by
  simp [isAncestor]

theorem mem_descendants : n ∈ d.descendants a ↔ d.isAncestor a n := by
  rw [descendants, List.mem_range'_1, isAncestor_iff]
  omega

theorem hasNode_of_isAncestor (h : d.isAncestor a n) : d.hasNode a ∧ d.hasNode n := by
  obtain ⟨hle, hlt⟩ := isAncestor_iff.mp h
  have := d.subtreeStop_le a
  exact ⟨hasNode_iff.mpr (by omega), hasNode_iff.mpr (by omega)⟩

theorem isAncestor_self (h : d.hasNode n) : d.isAncestor n n :=
  isAncestor_iff.mpr ⟨Nat.le_refl n, lt_subtreeStop h⟩

theorem holds_of_isAncestor (h : d.isAncestor a n) (hne : a ≠ n) :
    (d.node a).Holds a (d.node n) n := by
  obtain ⟨hle, hlt⟩ := isAncestor_iff.mp h
  rcases holds_or_precedes (Nat.lt_of_le_of_ne hle hne) (hasNode_of_isAncestor h).2 with hn | hn
  · exact hn
  · have := hn.subtreeStop_le
    omega

theorem subtreeStop_le_of_isAncestor (h : d.isAncestor a n) :
    (d.node n).subtreeStop ≤ (d.node a).subtreeStop := by
  by_cases hne : a = n
  · subst hne
    exact Nat.le_refl _
  · exact (holds_of_isAncestor h hne).subtreeStop_le

theorem isAncestor_trans (hab : d.isAncestor a b) (hbc : d.isAncestor b c) :
    d.isAncestor a c := by
  have hstop := subtreeStop_le_of_isAncestor hab
  rw [isAncestor_iff] at *
  omega

/-- Of two nodes around a third one, one lies below the other. -/
theorem isAncestor_of_le (han : d.isAncestor a n) (hbn : d.isAncestor b n) (hab : a ≤ b) :
    d.isAncestor a b := by
  rw [isAncestor_iff] at *
  omega

theorem isAncestor_antisymm (hab : d.isAncestor a b) (hba : d.isAncestor b a) : a = b :=
  Nat.le_antisymm (isAncestor_iff.mp hab).1 (isAncestor_iff.mp hba).1

theorem hasNode_of_parent? (h : d.parent? n = some p) : d.hasNode n := by
  apply Classical.byContradiction
  intro hn
  rw [parent?, node_of_not_hasNode hn] at h
  cases h

theorem parent?_isAncestor (h : d.parent? n = some p) : p < n ∧ d.isAncestor p n := by
  obtain ⟨_, _, _, hd⟩ := d.wellLaid
  have h : (d.node n).parent = some p := h
  rcases hd.parents _ (node_mem (hasNode_of_parent? h)) with hp | ⟨r, hr, hp, hlt, hstop⟩
  · rw [h] at hp
    cases hp
  · obtain ⟨-, hrow⟩ := eq_node_of_mem hr
    have hp : p = r.2 := Option.some.inj (h.symm.trans hp)
    subst hp
    exact ⟨hlt, isAncestor_iff.mpr ⟨Nat.le_of_lt hlt, hrow ▸ hstop⟩⟩

theorem isAncestor_parent (h : d.isAncestor a n) (hne : a ≠ n) :
    ∃ p, d.parent? n = some p ∧ d.isAncestor a p := by
  obtain ⟨p, hp, hap⟩ := (holds_of_isAncestor h hne).parent
  obtain ⟨hpn, -⟩ := parent?_isAncestor hp
  have hstop := (isAncestor_iff.mp h).2
  exact ⟨p, hp, isAncestor_iff.mpr ⟨hap, by omega⟩⟩

theorem isAncestor_of_parent? (hp : d.parent? n = some p) (h : d.isAncestor a n) (hne : a ≠ n) :
    d.isAncestor a p := by
  obtain ⟨q, hq, haq⟩ := isAncestor_parent h hne
  cases hp.symm.trans hq
  exact haq

/-- Induction along the parents of a node, up to a node without one. -/
@[elab_as_elim]
theorem climb {motive : Nat → Prop} (d : Document)
    (root : ∀ n, d.parent? n = none → motive n)
    (step : ∀ n p, d.parent? n = some p → motive p → motive n) (n : Nat) : motive n := by
  induction n using Nat.strongRecOn with
  | _ n ih =>
    cases hp : d.parent? n with
    | none => exact root n hp
    | some p => exact step n p hp (ih p (parent?_isAncestor hp).1)

/-- Induction along the parents of a node, up to a given node around it. -/
@[elab_as_elim]
theorem climbTo {motive : (n : Nat) → d.isAncestor a n → Prop} (h : d.isAncestor a n)
    (top : ∀ h, motive a h)
    (step : ∀ n p h (hap : d.isAncestor a p), a ≠ n → d.parent? n = some p → motive p hap →
      motive n h) : motive n h := by
  induction n using Nat.strongRecOn with
  | _ n ih =>
    by_cases hne : a = n
    · subst hne
      exact top h
    · obtain ⟨p, hp, hap⟩ := isAncestor_parent h hne
      exact step n p h hap hne hp (ih p (parent?_isAncestor hp).1 hap)

theorem ancestors_eq (d : Document) (n : Nat) :
    d.ancestors n = n :: ((d.parent? n).map d.ancestors).getD [] := by
  rw [ancestors]
  cases h : d.parent? n with
  | none => rfl
  | some p => simp [(parent?_isAncestor h).1]

theorem ancestors_of_parent? (h : d.parent? n = some p) : d.ancestors n = n :: d.ancestors p := by
  rw [ancestors_eq, h]
  rfl

theorem mem_ancestors_self (d : Document) (n : Nat) : n ∈ d.ancestors n := by
  rw [ancestors_eq]
  exact List.mem_cons_self

theorem isAncestor_of_mem_ancestors (hn : d.hasNode n) (h : a ∈ d.ancestors n) :
    d.isAncestor a n := by
  induction n using d.climb with
  | root n hp =>
    rw [ancestors_eq, hp] at h
    rw [List.mem_singleton.mp h]
    exact isAncestor_self hn
  | step n p hp ih =>
    have hpn := (parent?_isAncestor hp).2
    rw [ancestors_of_parent? hp] at h
    rcases List.mem_cons.mp h with rfl | h
    · exact isAncestor_self hn
    · exact isAncestor_trans (ih (hasNode_of_isAncestor hpn).1 h) hpn

theorem mem_ancestors_of_isAncestor (h : d.isAncestor a n) : a ∈ d.ancestors n := by
  induction h using climbTo with
  | top => exact d.mem_ancestors_self a
  | step n p _ _ _ hp ih =>
    rw [ancestors_of_parent? hp]
    exact List.mem_cons_of_mem _ ih

/-- Climbing from a node leads exactly to the nodes whose interval holds it. -/
theorem mem_ancestors_iff (hn : d.hasNode n) : a ∈ d.ancestors n ↔ d.isAncestor a n :=
  ⟨isAncestor_of_mem_ancestors hn, mem_ancestors_of_isAncestor⟩

theorem not_isAncestor_of_parent?_eq (ha : d.parent? a = some p) (hb : d.parent? b = some p)
    (hne : a ≠ b) : ¬ d.isAncestor a b := by
  intro hab
  have := (isAncestor_iff.mp (isAncestor_of_parent? hb hab hne)).1
  have := (parent?_isAncestor ha).1
  omega

theorem ancestors_pairwise (d : Document) (n : Nat) : (d.ancestors n).Pairwise (· > ·) := by
  induction n using d.climb with
  | root n hp => simp [ancestors_eq, hp]
  | step n p hp ih =>
    obtain ⟨hlt, hpn⟩ := parent?_isAncestor hp
    rw [ancestors_of_parent? hp, List.pairwise_cons]
    refine ⟨?_, ih⟩
    intro a ha
    have hap := isAncestor_of_mem_ancestors (hasNode_of_isAncestor hpn).1 ha
    exact Nat.lt_of_le_of_lt (isAncestor_iff.mp hap).1 hlt

/-- A common ancestor that is found has both nodes below it and lies below all others that do. -/
theorem commonAncestor?_eq_some (ha : d.hasNode a) (h : d.commonAncestor? a b = some c) :
    d.isAncestor c a ∧ d.isAncestor c b ∧
      ∀ n, d.isAncestor n a → d.isAncestor n b → d.isAncestor n c := by
  rw [commonAncestor?, List.find?_eq_some_iff_append] at h
  obtain ⟨hcb, before, after, heq, hbefore⟩ := h
  have hca : d.isAncestor c a := by
    apply isAncestor_of_mem_ancestors ha
    rw [heq]
    simp
  refine ⟨hca, hcb, ?_⟩
  intro n hna hnb
  have hn := mem_ancestors_of_isAncestor hna
  have hsorted := d.ancestors_pairwise a
  rw [heq] at hn hsorted
  rcases List.mem_append.mp hn with hn | hn
  · have := hbefore n hn
    simp [hnb] at this
  · rcases List.mem_cons.mp hn with rfl | hn
    · exact isAncestor_self (hasNode_of_isAncestor hna).1
    · have h := List.pairwise_cons.mp (List.pairwise_append.mp hsorted).2.1
      exact isAncestor_of_le hna hca (Nat.le_of_lt (h.1 n hn))

/-- Of the nodes between two others that have a property there is a lowest one. -/
theorem exists_lowest {P : Nat → Prop} (h : d.isAncestor a n) (ha : P a) : ∃ c, d.isAncestor a c ∧
    d.isAncestor c n ∧ P c ∧ ∀ m, d.isAncestor c m → d.isAncestor m n → P m → c = m := by
  induction h using climbTo with
  | top h => exact ⟨a, h, h, ha, fun m ham hma _ => isAncestor_antisymm ham hma⟩
  | step n p hn _ _ hp ih =>
    by_cases hP : P n
    · have hself := isAncestor_self (hasNode_of_isAncestor hn).2
      exact ⟨n, hn, hself, hP, fun m hnm hmn _ => isAncestor_antisymm hnm hmn⟩
    · obtain ⟨c, hac, hcp, hc, hlowest⟩ := ih
      refine ⟨c, hac, isAncestor_trans hcp (parent?_isAncestor hp).2, hc, ?_⟩
      intro m hcm hmn hm
      have hne : m ≠ n := fun heq => hP (heq ▸ hm)
      exact hlowest m hcm (isAncestor_of_parent? hp hmn hne) hm

/-- A search upwards ends at the first node that it settles on. -/
theorem findSome?_ancestors {β : Type} {visit : Nat → Option β} {y : β} (h : d.isAncestor a n)
    (ha : visit a = some y)
    (hbelow : ∀ m, d.isAncestor a m → d.isAncestor m n → a ≠ m → visit m = none) :
    (d.ancestors n).findSome? visit = some y := by
  induction h using climbTo with
  | top =>
    rw [ancestors_eq, List.findSome?_cons, ha]
  | step n p hn _ hne hp ih =>
    have hself := isAncestor_self (hasNode_of_isAncestor hn).2
    rw [ancestors_of_parent? hp, List.findSome?_cons, hbelow n hn hself hne]
    exact ih fun m ham hmp => hbelow m ham (isAncestor_trans hmp (parent?_isAncestor hp).2)

/-- Two nodes of one tree have a lowest common one, if they have any. -/
theorem exists_commonAncestor? (ha : d.isAncestor c a) (hb : d.isAncestor c b) :
    ∃ common, d.commonAncestor? a b = some common := by
  apply Option.isSome_iff_exists.mp
  rw [commonAncestor?, List.find?_isSome]
  exact ⟨c, mem_ancestors_of_isAncestor ha, hb⟩

/-- Between a node and one strictly below it lies a child of it. -/
theorem exists_child (h : d.isAncestor c n) (hne : c ≠ n) :
    ∃ p, d.parent? p = some c ∧ d.isAncestor p n := by
  induction h using climbTo with
  | top => exact absurd rfl hne
  | step n p hn hcp _ hp ih =>
    by_cases heq : c = p
    · subst heq
      exact ⟨n, hp, isAncestor_self (hasNode_of_isAncestor hn).2⟩
    · obtain ⟨q, hq, hqp⟩ := ih heq
      exact ⟨q, hq, isAncestor_trans hqp (parent?_isAncestor hp).2⟩

end ExtractMethod.Document
