import ExtractMethod.Proofs.Document.Walk
import Mathlib.Data.List.Basic

/-! Whether a node lies below another one can be read off the numbers in the rows, off the links to
parents and off the lists of children, with the same answer. So any two nodes have one lowest node
around them. -/
namespace ExtractMethod.Document

variable {d : Document} {a b n s t : Nat}

theorem entered_walk_child {child : Tree.Child} (h : child ∈ (d.node n).children) :
    (d.walk child).filterMap Visit.entered? = child.node?.toList.flatMap d.descendants := by
  cases child with
  | token t =>
    rw [walk_token]
    rfl
  | node c =>
    have hc : d.hasNode c := hasNode_of_parent? (parentOf?_of_mem_children h)
    rw [(isFaithful hc).entered_eq]
    simp [Tree.Child.node?]

/-- At or below a node there is the node, and then what is at or below its children. -/
theorem descendants_eq (hn : d.hasNode n) :
    d.descendants n = n :: (d.childNodes n).flatMap d.descendants := by
  have hbelow : ((d.node n).children.flatMap d.walk).filterMap Visit.entered? =
      (d.childNodes n).flatMap d.descendants := by
    rw [List.filterMap_flatMap, childNodes, List.filterMap_eq_flatMap_toList, List.flatMap_assoc]
    exact List.flatMap_congr fun child => entered_walk_child
  rw [← (isFaithful hn).entered_eq, walk_node]
  simp [Visit.entered?, hbelow]

/-- The root lies around every node. -/
theorem isAncestor_zero (hn : d.hasNode n) : d.isAncestor 0 n := by
  have hlt := hasNode_iff.mp hn
  have hzero : d.hasNode 0 := hasNode_iff.mpr (by omega)
  rw [← mem_descendants, ← (isFaithful hzero).entered_eq, d.isNumbered.entered_eq]
  exact List.mem_range.mpr hlt

theorem eq_zero_of_parent?_eq_none (hn : d.hasNode n) (hp : d.parent? n = none) : n = 0 := by
  by_contra hne
  obtain ⟨p, hp', -⟩ := isAncestor_parent (isAncestor_zero hn) (Ne.symm hne)
  cases hp.symm.trans hp'

/-- Climbing from a node ends at the root. -/
theorem getLast?_ancestors (hn : d.hasNode n) : (d.ancestors n).getLast? = some 0 := by
  induction n using d.climb with
  | root n hp =>
    rw [ancestors_eq, hp, eq_zero_of_parent?_eq_none hn hp]
    rfl
  | step n p hp ih =>
    have hlast := ih (hasNode_of_isAncestor (parent?_isAncestor hp).2).1
    rw [ancestors_of_parent? hp, List.getLast?_cons, hlast]
    rfl

/-- Any two nodes have a lowest node around them, whichever of the two the search for it begins
at. -/
theorem exists_lowestAround (ha : d.hasNode a) (hb : d.hasNode b) : ∃ c,
    d.commonAncestor? a b = some c ∧ d.commonAncestor? b a = some c ∧ d.isAncestor c a ∧
      d.isAncestor c b ∧ ∀ n, d.isAncestor n a → d.isAncestor n b → d.isAncestor n c := by
  obtain ⟨c, hc⟩ := exists_commonAncestor? (isAncestor_zero ha) (isAncestor_zero hb)
  obtain ⟨c', hc'⟩ := exists_commonAncestor? (isAncestor_zero hb) (isAncestor_zero ha)
  obtain ⟨hca, hcb, hlowest⟩ := commonAncestor?_eq_some ha hc
  obtain ⟨hcb', hca', hlowest'⟩ := commonAncestor?_eq_some hb hc'
  -- Each of the two searches finds a node around the one that the other search finds.
  obtain rfl : c = c' := isAncestor_antisymm (hlowest' c hcb hca) (hlowest c' hca' hcb')
  exact ⟨c, hc, hc', hca, hcb, hlowest⟩

/-- Any two tokens have a lowest node with both of them below it. -/
theorem exists_lowestAroundTokens (hs : d.hasToken s) (ht : d.hasToken t) : ∃ c,
    d.commonAncestorOfTokens? s t = some c ∧ s ∈ d.tokensUnder c ∧ t ∈ d.tokensUnder c ∧
      ∀ n, s ∈ d.tokensUnder n → t ∈ d.tokensUnder n → d.isAncestor n c := by
  have hps := hasNode_of_mem_tokensUnder (mem_tokensUnder_parent hs)
  have hpt := hasNode_of_mem_tokensUnder (mem_tokensUnder_parent ht)
  obtain ⟨c, hc, -⟩ := exists_lowestAround hps hpt
  exact ⟨c, hc, commonAncestorOfTokens?_eq_some hs ht hc⟩

/-- The numbers in the rows, the links to parents and the lists of children describe the same
tree. -/
structure IsCoherent (d : Document) : Prop where
  parent_root : d.parent? 0 = none
  ancestors_eq : ∀ n, d.ancestors n = n :: ((d.parent? n).map d.ancestors).getD []
  getLast?_ancestors : ∀ n, d.hasNode n → (d.ancestors n).getLast? = some 0
  mem_childNodes_iff : ∀ n c, c ∈ d.childNodes n ↔ d.parent? c = some n
  isAncestor_iff_mem_ancestors : ∀ a n, d.hasNode n → (d.isAncestor a n ↔ a ∈ d.ancestors n)
  isAncestor_iff_mem_descendants : ∀ a n, d.isAncestor a n ↔ n ∈ d.descendants a
  nodup_descendants : ∀ n, (d.descendants n).Nodup
  descendants_eq : ∀ n, d.hasNode n →
    d.descendants n = n :: (d.childNodes n).flatMap d.descendants
  mem_tokensUnder_iff : ∀ a t, d.hasToken t →
    (t ∈ d.tokensUnder a ↔ a ∈ d.ancestors (d.token t).parent)

/-- Every document is coherent. -/
theorem isCoherent (d : Document) : d.IsCoherent where
  parent_root := d.isNumbered.parent_root
  ancestors_eq := d.ancestors_eq
  getLast?_ancestors n := Document.getLast?_ancestors
  mem_childNodes_iff n c := Document.mem_childNodes_iff
  isAncestor_iff_mem_ancestors a n hn := (mem_ancestors_iff hn).symm
  isAncestor_iff_mem_descendants a n := mem_descendants.symm
  nodup_descendants n := List.nodup_range'
  descendants_eq n := Document.descendants_eq
  mem_tokensUnder_iff a t ht := by
    have hparent := hasNode_of_mem_tokensUnder (mem_tokensUnder_parent ht)
    rw [Document.mem_tokensUnder_iff ht, mem_ancestors_iff hparent]

end ExtractMethod.Document
