import ExtractMethod.Tree.Layout

/-! The numbers in the rows agree with the tree they were taken from: the nodes below a node are
those that its row counts, and its tokens are theirs together with its own. -/
namespace ExtractMethod.Tree

/-- The place right after a list of elements. -/
def Place.afterAll (p : Place) (elements : List Element) : Place :=
  ⟨p.node + Element.nodeCountAll elements, p.token + Element.tokenCountAll elements,
    p.offset + Element.byteLengthAll elements⟩

theorem Place.after_node (p : Place) (kind : NodeKind) (children : List Element) :
    p.after (.node kind children) = p.inside.afterAll children := by
  simp [Place.after, Place.afterAll, Place.inside, Element.nodeCount, Element.tokenCount,
    Element.byteLength, Nat.add_assoc]

theorem Place.afterAll_cons (p : Place) (element : Element) (rest : List Element) :
    p.afterAll (element :: rest) = (p.after element).afterAll rest := by
  simp [Place.after, Place.afterAll, Element.nodeCountAll, Element.tokenCountAll,
    Element.byteLengthAll, Nat.add_assoc]

/-- The number of an element that stands at a place. -/
def Place.child (p : Place) : Element → Child
  | .node _ _ => .node p.node
  | .token _ _ => .token p.token

theorem childrenAt_cons (p : Place) (element : Element) (rest : List Element) :
    childrenAt p (element :: rest) = p.child element :: childrenAt (p.after element) rest := by
  cases element <;> rfl

theorem Place.afterAll_nil (p : Place) : p.afterAll [] = p := rfl

theorem Place.afterAll_append (p : Place) (xs ys : List Element) :
    p.afterAll (xs ++ ys) = (p.afterAll xs).afterAll ys := by
  induction xs generalizing p with
  | nil => rfl
  | cons x rest ih => rw [List.cons_append, afterAll_cons, ih, ← afterAll_cons]

theorem childrenAt_append (p : Place) (xs ys : List Element) :
    childrenAt p (xs ++ ys) = childrenAt p xs ++ childrenAt (p.afterAll xs) ys := by
  induction xs generalizing p with
  | nil => rfl
  | cons x rest ih => simp [childrenAt_cons, ih, Place.afterAll_cons]

theorem nodeRowsAll_append (p : Place) (parent : Option Nat) (xs ys : List Element) :
    nodeRowsAll p parent (xs ++ ys) =
      nodeRowsAll p parent xs ++ nodeRowsAll (p.afterAll xs) parent ys := by
  induction xs generalizing p with
  | nil => rfl
  | cons x rest ih => simp [nodeRowsAll, ih, Place.afterAll_cons]

theorem tokenRowsAll_append (p : Place) (q : Nat) (xs ys : List Element) :
    tokenRowsAll p q (xs ++ ys) = tokenRowsAll p q xs ++ tokenRowsAll (p.afterAll xs) q ys := by
  induction xs generalizing p with
  | nil => rfl
  | cons x rest ih => simp [tokenRowsAll, ih, Place.afterAll_cons]

namespace Element

theorem textsAll_append (xs ys : List Element) :
    textsAll (xs ++ ys) = textsAll xs ++ textsAll ys := by
  induction xs with
  | nil => rfl
  | cons x rest ih => simp [textsAll, ih]

mutual

theorem utf8ByteSize_texts (element : Element) :
    (String.join element.texts).utf8ByteSize = element.byteLength := by
  cases element with
  | token kind text => simp [texts, byteLength]
  | node kind children => exact utf8ByteSize_textsAll children

theorem utf8ByteSize_textsAll (elements : List Element) :
    (String.join (textsAll elements)).utf8ByteSize = byteLengthAll elements := by
  cases elements with
  | nil => rfl
  | cons element rest =>
    simp [textsAll, byteLengthAll, utf8ByteSize_texts element, utf8ByteSize_textsAll rest]

end

end Element

namespace NodeRow

/-- Node `n` has this row and lies, with all below it, between two places. -/
structure Between (lo hi : Place) (row : NodeRow) (n : Nat) : Prop where
  le_node : lo.node ≤ n
  lt_subtreeStop : n < row.subtreeStop
  subtreeStop_le : row.subtreeStop ≤ hi.node
  le_firstToken : lo.token ≤ row.firstToken
  firstToken_le : row.firstToken ≤ row.tokenStop
  tokenStop_le : row.tokenStop ≤ hi.token
  le_start : lo.offset ≤ row.range.start
  stop_le : row.range.stop ≤ hi.offset

/-- Node `n` with the row `inner` lies below node `m` with the row `outer`, and its parent does
not lie above that node. -/
structure Holds (outer : NodeRow) (m : Nat) (inner : NodeRow) (n : Nat) : Prop where
  lt_subtreeStop : n < outer.subtreeStop
  subtreeStop_le : inner.subtreeStop ≤ outer.subtreeStop
  le_firstToken : outer.firstToken ≤ inner.firstToken
  tokenStop_le : inner.tokenStop ≤ outer.tokenStop
  le_start : outer.range.start ≤ inner.range.start
  stop_le : inner.range.stop ≤ outer.range.stop
  parent : ∃ k, inner.parent = some k ∧ m ≤ k

/-- The token lies below node `n` with this row, in the tree and in the text. -/
structure HoldsToken (outer : NodeRow) (n : Nat) (inner : TokenRow) : Prop where
  le_parent : n ≤ inner.parent
  parent_lt : inner.parent < outer.subtreeStop
  le_start : outer.range.start ≤ inner.range.start
  stop_le : inner.range.stop ≤ outer.range.stop

/-- Node `n` with the row `second` comes after all that lies below the first row. -/
structure Precedes (first second : NodeRow) (n : Nat) : Prop where
  subtreeStop_le : first.subtreeStop ≤ n
  tokenStop_le : first.tokenStop ≤ second.firstToken
  stop_le : first.range.stop ≤ second.range.start

theorem Between.mono {lo lo' hi hi' : Place} {row : NodeRow} {n : Nat}
    (h : row.Between lo hi n) (hlo : lo'.node ≤ lo.node ∧ lo'.token ≤ lo.token ∧
      lo'.offset ≤ lo.offset) (hhi : hi.node ≤ hi'.node ∧ hi.token ≤ hi'.token ∧
      hi.offset ≤ hi'.offset) : row.Between lo' hi' n where
  le_node := Nat.le_trans hlo.1 h.le_node
  lt_subtreeStop := h.lt_subtreeStop
  subtreeStop_le := Nat.le_trans h.subtreeStop_le hhi.1
  le_firstToken := Nat.le_trans hlo.2.1 h.le_firstToken
  firstToken_le := h.firstToken_le
  tokenStop_le := Nat.le_trans h.tokenStop_le hhi.2.1
  le_start := Nat.le_trans hlo.2.2 h.le_start
  stop_le := Nat.le_trans h.stop_le hhi.2.2

end NodeRow

/-- The rows of elements that fill the text between two places and have a common parent. Rows are
paired with their numbers. -/
structure WellLaid (lo hi : Place) (parent : Option Nat) (nodes : List NodeRow)
    (tokens : List TokenRow) : Prop where
  node_eq : hi.node = lo.node + nodes.length
  token_eq : hi.token = lo.token + tokens.length
  offset_le : lo.offset ≤ hi.offset
  between : ∀ a ∈ nodes.zipIdx lo.node, a.1.Between lo hi a.2
  laminar : (nodes.zipIdx lo.node).Pairwise fun a b =>
    a.1.Holds a.2 b.1 b.2 ∨ a.1.Precedes b.1 b.2
  parents : ∀ b ∈ nodes.zipIdx lo.node, b.1.parent = parent ∨
    ∃ a ∈ nodes.zipIdx lo.node, b.1.parent = some a.2 ∧ a.2 < b.2 ∧ b.2 < a.1.subtreeStop
  ranges : ∀ t ∈ tokens, lo.offset ≤ t.range.start ∧ t.range.stop ≤ hi.offset
  sized : ∀ t ∈ tokens, t.range.stop = t.range.start + t.text.utf8ByteSize
  ordered : tokens.Pairwise fun s t => s.range.stop ≤ t.range.start
  owners : ∀ t ∈ tokens.zipIdx lo.token, some t.1.parent = parent ∨
    ∃ a ∈ nodes.zipIdx lo.node, t.1.parent = a.2 ∧ a.1.firstToken ≤ t.2 ∧ t.2 < a.1.tokenStop
  innermost : ∀ t ∈ tokens.zipIdx lo.token, ∀ a ∈ nodes.zipIdx lo.node,
    a.1.firstToken ≤ t.2 → t.2 < a.1.tokenStop → a.1.HoldsToken a.2 t.1

namespace WellLaid

variable {lo mid hi : Place} {parent : Option Nat} {nodes nodes' : List NodeRow}
  {tokens tokens' : List TokenRow}

theorem nil : WellLaid lo lo parent [] [] where
  node_eq := rfl
  token_eq := rfl
  offset_le := Nat.le_refl _
  between := by simp
  laminar := by simp
  parents := by simp
  ranges := by simp
  sized := by simp
  ordered := by simp
  owners := by simp
  innermost := by simp

theorem token {q : Nat} {row : TokenRow} (hnode : hi.node = lo.node)
    (htoken : hi.token = lo.token + 1) (hstart : row.range.start = lo.offset)
    (hstop : row.range.stop = hi.offset)
    (hsize : row.range.stop = row.range.start + row.text.utf8ByteSize) (hparent : row.parent = q) :
    WellLaid lo hi (some q) [] [row] where
  node_eq := hnode
  token_eq := htoken
  offset_le := by
    have := row.range.start_le_stop
    omega
  between := by simp
  laminar := by simp
  parents := by simp
  ranges := by simp [hstart, hstop]
  sized := by simp [hsize]
  ordered := by simp
  owners := by simp [hparent]
  innermost := by simp

theorem append (h : WellLaid lo mid parent nodes tokens)
    (h' : WellLaid mid hi parent nodes' tokens') :
    WellLaid lo hi parent (nodes ++ nodes') (tokens ++ tokens') := by
  have hnode := h.node_eq
  have htoken := h.token_eq
  have hoffset := h.offset_le
  have hnode' := h'.node_eq
  have htoken' := h'.token_eq
  have hoffset' := h'.offset_le
  have hn : (nodes ++ nodes').zipIdx lo.node = nodes.zipIdx lo.node ++ nodes'.zipIdx mid.node := by
    rw [List.zipIdx_append, ← hnode]
  have ht : (tokens ++ tokens').zipIdx lo.token =
      tokens.zipIdx lo.token ++ tokens'.zipIdx mid.token := by
    rw [List.zipIdx_append, ← htoken]
  refine ⟨?_, ?_, by omega, ?_, ?_, ?_, ?_, List.forall_mem_append.mpr ⟨h.sized, h'.sized⟩, ?_,
    ?_, ?_⟩
  · rw [List.length_append]
    omega
  · rw [List.length_append]
    omega
  · intro a ha
    rw [hn, List.mem_append] at ha
    rcases ha with ha | ha
    · exact (h.between a ha).mono ⟨by omega, by omega, by omega⟩ ⟨by omega, by omega, by omega⟩
    · exact (h'.between a ha).mono ⟨by omega, by omega, by omega⟩ ⟨by omega, by omega, by omega⟩
  · rw [hn, List.pairwise_append]
    refine ⟨h.laminar, h'.laminar, ?_⟩
    intro a ha b hb
    have hA := h.between a ha
    have hB := h'.between b hb
    exact Or.inr ⟨Nat.le_trans hA.subtreeStop_le hB.le_node,
      Nat.le_trans hA.tokenStop_le hB.le_firstToken, Nat.le_trans hA.stop_le hB.le_start⟩
  · intro b hb
    rw [hn] at hb ⊢
    rcases List.mem_append.mp hb with hb | hb
    · rcases h.parents b hb with hp | ⟨a, ha, hp⟩
      · exact Or.inl hp
      · exact Or.inr ⟨a, List.mem_append_left _ ha, hp⟩
    · rcases h'.parents b hb with hp | ⟨a, ha, hp⟩
      · exact Or.inl hp
      · exact Or.inr ⟨a, List.mem_append_right _ ha, hp⟩
  · intro t ht
    rcases List.mem_append.mp ht with ht | ht
    · have := h.ranges t ht
      omega
    · have := h'.ranges t ht
      omega
  · rw [List.pairwise_append]
    refine ⟨h.ordered, h'.ordered, ?_⟩
    intro s hs t ht
    exact Nat.le_trans (h.ranges s hs).2 (h'.ranges t ht).1
  · intro t hmem
    rw [ht] at hmem
    rw [hn]
    rcases List.mem_append.mp hmem with hmem | hmem
    · rcases h.owners t hmem with hp | ⟨a, ha, hp⟩
      · exact Or.inl hp
      · exact Or.inr ⟨a, List.mem_append_left _ ha, hp⟩
    · rcases h'.owners t hmem with hp | ⟨a, ha, hp⟩
      · exact Or.inl hp
      · exact Or.inr ⟨a, List.mem_append_right _ ha, hp⟩
  · intro t hmem a ha hfirst hstop
    rw [ht] at hmem
    rw [hn] at ha
    -- A node of one part has no token of the other.
    rcases List.mem_append.mp hmem with hmem | hmem <;> rcases List.mem_append.mp ha with ha | ha
    · exact h.innermost t hmem a ha hfirst hstop
    · have := List.snd_lt_add_of_mem_zipIdx hmem
      have := (h'.between a ha).le_firstToken
      omega
    · have := List.le_snd_of_mem_zipIdx hmem
      have := (h.between a ha).tokenStop_le
      omega
    · exact h'.innermost t hmem a ha hfirst hstop

/-- The rows of a node, from the rows of its children. -/
theorem node {row : NodeRow} (h : WellLaid lo.inside hi (some lo.node) nodes tokens)
    (hparent : row.parent = parent) (hsubtree : row.subtreeStop = hi.node)
    (hfirst : row.firstToken = lo.token) (hlast : row.tokenStop = hi.token)
    (hstart : row.range.start = lo.offset) (hstop : row.range.stop = hi.offset) :
    WellLaid lo hi parent (row :: nodes) tokens := by
  have hnode := h.node_eq
  have htoken := h.token_eq
  have hoffset := h.offset_le
  simp only [Place.inside] at hnode htoken hoffset
  have hn : (row :: nodes).zipIdx lo.node = (row, lo.node) :: nodes.zipIdx lo.inside.node := rfl
  have hfill (t) (ht : t ∈ tokens.zipIdx lo.inside.token) :
      row.firstToken ≤ t.2 ∧ t.2 < row.tokenStop := by
    have := List.le_snd_of_mem_zipIdx ht
    have := List.snd_lt_add_of_mem_zipIdx ht
    simp only [Place.inside] at *
    omega
  refine ⟨?_, htoken, hoffset, ?_, ?_, ?_, h.ranges, h.sized, h.ordered, ?_, ?_⟩
  · rw [List.length_cons]
    omega
  · intro a ha
    rw [hn, List.mem_cons] at ha
    rcases ha with rfl | ha
    · exact ⟨by simp, by simp; omega, by simp; omega, by simp; omega, by simp; omega,
        by simp; omega, by simp; omega, by simp; omega⟩
    · exact (h.between a ha).mono ⟨by simp [Place.inside], by simp [Place.inside],
        by simp [Place.inside]⟩ ⟨by omega, by omega, by omega⟩
  · rw [hn, List.pairwise_cons]
    refine ⟨?_, h.laminar⟩
    intro b hb
    have hB := h.between b hb
    refine Or.inl ⟨?_, ?_, ?_, ?_, ?_, ?_, ?_⟩
    · exact hsubtree ▸ Nat.lt_of_lt_of_le hB.lt_subtreeStop hB.subtreeStop_le
    · exact hsubtree ▸ hB.subtreeStop_le
    · exact hfirst ▸ hB.le_firstToken
    · exact hlast ▸ hB.tokenStop_le
    · exact hstart ▸ hB.le_start
    · exact hstop ▸ hB.stop_le
    · rcases h.parents b hb with hp | ⟨a, ha, hp, _⟩
      · exact ⟨_, hp, Nat.le_refl _⟩
      · have := (h.between a ha).le_node
        exact ⟨_, hp, by simp only [Place.inside] at this; omega⟩
  · intro b hb
    rw [hn] at hb ⊢
    rcases List.mem_cons.mp hb with rfl | hb
    · exact Or.inl hparent
    · right
      rcases h.parents b hb with hp | ⟨a, ha, hp⟩
      · have hB := h.between b hb
        have := hB.le_node
        simp only [Place.inside] at this
        exact ⟨_, List.mem_cons_self, hp, by simp; omega,
          hsubtree ▸ Nat.lt_of_lt_of_le hB.lt_subtreeStop hB.subtreeStop_le⟩
      · exact ⟨a, List.mem_cons_of_mem _ ha, hp⟩
  · intro t ht
    rw [hn]
    right
    rcases h.owners t ht with hp | ⟨a, ha, hp⟩
    · exact ⟨_, List.mem_cons_self, Option.some.inj hp, hfill t ht⟩
    · exact ⟨a, List.mem_cons_of_mem _ ha, hp⟩
  · intro t ht a ha hle hlt
    rw [hn] at ha
    rcases List.mem_cons.mp ha with rfl | ha
    · obtain ⟨hle, hlt⟩ : lo.node ≤ t.1.parent ∧ t.1.parent < hi.node := by
        rcases h.owners t ht with hp | ⟨a, ha, hp, _⟩
        · have hp := Option.some.inj hp
          omega
        · have hA := h.between a ha
          have := hA.le_node
          have := hA.lt_subtreeStop
          have := hA.subtreeStop_le
          simp only [Place.inside] at *
          omega
      have hrange := h.ranges t.1 (List.fst_mem_of_mem_zipIdx ht)
      exact ⟨hle, hsubtree ▸ hlt, hstart ▸ hrange.1, hstop ▸ hrange.2⟩
    · exact h.innermost t ht a ha hle hlt

end WellLaid

theorem childrenAt_pairwise (p : Place) (elements : List Element) :
    ((childrenAt p elements).filterMap Child.node?).Pairwise (· < ·) ∧
      ∀ n ∈ (childrenAt p elements).filterMap Child.node?, p.node ≤ n := by
  induction elements generalizing p with
  | nil => exact ⟨.nil, by simp [childrenAt]⟩
  | cons element rest ih =>
    obtain ⟨hsorted, hle⟩ := ih (p.after element)
    cases element with
    | token kind text => exact ⟨hsorted, hle⟩
    | node kind children =>
      have hafter : ∀ n ∈ (childrenAt (p.after (.node kind children)) rest).filterMap Child.node?,
          p.node < n := by
        intro n hn
        have := hle n hn
        simp only [Place.after, Element.nodeCount] at this
        omega
      refine ⟨List.pairwise_cons.mpr ⟨hafter, hsorted⟩, ?_⟩
      intro n hn
      rcases List.mem_cons.mp hn with rfl | hn
      · exact Nat.le_refl _
      · exact Nat.le_of_lt (hafter n hn)

mutual

/-- The children in a row are those of some elements at some place. -/
theorem exists_childrenAt (p : Place) (parent : Option Nat) (element : Element) :
    ∀ row ∈ nodeRows p parent element,
      ∃ place elements, row.children = childrenAt place elements := by
  cases element with
  | token kind text => simp [nodeRows]
  | node kind children =>
    rw [nodeRows, List.forall_mem_cons]
    exact ⟨⟨_, _, rfl⟩, exists_childrenAtAll p.inside (some p.node) children⟩

theorem exists_childrenAtAll (p : Place) (parent : Option Nat) (elements : List Element) :
    ∀ row ∈ nodeRowsAll p parent elements,
      ∃ place elements, row.children = childrenAt place elements := by
  cases elements with
  | nil => simp [nodeRowsAll]
  | cons element rest =>
    rw [nodeRowsAll, List.forall_mem_append]
    exact ⟨exists_childrenAt p parent element, exists_childrenAtAll (p.after element) parent rest⟩

end

mutual

theorem wellLaid (p : Place) (q : Nat) (element : Element) :
    WellLaid p (p.after element) (some q) (nodeRows p (some q) element)
      (tokenRows p q element) := by
  cases element with
  | token kind text => exact .token rfl rfl rfl rfl rfl rfl
  | node kind children =>
    rw [Place.after_node]
    exact .node (wellLaidAll p.inside p.node children) rfl rfl rfl rfl rfl rfl

theorem wellLaidAll (p : Place) (q : Nat) (elements : List Element) :
    WellLaid p (p.afterAll elements) (some q) (nodeRowsAll p (some q) elements)
      (tokenRowsAll p q elements) := by
  cases elements with
  | nil => exact .nil
  | cons element rest =>
    rw [Place.afterAll_cons]
    exact .append (wellLaid p q element) (wellLaidAll (p.after element) q rest)

end

end ExtractMethod.Tree
