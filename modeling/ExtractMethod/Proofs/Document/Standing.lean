import ExtractMethod.Proofs.Document.Tokens

/-! Every row of a document is that of an element of its tree, at the place where the element
stands. -/
namespace ExtractMethod

open ExtractMethod.Tree
open Text (Range)

namespace Tree

variable {p : Place} {parent : Option Nat} {q i : Nat} {elements : List Element}

/-- Induction over an element: a node has what all of its children have. -/
@[elab_as_elim]
theorem Element.induction {motive : Element → Prop}
    (token : ∀ kind text, motive (.token kind text))
    (node : ∀ kind children, (∀ child ∈ children, motive child) → motive (.node kind children))
    (element : Element) : motive element := by
  cases element with
  | token kind text => exact token kind text
  | node kind children =>
    exact node kind children fun child _ => Element.induction token node child
termination_by element

/-- The children of a node are numbered by the places where they stand. -/
theorem mem_childrenAt {child : Child} : child ∈ childrenAt p elements ↔
    ∃ before element after, elements = before ++ element :: after ∧
      child = (p.afterAll before).child element := by
  induction elements generalizing p with
  | nil => simp [childrenAt]
  | cons first rest ih =>
    rw [childrenAt_cons, List.mem_cons, ih]
    constructor
    · rintro (rfl | ⟨before, element, after, rfl, rfl⟩)
      · exact ⟨[], first, rest, rfl, rfl⟩
      · exact ⟨first :: before, element, after, rfl, by rw [Place.afterAll_cons]⟩
    · rintro ⟨before, element, after, heq, rfl⟩
      rcases List.cons_eq_append_iff.mp heq with ⟨rfl, heq⟩ | ⟨before, rfl, rfl⟩
      · cases heq
        exact Or.inl rfl
      · exact Or.inr ⟨before, element, after, rfl, by rw [Place.afterAll_cons]⟩

/-- Of the elements that fill the numbers up to a place, one has a given number below it. -/
theorem exists_holding (number : Place → Nat) (hle : number p ≤ i)
    (hlt : i < number (p.afterAll elements)) :
    ∃ before element after, elements = before ++ element :: after ∧
      number (p.afterAll before) ≤ i ∧ i < number ((p.afterAll before).after element) := by
  induction elements generalizing p with
  | nil => exact absurd hlt (Nat.not_lt_of_le hle)
  | cons first rest ih =>
    by_cases hfirst : i < number (p.after first)
    · exact ⟨[], first, rest, rfl, hle, hfirst⟩
    · rw [Place.afterAll_cons] at hlt
      obtain ⟨before, element, after, rfl, hle, hlt⟩ := ih (Nat.le_of_not_lt hfirst) hlt
      refine ⟨first :: before, element, after, rfl, ?_⟩
      rw [Place.afterAll_cons]
      exact ⟨hle, hlt⟩

mutual

theorem map_text_tokenRows (p : Place) (q : Nat) (element : Element) :
    (tokenRows p q element).map TokenRow.text = element.texts := by
  cases element with
  | token kind text => rfl
  | node kind children => exact map_text_tokenRowsAll p.inside p.node children

theorem map_text_tokenRowsAll (p : Place) (q : Nat) (elements : List Element) :
    (tokenRowsAll p q elements).map TokenRow.text = Element.textsAll elements := by
  cases elements with
  | nil => rfl
  | cons element rest =>
    rw [tokenRowsAll, List.map_append, map_text_tokenRows p q element,
      map_text_tokenRowsAll (p.after element) q rest, Element.textsAll]

end

theorem Element.length_texts (element : Element) : element.texts.length = element.tokenCount := by
  have h := (wellLaid .start 0 element).token_eq
  rw [← map_text_tokenRows .start 0 element, List.length_map]
  simpa [Place.after, Place.start] using h.symm

theorem Element.length_textsAll (elements : List Element) :
    (textsAll elements).length = tokenCountAll elements :=
  Element.length_texts (.node .block elements)

end Tree

namespace Document

variable {d : Document} {p : Place} {parent : Option Nat} {element : Element} {kind : NodeKind}
  {tokenKind : TokenKind} {text : String} {children : List Element} {n t c : Nat}

/-- The element is a part of the tree and stands at the place, below the given parent. -/
inductive Stands (d : Document) : Option Nat → Place → Element → Prop where
  | root {r : Root} (laid : r.IsLaidOut d.nodes d.tokens d.text) : Stands d none .start r.element
  | child {parent : Option Nat} {p : Place} {kind : NodeKind} {before after : List Element}
      {element : Element} (h : Stands d parent p (.node kind (before ++ element :: after))) :
      Stands d (some p.node) (p.inside.afterAll before) element

/-- The rows of an element that stands in the document are rows of the document, from its place
on. -/
structure HasRows (d : Document) (parent : Option Nat) (p : Place) (element : Element) : Prop where
  nodes : nodeRows p parent element <+: d.nodes.toList.drop p.node
  tokens : tokenRows p (parent.getD 0) element <+: d.tokens.toList.drop p.token

theorem Stands.hasRows (h : d.Stands parent p element) : d.HasRows parent p element := by
  induction h with
  | root hlaid =>
    exact ⟨by simp [hlaid.nodes_eq, Place.start], by simp [hlaid.tokens_eq, Place.start]⟩
  | @child parent p kind before after element _ ih =>
    obtain ⟨⟨otherNodes, hnodes⟩, ⟨otherTokens, htokens⟩⟩ := ih
    have hbefore := wellLaidAll p.inside p.node before
    have hnode : (p.inside.afterAll before).node =
        p.node + ((nodeRowsAll p.inside (some p.node) before).length + 1) := by
      rw [hbefore.node_eq, Place.inside, Nat.add_assoc, Nat.add_comm 1]
    have htoken : (p.inside.afterAll before).token =
        p.token + (tokenRowsAll p.inside p.node before).length := hbefore.token_eq
    constructor
    · refine ⟨nodeRowsAll ((p.inside.afterAll before).after element) (some p.node) after ++
        otherNodes, ?_⟩
      rw [hnode, ← List.drop_drop, ← hnodes]
      simp [nodeRows, nodeRowsAll_append, nodeRowsAll]
    · refine ⟨tokenRowsAll ((p.inside.afterAll before).after element) p.node after ++
        otherTokens, ?_⟩
      rw [htoken, ← List.drop_drop, ← htokens]
      simp [tokenRows, tokenRowsAll_append, tokenRowsAll]

/-- The row of a node that stands in the document. -/
theorem Stands.node_eq (h : d.Stands parent p (.node kind children)) :
    d.hasNode p.node ∧ d.node p.node = rowAt p parent kind children := by
  obtain ⟨other, hnodes⟩ := h.hasRows.nodes
  have hget : d.nodes[p.node]? = some (rowAt p parent kind children) := by
    have hzero : (d.nodes.toList.drop p.node)[0]? = some (rowAt p parent kind children) := by
      rw [← hnodes, nodeRows]
      rfl
    simpa using hzero
  obtain ⟨hlt, heq⟩ := Array.getElem?_eq_some_iff.mp hget
  exact ⟨hasNode_iff.mpr hlt, by simp [node, Array.getD, hlt, heq]⟩

/-- The row of a token that stands in the document. -/
theorem Stands.token_eq (h : d.Stands parent p (.token tokenKind text)) : d.hasToken p.token ∧
    d.token p.token = ⟨tokenKind, text, .ofLength p.offset text.utf8ByteSize, parent.getD 0⟩ := by
  obtain ⟨other, htokens⟩ := h.hasRows.tokens
  have hget : d.tokens[p.token]? =
      some ⟨tokenKind, text, .ofLength p.offset text.utf8ByteSize, parent.getD 0⟩ := by
    have hzero : (d.tokens.toList.drop p.token)[0]? =
        some ⟨tokenKind, text, .ofLength p.offset text.utf8ByteSize, parent.getD 0⟩ := by
      rw [← htokens, tokenRows]
      rfl
    simpa using hzero
  obtain ⟨hlt, heq⟩ := Array.getElem?_eq_some_iff.mp hget
  exact ⟨hasToken_iff.mpr hlt, by simp [token, Array.getD, hlt, heq]⟩

theorem Stands.exists_node (h : d.Stands parent p element) (hle : p.node ≤ n)
    (hlt : n < (p.after element).node) :
    ∃ parent p kind children, d.Stands parent p (.node kind children) ∧ p.node = n := by
  induction element using Element.induction generalizing parent p with
  | token tokenKind text =>
    simp only [Place.after, Element.nodeCount] at hlt
    omega
  | node kind children ih =>
    rcases Nat.lt_or_eq_of_le hle with hbelow | rfl
    · rw [Place.after_node] at hlt
      obtain ⟨before, inner, after, rfl, hle, hlt⟩ := exists_holding Place.node hbelow hlt
      exact ih inner (by simp) h.child hle hlt
    · exact ⟨parent, p, kind, children, h, rfl⟩

theorem Stands.exists_token (h : d.Stands parent p element) (hle : p.token ≤ t)
    (hlt : t < (p.after element).token) :
    ∃ parent p kind text, d.Stands parent p (.token kind text) ∧ p.token = t := by
  induction element using Element.induction generalizing parent p with
  | token tokenKind text =>
    simp only [Place.after, Element.tokenCount] at hlt
    exact ⟨parent, p, tokenKind, text, h, by omega⟩
  | node kind children ih =>
    rw [Place.after_node] at hlt
    obtain ⟨before, inner, after, rfl, hle, hlt⟩ :=
      exists_holding Place.token (p := p.inside) hle hlt
    exact ih inner (by simp) h.child hle hlt

theorem after_root {r : Root} (h : r.IsLaidOut d.nodes d.tokens d.text) :
    (Place.start.after r.element).node = d.nodeCount ∧
      (Place.start.after r.element).token = d.tokenCount := by
  have hlaid := wellLaidAll Place.start.inside 0 r.children
  rw [Root.element, Place.after_node, hlaid.node_eq, hlaid.token_eq, nodeCount, tokenCount,
    h.nodes_eq, h.tokens_eq]
  simp [Root.element, nodeRows, tokenRows, Place.start, Place.inside, Nat.add_comm]

/-- Every node of a document is one of its tree. -/
theorem exists_stands_node (h : d.hasNode n) :
    ∃ parent p kind children, d.Stands parent p (.node kind children) ∧ p.node = n := by
  obtain ⟨root, hroot⟩ := d.exists_root
  exact Stands.exists_node (.root hroot) (Nat.zero_le n) ((after_root hroot).1 ▸ hasNode_iff.mp h)

/-- Every token of a document is one of its tree. -/
theorem exists_stands_token (h : d.hasToken t) :
    ∃ parent p kind text, d.Stands parent p (.token kind text) ∧ p.token = t := by
  obtain ⟨root, hroot⟩ := d.exists_root
  exact Stands.exists_token (.root hroot) (Nat.zero_le t) ((after_root hroot).2 ▸ hasToken_iff.mp h)

/-- The texts of all tokens, in document order. -/
def texts (d : Document) : List String := d.tokens.toList.map TokenRow.text

theorem texts_eq {r : Root} (h : r.IsLaidOut d.nodes d.tokens d.text) :
    d.texts = r.element.texts := by
  rw [texts, h.tokens_eq, map_text_tokenRows]

theorem text_eq_join (d : Document) : d.text = String.join d.texts := by
  obtain ⟨root, hroot⟩ := d.exists_root
  rw [texts_eq hroot, hroot.text_eq, Element.text]

/-- The tokens of an element have its texts, and the texts before them take up the text up to its
place. -/
theorem Stands.exists_texts (h : d.Stands parent p element) : ∃ before after,
    d.texts = before ++ element.texts ++ after ∧ before.length = p.token ∧
      (String.join before).utf8ByteSize = p.offset := by
  induction h with
  | root hlaid => exact ⟨[], [], by simp [texts_eq hlaid], rfl, rfl⟩
  | @child parent p kind before after element _ ih =>
    obtain ⟨earlier, later, htexts, hlength, hsize⟩ := ih
    refine ⟨earlier ++ Element.textsAll before, Element.textsAll after ++ later, ?_, ?_, ?_⟩
    · simp [htexts, Element.texts, Element.textsAll_append, Element.textsAll]
    · simp [hlength, Place.afterAll, Place.inside, Element.length_textsAll]
    · have hbefore := (Element.node kind before).utf8ByteSize_texts
      simp only [Element.texts, Element.byteLength] at hbefore
      simp [hsize, hbefore, Place.afterAll, Place.inside]

/-- The parent of a node or of a token. -/
def parentOf? (d : Document) : Child → Option Nat
  | .node c => d.parent? c
  | .token t => some (d.token t).parent

/-- The children that a node has know it as their parent. -/
theorem parentOf?_of_mem_children {child : Child} (h : child ∈ (d.node n).children) :
    d.parentOf? child = some n := by
  have hn : d.hasNode n := by
    apply Classical.byContradiction
    intro hn
    rw [node_of_not_hasNode hn] at h
    cases h
  obtain ⟨parent, p, kind, children, hstands, rfl⟩ := exists_stands_node hn
  rw [hstands.node_eq.2, rowAt] at h
  obtain ⟨before, element, after, rfl, rfl⟩ := mem_childrenAt.mp h
  cases element with
  | token tokenKind text =>
    rw [Place.child, parentOf?, hstands.child.token_eq.2]
    rfl
  | node kind children =>
    rw [Place.child, parentOf?, parent?, hstands.child.node_eq.2]
    rfl

/-- The nodes that have a node as their parent are its children. -/
theorem mem_childNodes_iff : c ∈ d.childNodes n ↔ d.parent? c = some n := by
  constructor
  · intro h
    obtain ⟨child, hchild, hc⟩ := List.mem_filterMap.mp h
    cases child with
    | token t => cases hc
    | node m =>
      cases hc
      exact parentOf?_of_mem_children hchild
  · intro h
    obtain ⟨parent, p, kind, children, hstands, rfl⟩ := exists_stands_node (hasNode_of_parent? h)
    rw [parent?, hstands.node_eq.2] at h
    cases hstands with
    | root => cases h
    | @child _ p _ before after _ houter =>
      cases h
      refine List.mem_filterMap.mpr ⟨.node (p.inside.afterAll before).node, ?_, rfl⟩
      rw [houter.node_eq.2]
      exact mem_childrenAt.mpr ⟨before, _, after, rfl, rfl⟩

end Document

end ExtractMethod
