import ExtractMethod.Proofs.Document.Events
import ExtractMethod.Proofs.Document.Plain
import ExtractMethod.Proofs.Document.Standing

/-! A walk through a document along its children meets just the events that the document comes of.
All other numbers and ranges in the document agree with the walk. -/
namespace ExtractMethod

open ExtractMethod.Tree
open Text (Range)

/-- The part of a text between two others is cut out by its bytes. -/
theorem Text.slice_append (before text after : String) :
    Text.slice (before ++ text ++ after)
      (.ofLength before.utf8ByteSize text.utf8ByteSize) = text := by
  have hextract : ((before ++ text ++ after).toUTF8).extract before.utf8ByteSize
      (before.utf8ByteSize + text.utf8ByteSize) = text.toUTF8 := by
    simp only [String.toUTF8_eq_toByteArray, String.toByteArray_append, ByteArray.append_assoc]
    rw [← Nat.add_zero before.utf8ByteSize, Nat.add_assoc, Nat.zero_add]
    exact ByteArray.extract_append_size_add.trans (ByteArray.extract_append_eq_left rfl)
  rw [slice, Range.ofLength, hextract, String.fromUTF8?, String.toUTF8_eq_toByteArray,
    dif_pos text.isValidUTF8]
  rfl

namespace Document

variable {d : Document} {p : Place} {parent : Option Nat} {element : Element} {kind : NodeKind}
  {children : List Element} {n t : Nat}

theorem texts_eq_map (d : Document) :
    d.texts = (List.range d.tokenCount).map fun t => (d.token t).text := by
  apply List.ext_getElem
  · simp [texts, tokenCount]
  · intro i h₁ h₂
    have hi : i < d.tokens.size := by simpa [tokenCount] using h₂
    simp [texts, ← getElem_tokens hi]

/-- Where the token with this number starts, if there is one: at the end of the token before it. -/
def tokenStart (d : Document) : Nat → Nat
  | 0 => 0
  | t + 1 => (d.token t).range.stop

/-- A place is counted in bytes as it is in tokens. -/
theorem tokenStart_eq (ht : t ≤ d.tokenCount) :
    d.tokenStart t = (String.join (d.texts.take t)).utf8ByteSize := by
  cases t with
  | zero => rfl
  | succ t =>
    obtain ⟨parent, p, kind, text, hstands, rfl⟩ := exists_stands_token (hasToken_iff.mpr ht)
    obtain ⟨before, after, htexts, hlength, hsize⟩ := hstands.exists_texts
    have htake : d.texts.take (p.token + 1) = before ++ [text] := by
      rw [htexts]
      exact List.take_left' (by simp [Element.texts, hlength])
    rw [tokenStart, hstands.token_eq.2, htake]
    simp [Range.ofLength, hsize]

theorem Stands.tokenStart_eq (h : d.Stands parent p element) : d.tokenStart p.token = p.offset ∧
    d.tokenStart (p.after element).token = (p.after element).offset := by
  obtain ⟨before, after, htexts, hlength, hsize⟩ := h.exists_texts
  have hcount : d.tokenCount = before.length + element.tokenCount + after.length := by
    have hlength := congrArg List.length htexts
    simp only [texts_eq_map, List.length_map, List.length_range, List.length_append,
      element.length_texts] at hlength
    exact hlength
  have hafter : (p.after element).token = (before ++ element.texts).length := by
    simp [Place.after, hlength, element.length_texts]
  rw [Document.tokenStart_eq (by omega), Document.tokenStart_eq (by simp [Place.after]; omega),
    hafter, htexts, List.take_left, List.append_assoc, ← hlength, List.take_left]
  simp [hsize, Place.after, element.utf8ByteSize_texts]

/-- A step of a walk: into a node, over a token, or out of a node again. -/
inductive Visit where
  | enter (n : Nat)
  | pass (t : Nat)
  | leave (n : Nat)

def Visit.entered? : Visit → Option Nat
  | .enter n => some n
  | .pass _ => none
  | .leave _ => none

def Visit.passed? : Visit → Option Nat
  | .enter _ => none
  | .pass t => some t
  | .leave _ => none

/-- The event that a step of a walk shows. -/
def event (d : Document) : Visit → Event
  | .enter n => .start (.node (d.kind n))
  | .pass t => .token (.token (d.token t).kind) (d.token t).text
  | .leave _ => .finish

/-- How far a walk can still go down from a child. -/
def depthBelow (d : Document) : Child → Nat
  | .token _ => 0
  | .node n => d.nodeCount - n + 1

theorem depthBelow_lt {child : Child} (h : child ∈ (d.node n).children) :
    d.depthBelow child < d.depthBelow (.node n) := by
  have hparent := parentOf?_of_mem_children h
  cases child with
  | token t => exact Nat.succ_pos _
  | node c =>
    have hlt := (parent?_isAncestor hparent).1
    have hc := hasNode_iff.mp (hasNode_of_parent? hparent)
    simp only [depthBelow]
    omega

/-- The walk over a child and all that is below it, along the children of each node. -/
def walk (d : Document) : Child → List Visit
  | .token t => [.pass t]
  | .node n =>
    .enter n :: ((d.node n).children.attach.flatMap fun child => d.walk child.1) ++ [.leave n]
termination_by child => d.depthBelow child
decreasing_by exact depthBelow_lt child.2

theorem walk_token (d : Document) (t : Nat) : d.walk (.token t) = [.pass t] := by rw [walk]

theorem walk_node (d : Document) (n : Nat) :
    d.walk (.node n) = .enter n :: ((d.node n).children.flatMap d.walk ++ [.leave n]) := by
  rw [walk, List.flatMap_subtype (g := d.walk) fun _ _ => rfl, List.unattach_attach]
  rfl

/-- A part of a walk goes over some elements that follow each other from a place on. -/
structure GoesOver (d : Document) (p : Place) (elements : List Element)
    (visits : List Visit) : Prop where
  events_eq : visits.map d.event = eventsAll elements
  entered_eq : visits.filterMap Visit.entered? = List.range' p.node (Element.nodeCountAll elements)
  passed_eq : visits.filterMap Visit.passed? = List.range' p.token (Element.tokenCountAll elements)

theorem GoesOver.nil : d.GoesOver p [] [] := ⟨rfl, rfl, rfl⟩

theorem GoesOver.append {first rest : List Visit} {elements : List Element}
    (hfirst : d.GoesOver p [element] first) (hrest : d.GoesOver (p.after element) elements rest) :
    d.GoesOver p (element :: elements) (first ++ rest) where
  events_eq := by
    simp [hfirst.events_eq, hrest.events_eq, eventsAll]
  entered_eq := by
    simp [hfirst.entered_eq, hrest.entered_eq, Element.nodeCountAll, Place.after,
      List.range'_append_1]
  passed_eq := by
    simp [hfirst.passed_eq, hrest.passed_eq, Element.tokenCountAll, Place.after,
      List.range'_append_1]

theorem Stands.goesOver_token {tokenKind : TokenKind} {text : String}
    (h : d.Stands parent p (.token tokenKind text)) :
    d.GoesOver p [.token tokenKind text] [.pass p.token] where
  events_eq := by simp [event, h.token_eq.2, eventsAll, Element.events]
  entered_eq := rfl
  passed_eq := rfl

theorem Stands.goesOver_node {visits : List Visit} (h : d.Stands parent p (.node kind children))
    (hvisits : d.GoesOver p.inside children visits) :
    d.GoesOver p [.node kind children] (.enter p.node :: (visits ++ [.leave p.node])) where
  events_eq := by
    simp [event, Document.kind, h.node_eq.2, rowAt, eventsAll, Element.events, hvisits.events_eq]
  entered_eq := by
    simp [Visit.entered?, hvisits.entered_eq, Element.nodeCountAll, Element.nodeCount, Place.inside,
      Nat.add_comm 1, List.range'_succ]
  passed_eq := by
    simp [List.filterMap_cons, Visit.passed?, hvisits.passed_eq, Element.tokenCountAll,
      Element.tokenCount, Place.inside]

mutual

/-- The walk goes over each element where it stands. -/
theorem Stands.goesOver {parent : Option Nat} {p : Place} {element : Element}
    (h : d.Stands parent p element) : d.GoesOver p [element] (d.walk (p.child element)) := by
  cases element with
  | token tokenKind text =>
    rw [Place.child, walk_token]
    exact h.goesOver_token
  | node kind children =>
    rw [Place.child, walk_node, h.node_eq.2]
    exact h.goesOver_node (Stands.goesOverAll [] children [] (by simpa using h))

/-- The walk goes over the children of a node one after the other. -/
theorem Stands.goesOverAll {parent : Option Nat} {p : Place} {kind : NodeKind}
    (before elements after : List Element)
    (h : d.Stands parent p (.node kind (before ++ elements ++ after))) :
    d.GoesOver (p.inside.afterAll before) elements
      ((childrenAt (p.inside.afterAll before) elements).flatMap d.walk) := by
  cases elements with
  | nil => exact .nil
  | cons element rest =>
    have hrest : (p.inside.afterAll before).after element =
        p.inside.afterAll (before ++ [element]) := by
      rw [Place.afterAll_append]
      rfl
    have hfirst : d.Stands parent p (.node kind (before ++ element :: (rest ++ after))) := by
      simpa using h
    rw [childrenAt_cons, List.flatMap_cons]
    refine .append (Stands.goesOver hfirst.child) ?_
    rw [hrest]
    exact Stands.goesOverAll (before ++ [element]) rest after (by simpa using h)

end

theorem goesOver_root {r : Root} (h : r.IsLaidOut d.nodes d.tokens d.text) :
    d.GoesOver .start [r.element] (d.walk (.node 0)) := Stands.goesOver (.root h)

/-- The walk over an element is a part of the walk over the document, after just the tokens before
it. -/
theorem Stands.exists_walk (h : d.Stands parent p element) : ∃ before after,
    d.walk (.node 0) = before ++ d.walk (p.child element) ++ after ∧
      before.filterMap Visit.passed? = List.range p.token := by
  induction h with
  | root _ => exact ⟨[], [], by simp [Place.child, Root.element, Place.start], rfl⟩
  | @child parent p kind before after element h ih =>
    obtain ⟨earlier, later, hwalk, hpassed⟩ := ih
    have hbefore := Stands.goesOverAll [] before (element :: after) h
    rw [Place.child, walk_node d p.node, h.node_eq.2, rowAt, childrenAt_append,
      childrenAt_cons] at hwalk
    refine ⟨earlier ++ .enter p.node :: (childrenAt p.inside before).flatMap d.walk,
      (childrenAt ((p.inside.afterAll before).after element) after).flatMap d.walk ++
        .leave p.node :: later, by simp [hwalk], ?_⟩
    have hpart := hbefore.passed_eq
    rw [Place.afterAll_nil] at hpart
    simp only [List.filterMap_append, hpassed, List.filterMap_cons, Visit.passed?, hpart]
    rw [List.range_eq_range', List.range_eq_range', Place.afterAll, Place.inside,
      ← List.range'_append_1, Nat.zero_add]

/-- Nodes are numbered in the order in which the walk enters them, and tokens in the order in which
it passes them. -/
structure IsNumbered (d : Document) : Prop where
  parent_root : d.parent? 0 = none
  entered_eq : (d.walk (.node 0)).filterMap Visit.entered? = List.range d.nodeCount
  passed_eq : (d.walk (.node 0)).filterMap Visit.passed? = List.range d.tokenCount

/-- The tokens fill the text from its start to its end, one right after the other. -/
structure IsTiled (d : Document) : Prop where
  start_eq : ∀ t, d.hasToken t → (d.token t).range.start = d.tokenStart t
  size_eq : d.tokenStart d.tokenCount = d.size
  slice_eq : ∀ t, d.hasToken t → d.slice (d.token t).range = (d.token t).text

/-- What is noted about a node agrees with the walk over it and with the text. -/
structure IsFaithful (d : Document) (n : Nat) : Prop where
  parent_children : ∀ child ∈ (d.node n).children, d.parentOf? child = some n
  entered_eq : (d.walk (.node n)).filterMap Visit.entered? = d.descendants n
  passed_eq : (d.walk (.node n)).filterMap Visit.passed? = d.tokensUnder n
  passed_before : ∃ before after, d.walk (.node 0) = before ++ d.walk (.node n) ++ after ∧
    before.filterMap Visit.passed? = List.range (d.node n).firstToken
  firstToken_le : (d.node n).firstToken ≤ (d.node n).tokenStop
  start_eq : (d.fullRange n).start = d.tokenStart (d.node n).firstToken
  stop_eq : (d.fullRange n).stop = d.tokenStart (d.node n).tokenStop
  slice_eq : d.slice (d.fullRange n) =
    String.join ((d.tokensUnder n).map fun t => (d.token t).text)
  covers_span : (d.fullRange n).covers (d.span n)

theorem isNumbered (d : Document) : d.IsNumbered := by
  obtain ⟨root, hlaid⟩ := d.exists_root
  have hwalk := goesOver_root hlaid
  have hroot : d.Stands none .start (.node root.kind root.children) := .root hlaid
  obtain ⟨hnode, htoken⟩ := after_root hlaid
  simp only [Place.after, Place.start, Nat.zero_add] at hnode htoken
  refine ⟨?_, ?_, ?_⟩
  · rw [parent?, show 0 = Place.start.node from rfl, hroot.node_eq.2, rowAt]
  · rw [← hnode, List.range_eq_range']
    simpa [Element.nodeCountAll, Place.start] using hwalk.entered_eq
  · rw [← htoken, List.range_eq_range']
    simpa [Element.tokenCountAll, Place.start] using hwalk.passed_eq

theorem slice_of_texts {before texts after : List String} {r : Range}
    (htexts : d.texts = before ++ texts ++ after)
    (hr : r = .ofLength (String.join before).utf8ByteSize (String.join texts).utf8ByteSize) :
    d.slice r = String.join texts := by
  rw [slice, d.text_eq_join, htexts, hr, String.join_append, String.join_append,
    Text.slice_append]

theorem isTiled (d : Document) : d.IsTiled := by
  refine ⟨?_, ?_, ?_⟩
  · intro t ht
    obtain ⟨parent, p, kind, text, hstands, rfl⟩ := exists_stands_token ht
    rw [hstands.tokenStart_eq.1, hstands.token_eq.2]
    rfl
  · rw [tokenStart_eq (Nat.le_refl _), size, d.text_eq_join, List.take_of_length_le]
    simp [texts_eq_map]
  · intro t ht
    obtain ⟨parent, p, kind, text, hstands, rfl⟩ := exists_stands_token ht
    obtain ⟨before, after, htexts, -, hsize⟩ := hstands.exists_texts
    rw [slice_of_texts htexts (by simp [hstands.token_eq.2, hsize, Element.texts]),
      hstands.token_eq.2]
    simp [Element.texts]

theorem Stands.tokensUnder_eq (h : d.Stands parent p (.node kind children)) :
    d.tokensUnder p.node = List.range' p.token (Element.tokenCountAll children) := by
  simp [tokensUnder, h.node_eq.2, rowAt]

/-- The tokens under a node have its texts. -/
theorem Stands.map_text_tokensUnder (h : d.Stands parent p (.node kind children)) :
    (d.tokensUnder p.node).map (fun t => (d.token t).text) = Element.textsAll children := by
  obtain ⟨before, after, htexts, hlength, -⟩ := h.exists_texts
  have hcount := congrArg List.length htexts
  simp only [Element.texts, List.length_append, Element.length_textsAll, hlength] at hcount
  rw [texts_eq_map, List.length_map, List.length_range] at hcount
  have hrange : List.range d.tokenCount = List.range p.token ++
      (d.tokensUnder p.node ++
        List.range' (p.token + Element.tokenCountAll children) after.length) := by
    rw [h.tokensUnder_eq, List.range'_append_1, List.range_eq_range', List.range_eq_range', hcount,
      Nat.add_assoc, ← List.range'_append_1, Nat.zero_add]
  rw [texts_eq_map, hrange, List.map_append, List.map_append, List.append_assoc] at htexts
  have hrest := (List.append_inj htexts (by simp [hlength])).2
  exact (List.append_inj hrest
    (by simp [h.tokensUnder_eq, Element.texts, Element.length_textsAll])).1

/-- The span of a node lies in its full range. -/
theorem fullRange_covers_span (d : Document) (n : Nat) : (d.fullRange n).covers (d.span n) := by
  cases hfirst : d.firstToken? n with
  | none => simp [span, hfirst, Range.covers]
  | some first =>
    obtain ⟨hf, hsig, -⟩ := firstToken?_eq_some hfirst
    obtain ⟨last, hlast⟩ := exists_lastToken? hf hsig
    obtain ⟨hl, -, -⟩ := lastToken?_eq_some hlast
    obtain ⟨hstart, hstop⟩ := span_eq hfirst hlast
    simp [Range.covers, hstart, hstop, (range_of_mem_tokensUnder hf).1,
      (range_of_mem_tokensUnder hl).2]

theorem isFaithful (hn : d.hasNode n) : d.IsFaithful n := by
  obtain ⟨parent, p, kind, children, hstands, rfl⟩ := exists_stands_node hn
  have hwalk := hstands.goesOver
  have hrow := hstands.node_eq.2
  obtain ⟨before, after, htexts, -, hsize⟩ := hstands.exists_texts
  obtain ⟨hstart, hstop⟩ := hstands.tokenStart_eq
  refine ⟨fun child => parentOf?_of_mem_children, ?_, ?_, ?_, ?_, ?_, ?_, ?_,
    d.fullRange_covers_span _⟩
  · simpa [descendants, hrow, rowAt, Element.nodeCountAll, Element.nodeCount, Nat.add_assoc,
      Place.child] using hwalk.entered_eq
  · rw [hstands.tokensUnder_eq]
    simpa [Element.tokenCountAll, Element.tokenCount, Place.child] using hwalk.passed_eq
  · rw [hrow]
    exact hstands.exists_walk
  · rw [hrow]
    exact Nat.le_add_right _ _
  · rw [fullRange, hrow]
    exact hstart.symm
  · rw [fullRange, hrow]
    exact hstop.symm
  · rw [hstands.map_text_tokensUnder]
    refine slice_of_texts htexts ?_
    have hbytes := (Element.node kind children).utf8ByteSize_texts
    simp only [Element.texts, Element.byteLength] at hbytes ⊢
    rw [fullRange, hrow, hsize, hbytes]
    rfl

end Document

/-- A document keeps all that it comes of: a walk along its children meets the events again. Its
nodes and tokens are numbered in the order of the walk, its tokens fill the text, and each node has
just the tokens and the text that the walk over it meets. -/
theorem Document.ofEvents_lossless {events : List Event} {version : Version} {d : Document}
    (h : Document.ofEvents events version = .ok d) : (d.walk (.node 0)).map d.event = events ∧
      d.IsNumbered ∧ d.IsTiled ∧ ∀ n, d.hasNode n → d.IsFaithful n := by
  refine ⟨?_, d.isNumbered, d.isTiled, fun n => isFaithful⟩
  have hanswer := concludes_ofEvents events version
  rw [h] at hanswer
  cases hanswer with
  | document hlaid _ hevents =>
    rw [← hevents]
    simpa [eventsAll] using (goesOver_root hlaid).events_eq

/-- A block with an empty node between its braces. -/
def Document.blockEvents : List Event :=
  [.start (.node .block), .token (.token .lBrace) "\x7b", .start (.node .errorNode), .finish,
    .token (.token .rBrace) "\x7d", .finish]

/-- The empty node is met again, and its range is empty and lies between the braces. -/
theorem ofEvents_lossless_block : ∃ d, Document.ofEvents Document.blockEvents .first = .ok d ∧
    (d.walk (.node 0)).map d.event = Document.blockEvents ∧ d.fullRange 1 = .ofLength 1 0 ∧
      d.IsFaithful 1 := by
  have h : Document.ofEvents Document.blockEvents .first = .ok (.ofRoot ⟨.block,
      [.token .lBrace "\x7b", .node .errorNode [], .token .rBrace "\x7d"]⟩ .first) := rfl
  obtain ⟨hevents, -, -, hnodes⟩ := Document.ofEvents_lossless h
  exact ⟨_, h, hevents, rfl, hnodes 1 rfl⟩

end ExtractMethod
