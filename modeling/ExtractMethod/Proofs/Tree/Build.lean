import ExtractMethod.Proofs.Tree.Open

/-! The rows that the events fill are those of the tree that the events describe. One event keeps
the rows of what is open and of what is finished, and so do all events together. -/
namespace ExtractMethod.Tree

open OpenNode

namespace Builder

variable {b : Builder} {nodes outer : List OpenNode} {n : OpenNode} {root : Root}
  {events before : List Event} {event : Event} {e : BuildError} {p : Partial}

/-- The builder has the rows of the open nodes and of all that is finished below them, and nothing
has gone wrong. -/
structure Grows (b : Builder) (nodes : List OpenNode) : Prop where
  nodes_eq : b.nodes = (OpenNode.nodeRows none nodes).toArray
  tokens_eq : b.tokens = (OpenNode.tokenRows nodes).toArray
  text_eq : b.text = OpenNode.text nodes
  opened_eq : b.opened = OpenNode.opened nodes
  error_eq : b.error = none

/-- The builder has the rows of the tree under a root, and nothing has gone wrong. -/
structure Finishes (b : Builder) (root : Root) : Prop where
  laid : root.IsLaidOut b.nodes b.tokens b.text
  opened_eq : b.opened = []
  error_eq : b.error = none

/-- The builder has filled the rows of the tree so far. -/
def Fills (b : Builder) : Partial → Prop
  | .growing nodes => b.Grows nodes
  | .finished root => b.Finishes root

namespace Grows

theorem empty : empty.Grows [] := ⟨rfl, rfl, rfl, rfl, rfl⟩

theorem size_nodes (h : b.Grows nodes) : b.nodes.size = (placeAfter nodes).node := by
  rw [h.nodes_eq, List.size_toArray, length_nodeRows]

theorem size_tokens (h : b.Grows nodes) : b.tokens.size = (placeAfter nodes).token := by
  rw [h.tokens_eq, List.size_toArray, length_tokenRows]

theorem offset_eq (h : b.Grows nodes) : b.offset = (placeAfter nodes).offset := by
  rw [offset, h.text_eq, utf8ByteSize_text]

theorem openRoot (h : b.Grows []) (kind : NodeKind) :
    (b.openNode kind none).Grows [⟨kind, []⟩] where
  nodes_eq := by
    simp only [openNode, h.nodes_eq, h.size_tokens, h.offset_eq]
    rfl
  tokens_eq := h.tokens_eq
  text_eq := h.text_eq
  opened_eq := by
    simp only [openNode, h.opened_eq, h.size_nodes, h.offset_eq]
    rfl
  error_eq := h.error_eq

/-- A node is opened below the innermost open node. -/
theorem openChild (h : b.Grows (n :: outer)) (kind : NodeKind) :
    ((b.addChild (placeAfter outer).node (.node b.nodes.size)).openNode kind
      (some (placeAfter outer).node)).Grows (⟨kind, []⟩ :: n :: outer) where
  nodes_eq := by
    have hoffset := h.offset_eq
    have hsize := h.size_nodes
    simp only [openNode, addChild, offset, Array.size_modify, h.size_tokens] at hoffset ⊢
    rw [hoffset, hsize, h.nodes_eq, List.modify_toArray, modify_nodeRows_child, List.push_toArray]
    rfl
  tokens_eq := by
    simp [openNode, addChild, h.tokens_eq, OpenNode.tokenRows, tokenRowsAll]
  text_eq := by
    simp [openNode, addChild, h.text_eq, OpenNode.text, Element.textsAll]
  opened_eq := by
    have hoffset := h.offset_eq
    have hsize := h.size_nodes
    simp only [openNode, addChild, offset, Array.size_modify] at hoffset ⊢
    rw [hoffset, hsize, h.opened_eq]
    rfl
  error_eq := h.error_eq

theorem addToken (h : b.Grows (n :: outer)) (kind : TokenKind) (text : String) :
    (b.addToken kind text (placeAfter outer).node).Grows (n.add (.token kind text) :: outer) where
  nodes_eq := by
    simp only [Builder.addToken, addChild]
    rw [h.nodes_eq, h.size_tokens, List.modify_toArray, modify_nodeRows_child, nodeRows_add]
    simp [Place.child, Tree.nodeRows]
  tokens_eq := by
    simp [Builder.addToken, tokenRows_add, h.tokens_eq, h.offset_eq, Tree.tokenRows]
  text_eq := by
    simp [Builder.addToken, text_add, h.text_eq, Element.text, Element.texts]
  opened_eq := h.opened_eq
  error_eq := h.error_eq

/-- Once the innermost open node is closed, its rows are those of a finished element. -/
theorem nodes_closeNode (h : b.Grows (n :: outer)) :
    (b.closeNode ⟨(placeAfter outer).node, (placeAfter outer).offset⟩
        (OpenNode.opened outer)).nodes =
      (OpenNode.nodeRows (some (.node (placeAfter outer).node)) outer ++
        Tree.nodeRows (placeAfter outer) (innermost? outer) n.element).toArray := by
  simp only [closeNode]
  rw [h.offset_eq, h.size_nodes, h.size_tokens, h.nodes_eq, List.modify_toArray,
    modify_nodeRows_element]

theorem closeChild {parent : OpenNode} (h : b.Grows (n :: parent :: outer)) :
    (b.closeNode ⟨(placeAfter (parent :: outer)).node, (placeAfter (parent :: outer)).offset⟩
      (OpenNode.opened (parent :: outer))).Grows (parent.add n.element :: outer) where
  nodes_eq := by
    -- The parent has known the node as a child since it was opened.
    rw [h.nodes_closeNode, nodeRows_add]
    rfl
  tokens_eq := by
    rw [tokenRows_add]
    exact h.tokens_eq
  text_eq := by
    rw [text_add]
    exact h.text_eq
  opened_eq := rfl
  error_eq := h.error_eq

theorem closeRoot (h : b.Grows [n]) : (b.closeNode ⟨0, 0⟩ []).Finishes ⟨n.kind, n.children⟩ where
  laid :=
    { nodes_eq := h.nodes_closeNode
      tokens_eq := h.tokens_eq
      text_eq := by
        simp [closeNode, h.text_eq, OpenNode.text, Root.element, Element.text, Element.texts] }
  opened_eq := rfl
  error_eq := h.error_eq

theorem push_start (h : b.Grows nodes) (kind : NodeKind) :
    (b.push (.start (.node kind))).Grows (⟨kind, []⟩ :: nodes) := by
  cases nodes with
  | nil =>
    have hpush : b.push (.start (.node kind)) = b.openNode kind none := by
      simp [push, start, Kind.node?, h.opened_eq, OpenNode.opened, h.nodes_eq, OpenNode.nodeRows]
    rw [hpush]
    exact h.openRoot kind
  | cons n outer =>
    have hpush : b.push (.start (.node kind)) =
        (b.addChild (placeAfter outer).node (.node b.nodes.size)).openNode kind
          (some (placeAfter outer).node) := by
      simp [push, start, Kind.node?, h.opened_eq, OpenNode.opened]
    rw [hpush]
    exact h.openChild kind

theorem push_token (h : b.Grows (n :: outer)) (kind : TokenKind) (text : String) :
    (b.push (.token (.token kind) text)).Grows (n.add (.token kind text) :: outer) := by
  have hpush :
      b.push (.token (.token kind) text) = b.addToken kind text (placeAfter outer).node := by
    simp [push, token, Kind.token?, h.opened_eq, OpenNode.opened]
  rw [hpush]
  exact h.addToken kind text

theorem push_finish_eq (h : b.Grows (n :: outer)) : b.push .finish =
    b.closeNode ⟨(placeAfter outer).node, (placeAfter outer).offset⟩ (OpenNode.opened outer) := by
  simp [push, finish, h.opened_eq, OpenNode.opened]

theorem push_finish {parent : OpenNode} (h : b.Grows (n :: parent :: outer)) :
    (b.push .finish).Grows (parent.add n.element :: outer) := by
  rw [h.push_finish_eq]
  exact h.closeChild

theorem push_finish_root (h : b.Grows [n]) : (b.push .finish).Finishes ⟨n.kind, n.children⟩ := by
  rw [h.push_finish_eq]
  exact h.closeRoot

end Grows

/-- The event is taken, or it is passed over for what is wrong with it after the ones before. -/
inductive Handles (b : Builder) (p : Partial) (event : Event) : Prop where
  | takes {q : Partial} (fills : (b.push event).Fills q)
      (events_eq : q.events = p.events ++ [event]) (fits : event.fault? p.events = none)
  | refuses {e : BuildError} (push_eq : b.push event = b.fail e)
      (fault : event.fault? p.events = some e)

theorem Fills.handles_start (h : b.Fills p) (kind : Kind) : b.Handles p (.start kind) := by
  have hopen := p.openKinds_events
  cases hkind : kind.node? with
  | none =>
    refine .refuses (e := .notANodeKind kind) ?_ (by simp [Event.fault?, hkind])
    rw [push, start, hkind]
  | some node =>
    obtain rfl : kind = .node node := by
      cases kind <;> simp_all [Kind.node?]
    cases p with
    | growing nodes =>
      refine .takes (q := .growing (⟨node, []⟩ :: nodes)) (Grows.push_start h node) ?_ ?_
      · simp [Partial.events, OpenNode.events, eventsAll]
      · refine Event.fault?_start_eq_none_iff.mpr ⟨⟨node, rfl⟩, ?_⟩
        cases nodes with
        | nil => exact Or.inl rfl
        | cons n outer => exact Or.inr (by simp [hopen, Partial.openNodes])
    | finished root =>
      have hne : (Partial.finished root).events ≠ [] := by
        simp [Partial.events, Root.element, Element.events]
      refine .refuses (e := .multipleRoots) ?_
        (by simp [Event.fault?, Kind.node?, hopen, hne, Partial.openNodes])
      simp [push, start, Kind.node?, h.opened_eq, h.laid.nodes_eq, Root.element, Tree.nodeRows]

theorem Fills.handles_token (h : b.Fills p) (kind : Kind) (text : String) :
    b.Handles p (.token kind text) := by
  have hopen := p.openKinds_events
  cases hkind : kind.token? with
  | none =>
    refine .refuses (e := .notATokenKind kind) ?_ (by simp [Event.fault?, hkind])
    rw [push, token, hkind]
  | some token =>
    obtain rfl : kind = .token token := by
      cases kind <;> simp_all [Kind.token?]
    cases p with
    | growing nodes =>
      cases nodes with
      | nil =>
        refine .refuses (e := .tokenOutsideNode) ?_
          (by simp [Event.fault?, Kind.token?, hopen, Partial.openNodes])
        simp [push, Builder.token, Kind.token?, h.opened_eq, OpenNode.opened]
      | cons n outer =>
        refine .takes (q := .growing (n.add (.token token text) :: outer))
          (Grows.push_token h token text) ?_ ?_
        · simp [Partial.events, OpenNode.events_add, Element.events]
        · exact Event.fault?_token_eq_none_iff.mpr
            ⟨⟨token, rfl⟩, by simp [hopen, Partial.openNodes]⟩
    | finished root =>
      refine .refuses (e := .tokenOutsideNode) ?_
        (by simp [Event.fault?, Kind.token?, hopen, Partial.openNodes])
      simp [push, Builder.token, Kind.token?, h.opened_eq]

theorem Fills.handles_finish (h : b.Fills p) : b.Handles p .finish := by
  have hopen := p.openKinds_events
  cases p with
  | growing nodes =>
    cases nodes with
    | nil =>
      refine .refuses (e := .unmatchedFinish) ?_ (by simp [Event.fault?, hopen, Partial.openNodes])
      simp [push, finish, h.opened_eq, OpenNode.opened]
    | cons n outer =>
      have hfits : Event.finish.fault? (Partial.growing (n :: outer)).events = none :=
        Event.fault?_finish_eq_none_iff.mpr (by simp [hopen, Partial.openNodes])
      cases outer with
      | nil =>
        refine .takes (q := .finished ⟨n.kind, n.children⟩) (Grows.push_finish_root h) ?_ hfits
        simp [Partial.events, OpenNode.events, Root.element, Element.events]
      | cons parent outer =>
        refine .takes (q := .growing (parent.add n.element :: outer)) (Grows.push_finish h) ?_ hfits
        simp [Partial.events, OpenNode.events, OpenNode.add, OpenNode.element, eventsAll_append,
          eventsAll, Element.events]
  | finished root =>
    refine .refuses (e := .unmatchedFinish) ?_ (by simp [Event.fault?, hopen, Partial.openNodes])
    simp [push, finish, h.opened_eq]

theorem Fills.handles (h : b.Fills p) (event : Event) : b.Handles p event := by
  cases event with
  | start kind => exact h.handles_start kind
  | token kind text => exact h.handles_token kind text
  | finish => exact h.handles_finish

theorem Fills.error_eq (h : b.Fills p) : b.error = none := by
  cases p with
  | growing nodes => exact Grows.error_eq h
  | finished root => exact Finishes.error_eq h

/-- Whatever becomes of an event, the first fault stays. -/
theorem error_push (h : b.error = some e) (event : Event) : (b.push event).error = some e := by
  cases event with
  | start kind =>
    simp only [push, start]
    split
    · simp [fail, h]
    · split <;> simp [openNode, fail, h]
    · simp [openNode, addChild, h]
  | token kind text =>
    simp only [push, token]
    split <;> simp [fail, addToken, addChild, h]
  | finish =>
    simp only [push, finish]
    split <;> simp [fail, closeNode, h]

/-- The builder has taken the events, or it knows the first that is wrong. -/
inductive Stands (events : List Event) (b : Builder) : Prop where
  | sound {p : Partial} (fills : b.Fills p) (events_eq : p.events = events)
      (faultless : IsFaultless events) : Stands events b
  | failed {e : BuildError} (fault : IsFirstFault events e)
    (error_eq : b.error = some e) : Stands events b

theorem Stands.push (h : b.Stands events) (event : Event) :
    (b.push event).Stands (events ++ [event]) := by
  cases h with
  | @sound p hfills hevents hfaultless =>
    subst hevents
    cases hfills.handles event with
    | takes hq hevents hfits => exact .sound hq hevents (isFaultless_concat.mpr ⟨hfaultless, hfits⟩)
    | refuses hpush hfault =>
      refine .failed ⟨p.events, event, List.prefix_refl _, hfaultless, hfault⟩ ?_
      simp [hpush, fail, hfills.error_eq]
  | failed hfault herror => exact .failed (hfault.append [event]) (error_push herror event)

theorem Stands.foldl (h : b.Stands before) (events : List Event) :
    (events.foldl Builder.push b).Stands (before ++ events) := by
  induction events generalizing b before with
  | nil => simpa using h
  | cons event rest ih =>
    have hrest := ih (h.push event)
    rwa [List.append_assoc] at hrest

theorem stands (events : List Event) : (ofEvents events).Stands events :=
  Stands.foldl (.sound (p := .growing []) Grows.empty rfl isFaultless_nil) events

/-- The row of the innermost open node has its kind. -/
theorem Grows.kind_innermost (h : b.Grows (n :: outer)) :
    (b.nodes.getD (placeAfter outer).node default).kind = n.kind := by
  rw [h.nodes_eq, ← OpenNode.length_nodeRows (some (.node (placeAfter outer).node)) outer]
  simp [OpenNode.nodeRows, row, Array.getD]

theorem Finishes.error?_eq (h : b.Finishes root) : b.error? = none := by
  simp [error?, h.error_eq, h.opened_eq, h.laid.nodes_eq, Root.element, Tree.nodeRows]

/-- The builder has a report, or else the rows of a root that comes of just these events. -/
inductive Concludes (events : List Event) (b : Builder) : Prop where
  | report {e : BuildError} (error?_eq : b.error? = some e) (reported : IsReported events e) :
    Concludes events b
  | root {root : Root} (finishes : b.Finishes root) (faultless : IsFaultless events)
      (events_eq : root.element.events = events) : Concludes events b

theorem concludes_ofEvents (events : List Event) : (ofEvents events).Concludes events := by
  have h := stands events
  generalize ofEvents events = b at h
  cases h with
  | failed hfault herror => exact .report (by simp [error?, herror]) (.fault hfault)
  | @sound p h hevents hfaultless =>
    subst hevents
    have hopen := p.openKinds_events
    cases p with
    | growing nodes =>
      cases nodes with
      | nil =>
        refine .report ?_ (.empty rfl)
        simp [error?, h.error_eq, h.opened_eq, OpenNode.opened, h.nodes_eq, OpenNode.nodeRows]
      | cons n outer =>
        refine .report ?_ (.unclosed hfaultless hopen)
        simp only [error?, h.error_eq, h.opened_eq, OpenNode.opened]
        rw [Grows.kind_innermost h]
    | finished root => exact .root h hfaultless rfl

/-- The rows of a builder that has nothing to report are those of a tree. -/
theorem exists_root (h : (ofEvents events).error? = none) : ∃ root : Root,
    root.IsLaidOut (ofEvents events).nodes (ofEvents events).tokens (ofEvents events).text := by
  cases concludes_ofEvents events with
  | report hsome _ => cases hsome.symm.trans h
  | root hfinishes _ _ => exact ⟨_, hfinishes.laid⟩

mutual

/-- The events of an element add it to the innermost open node. -/
theorem Grows.foldl_events {b : Builder} {n : OpenNode} {outer : List OpenNode}
    (h : b.Grows (n :: outer)) (element : Element) :
    (element.events.foldl push b).Grows (n.add element :: outer) := by
  cases element with
  | token kind text => exact h.push_token kind text
  | node kind children =>
    rw [Element.events, List.foldl_cons, List.foldl_append]
    exact ((h.push_start kind).foldl_eventsAll children).push_finish

theorem Grows.foldl_eventsAll {b : Builder} {n : OpenNode} {outer : List OpenNode}
    (h : b.Grows (n :: outer)) (elements : List Element) :
    ((eventsAll elements).foldl push b).Grows
      ({ n with children := n.children ++ elements } :: outer) := by
  cases elements with
  | nil => simpa [eventsAll] using h
  | cons element rest =>
    have hrest := (h.foldl_events element).foldl_eventsAll rest
    simpa [eventsAll, OpenNode.add] using hrest

end

/-- The events of a tree fill its rows. -/
theorem finishes_events (root : Root) : (ofEvents root.element.events).Finishes root := by
  rw [ofEvents, Root.element, Element.events, List.foldl_cons, List.foldl_append]
  exact ((Grows.empty.push_start root.kind).foldl_eventsAll root.children).push_finish_root

end Builder

end ExtractMethod.Tree
