import ExtractMethod.Proofs.Tree.Balance
import ExtractMethod.Proofs.Tree.Layout
import ExtractMethod.Tree.Builder

/-! The events that describe a tree, and what some first events of a tree describe: open nodes, with
what is finished below each of them. -/
namespace ExtractMethod.Tree

mutual

/-- The events that describe an element. -/
def Element.events : Element → List Event
  | .token kind text => [.token (.token kind) text]
  | .node kind children => .start (.node kind) :: (eventsAll children ++ [.finish])

def eventsAll : List Element → List Event
  | [] => []
  | element :: rest => element.events ++ eventsAll rest

end

/-- A node that was started and not finished, with its finished children. -/
structure OpenNode where
  kind : NodeKind
  children : List Element

namespace OpenNode

def add (n : OpenNode) (child : Element) : OpenNode := { n with children := n.children ++ [child] }

def element (n : OpenNode) : Element := .node n.kind n.children

/-- The events that an open node and its children come of. -/
def events (n : OpenNode) : List Event := .start (.node n.kind) :: eventsAll n.children

/-- The place right after some open nodes and their children, the innermost node first. -/
def placeAfter : List OpenNode → Place
  | [] => .start
  | n :: outer => (placeAfter outer).inside.afterAll n.children

/-- The numbers and the starts of some open nodes. -/
def opened : List OpenNode → List Opened
  | [] => []
  | _ :: outer => ⟨(placeAfter outer).node, (placeAfter outer).offset⟩ :: opened outer

def innermost? (nodes : List OpenNode) : Option Nat := (opened nodes).head?.map Opened.node

/-- The row of an open node. One more child may have been entered into it. -/
def row (p : Place) (parent : Option Nat) (n : OpenNode) (child : Option Child) : NodeRow where
  kind := n.kind
  parent := parent
  children := childrenAt p.inside n.children ++ child.toList
  range := .ofLength p.offset 0
  subtreeStop := p.node + 1
  firstToken := p.token
  tokenStop := p.token

/-- The rows of some open nodes and of all that is finished below them. One more child may have been
entered into the row of the innermost. -/
def nodeRows (child : Option Child) : List OpenNode → List NodeRow
  | [] => []
  | n :: outer =>
    nodeRows (some (.node (placeAfter outer).node)) outer ++
      n.row (placeAfter outer) (innermost? outer) child ::
        nodeRowsAll (placeAfter outer).inside (some (placeAfter outer).node) n.children

def tokenRows : List OpenNode → List TokenRow
  | [] => []
  | n :: outer =>
    tokenRows outer ++ tokenRowsAll (placeAfter outer).inside (placeAfter outer).node n.children

def text : List OpenNode → String
  | [] => ""
  | n :: outer => text outer ++ String.join (Element.textsAll n.children)

variable {nodes outer : List OpenNode} {n : OpenNode}

theorem length_nodeRows (child : Option Child) (nodes : List OpenNode) :
    (nodeRows child nodes).length = (placeAfter nodes).node := by
  induction nodes generalizing child with
  | nil => rfl
  | cons n outer ih =>
    have h := (wellLaidAll (placeAfter outer).inside (placeAfter outer).node n.children).node_eq
    rw [placeAfter, h, nodeRows, List.length_append, List.length_cons, ih]
    simp only [Place.inside]
    omega

theorem length_tokenRows (nodes : List OpenNode) :
    (tokenRows nodes).length = (placeAfter nodes).token := by
  induction nodes with
  | nil => rfl
  | cons n outer ih =>
    have h := (wellLaidAll (placeAfter outer).inside (placeAfter outer).node n.children).token_eq
    rw [placeAfter, h, tokenRows, List.length_append, ih]
    rfl

theorem utf8ByteSize_text (nodes : List OpenNode) :
    (text nodes).utf8ByteSize = (placeAfter nodes).offset := by
  induction nodes with
  | nil => rfl
  | cons n outer ih =>
    simp [text, placeAfter, Place.afterAll, Place.inside, ih, Element.utf8ByteSize_textsAll]

theorem innermost?_cons (n : OpenNode) (outer : List OpenNode) :
    innermost? (n :: outer) = some (placeAfter outer).node := rfl

/-- Changing the row of the innermost open node. -/
theorem modify_nodeRows (n : OpenNode) (outer : List OpenNode) (child : Option Child)
    (f : NodeRow → NodeRow) :
    (nodeRows child (n :: outer)).modify (placeAfter outer).node f =
      nodeRows (some (.node (placeAfter outer).node)) outer ++
        f (n.row (placeAfter outer) (innermost? outer) child) ::
          nodeRowsAll (placeAfter outer).inside (some (placeAfter outer).node) n.children := by
  have h := List.modifyTailIdx_add (List.modifyHead f) 0
    (nodeRows (some (.node (placeAfter outer).node)) outer)
  rw [length_nodeRows] at h
  exact h _

/-- A child is entered into the row of the innermost open node. -/
theorem modify_nodeRows_child (n : OpenNode) (outer : List OpenNode) (child : Child) :
    ((nodeRows none (n :: outer)).modify (placeAfter outer).node fun row =>
      { row with children := row.children ++ [child] }) = nodeRows (some child) (n :: outer) := by
  rw [modify_nodeRows]
  simp [nodeRows, row]

/-- The row of the innermost open node is completed. -/
theorem modify_nodeRows_element (n : OpenNode) (outer : List OpenNode) :
    ((nodeRows none (n :: outer)).modify (placeAfter outer).node fun row => { row with
      range := .ofLength (placeAfter outer).offset
        ((placeAfter (n :: outer)).offset - (placeAfter outer).offset)
      subtreeStop := (placeAfter (n :: outer)).node
      tokenStop := (placeAfter (n :: outer)).token }) =
      nodeRows (some (.node (placeAfter outer).node)) outer ++
        Tree.nodeRows (placeAfter outer) (innermost? outer) n.element := by
  rw [modify_nodeRows]
  simp [element, Tree.nodeRows, rowAt, row, placeAfter, Place.afterAll, Place.inside]

/-- A finished element has been entered into the row of the innermost open node. -/
theorem nodeRows_add (n : OpenNode) (element : Element) (outer : List OpenNode) :
    nodeRows none (n.add element :: outer) =
      nodeRows (some ((placeAfter (n :: outer)).child element)) (n :: outer) ++
        Tree.nodeRows (placeAfter (n :: outer)) (innermost? (n :: outer)) element := by
  simp [nodeRows, row, add, childrenAt_append, childrenAt_cons, childrenAt, nodeRowsAll_append,
    nodeRowsAll, placeAfter, innermost?_cons]

theorem tokenRows_add (n : OpenNode) (element : Element) (outer : List OpenNode) :
    tokenRows (n.add element :: outer) = tokenRows (n :: outer) ++
      Tree.tokenRows (placeAfter (n :: outer)) (placeAfter outer).node element := by
  simp [tokenRows, add, tokenRowsAll_append, tokenRowsAll, placeAfter]

theorem text_add (n : OpenNode) (element : Element) (outer : List OpenNode) :
    text (n.add element :: outer) = text (n :: outer) ++ element.text := by
  simp [text, add, Element.textsAll_append, Element.textsAll, Element.text, String.append_assoc]

end OpenNode

/-- What a sequence of events has described so far: some open nodes, the innermost first, or a
root. -/
inductive Partial where
  | growing (nodes : List OpenNode)
  | finished (root : Root)

namespace Partial

/-- The events that the tree so far comes of. -/
def events : Partial → List Event
  | .growing nodes => nodes.reverse.flatMap OpenNode.events
  | .finished root => root.element.events

def openNodes : Partial → List OpenNode
  | .growing nodes => nodes
  | .finished _ => []

end Partial

theorem eventsAll_append (xs ys : List Element) :
    eventsAll (xs ++ ys) = eventsAll xs ++ eventsAll ys := by
  induction xs with
  | nil => rfl
  | cons x rest ih => simp [eventsAll, ih]

theorem OpenNode.events_add (n : OpenNode) (child : Element) :
    (n.add child).events = n.events ++ child.events := by
  simp [events, add, eventsAll_append, eventsAll]

mutual

/-- An element closes every node that it opens. -/
theorem foldl_reopen_events (stack : List Kind) (element : Element) :
    element.events.foldl Event.reopen stack = stack := by
  cases element with
  | token kind text => rfl
  | node kind children =>
    simp [Element.events, Event.reopen, foldl_reopen_eventsAll (.node kind :: stack) children]

theorem foldl_reopen_eventsAll (stack : List Kind) (elements : List Element) :
    (eventsAll elements).foldl Event.reopen stack = stack := by
  cases elements with
  | nil => rfl
  | cons element rest =>
    rw [eventsAll, List.foldl_append, foldl_reopen_events stack element,
      foldl_reopen_eventsAll stack rest]

end

theorem foldl_reopen_openNodes (stack : List Kind) (nodes : List OpenNode) :
    (nodes.reverse.flatMap OpenNode.events).foldl Event.reopen stack =
      nodes.map (fun n => .node n.kind) ++ stack := by
  induction nodes with
  | nil => rfl
  | cons n rest ih =>
    simp [List.foldl_append, ih, OpenNode.events, Event.reopen, foldl_reopen_eventsAll]

/-- The nodes that are open after the events are those of the tree so far. -/
theorem Partial.openKinds_events (p : Partial) :
    openKinds p.events = p.openNodes.map fun n => .node n.kind := by
  cases p with
  | growing nodes => simp [openKinds, events, openNodes, foldl_reopen_openNodes]
  | finished root => exact foldl_reopen_events [] root.element

theorem Root.isBalanced_events (r : Root) (h : IsFaultless r.element.events) :
    IsBalanced r.element.events := by
  refine isBalanced_iff.mpr ⟨h, ?_, foldl_reopen_events [] r.element⟩
  simp [Root.element, Element.events]

end ExtractMethod.Tree
