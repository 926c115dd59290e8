import ExtractMethod.Tree.Event
import ExtractMethod.Tree.Layout

/-! Rows are filled as the events come. The row of a node is opened with what is known of it at its
start, and is completed when the node is finished. Nodes and tokens are numbered, and bytes counted,
without a bound. These are numbers of 32 bits as long as a document has fewer than `2 ^ 32` nodes,
tokens and bytes. -/
namespace ExtractMethod.Tree

open Text (Range)

/-- A node that is not finished, and the offset at which it starts. -/
structure Opened where
  node : Nat
  start : Nat

/-- A document under construction: its text and its rows so far, the open nodes, the innermost
first, and the first thing that went wrong. An event that fails is passed over, and the ones after
it are still taken. -/
structure Builder where
  text : String
  nodes : Array NodeRow
  tokens : Array TokenRow
  opened : List Opened
  error : Option BuildError

namespace Builder

def empty : Builder := ⟨"", #[], #[], [], none⟩

variable (b : Builder)

def offset : Nat := b.text.utf8ByteSize

def fail (e : BuildError) : Builder := { b with error := b.error <|> some e }

/-- Adds a child to a node. -/
def addChild (parent : Nat) (child : Child) : Builder :=
  { b with
    nodes := b.nodes.modify parent fun row => { row with children := row.children ++ [child] } }

/-- Opens a node that has nothing below it yet. -/
def openNode (kind : NodeKind) (parent : Option Nat) : Builder :=
  { b with
    nodes := b.nodes.push {
      kind, parent
      children := []
      range := .ofLength b.offset 0
      subtreeStop := b.nodes.size + 1
      firstToken := b.tokens.size
      tokenStop := b.tokens.size }
    opened := ⟨b.nodes.size, b.offset⟩ :: b.opened }

/-- Adds a token below a node. -/
def addToken (kind : TokenKind) (text : String) (parent : Nat) : Builder :=
  { b.addChild parent (.token b.tokens.size) with
    text := b.text ++ text
    tokens := b.tokens.push ⟨kind, text, .ofLength b.offset text.utf8ByteSize, parent⟩ }

/-- Completes the row of an open node, and leaves the others open. -/
def closeNode (node : Opened) (outer : List Opened) : Builder :=
  { b with
    nodes := b.nodes.modify node.node fun row => { row with
      range := .ofLength node.start (b.offset - node.start)
      subtreeStop := b.nodes.size
      tokenStop := b.tokens.size }
    opened := outer }

def start (kind : Kind) : Builder :=
  match kind.node?, b.opened with
  | none, _ => b.fail (.notANodeKind kind)
  | some node, [] => if b.nodes.isEmpty then b.openNode node none else b.fail .multipleRoots
  | some node, parent :: _ =>
    (b.addChild parent.node (.node b.nodes.size)).openNode node (some parent.node)

def token (kind : Kind) (text : String) : Builder :=
  match kind.token?, b.opened with
  | none, _ => b.fail (.notATokenKind kind)
  | some _, [] => b.fail .tokenOutsideNode
  | some token, parent :: _ => b.addToken token text parent.node

def finish : Builder :=
  match b.opened with
  | [] => b.fail .unmatchedFinish
  | node :: outer => b.closeNode node outer

def push : Event → Builder
  | .start kind => b.start kind
  | .token kind text => b.token kind text
  | .finish => b.finish

/-- What is wrong in the end: what went wrong first, or that a node is open, or that there is
none. -/
def error? : Option BuildError :=
  match b.error, b.opened with
  | some e, _ => some e
  | none, opened :: _ => some (.unclosedNode (b.nodes.getD opened.node default).kind)
  | none, [] => if b.nodes.isEmpty then some .empty else none

def ofEvents (events : List Event) : Builder := events.foldl push empty

end Builder

end ExtractMethod.Tree
