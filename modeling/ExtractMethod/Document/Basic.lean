import ExtractMethod.Proofs.Tree.Build
import ExtractMethod.Text.Slice
import ExtractMethod.Version

namespace ExtractMethod

open Text (Range)
open ExtractMethod.Tree

/-- A document snapshot: a concrete tree, laid out so that its nodes and tokens can be looked up
by number. The numbers, like the offsets into the text, are taken to fit in 32 bits: a document has
fewer than `2 ^ 32` nodes, tokens and bytes. -/
structure Document where
  version : Version
  nodes : Array NodeRow
  tokens : Array TokenRow
  text : String
  lines : Text.Lines
  exists_root : ∃ root : Root, root.IsLaidOut nodes tokens text
  lines_eq : lines = .ofText text

namespace Document

/-- The document of a tree. -/
def ofRoot (root : Root) (version : Version) : Document where
  version := version
  nodes := (nodeRows .start none root.element).toArray
  tokens := (tokenRows .start 0 root.element).toArray
  text := root.element.text
  lines := .ofText root.element.text
  exists_root := ⟨root, rfl, rfl, rfl⟩
  lines_eq := rfl

/-- The document that the events describe. -/
def ofEvents (events : List Event) (version : Version) : Except BuildError Document :=
  let b := Builder.ofEvents events
  match h : b.error? with
  | some e => throw e
  | none => pure {
      version
      nodes := b.nodes
      tokens := b.tokens
      text := b.text
      lines := .ofText b.text
      exists_root := Builder.exists_root h
      lines_eq := rfl }

/-- The same document as another version. -/
def restamp (d : Document) (version : Version) : Document := { d with version }

variable (d : Document)

def size : Nat := d.text.utf8ByteSize

def nodeCount : Nat := d.nodes.size

def tokenCount : Nat := d.tokens.size

def hasNode (n : Nat) : Bool := n < d.nodeCount

def hasToken (t : Nat) : Bool := t < d.tokenCount

def slice (r : Range) : String := Text.slice d.text r

def node (n : Nat) : NodeRow := d.nodes.getD n default

def token (t : Nat) : TokenRow := d.tokens.getD t default

def kind (n : Nat) : NodeKind := (d.node n).kind

def parent? (n : Nat) : Option Nat := (d.node n).parent

/-- The range of all tokens of a node, trivia included. -/
def fullRange (n : Nat) : Range := (d.node n).range

def childNodes (n : Nat) : List Nat := (d.node n).children.filterMap Child.node?

def childTokens (n : Nat) : List Nat := (d.node n).children.filterMap Child.token?

def childOfKind? (n : Nat) (kind : NodeKind) : Option Nat :=
  (d.childNodes n).find? fun child => d.kind child = kind

def hasChildToken (n : Nat) (kind : TokenKind) : Bool :=
  (d.childTokens n).any fun child => (d.token child).kind = kind

/-- The node, its parent, and so on up to the root. A parent has a smaller number. -/
def ancestors (n : Nat) : List Nat :=
  n :: match d.parent? n with
    | some p => if p < n then ancestors p else []
    | none => []
termination_by n

/-- The node and all nodes below it, in preorder. -/
def descendants (n : Nat) : List Nat := List.range' n ((d.node n).subtreeStop - n)

/-- The second node is the first one or lies below it. -/
def isAncestor (ancestor descendant : Nat) : Bool :=
  ancestor ≤ descendant && descendant < (d.node ancestor).subtreeStop

/-- All tokens below a node, in document order. -/
def tokensUnder (n : Nat) : List Nat :=
  List.range' (d.node n).firstToken ((d.node n).tokenStop - (d.node n).firstToken)

/-- The token carries meaning for the tree. -/
def isSignificant (t : Nat) : Bool := !(d.token t).kind.isTrivia

def firstToken? (n : Nat) : Option Nat := (d.tokensUnder n).find? d.isSignificant

def lastToken? (n : Nat) : Option Nat := (d.tokensUnder n).reverse.find? d.isSignificant

/-- The range from the first to the last significant token of a node, or its full range if it has
none. -/
def span (n : Nat) : Range :=
  match d.firstToken? n, d.lastToken? n with
  | some first, some last =>
    (Range.between? (d.token first).range.start (d.token last).range.stop).getD (d.fullRange n)
  | _, _ => d.fullRange n

/-- The lowest node that has both nodes at or below it. -/
def commonAncestor? (a b : Nat) : Option Nat :=
  (d.ancestors a).find? fun n => d.isAncestor n b

/-- The lowest node that has both tokens below it. -/
def commonAncestorOfTokens? (s t : Nat) : Option Nat :=
  d.commonAncestor? (d.token s).parent (d.token t).parent

end Document

end ExtractMethod
