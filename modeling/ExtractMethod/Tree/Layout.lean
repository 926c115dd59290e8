import ExtractMethod.Text.Range
import ExtractMethod.Tree.Element

/-! Nodes are numbered in preorder and tokens in document order, so that the nodes and the tokens
under a node have consecutive numbers. -/
namespace ExtractMethod.Tree

open Text (Range)

/-- How many nodes, tokens and bytes come before a place in the document. -/
structure Place where
  node : Nat
  token : Nat
  offset : Nat

def Place.start : Place := ⟨0, 0, 0⟩

/-- The place right after an element. -/
def Place.after (p : Place) (element : Element) : Place :=
  ⟨p.node + element.nodeCount, p.token + element.tokenCount, p.offset + element.byteLength⟩

/-- The place of the first child of a node. -/
def Place.inside (p : Place) : Place := { p with node := p.node + 1 }

/-- A child by its number. -/
inductive Child where
  | node (id : Nat)
  | token (id : Nat)
deriving DecidableEq

def Child.node? : Child → Option Nat
  | .node id => some id
  | .token _ => none

def Child.token? : Child → Option Nat
  | .token id => some id
  | .node _ => none

/-- What is known of a node: the nodes below it are numbered up to `subtreeStop`, and its tokens
from `firstToken` to `tokenStop`. -/
structure NodeRow where
  kind : NodeKind
  parent : Option Nat
  children : List Child
  range : Range
  subtreeStop : Nat
  firstToken : Nat
  tokenStop : Nat

instance : Inhabited NodeRow := ⟨⟨.errorNode, none, [], default, 0, 0, 0⟩⟩

structure TokenRow where
  kind : TokenKind
  text : String
  range : Range
  parent : Nat

instance : Inhabited TokenRow := ⟨⟨.error, "", default, 0⟩⟩

/-- The numbers of the elements that follow each other from a place on. -/
def childrenAt (p : Place) : List Element → List Child
  | [] => []
  | element@(.token _ _) :: rest => .token p.token :: childrenAt (p.after element) rest
  | element@(.node _ _) :: rest => .node p.node :: childrenAt (p.after element) rest

/-- The row of a node itself. -/
def rowAt (p : Place) (parent : Option Nat) (kind : NodeKind) (children : List Element) :
    NodeRow where
  kind := kind
  parent := parent
  children := childrenAt p.inside children
  range := .ofLength p.offset (Element.byteLengthAll children)
  subtreeStop := p.node + 1 + Element.nodeCountAll children
  firstToken := p.token
  tokenStop := p.token + Element.tokenCountAll children

mutual

/-- The rows of all nodes of an element, in preorder. -/
def nodeRows (p : Place) (parent : Option Nat) : Element → List NodeRow
  | .token _ _ => []
  | .node kind children =>
    rowAt p parent kind children :: nodeRowsAll p.inside (some p.node) children

def nodeRowsAll (p : Place) (parent : Option Nat) : List Element → List NodeRow
  | [] => []
  | element :: rest => nodeRows p parent element ++ nodeRowsAll (p.after element) parent rest

end

mutual

/-- The rows of all tokens of an element, in document order. -/
def tokenRows (p : Place) (parent : Nat) : Element → List TokenRow
  | .token kind text => [⟨kind, text, .ofLength p.offset text.utf8ByteSize, parent⟩]
  | .node _ children => tokenRowsAll p.inside p.node children

def tokenRowsAll (p : Place) (parent : Nat) : List Element → List TokenRow
  | [] => []
  | element :: rest => tokenRows p parent element ++ tokenRowsAll (p.after element) parent rest

end

/-- The rows and the text are those of the tree under a root. -/
structure Root.IsLaidOut (root : Root) (nodes : Array NodeRow) (tokens : Array TokenRow)
    (text : String) : Prop where
  nodes_eq : nodes = (nodeRows .start none root.element).toArray
  tokens_eq : tokens = (tokenRows .start 0 root.element).toArray
  text_eq : text = root.element.text

end ExtractMethod.Tree
