import ExtractMethod.Tree.Kind

namespace ExtractMethod.Tree

/-- A concrete tree: tokens with their text, and nodes over them. -/
inductive Element where
  | token (kind : TokenKind) (text : String)
  | node (kind : NodeKind) (children : List Element)
deriving Inhabited

namespace Element

mutual

def nodeCount : Element → Nat
  | .token _ _ => 0
  | .node _ children => 1 + nodeCountAll children

def nodeCountAll : List Element → Nat
  | [] => 0
  | element :: rest => element.nodeCount + nodeCountAll rest

end

mutual

def tokenCount : Element → Nat
  | .token _ _ => 1
  | .node _ children => tokenCountAll children

def tokenCountAll : List Element → Nat
  | [] => 0
  | element :: rest => element.tokenCount + tokenCountAll rest

end

mutual

/-- The number of bytes of the text under an element. -/
def byteLength : Element → Nat
  | .token _ text => text.utf8ByteSize
  | .node _ children => byteLengthAll children

def byteLengthAll : List Element → Nat
  | [] => 0
  | element :: rest => element.byteLength + byteLengthAll rest

end

mutual

/-- The token texts under an element, in order. -/
def texts : Element → List String
  | .token _ text => [text]
  | .node _ children => textsAll children

def textsAll : List Element → List String
  | [] => []
  | element :: rest => element.texts ++ textsAll rest

end

def text (element : Element) : String := String.join element.texts

end Element

/-- A root node as its kind and its children. -/
structure Root where
  kind : NodeKind
  children : List Element

def Root.element (r : Root) : Element := .node r.kind r.children

end ExtractMethod.Tree
