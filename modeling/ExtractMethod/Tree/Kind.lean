import ExtractMethod.Tree.NodeKind
import ExtractMethod.Tree.TokenKind

namespace ExtractMethod.Tree

/-- The kind of a tree element as a host names it. The end mark follows the last kind and is
neither a token nor a node. -/
inductive Kind where
  | token (kind : TokenKind)
  | node (kind : NodeKind)
  | endMark
deriving DecidableEq

namespace Kind

/-- All kinds of elements: those of tokens, then those of nodes. -/
def all : List Kind := TokenKind.all.map .token ++ NodeKind.all.map .node

def name : Kind → String
  | .token kind => kind.name
  | .node kind => kind.name
  | .endMark => "__Last"

def ofRaw? (raw : Nat) : Option Kind := all[raw]?

def ofElementName? (name : String) : Option Kind := all.find? fun kind => kind.name = name

/-- The kind of that name, the end mark included. -/
def ofName? (name : String) : Option Kind :=
  (all ++ [Kind.endMark]).find? fun kind => kind.name = name

def token? : Kind → Option TokenKind
  | .token kind => some kind
  | _ => none

def node? : Kind → Option NodeKind
  | .node kind => some kind
  | _ => none

end Kind

end ExtractMethod.Tree
