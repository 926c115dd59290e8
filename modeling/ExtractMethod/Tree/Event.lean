import ExtractMethod.Tree.Kind

namespace ExtractMethod.Tree

/-- A step in the description of a tree, in document order. -/
inductive Event where
  | start (kind : Kind)
  | token (kind : Kind) (text : String)
  | finish
deriving DecidableEq

inductive BuildError where
  | empty
  | multipleRoots
  | unclosedNode (kind : NodeKind)
  | unmatchedFinish
  | tokenOutsideNode
  | notANodeKind (kind : Kind)
  | notATokenKind (kind : Kind)
deriving DecidableEq

def BuildError.message : BuildError → String
  | .empty => "tree has no root node"
  | .multipleRoots => "tree has more than one root node"
  | .unclosedNode kind => s!"node `{kind.name}` was never finished"
  | .unmatchedFinish => "`finish_node` called without a matching `start_node`"
  | .tokenOutsideNode => "token emitted outside of any node"
  | .notANodeKind kind => s!"`{kind.name}` is a token kind, not a node kind"
  | .notATokenKind kind => s!"`{kind.name}` is a node kind, not a token kind"

end ExtractMethod.Tree
