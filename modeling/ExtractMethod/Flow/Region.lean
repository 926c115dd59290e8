import ExtractMethod.Document.Basic

namespace ExtractMethod.Flow

open Text (Range)

/-- A part of a document about which facts are asked: one expression, or a run of sibling
statements. -/
inductive Region where
  | expression (node : Nat)
  | statements (first last : Nat)
deriving DecidableEq

/-- A region that is no part of the document. -/
inductive RegionError where
  | outsideTree
  | outOfOrder
deriving DecidableEq

def RegionError.message : RegionError → String
  | .outsideTree => "flow region references nodes outside the syntax tree"
  | .outOfOrder => "flow region ends before it starts"

namespace Region

def first : Region → Nat
  | .expression node => node
  | .statements first _ => first

def last : Region → Nat
  | .expression node => node
  | .statements _ last => last

/-- The range from the first to the last significant token of the region. -/
def span (d : Document) (region : Region) : Except RegionError Range :=
  if d.hasNode region.first && d.hasNode region.last then
    match Range.between? (d.span region.first).start (d.span region.last).stop with
    | some r => .ok r
    | none => .error .outOfOrder
  else .error .outsideTree

end Region

end ExtractMethod.Flow
