namespace ExtractMethod.Boundary

/-- How a variable crosses into and out of the new method. -/
inductive Style where
  | none
  | inputOnly
  | ref
  | out
  | moveIn
  | splitIn
  | splitOut
  | outWithMoveOut
deriving DecidableEq

/-- How a parameter is passed. -/
inductive Modifier where
  | none
  | ref
  | out
deriving DecidableEq

/-- What becomes of the declaration of a variable. -/
inductive Relocation where
  | none
  | moveIn
  | splitIn
  | splitOut
  | moveOut
deriving DecidableEq

namespace Style

def all : List Style :=
  [.none, .inputOnly, .ref, .out, .moveIn, .splitIn, .splitOut, .outWithMoveOut]

def name : Style → String
  | .none => "none"
  | .inputOnly => "input_only"
  | .ref => "ref"
  | .out => "out"
  | .moveIn => "move_in"
  | .splitIn => "split_in"
  | .splitOut => "split_out"
  | .outWithMoveOut => "out_with_move_out"

/-- The style of a variable whose value has to leave the method by its result. -/
def mustReturn : Style → Style
  | .inputOnly => .ref
  | .moveIn | .splitIn => .out
  | .splitOut => .outWithMoveOut
  | style => style

/-- How the variable is passed, if it is a parameter at all. -/
def modifier? : Style → Option Modifier
  | .inputOnly => some .none
  | .ref => some .ref
  | .out | .splitOut | .outWithMoveOut => some .out
  | .none | .moveIn | .splitIn => Option.none

def relocation : Style → Relocation
  | .moveIn => .moveIn
  | .splitIn => .splitIn
  | .splitOut => .splitOut
  | .outWithMoveOut => .moveOut
  | .none | .inputOnly | .ref | .out => .none

def isParameter (style : Style) : Bool := style.modifier?.isSome

/-- The variable is an output, which a result can carry as well as a parameter. -/
def canBeReturned (style : Style) : Bool :=
  style.modifier? = some .ref || style.modifier? = some .out

end Style

def Modifier.name : Modifier → String
  | .none => "none"
  | .ref => "ref"
  | .out => "out"

def Relocation.name : Relocation → String
  | .none => "none"
  | .moveIn => "move_in"
  | .splitIn => "split_in"
  | .splitOut => "split_out"
  | .moveOut => "move_out"

end ExtractMethod.Boundary
