import ExtractMethod.Flow.Flags
import ExtractMethod.Keyed
import ExtractMethod.Text.Range
import ExtractMethod.Ty.Basic

/-! What a host states about a region of code. -/
namespace ExtractMethod.Flow

open Text (Range)

/-- The facts about every variable, by symbol. -/
abbrev DataFlow := Keyed Nat Flags

/-- How control leaves a region other than at its end. -/
inductive ExitKind where
  | return
  | break
  | continue
  | goto
  | throw
  | yield
deriving DecidableEq

def ExitKind.all : List ExitKind := [.return, .break, .continue, .goto, .throw, .yield]

def ExitKind.name : ExitKind → String
  | .return => "return"
  | .break => "break"
  | .continue => "continue"
  | .goto => "goto"
  | .throw => "throw"
  | .yield => "yield"

/-- A statement of the region that transfers control out of it. -/
structure ExitPoint where
  range : Range
  kind : ExitKind
deriving DecidableEq

/-- How control passes through a region. -/
structure ControlFlow where
  startReachable : Bool := true
  endReachable : Bool := true
  exits : List ExitPoint := []
deriving DecidableEq, Inhabited

namespace ControlFlow

def hasExit (flow : ControlFlow) (kind : ExitKind) : Bool :=
  flow.exits.any fun point => point.kind = kind

def containsReturn (flow : ControlFlow) : Bool := flow.hasExit .return

end ControlFlow

/-- The types of what a region produces. The converted type is the one that the context of an
expression asks for. -/
structure ReturnTypes where
  expression : Option Ty := none
  converted : Option Ty := none
  isRefExpression : Bool := false
  containing : Option Ty := none
  containingByRef : Bool := false
deriving Inhabited

end ExtractMethod.Flow
