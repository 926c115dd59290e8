import ExtractMethod.Boundary.Style
import ExtractMethod.Flow.Flags

/-! The decision table from the facts about a variable to its style. -/
namespace ExtractMethod.Boundary

open ExtractMethod.Flow (Flags)

/-- Completes the facts of an analysis. A static local that is declared inside brings no value in;
a value that flows out is read outside; and a variable that is declared and written inside, then
read but never written outside, flows out. -/
def adjust (flags : Flags) (isStaticLocal : Bool) : Flags :=
  let readOutside := flags.readOutside || flags.flowsOut
  { flags with
    flowsIn := flags.flowsIn && !(isStaticLocal && flags.declaredInside)
    readOutside
    flowsOut := flags.flowsOut ||
      (flags.declaredInside && flags.writtenInside && readOutside && !flags.writtenOutside) }

/-- The style of a variable that the region declares. -/
def declaredStyle? (flags : Flags) : Option Style :=
  if flags.flowsOut then if flags.writtenInside then some .outWithMoveOut else none
  else if flags.readOutside || flags.writtenOutside then some .splitOut
  else some .none

/-- The style of a variable from outside that the region writes. -/
def writtenStyle (flags : Flags) : Style :=
  if flags.flowsIn then if flags.flowsOut then .ref else .splitIn
  else if flags.flowsOut || flags.readOutside then if flags.alwaysAssigned then .out else .ref
  else .moveIn

/-- The style of a variable. Facts that contradict each other have none. -/
def style? (flags : Flags) : Option Style :=
  if flags.declaredInside then declaredStyle? flags
  else if flags.writtenInside then some (writtenStyle flags)
  else if flags.readInside then some .inputOnly
  else none

/-- The style after the exceptions to the table. A captured variable cannot move into a closure; a
value that is never written is passed as it is; and outputs that must be returned are. -/
def overridden? (style : Option Style) (flags : Flags) (isValueType isReturnForced : Bool) :
    Option Style :=
  let uncaptured := if flags.captured && style = some .moveIn then some .out else style
  let passed := if isValueType && !flags.writtenInside then some .inputOnly else uncaptured
  if isReturnForced && flags.writtenInside then passed.map Style.mustReturn else passed

/-- The variable is declared inside and never seen outside. -/
def isLocalToRegion (flags : Flags) : Bool :=
  flags.declaredInside && !flags.flowsOut && !flags.readOutside && !flags.writtenOutside

end ExtractMethod.Boundary
