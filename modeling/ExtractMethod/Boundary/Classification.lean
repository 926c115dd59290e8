import ExtractMethod.Boundary.Judgement

namespace ExtractMethod.Boundary

open ExtractMethod.Flow (DataFlow)
open Model (Snapshot)

/-- How the selected code uses the receiver. -/
structure ReceiverUse where
  read : Bool := false
  written : Bool := false
  ty : Option Ty := none

/-- How every candidate crosses the boundary. The variables are in the order of their names. -/
structure Classification where
  crossing : Keyed Nat Variable := .empty
  unresolved : List (Nat × Name) := []
  ignored : Keyed Nat Exemption := .empty
  addressTaken : Bool := false
  returnForced : Bool := false
  receiver : ReceiverUse := {}
  primaryParametersUsed : Bool := false

namespace Judgement

variable (j : Judgement)

def crossing? : Option Variable :=
  match j.fate with
  | .crosses v _ => some v
  | _ => none

def unresolved? : Option (Nat × Name) :=
  match j.fate with
  | .unresolved => some (j.id, j.symbol.name)
  | _ => none

def ignored? : Option (Nat × Exemption) :=
  match j.fate with
  | .ignored reason => some (j.id, reason)
  | _ => none

def forcesReturn : Bool := j.fate matches .crosses _ true

def takesAddress : Bool := j.crossing?.isSome && j.flags.addressTaken

def isReceiver : Bool := j.fate matches .ignored .receiver

def usesPrimaryParameter : Bool :=
  (j.fate matches .ignored .primaryConstructorParameter) &&
    (j.flags.readInside || j.flags.writtenInside)

end Judgement

namespace Classification

/-- Gathers what was decided about the candidates. -/
def ofJudgements (judgements : List Judgement) : Classification :=
  let receivers := judgements.filter Judgement.isReceiver
  { crossing := .ofList (((judgements.filterMap Judgement.crossing?).mergeSort Variable.le).map
      fun v => (v.symbol, v))
    unresolved := judgements.filterMap Judgement.unresolved?
    ignored := .ofList (judgements.filterMap Judgement.ignored?)
    addressTaken := judgements.any Judgement.takesAddress
    returnForced := judgements.any Judgement.forcesReturn
    receiver :=
      { read := receivers.any fun j => j.flags.readInside
        written := receivers.any fun j => j.flags.writtenInside
        ty := receivers.findSome? fun j => j.symbol.ty }
    primaryParametersUsed := judgements.any Judgement.usesPrimaryParameter }

def isResolved (c : Classification) : Bool := c.unresolved.isEmpty

end Classification

/-- Decides how every candidate crosses the boundary of a selection. -/
def classify (s : Selection) (options : Options) (model : Snapshot) (facts : DataFlow) :
    Analyzing Classification := do
  pure (.ofJudgements (← Poll.collect (judge s options model) facts.entries))

end ExtractMethod.Boundary
