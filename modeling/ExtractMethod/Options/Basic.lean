namespace ExtractMethod

/-- What a user can choose about an extraction. -/
structure Options where
  bestEffort : Bool := false
  allowExpansion : Bool := true
  supportsTuples : Bool := true
  extractLocalFunction : Bool := false
  promoteSingleRef : Bool := true
  preferReturnForStructs : Bool := false
deriving DecidableEq, Inhabited

/-- One of the options. -/
inductive Switch where
  | bestEffort
  | allowExpansion
  | supportsTuples
  | extractLocalFunction
  | promoteSingleRef
  | preferReturnForStructs
deriving DecidableEq

namespace Switch

def all : List Switch := [
  .bestEffort, .allowExpansion, .supportsTuples, .extractLocalFunction, .promoteSingleRef,
  .preferReturnForStructs ]

def name : Switch → String
  | .bestEffort => "best_effort"
  | .allowExpansion => "allow_selection_expansion"
  | .supportsTuples => "supports_tuple_deconstruction"
  | .extractLocalFunction => "extract_local_function"
  | .promoteSingleRef => "promote_single_ref"
  | .preferReturnForStructs => "prefer_return_for_structs"

/-- What an editor shows about the option. -/
def description : Switch → String
  | .bestEffort => "Degrade variables whose data-flow facts match no classification rule to " ++
    "\"ignored\" instead of reporting them as unresolved."
  | .allowExpansion => "Widen a selection that starts or ends inside a statement to the " ++
    "smallest statement range containing it. When disabled, the largest statement range " ++
    "contained in the selection is used instead."
  | .supportsTuples => "The target language can return tuples and deconstruct them at the call " ++
    "site, so outputs of an async method can be returned instead of passed by reference."
  | .extractLocalFunction => "Extract into a local function. Calls to other local functions " ++
    "declared outside the selection are then allowed."
  | .promoteSingleRef =>
    "Return a lone by-reference variable instead of passing it by `ref`."
  | .preferReturnForStructs => "Return written struct variables instead of passing them by " ++
    "`ref`/`out`. Every other output is returned along with them, as a tuple."

def ofName? (name : String) : Option Switch := all.find? fun switch => switch.name = name

end Switch

namespace Options

def get (o : Options) : Switch → Bool
  | .bestEffort => o.bestEffort
  | .allowExpansion => o.allowExpansion
  | .supportsTuples => o.supportsTuples
  | .extractLocalFunction => o.extractLocalFunction
  | .promoteSingleRef => o.promoteSingleRef
  | .preferReturnForStructs => o.preferReturnForStructs

def set (o : Options) (value : Bool) : Switch → Options
  | .bestEffort => { o with bestEffort := value }
  | .allowExpansion => { o with allowExpansion := value }
  | .supportsTuples => { o with supportsTuples := value }
  | .extractLocalFunction => { o with extractLocalFunction := value }
  | .promoteSingleRef => { o with promoteSingleRef := value }
  | .preferReturnForStructs => { o with preferReturnForStructs := value }

theorem get_set (o : Options) (value : Bool) (s t : Switch) :
    (o.set value s).get t = if s = t then value else o.get t := by
  cases s <;> cases t <;> rfl

end Options

end ExtractMethod
