import ExtractMethod.Text.Words

namespace ExtractMethod.Flow

/-- What a data-flow analysis can state about a variable and a region. -/
inductive Fact where
  | captured | flowsIn | flowsOut | alwaysAssigned | declaredInside | readInside | writtenInside
  | readOutside | writtenOutside | addressTaken
deriving DecidableEq

namespace Fact

def all : List Fact := [
  .captured, .flowsIn, .flowsOut, .alwaysAssigned, .declaredInside, .readInside, .writtenInside,
  .readOutside, .writtenOutside, .addressTaken ]

def name : Fact → String
  | .captured => "captured"
  | .flowsIn => "data_flows_in"
  | .flowsOut => "data_flows_out"
  | .alwaysAssigned => "always_assigned"
  | .declaredInside => "declared_inside"
  | .readInside => "read_inside"
  | .writtenInside => "written_inside"
  | .readOutside => "read_outside"
  | .writtenOutside => "written_outside"
  | .addressTaken => "unsafe_address_taken"

/-- The short word for a fact. -/
def word : Fact → String
  | .captured => "captured"
  | .flowsIn => "in"
  | .flowsOut => "out"
  | .alwaysAssigned => "always"
  | .declaredInside => "decl"
  | .readInside => "ri"
  | .writtenInside => "wi"
  | .readOutside => "ro"
  | .writtenOutside => "wo"
  | .addressTaken => "unsafe"

end Fact

/-- The facts about one variable and one region. -/
structure Flags where
  captured : Bool := false
  flowsIn : Bool := false
  flowsOut : Bool := false
  alwaysAssigned : Bool := false
  declaredInside : Bool := false
  readInside : Bool := false
  writtenInside : Bool := false
  readOutside : Bool := false
  writtenOutside : Bool := false
  addressTaken : Bool := false
deriving DecidableEq, Inhabited

namespace Flags

def holds (flags : Flags) : Fact → Bool
  | .captured => flags.captured
  | .flowsIn => flags.flowsIn
  | .flowsOut => flags.flowsOut
  | .alwaysAssigned => flags.alwaysAssigned
  | .declaredInside => flags.declaredInside
  | .readInside => flags.readInside
  | .writtenInside => flags.writtenInside
  | .readOutside => flags.readOutside
  | .writtenOutside => flags.writtenOutside
  | .addressTaken => flags.addressTaken

/-- The flags for which a test of facts answers yes. -/
def ofTest (test : Fact → Bool) : Flags where
  captured := test .captured
  flowsIn := test .flowsIn
  flowsOut := test .flowsOut
  alwaysAssigned := test .alwaysAssigned
  declaredInside := test .declaredInside
  readInside := test .readInside
  writtenInside := test .writtenInside
  readOutside := test .readOutside
  writtenOutside := test .writtenOutside
  addressTaken := test .addressTaken

theorem holds_ofTest (test : Fact → Bool) (fact : Fact) : (ofTest test).holds fact = test fact := by
  cases fact <;> rfl

def ofFacts (facts : List Fact) : Flags := ofTest facts.contains

/-- The facts that hold. -/
def facts (flags : Flags) : List Fact := Fact.all.filter flags.holds

/-- The variable is read, written or declared in the region. -/
def isCandidate (flags : Flags) : Bool :=
  flags.readInside || flags.writtenInside || flags.declaredInside

end Flags

/-- A word that stands for no fact. -/
structure UnknownWord where
  word : String
deriving DecidableEq

def UnknownWord.message (unknown : UnknownWord) : String :=
  "unknown flow flag `" ++ unknown.word ++ "`"

def Fact.ofWord (word : String) : Except UnknownWord Fact :=
  match all.find? fun fact => fact.word = word with
  | some fact => .ok fact
  | none => .error ⟨word⟩

/-- Reads a list of short words. -/
def Flags.ofWords (text : String) : Except UnknownWord Flags :=
  ((Text.words text).mapM Fact.ofWord).map ofFacts

end ExtractMethod.Flow
