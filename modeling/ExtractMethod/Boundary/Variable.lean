import ExtractMethod.Boundary.Style
import ExtractMethod.Ty.Basic

namespace ExtractMethod.Boundary

/-- A variable that the selected code shares with the code around it, with the type that the new
method gives it. -/
structure Variable where
  symbol : Nat
  name : Name
  ty : Ty
  style : Style
  /-- It is the result of the new method, or part of it. -/
  isReturned : Bool := false
  /-- Its type had an anonymous type in it, which was replaced. -/
  hadAnonymous : Bool := false
  /-- The offset of its declaration. -/
  declaredAt : Option Nat := none

/-- Orders offsets, an absent one before all others. -/
def compareOffsets : Option Nat → Option Nat → Ordering
  | none, none => .eq
  | none, some _ => .lt
  | some _, none => .gt
  | some a, some b => Ord.compare a b

namespace Variable

/-- Orders variables by name, then by declaration, then by symbol. -/
def compare (a b : Variable) : Ordering :=
  (Name.compare a.name b.name).then
    ((compareOffsets a.declaredAt b.declaredAt).then (Ord.compare a.symbol b.symbol))

def le (a b : Variable) : Bool := (compare a b).isLE

def modifier? (v : Variable) : Option Modifier := v.style.modifier?

end Variable

end ExtractMethod.Boundary
