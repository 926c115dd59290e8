import ExtractMethod.Text.Quoted

namespace ExtractMethod

/-- An identifier as it is written in a document. -/
abbrev Name := String

namespace Name

/-- Orders names by their code points. -/
def compare (a b : Name) : Ordering :=
  if a < b then .lt else if b < a then .gt else .eq

def le (a b : Name) : Bool := (compare a b).isLE

/-- The distinct names in ascending order. -/
def sortedUnique (names : List Name) : List Name :=
  (names.mergeSort le).eraseDups

/-- The quoted form. -/
def describe (name : Name) : String := Text.quoted name

end Name

end ExtractMethod
