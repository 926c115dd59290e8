namespace ExtractMethod.Text

/-- A half-open range of byte offsets into a document. -/
structure Range where
  start : Nat
  stop : Nat
  start_le_stop : start ≤ stop := by omega
deriving DecidableEq

namespace Range

/-- The range between two offsets, absent when they are out of order. -/
def between? (start stop : Nat) : Option Range :=
  if h : start ≤ stop then some ⟨start, stop, h⟩ else none

/-- The range of `length` bytes that starts at `start`. -/
def ofLength (start length : Nat) : Range := ⟨start, start + length, by omega⟩

def length (r : Range) : Nat := r.stop - r.start

def isEmpty (r : Range) : Bool := r.start == r.stop

/-- Both ends of `inner` lie within the ends of `outer`, which may coincide. -/
def covers (outer inner : Range) : Bool :=
  outer.start ≤ inner.start && inner.stop ≤ outer.stop

/-- The two ranges share at least one byte. -/
def intersects (a b : Range) : Bool := a.start < b.stop && b.start < a.stop

/-- The byte at `offset` belongs to the range. -/
def contains (r : Range) (offset : Nat) : Bool := r.start ≤ offset && offset < r.stop

/-- The written form, such as `3..8`. -/
def render (r : Range) : String := s!"{r.start}..{r.stop}"

end Range

instance : Inhabited Range := ⟨Range.ofLength 0 0⟩

end ExtractMethod.Text
