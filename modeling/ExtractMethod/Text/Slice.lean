import ExtractMethod.Text.Lines
import ExtractMethod.Text.Range

namespace ExtractMethod.Text

/-- The part of a text between two byte offsets, empty when they cut a character. -/
def slice (text : String) (r : Range) : String :=
  (String.fromUTF8? (text.toUTF8.extract r.start r.stop)).getD ""

/-- A byte that continues a character which an earlier byte began. -/
def isContinuation (b : UInt8) : Bool := b &&& 0xC0 == 0x80

/-- The offsets at which a character starts, and the end. -/
def boundaries (offset : Nat) : List UInt8 → List Nat
  | [] => [offset]
  | b :: rest =>
    if isContinuation b then boundaries (offset + 1) rest
    else offset :: boundaries (offset + 1) rest

/-- The offsets at which a sequence of at least one byte occurs, from left to right and without
overlap. -/
def matchesFrom (first : UInt8) (others : List UInt8) (offset : Nat) : List UInt8 → List Nat
  | [] => []
  | b :: rest =>
    if b = first ∧ others.isPrefixOf rest then
      offset :: matchesFrom first others (offset + 1 + others.length) (rest.drop others.length)
    else matchesFrom first others (offset + 1) rest
termination_by content => content.length

/-- The offsets at which a piece occurs in a text. The empty piece occurs between any two
characters and at both ends. -/
def occurrences (piece text : String) : List Nat :=
  match bytes piece with
  | [] => boundaries 0 (bytes text)
  | first :: others => matchesFrom first others 0 (bytes text)

/-- The range of the occurrence with that number, counted from zero. -/
def occurrence? (piece text : String) (number : Nat) : Option Range :=
  (occurrences piece text)[number]?.map fun start => Range.ofLength start piece.utf8ByteSize

end ExtractMethod.Text
