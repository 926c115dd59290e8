import ExtractMethod.Text.PartitionPoint

namespace ExtractMethod.Text

/-- The UTF-8 bytes of a text. -/
def bytes (text : String) : List UInt8 := text.toUTF8.data.toList

def lineFeed : UInt8 := 10

def carriageReturn : UInt8 := 13

/-- The line breaks of a byte sequence that begins at `offset`: where each line ends and where the
next one starts. A carriage return and a line feed together are one break. -/
def lineBreaks (offset : Nat) : List UInt8 → List (Nat × Nat)
  | [] => []
  | [b] => if b = lineFeed ∨ b = carriageReturn then [(offset, offset + 1)] else []
  | b :: c :: rest =>
    if b = carriageReturn ∧ c = lineFeed then (offset, offset + 2) :: lineBreaks (offset + 2) rest
    else if b = lineFeed ∨ b = carriageReturn then
      (offset, offset + 1) :: lineBreaks (offset + 1) (c :: rest)
    else lineBreaks (offset + 1) (c :: rest)

/-- Where the lines of a text start and end. The end of a line excludes its break. Offsets are those
of a text of fewer than `2 ^ 32` bytes, and fit in 32 bits. -/
structure Lines where
  starts : Array Nat
  stops : Array Nat
  size : Nat

namespace Lines

def ofBytes (content : List UInt8) : Lines :=
  let breaks := lineBreaks 0 content
  { starts := (0 :: breaks.map Prod.snd).toArray
    stops := (breaks.map Prod.fst ++ [content.length]).toArray
    size := content.length }

def ofText (text : String) : Lines := ofBytes (bytes text)

variable (lines : Lines)

def start? (line : Nat) : Option Nat := lines.starts[line]?

def stop? (line : Nat) : Option Nat := lines.stops[line]?

/-- The end of the line at an index with its break: the start of the next line, or the end of the
text. -/
def stopWithBreakAt? (i : Nat) : Option Nat :=
  (lines.stop? i).map fun _ => (lines.start? (i + 1)).getD lines.size

/-- The index of the line that holds an offset. An offset past the text belongs to the last line. -/
def indexOf (offset : Nat) : Nat :=
  partitionPoint (· ≤ min offset lines.size) lines.starts - 1

/-- The offset is the first byte of some line. -/
def isStart (offset : Nat) : Bool :=
  lines.starts[partitionPoint (· < offset) lines.starts]? == some offset

/-! Whoever asks for a line gives or gets its number, which has 32 bits. The indices of the lines
fit, but one number more may be needed for the count of the lines, and for what would be the next
line after the last one. -/

/-- An index in 32 bits. After the last number comes zero again. -/
def number (i : Nat) : Nat := i % UInt32.size

def count : Nat := number lines.starts.size

/-- The end of the line of a number with its break. -/
def stopWithBreak? (line : Nat) : Option Nat :=
  (lines.stop? line).map fun _ => (lines.start? (number (line + 1))).getD lines.size

/-- The number of the line that holds an offset. -/
def lineOf (offset : Nat) : Nat := number (lines.indexOf offset)

end Lines

end ExtractMethod.Text
