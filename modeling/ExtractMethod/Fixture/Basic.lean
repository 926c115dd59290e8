import ExtractMethod.Document.Basic
import ExtractMethod.Fixture.Reader
import ExtractMethod.Fixture.Writer
import ExtractMethod.Text.Quoted

namespace ExtractMethod

open Text (Range)
open ExtractMethod.Tree (Kind)

namespace Fixture

/-- A byte where an item should start, as the character of that number. -/
def describeByte : Option UInt8 → String
  | some b => "Some(" ++ Text.quotedSingle (Char.ofNat b.toNat) ++ ")"
  | none => "None"

def Error.message : Error → String
  | .unexpected found offset => s!"unexpected {describeByte found} at byte {offset} in fixture"
  | .trailingInput offset => s!"trailing input in fixture at byte {offset}"
  | .unknownKind name => s!"unknown syntax kind `{name}` in fixture"
  | .unclosedNode kind => s!"unclosed `({kind.name}` in fixture"
  | .expectedString offset => s!"expected string at byte {offset}"
  | .unterminatedString => "unterminated string in fixture"
  | .danglingEscape => "dangling escape in fixture"
  | .notUtf8 => "fixture string is not UTF-8"
  | .markerWithoutDigit => "`$` must be followed by a digit in fixture"
  | .duplicateMarker digit => s!"duplicate marker `${digit}`"
  | .bareWord word =>
    "bare word `" ++ word ++ "` in fixture; use `" ++ word ++ ":\"text\"` or a string"
  | .notATree error => s!"fixture does not form a tree: {error.message}"

end Fixture

/-- A document written in the notation of fixtures, with the offsets of its markers. -/
structure Fixture where
  document : Document
  markers : List (Nat × Nat)

namespace Fixture

def ofItem (item : Item) : Except Error Fixture :=
  let written := Writer.empty.item item
  match Document.ofEvents written.events.reverse Version.first with
  | .ok document => .ok ⟨document, written.markers⟩
  | .error e => .error (.notATree e)

/-- Reads a fixture. -/
def parse (source : String) : Except Error Fixture := do
  ofItem (← readItem source)

/-- A question that a fixture has no answer to. -/
inductive LookupError where
  | noMarker (digit : Nat)
  | outOfOrder
  | notFound (piece : String)
  | noOccurrence (piece : String) (number : Nat)
  | noNode (kind : Kind) (text : String)

def LookupError.message : LookupError → String
  | .noMarker digit => s!"fixture has no `${digit}` marker"
  | .outOfOrder => "assertion failed: start.raw <= end.raw"
  | .notFound piece => s!"`{piece}` not found in fixture text"
  | .noOccurrence piece number => s!"occurrence {number} of `{piece}` not found in fixture text"
  | .noNode kind text => s!"no {kind.name} node with text `{text}`"

variable (f : Fixture)

def marker (digit : Nat) : Except LookupError Nat :=
  match f.markers.lookup digit with
  | some offset => .ok offset
  | none => .error (.noMarker digit)

/-- The range between two markers. -/
def range (start stop : Nat) : Except LookupError Range := do
  match Range.between? (← f.marker start) (← f.marker stop) with
  | some r => .ok r
  | none => .error .outOfOrder

/-- The range between the first two markers, which by convention is what the user selected. -/
def selection : Except LookupError Range := f.range 0 1

/-- The range of the first occurrence of a piece of text. -/
def find (piece : String) : Except LookupError Range :=
  match Text.occurrence? piece f.document.text 0 with
  | some r => .ok r
  | none => .error (.notFound piece)

def findOccurrence (piece : String) (number : Nat) : Except LookupError Range :=
  match Text.occurrence? piece f.document.text number with
  | some r => .ok r
  | none => .error (.noOccurrence piece number)

/-- The first node of a kind, in preorder, whose span has the given text. -/
def node (kind : Kind) (text : String) : Except LookupError Nat :=
  let d := f.document
  match (d.descendants 0).find? fun n => .node (d.kind n) = kind && d.slice (d.span n) = text with
  | some n => .ok n
  | none => .error (.noNode kind text)

end Fixture

end ExtractMethod
