import ExtractMethod.Fixture.Item
import ExtractMethod.Tree.Spelling

/-! From items to the events of a document. A space is put between tokens that do not hug each
other, and only when the next token or node comes. -/
namespace ExtractMethod.Fixture

open ExtractMethod.Tree (Event Kind TokenKind)

/-- Punctuation that stands right after the token before it. -/
def closesUpBefore : Kind → Bool
  | .token .semicolon | .token .comma | .token .dot | .token .rParen | .token .rBracket => true
  | _ => false

/-- Punctuation that stands right before the next token. -/
def closesUpAfter : Kind → Bool
  | .token .dot | .token .lParen | .token .lBracket => true
  | _ => false

/-- The events so far, the last one first, with the offset they reach and the markers passed. -/
structure Writer where
  events : List Event
  offset : Nat
  pendingSpace : Bool
  markers : List (Nat × Nat)

namespace Writer

def empty : Writer := ⟨[], 0, false, []⟩

def push (w : Writer) (event : Event) : Writer := { w with events := event :: w.events }

/-- Writes a token right here. -/
def emit (w : Writer) (kind : Kind) (text : String) : Writer :=
  { w.push (.token kind text) with offset := w.offset + text.utf8ByteSize }

def dropSpace (w : Writer) : Writer := { w with pendingSpace := false }

def settleSpace (w : Writer) : Writer :=
  if w.pendingSpace then w.dropSpace.emit (.token .whitespace) " " else w

/-- Writes a token with the space that is due before it. -/
def token (w : Writer) (kind : Kind) (text : String) : Writer :=
  if kind = .token .whitespace then w.dropSpace.emit kind text
  else
    let w := if closesUpBefore kind then w.dropSpace else w.settleSpace
    { w.emit kind text with pendingSpace := !text.endsWith "\n" && !closesUpAfter kind }

mutual

def item (w : Writer) : Item → Writer
  | .node kind items => (Writer.items (w.settleSpace.push (.start kind)) items).push .finish
  | .text text => w.token (.token (TokenKind.infer text)) text
  | .token kind text => w.token kind text
  | .newline => w.dropSpace.emit (.token .whitespace) "\n"
  | .marker digit => { w with markers := (digit, w.offset) :: w.markers }

def items (w : Writer) : List Item → Writer
  | [] => w
  | first :: rest => Writer.items (w.item first) rest

end

end Writer

end ExtractMethod.Fixture
