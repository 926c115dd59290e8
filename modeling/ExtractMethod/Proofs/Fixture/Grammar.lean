import ExtractMethod.Fixture.Reader

/-! The notation of fixtures apart from how it is read: what may stand between items, how each item
is written, and that a written item is a sequence of strokes. -/
namespace ExtractMethod.Fixture

open Text (bytes lineFeed)
open ExtractMethod.Tree (Kind NodeKind TokenKind)

/-- What may stand between items: blanks, and comments with the line feeds that end them. -/
inductive Gap : List UInt8 → Prop where
  | nil : Gap []
  | blank {b : UInt8} {rest : List UInt8} (isBlank : isBlankByte b) (gap : Gap rest) :
    Gap (b :: rest)
  | comment {content rest : List UInt8} (inLine : lineFeed ∉ content) (gap : Gap rest) :
    Gap (ascii ';' :: ascii ';' :: (content ++ lineFeed :: rest))

/-- A content as it stands between quotes. Quotes and backslashes are escaped, other bytes may
be. -/
inductive Escaped : List UInt8 → List UInt8 → Prop where
  | nil : Escaped [] []
  | plain {b : UInt8} {content written : List UInt8} (notQuote : b ≠ ascii '"')
    (notBackslash : b ≠ ascii '\\') (rest : Escaped content written) :
    Escaped (b :: content) (b :: written)
  | escape (b : UInt8) {content written : List UInt8} (rest : Escaped content written) :
    Escaped (unescape b :: content) (ascii '\\' :: b :: written)

/-- Escapes the quotes and the backslashes, and nothing else. -/
def escape (content : List UInt8) : List UInt8 :=
  content.flatMap fun b => if b = ascii '"' ∨ b = ascii '\\' then [ascii '\\', b] else [b]

theorem escaped_escape (content : List UInt8) : Escaped content (escape content) := by
  induction content with
  | nil => exact .nil
  | cons b content ih =>
    rw [escape, List.flatMap_cons]
    split
    · next hspecial =>
      have hself : unescape b = b := by rcases hspecial with rfl | rfl <;> rfl
      have hescaped := Escaped.escape b ih
      rwa [hself] at hescaped
    · next hplain => exact .plain (fun h => hplain (.inl h)) (fun h => hplain (.inr h)) ih

/-- A text as it is written, with its quotes. -/
def Quoted (text : String) (written : List UInt8) : Prop :=
  ∃ inner, Escaped (bytes text) inner ∧ written = ascii '"' :: (inner ++ [ascii '"'])

theorem quoted_escape (text : String) :
    Quoted text (ascii '"' :: (escape (bytes text) ++ [ascii '"'])) :=
  ⟨_, escaped_escape _, rfl⟩

mutual

/-- How an item may be written. Nodes have node kinds and tokens have token kinds. -/
inductive Renders : Item → List UInt8 → Prop where
  | text {text : String} {written : List UInt8} (quoted : Quoted text written) :
    Renders (.text text) written
  | token (kind : TokenKind) {text : String} {written : List UInt8} (quoted : Quoted text written) :
    Renders (.token (.token kind) text) (bytes kind.name ++ ascii ':' :: written)
  | newline : Renders .newline (bytes "nl")
  | marker {digit : Nat} (lt_ten : digit < 10) :
    Renders (.marker digit) [ascii '$', ascii '0' + digit.toUInt8]
  | node (kind : NodeKind) {lead body : List UInt8} {items : List Item} (gap : Gap lead)
    (below : RendersBelow items body) :
    Renders (.node (.node kind) items)
      (ascii '(' :: (lead ++ bytes kind.name ++ body) ++ [ascii ')'])

/-- How the items of a node may be written, from the end of its kind to its closing parenthesis:
each of them after a gap that is not empty. -/
inductive RendersBelow : List Item → List UInt8 → Prop where
  | nil {last : List UInt8} (gap : Gap last) : RendersBelow [] last
  | cons {lead written body : List UInt8} {item : Item} {items : List Item} (gap : Gap lead)
    (apart : lead ≠ []) (first : Renders item written) (rest : RendersBelow items body) :
    RendersBelow (item :: items) (lead ++ written ++ body)

end

/-- The parts that items are written in: the beginning of a node with its kind, what has no items
below it, and the end of a node. -/
inductive Stroke where
  | start (kind : Kind)
  | text (text : String)
  | token (kind : Kind) (text : String)
  | newline
  | marker (digit : Nat)
  | finish

mutual

/-- An item as its strokes, in the order in which they are written. -/
def Item.strokes : Item → List Stroke
  | .node kind items => .start kind :: (strokesBelow items ++ [.finish])
  | .text text => [.text text]
  | .token kind text => [.token kind text]
  | .newline => [.newline]
  | .marker digit => [.marker digit]

def strokesBelow : List Item → List Stroke
  | [] => []
  | item :: items => item.strokes ++ strokesBelow items

end

namespace Stroke

def digit? : Stroke → Option Nat
  | .marker digit => some digit
  | _ => none

/-- The stroke ends in a word, so what follows it must not go on with the word. -/
def EndsInWord : Stroke → Prop
  | .start _ | .newline => True
  | _ => False

/-- How a stroke may be written. -/
inductive Spells : Stroke → List UInt8 → Prop where
  | start {kind : Kind} {lead : List UInt8} (named : kind ≠ .endMark) (gap : Gap lead) :
    Spells (.start kind) (ascii '(' :: (lead ++ bytes kind.name))
  | text {text : String} {written : List UInt8} (quoted : Quoted text written) :
    Spells (.text text) written
  | token {kind : Kind} {text : String} {written : List UInt8} (named : kind ≠ .endMark)
    (quoted : Quoted text written) :
    Spells (.token kind text) (bytes kind.name ++ ascii ':' :: written)
  | newline : Spells .newline (bytes "nl")
  | marker {digit : Nat} (lt_ten : digit < 10) :
    Spells (.marker digit) [ascii '$', ascii '0' + digit.toUInt8]
  | finish : Spells .finish [ascii ')']

end Stroke

/-- No word goes on here. -/
def WordEnds (input : List UInt8) : Prop := ∀ b ∈ input.head?, isWordByte b = false

theorem WordEnds.nil : WordEnds [] := by
  rintro _ ⟨⟩

theorem WordEnds.cons {b : UInt8} (h : isWordByte b = false) (rest : List UInt8) :
    WordEnds (b :: rest) := by
  rintro _ ⟨⟩
  exact h

/-- The digits of the markers, in order. -/
def digits (strokes : List Stroke) : List Nat := strokes.filterMap Stroke.digit?

theorem digits_append (first second : List Stroke) :
    digits (first ++ second) = digits first ++ digits second :=
  List.filterMap_append

/-- The input begins with strokes, each of them after a gap, and leaves a rest. -/
inductive Spelled : List Stroke → List UInt8 → List UInt8 → Prop where
  | nil (input : List UInt8) : Spelled [] input input
  | cons {stroke : Stroke} {strokes : List Stroke} {lead written after rest : List UInt8}
    (gap : Gap lead) (spells : stroke.Spells written) (apart : stroke.EndsInWord → WordEnds after)
    (tail : Spelled strokes after rest) :
    Spelled (stroke :: strokes) (lead ++ written ++ after) rest

variable {stroke : Stroke} {first second : List Stroke} {input middle rest : List UInt8}

theorem Spelled.append (h : Spelled first input middle) (h' : Spelled second middle rest) :
    Spelled (first ++ second) input rest := by
  induction h with
  | nil => exact h'
  | cons gap spells apart _ ih => exact .cons gap spells apart (ih h')

theorem Spelled.exists_middle (h : Spelled (first ++ second) input rest) :
    ∃ middle, Spelled first input middle ∧ Spelled second middle rest := by
  induction first generalizing input with
  | nil => exact ⟨input, .nil input, h⟩
  | cons stroke strokes ih =>
    cases h with
    | cons gap spells apart tail =>
      obtain ⟨middle, hfirst, hsecond⟩ := ih tail
      exact ⟨middle, .cons gap spells apart hfirst, hsecond⟩

theorem Spelled.single {lead written : List UInt8} (gap : Gap lead) (spells : stroke.Spells written)
    (apart : stroke.EndsInWord → WordEnds rest) : Spelled [stroke] (lead ++ written ++ rest) rest :=
  .cons gap spells apart (.nil rest)

end ExtractMethod.Fixture
