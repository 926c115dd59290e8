namespace ExtractMethod.Toml

/-- Reads something from the front of a text, or fails. Where one reader fails another can be
tried, from the same place. -/
abbrev Scan := StateT (List Char) Option

namespace Scan

variable {α : Type}

/-- The next character, which is not read. -/
def peek? : Scan (Option Char) := do pure (← get).head?

/-- One character that passes the test. -/
def oneOf (test : Char → Bool) : Scan Char := fun input =>
  match input with
  | c :: rest => if test c then some (c, rest) else none
  | [] => none

def char (c : Char) : Scan Unit := do let _ ← oneOf (· = c)

/-- The given characters. -/
def word (text : String) : Scan Unit := text.toList.forM char

/-- All following characters that pass the test. -/
def span (test : Char → Bool) : Scan (List Char) := fun input =>
  some (input.takeWhile test, input.dropWhile test)

/-- At least one character, and all following ones, that pass the test. -/
def spanSome (test : Char → Bool) : Scan (List Char) := do
  pure ((← oneOf test) :: (← span test))

/-- Reads things until one fails or is read from no text. -/
def manyFrom (item : Scan α) (input : List Char) : List α × List Char :=
  match item input with
  | none => ([], input)
  | some (a, rest) =>
    if rest.length < input.length then
      let (items, rest) := manyFrom item rest
      (a :: items, rest)
    else ([], input)
termination_by input.length

/-- As many things as follow each other. -/
def many (item : Scan α) : Scan (List α) := fun input => some (manyFrom item input)

def maybe (item : Scan α) : Scan (Option α) := (some <$> item) <|> pure none

/-- Things with a separator between any two. -/
def separated (item : Scan α) (separator : Scan Unit) : Scan (List α) := do
  pure ((← item) :: (← many (do separator; item)))

/-- The end of the text. -/
def atEnd : Scan Unit := do guard (← get).isEmpty

end Scan

/-! Blanks, line breaks and comments. -/

def isBlank (c : Char) : Bool := c = ' ' || c = '\t'

/-- A character that may stand in a comment: a tab, or none of the control characters. -/
def isPlain (c : Char) : Bool := c = '\t' || (' ' ≤ c && c ≠ '\x7f')

def blanks : Scan Unit := do let _ ← Scan.span isBlank

def lineBreak : Scan Unit := Scan.char '\n' <|> Scan.word "\r\n"

/-- A comment, up to the end of its line. -/
def comment : Scan Unit := do
  Scan.char '#'
  let _ ← Scan.span isPlain

/-- Blanks and a comment up to the end of the line. -/
def lineEnd : Scan Unit := do
  blanks
  let _ ← Scan.maybe comment
  lineBreak <|> Scan.atEnd

/-- Blanks, comments and line breaks. -/
def gap : Scan Unit := do
  let _ ← Scan.many (do blanks; let _ ← Scan.maybe comment; lineBreak)
  blanks

end ExtractMethod.Toml
