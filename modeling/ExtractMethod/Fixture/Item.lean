import ExtractMethod.Tree.Event

namespace ExtractMethod.Fixture

open ExtractMethod.Tree (BuildError Kind)

/-- What a fixture is written from: nodes, tokens whose kind is inferred or given, line breaks, and
markers that name an offset. -/
inductive Item where
  | node (kind : Kind) (items : List Item)
  | text (text : String)
  | token (kind : Kind) (text : String)
  | newline
  | marker (digit : Nat)
deriving Inhabited

/-- Everything that can be wrong with a fixture. Offsets count bytes of the source. -/
inductive Error where
  | unexpected (found : Option UInt8) (offset : Nat)
  | trailingInput (offset : Nat)
  | unknownKind (name : String)
  | unclosedNode (kind : Kind)
  | expectedString (offset : Nat)
  | unterminatedString
  | danglingEscape
  | notUtf8
  | markerWithoutDigit
  | duplicateMarker (digit : Nat)
  | bareWord (word : String)
  | notATree (error : BuildError)
deriving DecidableEq

end ExtractMethod.Fixture
