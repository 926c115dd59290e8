import ExtractMethod.Text.Range
import ExtractMethod.Ty.Basic

namespace ExtractMethod.Model

open Text (Range)

/-- What a symbol was declared as. A static local keeps its value between calls; `this` is the
receiver; a synthesized parameter is written nowhere. -/
inductive SymbolKind where
  | localVariable (isStatic : Bool)
  | parameter (isThis isPrimaryConstructor isSynthesized : Bool)
  | rangeVariable
  | localFunction (isStatic : Bool)
  | field (isReadonly : Bool)
deriving DecidableEq

namespace SymbolKind

def ordinaryLocal : SymbolKind := .localVariable false

def ordinaryParameter : SymbolKind := .parameter false false false

def receiver : SymbolKind := .parameter true false false

end SymbolKind

/-- A symbol with its type, if the host could find one, and the range of the identifier that
declares it, if there is one in the document. -/
structure Symbol where
  id : Nat
  name : Name
  kind : SymbolKind
  ty : Option Ty
  declaration : Option Range

/-- How an identifier of a symbol is written in messages. -/
def describeSymbol (id : Nat) : String := s!"SymbolId({id})"

namespace Symbol

variable (s : Symbol)

def isThis : Bool := s.kind matches .parameter true _ _

def isParameter : Bool := s.kind matches .parameter _ _ _

def isPrimaryConstructorParameter : Bool := s.kind matches .parameter _ true _

def isSynthesizedParameter : Bool := s.kind matches .parameter _ _ true

def isStaticLocal : Bool := s.kind matches .localVariable true

def isReadonlyField : Bool := s.kind matches .field true

/-- The symbol is declared somewhere in the range. -/
def isDeclaredIn (r : Range) : Bool := s.declaration.any r.covers

end Symbol

/-- An identifier that stands for a symbol, and whether it is assigned there. -/
structure Reference where
  symbol : Nat
  range : Range
  isWritten : Bool
deriving DecidableEq

/-- What is known of a reference that may be null. -/
inductive Nullability where
  | unknown
  | maybeNull
  | notNull
deriving DecidableEq, Inhabited

namespace Nullability

def all : List Nullability := [.unknown, .maybeNull, .notNull]

def name : Nullability → String
  | .unknown => "unknown"
  | .maybeNull => "maybe_null"
  | .notNull => "not_null"

end Nullability

end ExtractMethod.Model
