import ExtractMethod.Model.Snapshot

namespace ExtractMethod.Model

open ExtractMethod.Flow (ControlFlow DataFlow ReturnTypes)
open Text (Range)

/-- A snapshot in the making that numbers its symbols itself and states the same facts about every
region. -/
structure Ledger where
  snapshot : Snapshot := .empty
  nextSymbol : Nat := 0
  dataFlow : DataFlow := .empty
  controlFlow : ControlFlow := {}
  returnTypes : ReturnTypes := {}

namespace Ledger

def empty : Ledger := {}

instance : Inhabited Ledger := ⟨empty⟩

variable (l : Ledger)

/-- Adds a symbol under the next number. -/
def declare (name : Name) (kind : SymbolKind) (ty : Option Ty) (declaration : Option Range) :
    Ledger :=
  { l with
    snapshot := l.snapshot.write (.symbol ⟨l.nextSymbol, name, kind, ty, declaration⟩)
    nextSymbol := l.nextSymbol + 1 }

def write (w : Write) : Ledger := { l with snapshot := l.snapshot.write w }

def note (symbol : Nat) (flags : Flow.Flags) : Ledger :=
  { l with dataFlow := l.dataFlow.insert symbol flags }

/-- The snapshot with the facts for all regions. -/
def close : Snapshot :=
  ((l.snapshot.write (.dataFlow none l.dataFlow)).write (.controlFlow none l.controlFlow)).write
    (.returnTypes none l.returnTypes)

end Ledger

end ExtractMethod.Model
