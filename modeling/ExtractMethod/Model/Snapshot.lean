import ExtractMethod.Flow.Facts
import ExtractMethod.Flow.Region
import ExtractMethod.Model.Symbol
import ExtractMethod.Text.PartitionPoint
import ExtractMethod.Ty.Param

namespace ExtractMethod.Model

open ExtractMethod.Flow (ControlFlow DataFlow Region RegionError ReturnTypes)
open Text (Range partitionPoint)

/-- The tables of facts about regions. -/
inductive Topic where
  | dataFlow
  | controlFlow
  | returnTypes
deriving DecidableEq

def Topic.phrase : Topic → String
  | .dataFlow => "data-flow"
  | .controlFlow => "control-flow"
  | .returnTypes => "return type"

/-- Why a snapshot has no facts about a region. -/
inductive FactsError where
  | region (error : RegionError)
  | missing (topic : Topic) (range : Range)
deriving DecidableEq

def FactsError.message : FactsError → String
  | .region error => error.message
  | .missing topic range => s!"no {topic.phrase} facts available for region {range.render}"

/-- Facts by region, and those for all other regions. -/
structure ByRegion (α : Type) where
  exact : Keyed Range α := .empty
  fallback : Option α := none

namespace ByRegion

variable {α : Type}

def find? (table : ByRegion α) (range : Range) : Option α :=
  match table.exact.get? range with
  | some facts => some facts
  | none => table.fallback

/-- Puts facts about one region, or about all regions that have none of their own. -/
def put (table : ByRegion α) (range : Option Range) (facts : α) : ByRegion α :=
  match range with
  | some r => { table with exact := table.exact.insert r facts }
  | none => { table with fallback := some facts }

end ByRegion

/-- Puts a reference after those that start no later, whose number is found by halving. -/
def insertReference (reference : Reference) (references : List Reference) : List Reference :=
  references.insertIdx
    (partitionPoint (fun kept => kept.range.start ≤ reference.range.start) references.toArray)
    reference

/-- Everything that a host knows about a document. -/
structure Snapshot where
  symbols : Keyed Nat Symbol := .empty
  typeParams : Keyed Nat ParamDecl := .empty
  references : List Reference := []
  nullability : Keyed Nat Nullability := .empty
  dataFlow : ByRegion DataFlow := {}
  controlFlow : ByRegion ControlFlow := {}
  returnTypes : ByRegion ReturnTypes := {}

/-- A piece of knowledge that a host adds. Facts without a range are those for all regions that
have none of their own. -/
inductive Write where
  | symbol (symbol : Symbol)
  | typeParam (decl : ParamDecl)
  | reference (reference : Reference)
  | nullability (symbol : Nat) (state : Nullability)
  | dataFlow (range : Option Range) (facts : DataFlow)
  | controlFlow (range : Option Range) (facts : ControlFlow)
  | returnTypes (range : Option Range) (facts : ReturnTypes)

namespace Snapshot

def empty : Snapshot := {}

instance : Inhabited Snapshot := ⟨empty⟩

def write (s : Snapshot) : Write → Snapshot
  | .symbol symbol => { s with symbols := s.symbols.insert symbol.id symbol }
  | .typeParam decl => { s with typeParams := s.typeParams.insert decl.id decl }
  | .reference reference => { s with references := insertReference reference s.references }
  | .nullability symbol state => { s with nullability := s.nullability.insert symbol state }
  | .dataFlow range facts => { s with dataFlow := s.dataFlow.put range facts }
  | .controlFlow range facts => { s with controlFlow := s.controlFlow.put range facts }
  | .returnTypes range facts => { s with returnTypes := s.returnTypes.put range facts }

/-- What a host knows after it wrote everything, first to last. -/
def ofWrites (writes : List Write) : Snapshot := writes.foldl write empty

variable (s : Snapshot)

def symbol? (id : Nat) : Option Symbol := s.symbols.get? id

def typeParam? (id : Nat) : Option ParamDecl := s.typeParams.get? id

/-- The references that share a byte with the range or lie, empty, inside it, in document order. -/
def referencesIn (range : Range) : List Reference :=
  s.references.filter fun reference =>
    range.intersects reference.range ||
      (reference.range.isEmpty && range.contains reference.range.start)

def nullabilityOf (symbol : Nat) : Nullability := (s.nullability.get? symbol).getD .unknown

/-- Looks up the facts about a region by its span. -/
def lookup {α : Type} (table : ByRegion α) (topic : Topic) (d : Document) (region : Region) :
    Except FactsError α :=
  match region.span d with
  | .error e => .error (.region e)
  | .ok range =>
    match table.find? range with
    | some facts => .ok facts
    | none => .error (.missing topic range)

def dataFlowOf (d : Document) (region : Region) : Except FactsError DataFlow :=
  lookup s.dataFlow .dataFlow d region

def controlFlowOf (d : Document) (region : Region) : Except FactsError ControlFlow :=
  lookup s.controlFlow .controlFlow d region

def returnTypesOf (d : Document) (region : Region) : Except FactsError ReturnTypes :=
  lookup s.returnTypes .returnTypes d region

end Snapshot

end ExtractMethod.Model
