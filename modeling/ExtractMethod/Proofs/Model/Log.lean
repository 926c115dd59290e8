import ExtractMethod.Proofs.Keyed
import ExtractMethod.Proofs.Model.References

/-! Every answer of a snapshot is read off the list of what was written. -/
namespace ExtractMethod

open Text (Range)

namespace Model

open ExtractMethod.Flow (ControlFlow DataFlow Region ReturnTypes)
open Keyed (lastUnder)

/-- What a write goes to. -/
inductive Table where
  | symbols
  | typeParams
  | references
  | nullability
  | facts (topic : Topic)
deriving DecidableEq

namespace Write

def table : Write → Table
  | .symbol _ => .symbols
  | .typeParam _ => .typeParams
  | .reference _ => .references
  | .nullability _ _ => .nullability
  | .dataFlow _ _ => .facts .dataFlow
  | .controlFlow _ _ => .facts .controlFlow
  | .returnTypes _ _ => .facts .returnTypes

def symbol? : Write → Option (Nat × Symbol)
  | .symbol s => some (s.id, s)
  | _ => none

def typeParam? : Write → Option (Nat × ParamDecl)
  | .typeParam decl => some (decl.id, decl)
  | _ => none

def reference? : Write → Option Reference
  | .reference r => some r
  | _ => none

def nullability? : Write → Option (Nat × Nullability)
  | .nullability id state => some (id, state)
  | _ => none

def dataFlow? : Write → Option (Option Range × DataFlow)
  | .dataFlow range facts => some (range, facts)
  | _ => none

def controlFlow? : Write → Option (Option Range × ControlFlow)
  | .controlFlow range facts => some (range, facts)
  | _ => none

def returnTypes? : Write → Option (Option Range × ReturnTypes)
  | .returnTypes range facts => some (range, facts)
  | _ => none

end Write

namespace ByRegion

variable {α : Type}

def ofList (written : List (Option Range × α)) : ByRegion α :=
  written.foldl (fun table entry => table.put entry.1 entry.2) {}

theorem ofList_concat (written : List (Option Range × α)) (entry : Option Range × α) :
    ofList (written ++ [entry]) = (ofList written).put entry.1 entry.2 :=
  List.foldl_concat _ _ _ _

theorem get?_exact_ofList (written : List (Option Range × α)) (range : Range) :
    (ofList written).exact.get? range = lastUnder (some range) written := by
  induction written using List.reverseRecOn with
  | nil => rfl
  | append_singleton written entry ih =>
    obtain ⟨key, facts⟩ := entry
    rw [ofList_concat, Keyed.lastUnder_concat]
    cases key with
    | none => simpa [put] using ih
    | some r => simp [put, Keyed.get?_insert, ih]

theorem fallback_ofList (written : List (Option Range × α)) :
    (ofList written).fallback = lastUnder none written := by
  induction written using List.reverseRecOn with
  | nil => rfl
  | append_singleton written entry ih =>
    obtain ⟨key, facts⟩ := entry
    rw [ofList_concat, Keyed.lastUnder_concat]
    cases key with
    | none => rfl
    | some r => simpa [put] using ih

end ByRegion

/-- One table of a snapshot: what a write has for it, and how it takes that. -/
structure View (β γ : Type) where
  table : Table
  part : Write → Option β
  read : Snapshot → γ
  put : γ → β → γ
  part_eq_none : ∀ w, w.table ≠ table → part w = none := by
    intro w h
    cases w <;> first | rfl | exact absurd rfl h
  read_write : ∀ (s : Snapshot) w, read (s.write w) = (part w).elim (read s) (put (read s)) := by
    intro s w
    cases w <;> rfl

namespace View

variable {β γ : Type} (view : View β γ)

theorem read_foldl (s : Snapshot) (log : List Write) :
    view.read (log.foldl Snapshot.write s) =
      (log.filterMap view.part).foldl view.put (view.read s) := by
  induction log generalizing s with
  | nil => rfl
  | cons w log ih =>
    rw [List.foldl_cons, ih, read_write]
    cases h : view.part w <;> simp [h]

/-- A table is what the writes to it make of it, in their order. -/
theorem read_ofWrites (log : List Write) :
    view.read (.ofWrites log) = (log.filterMap view.part).foldl view.put (view.read .empty) :=
  view.read_foldl .empty log

variable {w : Write} (h : view.table ≠ w.table)
include h

/-- A write to another table may as well not have been made. -/
theorem read_ofWrites_skip (before after : List Write) :
    view.read (.ofWrites (before ++ w :: after)) = view.read (.ofWrites (before ++ after)) := by
  rw [read_ofWrites, read_ofWrites, List.filterMap_append, List.filterMap_append,
    List.filterMap_cons_none (view.part_eq_none w h.symm)]

def symbols : View (Nat × Symbol) (Keyed Nat Symbol) where
  table := .symbols
  part := Write.symbol?
  read := Snapshot.symbols
  put m entry := m.insert entry.1 entry.2

def typeParams : View (Nat × ParamDecl) (Keyed Nat ParamDecl) where
  table := .typeParams
  part := Write.typeParam?
  read := Snapshot.typeParams
  put m entry := m.insert entry.1 entry.2

def references : View Reference (List Reference) where
  table := .references
  part := Write.reference?
  read := Snapshot.references
  put kept reference := insertReference reference kept

def nullability : View (Nat × Nullability) (Keyed Nat Nullability) where
  table := .nullability
  part := Write.nullability?
  read := Snapshot.nullability
  put m entry := m.insert entry.1 entry.2

def dataFlow : View (Option Range × DataFlow) (ByRegion DataFlow) where
  table := .facts .dataFlow
  part := Write.dataFlow?
  read := Snapshot.dataFlow
  put table entry := table.put entry.1 entry.2

def controlFlow : View (Option Range × ControlFlow) (ByRegion ControlFlow) where
  table := .facts .controlFlow
  part := Write.controlFlow?
  read := Snapshot.controlFlow
  put table entry := table.put entry.1 entry.2

def returnTypes : View (Option Range × ReturnTypes) (ByRegion ReturnTypes) where
  table := .facts .returnTypes
  part := Write.returnTypes?
  read := Snapshot.returnTypes
  put table entry := table.put entry.1 entry.2

end View

namespace Snapshot

/-- The facts about a region are those written last for its span, else those written last for all
other regions. -/
structure AnswersLast {α : Type} (topic : Topic) (written : List (Option Range × α))
    (ask : Document → Region → Except FactsError α) : Prop where
  noSpan : ∀ d region e, region.span d = .error e → ask d region = .error (.region e)
  exact : ∀ d region range facts, region.span d = .ok range →
    lastUnder (some range) written = some facts → ask d region = .ok facts
  fallback : ∀ d region range facts, region.span d = .ok range →
    lastUnder (some range) written = none → lastUnder none written = some facts →
    ask d region = .ok facts
  missing : ∀ d region range, region.span d = .ok range →
    lastUnder (some range) written = none → lastUnder none written = none →
    ask d region = .error (.missing topic range)

/-- The two snapshots give the same answers from one table. -/
def AgreesOn (s t : Snapshot) : Table → Prop
  | .symbols => (∀ id, s.symbol? id = t.symbol? id) ∧ s.symbols.values = t.symbols.values
  | .typeParams => ∀ id, s.typeParam? id = t.typeParam? id
  | .references => ∀ range, s.referencesIn range = t.referencesIn range
  | .nullability => ∀ symbol, s.nullabilityOf symbol = t.nullabilityOf symbol
  | .facts .dataFlow => ∀ d region, s.dataFlowOf d region = t.dataFlowOf d region
  | .facts .controlFlow => ∀ d region, s.controlFlowOf d region = t.controlFlowOf d region
  | .facts .returnTypes => ∀ d region, s.returnTypesOf d region = t.returnTypesOf d region

/-- What a snapshot answers is what was written, first to last. -/
structure Refines (s : Snapshot) (log : List Write) : Prop where
  symbol?_eq : ∀ id, s.symbol? id = lastUnder id (log.filterMap Write.symbol?)
  map_id_symbols : s.symbols.values.map Symbol.id =
    ((log.filterMap Write.symbol?).map Prod.fst).eraseDups
  last_of_mem_symbols : ∀ symbol ∈ s.symbols.values,
    lastUnder symbol.id (log.filterMap Write.symbol?) = some symbol
  typeParam?_eq : ∀ id, s.typeParam? id = lastUnder id (log.filterMap Write.typeParam?)
  nullabilityOf_eq : ∀ symbol, s.nullabilityOf symbol =
    (lastUnder symbol (log.filterMap Write.nullability?)).getD .unknown
  referencesIn_eq : ∀ range, s.referencesIn range =
    (Reference.inDocumentOrder (log.filterMap Write.reference?)).filter fun reference =>
      range.intersects reference.range ∨
        reference.range.isEmpty ∧ range.contains reference.range.start
  dataFlowOf : AnswersLast .dataFlow (log.filterMap Write.dataFlow?) s.dataFlowOf
  controlFlowOf : AnswersLast .controlFlow (log.filterMap Write.controlFlow?) s.controlFlowOf
  returnTypesOf : AnswersLast .returnTypes (log.filterMap Write.returnTypes?) s.returnTypesOf
  agreesOn : ∀ before w after, log = before ++ w :: after → ∀ table, table ≠ w.table →
    s.AgreesOn (ofWrites (before ++ after)) table

theorem lookup_answersLast {α : Type} (topic : Topic) (written : List (Option Range × α)) :
    AnswersLast topic written (lookup (ByRegion.ofList written) topic) where
  noSpan d region e h := by rw [lookup, h]
  exact d region range facts h hexact := by
    simp only [lookup, h, ByRegion.find?, ByRegion.get?_exact_ofList, hexact]
  fallback d region range facts h hexact hfallback := by
    simp only [lookup, h, ByRegion.find?, ByRegion.get?_exact_ofList, hexact,
      ByRegion.fallback_ofList, hfallback]
  missing d region range h hexact hfallback := by
    simp only [lookup, h, ByRegion.find?, ByRegion.get?_exact_ofList, hexact,
      ByRegion.fallback_ofList, hfallback]

variable (log : List Write)

theorem symbols_ofWrites : (ofWrites log).symbols = Keyed.ofList (log.filterMap Write.symbol?) :=
  View.symbols.read_ofWrites log

theorem typeParams_ofWrites :
    (ofWrites log).typeParams = Keyed.ofList (log.filterMap Write.typeParam?) :=
  View.typeParams.read_ofWrites log

theorem nullability_ofWrites :
    (ofWrites log).nullability = Keyed.ofList (log.filterMap Write.nullability?) :=
  View.nullability.read_ofWrites log

theorem references_ofWrites :
    (ofWrites log).references = Reference.inDocumentOrder (log.filterMap Write.reference?) :=
  (View.references.read_ofWrites log).trans (foldl_insertReference _)

theorem dataFlow_ofWrites :
    (ofWrites log).dataFlow = ByRegion.ofList (log.filterMap Write.dataFlow?) :=
  View.dataFlow.read_ofWrites log

theorem controlFlow_ofWrites :
    (ofWrites log).controlFlow = ByRegion.ofList (log.filterMap Write.controlFlow?) :=
  View.controlFlow.read_ofWrites log

theorem returnTypes_ofWrites :
    (ofWrites log).returnTypes = ByRegion.ofList (log.filterMap Write.returnTypes?) :=
  View.returnTypes.read_ofWrites log

theorem agreesOn_skip {w : Write} {table : Table} (h : table ≠ w.table)
    (before after : List Write) :
    (ofWrites (before ++ w :: after)).AgreesOn (ofWrites (before ++ after)) table := by
  cases table with
  | symbols =>
    have heq := View.symbols.read_ofWrites_skip h before after
    exact ⟨fun id => congrArg (Keyed.get? · id) heq, congrArg Keyed.values heq⟩
  | typeParams =>
    have heq := View.typeParams.read_ofWrites_skip h before after
    exact fun id => congrArg (Keyed.get? · id) heq
  | references =>
    have heq := View.references.read_ofWrites_skip h before after
    exact fun range => congrArg (List.filter _) heq
  | nullability =>
    have heq := View.nullability.read_ofWrites_skip h before after
    exact fun symbol => congrArg (fun m => (m.get? symbol).getD .unknown) heq
  | facts topic =>
    cases topic with
    | dataFlow =>
      have heq := View.dataFlow.read_ofWrites_skip h before after
      exact fun d region => congrArg (lookup · .dataFlow d region) heq
    | controlFlow =>
      have heq := View.controlFlow.read_ofWrites_skip h before after
      exact fun d region => congrArg (lookup · .controlFlow d region) heq
    | returnTypes =>
      have heq := View.returnTypes.read_ofWrites_skip h before after
      exact fun d region => congrArg (lookup · .returnTypes d region) heq

theorem fst_eq_id_of_mem_symbols {entry : Nat × Symbol}
    (h : entry ∈ (ofWrites log).symbols.entries) : entry.1 = entry.2.id := by
  rw [symbols_ofWrites] at h
  obtain ⟨w, -, hw⟩ := List.mem_filterMap.mp (Keyed.mem_of_mem_ofList h)
  cases w with
  | symbol symbol => cases hw; rfl
  | typeParam | reference | nullability | dataFlow | controlFlow | returnTypes => cases hw

/-- A snapshot answers from what was written to it, whatever was written and in whatever order. -/
theorem ofWrites_refines : (ofWrites log).Refines log where
  symbol?_eq id := by rw [symbol?, symbols_ofWrites, Keyed.get?_ofList]
  map_id_symbols := by
    rw [← Keyed.keys_ofList, ← symbols_ofWrites, Keyed.values, Keyed.keys, List.map_map]
    exact List.map_congr_left fun entry hentry => (fst_eq_id_of_mem_symbols log hentry).symm
  last_of_mem_symbols symbol h := by
    obtain ⟨entry, hentry, rfl⟩ := List.mem_map.mp h
    rw [← Keyed.get?_ofList, ← symbols_ofWrites, Keyed.get?_eq_some_iff,
      ← fst_eq_id_of_mem_symbols log hentry]
    exact hentry
  typeParam?_eq id := by rw [typeParam?, typeParams_ofWrites, Keyed.get?_ofList]
  nullabilityOf_eq symbol := by rw [nullabilityOf, nullability_ofWrites, Keyed.get?_ofList]
  referencesIn_eq range := by
    rw [referencesIn, references_ofWrites]
    simp
  dataFlowOf := by
    have h := lookup_answersLast .dataFlow (log.filterMap Write.dataFlow?)
    rwa [← dataFlow_ofWrites] at h
  controlFlowOf := by
    have h := lookup_answersLast .controlFlow (log.filterMap Write.controlFlow?)
    rwa [← controlFlow_ofWrites] at h
  returnTypesOf := by
    have h := lookup_answersLast .returnTypes (log.filterMap Write.returnTypes?)
    rwa [← returnTypes_ofWrites] at h
  agreesOn before w after h table hne := by
    rw [h]
    exact agreesOn_skip hne before after

end Snapshot

end Model

end ExtractMethod
