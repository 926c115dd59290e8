import ExtractMethod.Proofs.Analysis.Closure
import ExtractMethod.Proofs.Analysis.References
import ExtractMethod.Proofs.Boundary.Lacking
import ExtractMethod.Proofs.Ty.Discovery

/-! An analysis ends with a signature exactly if the host knows enough, and with an error if it does
not. -/
namespace ExtractMethod

open Boundary (KnowsCandidates LacksFirst Variable)
open ExtractMethod.Flow (ControlFlow DataFlow ReturnTypes)
open Model (Snapshot Write)
open Poll (Fails Gives)
open Text (Range)

variable {d : Document} {span : Range} {s : Selection} {model : Snapshot}
  {options options' : Options} {facts : DataFlow} {flow : ControlFlow} {types : ReturnTypes}
  {f g : Findings} {references : Mentions} {writes : List Write} {e : AnalysisError} {id : Nat}
  {a : Analysis}

/-- What the host states about the text that a call replaces. -/
structure Model.Snapshot.States (model : Snapshot) (s : Selection) (facts : DataFlow)
    (flow : ControlFlow) (types : ReturnTypes) : Prop where
  dataFlow : model.dataFlow.find? s.finalSpan = some facts
  controlFlow : model.controlFlow.find? s.finalSpan = some flow
  returnTypes : model.returnTypes.find? s.finalSpan = some types

/-- The statements of the host, and the classification that they lead to. -/
structure Findings.MadeFrom (s : Selection) (options : Options) (model : Snapshot)
    (facts : DataFlow) (flow : ControlFlow) (types : ReturnTypes) (f : Findings) : Prop where
  selection : f.selection = s
  controlFlow : f.controlFlow = flow
  returnTypes : f.returnTypes = types
  classification : Poll.run (Boundary.classify s options model facts).run .unlimited =
    .ok (.ok f.classification)

/-- The type parameters that the classified variables and the result use. -/
def Findings.roots (f : Findings) (options : Options) : List Nat :=
  (Ty.paramUsesAll (f.crossing.map Variable.ty ++ [(f.result options).ty])).map TypeParamRef.id

/-- The host knows enough to analyze the selection. -/
structure Model.Snapshot.Suffices (model : Snapshot) (s : Selection) (options : Options)
    (facts : DataFlow) (flow : ControlFlow) (types : ReturnTypes) : Prop where
  states : model.States s facts flow types
  candidates : KnowsCandidates s model facts
  references : ∀ reference ∈ model.referencesIn s.finalSpan,
    ∃ symbol, model.symbol? reference.symbol = some symbol
  params : ∀ f, Findings.MadeFrom s options model facts flow types f → ∀ id,
    Reachable model.typeParams.values (f.roots options) id →
      ∃ decl, model.typeParam? id = some decl

/-- The roots of the closure are what the findings use. -/
theorem Findings.mem_collected_iff {tys : List Ty} {returnType : Ty}
    (htys : ∀ ty, ty ∈ tys ↔ ty ∈ f.crossing.map Variable.ty)
    (huses : returnType.paramUses = (f.result options).ty.paramUses) :
    id ∈ (Ty.collectParamsAll [] (tys ++ [returnType])).map TypeParamRef.id ↔
      id ∈ f.roots options := by
  rw [Ty.mem_map_id_collectParamsAll, List.map_nil, Findings.roots]
  simp only [List.not_mem_nil, false_or, List.mem_map (f := TypeParamRef.id), Ty.mem_paramUsesAll,
    List.mem_append, List.mem_singleton, or_and_right, exists_or, htys, exists_eq_left, huses]

/-- The signature can be inferred exactly if all that the findings lead to is declared. -/
theorem Findings.exists_gives_infer_iff (hmodel : model.IsNumbered) :
    (∃ signature, Gives (f.infer model.typeParams.values options) signature) ↔
      DeclaresReachable model.typeParams.values (f.roots options) := by
  have huses : (if f.selection.needsAsync then (f.result options).ty.eraseAnonymous.asTask
      else (f.result options).ty.eraseAnonymous).paramUses = (f.result options).ty.paramUses := by
    split
    · rw [Ty.paramUses_asTask, Ty.paramUses_eraseAnonymous]
    · rw [Ty.paramUses_eraseAnonymous]
  simp only [infer]
  simp only [Poll.gives_bind, Poll.gives_adapt, Poll.gives_pure]
  rw [exists_comm]
  simp only [exists_and_left, exists_eq', and_true]
  rw [exists_gives_constraintClosure_iff hmodel.nodup_map_id]
  exact declaresReachable_congr fun id =>
    mem_collected_iff (fun _ => mem_map_divided fun _ => rfl) huses

theorem Findings.MadeFrom.roots_eq (hf : f.MadeFrom s options model facts flow types)
    (hg : g.MadeFrom s options model facts flow types) : f.roots options = g.roots options := by
  obtain ⟨selection, controlFlow, returnTypes, references, c⟩ := f
  obtain ⟨selection', controlFlow', returnTypes', references', c'⟩ := g
  obtain ⟨rfl, rfl, rfl, hc⟩ := hf
  obtain ⟨rfl, rfl, rfl, hc'⟩ := hg
  cases hc.symm.trans hc'
  rfl

section Accepted

variable (hspan : s.region.span s.document = .ok s.finalSpan)
include hspan

/-- Facts about the region are facts about the final span. -/
theorem Model.Snapshot.states_iff : model.States s facts flow types ↔
    model.dataFlowOf s.document s.region = .ok facts ∧
      model.controlFlowOf s.document s.region = .ok flow ∧
      model.returnTypesOf s.document s.region = .ok types := by
  rw [dataFlowOf, controlFlowOf, returnTypesOf, lookup_eq hspan, lookup_eq hspan, lookup_eq hspan,
    ByRegion.answer_eq_ok_iff, ByRegion.answer_eq_ok_iff, ByRegion.answer_eq_ok_iff]
  constructor
  · rintro ⟨hfacts, hflow, htypes⟩
    exact ⟨hfacts, hflow, htypes⟩
  · rintro ⟨hfacts, hflow, htypes⟩
    exact ⟨hfacts, hflow, htypes⟩

/-- Each stage needs its own part of what the host must know. -/
theorem Selection.exists_gives_analyze_iff (hmodel : model.IsNumbered) :
    (∃ a, Gives (s.analyze model options) a) ↔
      ∃ facts flow types, model.Suffices s options facts flow types := by
  constructor
  · rintro ⟨a, ha⟩
    obtain ⟨facts, f, hstages⟩ := gives_analyze ha
    have hmade : f.MadeFrom s options model facts f.controlFlow f.returnTypes :=
      ⟨hstages.selection, rfl, rfl, Poll.answers_iff_run.mp hstages.classification⟩
    have hdeclared := (Findings.exists_gives_infer_iff hmodel).mp ⟨_, hstages.signature⟩
    refine ⟨facts, f.controlFlow, f.returnTypes, ?_, ?_, ?_, ?_⟩
    · exact (Snapshot.states_iff hspan).mpr
        ⟨hstages.dataFlow, hstages.controlFlow, hstages.returnTypes⟩
    · exact Boundary.exists_gives_classify_iff.mp ⟨_, hstages.classification⟩
    · exact exists_gives_references_iff.mp ⟨_, hstages.references⟩
    · intro g hg id hid
      rw [hg.roots_eq hmade] at hid
      exact hmodel.exists_typeParam?_iff.mpr (hdeclared id hid)
  · rintro ⟨facts, flow, types, hstates, hcandidates, hreferences, hparams⟩
    obtain ⟨hfacts, hflow, htypes⟩ := (Snapshot.states_iff hspan).mp hstates
    obtain ⟨c, hc⟩ := Boundary.exists_gives_classify_iff.mpr hcandidates
    obtain ⟨references, hreferences⟩ := exists_gives_references_iff.mpr hreferences
    have hmade : Findings.MadeFrom s options model facts flow types
        ⟨s, flow, types, references, c⟩ :=
      ⟨rfl, rfl, rfl, Poll.answers_iff_run.mp hc⟩
    have hdeclared : DeclaresReachable model.typeParams.values
        (Findings.roots ⟨s, flow, types, references, c⟩ options) :=
      fun id hid => hmodel.exists_typeParam?_iff.mp (hparams _ hmade id hid)
    obtain ⟨signature, hsignature⟩ := (Findings.exists_gives_infer_iff hmodel).mpr hdeclared
    have hstages : Analysis.Stages s model options facts ⟨s, flow, types, references, c⟩
        ⟨s.type, s.finalSpan, s.changed, signature, Findings.verdict _ options signature⟩ :=
      ⟨hfacts, hflow, htypes, hc, hreferences, rfl, hsignature, rfl⟩
    exact ⟨_, gives_analyze_of_stages hstages⟩

end Accepted

/-- Whatever a host wrote, the analysis of a selection ends well exactly if the host knows enough,
and with an error if not. An error in the classification is about the first candidate for which
something is missing. -/
theorem Selection.analyze_ends_iff {patience : Patience}
    (hs : Poll.run (d.classify span options').run patience = .ok (.ok s)) :
    ((∃ a, Poll.run (s.analyze (.ofWrites writes) options).run .unlimited = .ok (.ok a)) ↔
      ∃ facts flow types, (Snapshot.ofWrites writes).Suffices s options facts flow types) ∧
    ((¬ ∃ facts flow types, (Snapshot.ofWrites writes).Suffices s options facts flow types) →
      ∃ e, Poll.run (s.analyze (.ofWrites writes) options).run .unlimited = .ok (.error e)) ∧
    ∀ facts flow types e, (Snapshot.ofWrites writes).States s facts flow types →
      Poll.run (Boundary.classify s options (.ofWrites writes) facts).run .unlimited =
        .ok (.error e) →
      Poll.run (s.analyze (.ofWrites writes) options).run .unlimited = .ok (.error e) ∧
        LacksFirst s (.ofWrites writes) facts e := by
  have hspan := Document.span_region_of_classify hs
  have hiff : (∃ a, Gives (s.analyze (.ofWrites writes) options) a) ↔
      ∃ facts flow types, (Snapshot.ofWrites writes).Suffices s options facts flow types :=
    Selection.exists_gives_analyze_iff hspan Snapshot.isNumbered_ofWrites
  refine ⟨?_, ?_, ?_⟩
  · simp only [← Poll.answers_iff_run]
    exact hiff
  · intro hnot
    rcases Poll.gives_or_fails (y := s.analyze (.ofWrites writes) options) with hgives | ⟨e, he⟩
    · exact absurd (hiff.mp hgives) hnot
    · exact ⟨e, Poll.answers_iff_run.mp he⟩
  · intro facts flow types e hstates he
    obtain ⟨hfacts, hflow, htypes⟩ := (Snapshot.states_iff hspan).mp hstates
    have hfails : Fails (Boundary.classify s options (.ofWrites writes) facts) e :=
      Poll.answers_iff_run.mpr he
    have hanalyze := Selection.fails_analyze hfacts hflow htypes hfails
    exact ⟨Poll.answers_iff_run.mp hanalyze, Boundary.fails_classify_iff.mp hfails⟩

/-- A host that knows one candidate, has no type for the next, and does not know the last. -/
def writesOfMissing : List Write := [
  .symbol ⟨0, "x", .ordinaryLocal, some .int, none⟩, .symbol ⟨1, "y", .ordinaryLocal, none, none⟩,
  .dataFlow none (.ofList [(0, .ofFacts [.readInside]), (1, .ofFacts [.readInside]),
    (2, .ofFacts [.readInside])]),
  .controlFlow none {}, .returnTypes none {}]

/-- One host knows enough. The other is told of the type that is missing, which comes before the
symbol that is missing. -/
theorem ofAssignment_analyze_ends_iff : ∃ s : Selection,
    Poll.run (Document.ofAssignment.classify (.ofLength 17 4) {}).run .unlimited = .ok (.ok s) ∧
    (∃ facts flow types,
      (Snapshot.ofWrites writesOfConstraints).Suffices s {} facts flow types) ∧
    Poll.run (s.analyze (.ofWrites writesOfMissing) {}).run .unlimited =
      .ok (.error (.missingType 1 "y")) := by
  have h : (Document.ofAssignment.analyzed? (.ofLength 17 4) {}
      (.ofWrites writesOfConstraints)).map (fun r => r.1.isExpression) = some false := by
    decide +kernel
  obtain ⟨s, a, hs, ha, -⟩ := Document.exists_of_analyzed?_map h
  refine ⟨s, hs, (Selection.analyze_ends_iff hs).1.mp ⟨a, ha⟩, ?_⟩
  have hlacks : LacksFirst s (.ofWrites writesOfMissing) (.ofList [(0, .ofFacts [.readInside]),
      (1, .ofFacts [.readInside]), (2, .ofFacts [.readInside])]) (.missingType 1 "y") := by
    have hcross : Boundary.MayCross s ⟨1, "y", .ordinaryLocal, none, none⟩
        (.ofFacts [.readInside]) := ⟨rfl, by decide⟩
    refine ⟨[(0, .ofFacts [.readInside])], (1, .ofFacts [.readInside]),
      [(2, .ofFacts [.readInside])], rfl, ?_, .type rfl rfl hcross rfl⟩
    intro earlier hearlier e hlacks
    cases List.mem_singleton.mp hearlier
    cases hlacks with
    | symbol hc hnone => cases hnone
    | type hc hsymbol hcross hty =>
      cases hsymbol
      cases hty
  have hfails : Fails (Boundary.classify s {} (.ofWrites writesOfMissing) _) _ :=
    Boundary.fails_classify_iff.mpr hlacks
  exact ((Selection.analyze_ends_iff hs).2.2 _ {} {} _ ⟨rfl, rfl, rfl⟩
    (Poll.answers_iff_run.mp hfails)).1

end ExtractMethod
