import ExtractMethod.Proofs.Analysis.Stages
import ExtractMethod.Proofs.Selection.Legal

/-! Which values the new method takes from the code around it, and which it gives back. -/
namespace ExtractMethod

open Boundary (IsInput IsOutput Variable)
open ExtractMethod.Flow (DataFlow Flags Region)
open Model (Snapshot)
open Text (Range)

variable {d : Document} {span : Range} {s : Selection} {model : Snapshot} {options : Options}
  {a : Analysis} {patience : Patience}

/-- Some parameter has the value of the variable from the start. -/
def Signature.Takes (signature : Signature) (v : Variable) : Prop :=
  ∃ p ∈ signature.parameters, p.name = v.name ∧ p.ty = v.ty ∧
    (p.modifier = .none ∨ p.modifier = .ref)

/-- The variable is returned, or some parameter passes it on by reference. -/
def Signature.GivesBack (signature : Signature) (v : Variable) : Prop :=
  { v with isReturned := true } ∈ signature.returned ∨
    ∃ p ∈ signature.parameters, p.name = v.name ∧ p.ty = v.ty ∧
      (p.modifier = .ref ∨ p.modifier = .out)

/-- The method takes an input exactly if the input is not overwritten or is seen outside afterwards,
unless it also takes a variable with the same name and the same type. -/
theorem Selection.analyze_takes
    (h : Poll.run (s.analyze model options).run patience = .ok (.ok a)) :
    ∃ facts c, model.dataFlowOf s.document s.region = .ok facts ∧
      Poll.run (Boundary.classify s options model facts).run .unlimited = .ok (.ok c) ∧
      ∀ v ∈ c.crossing.values, ∃ raw, facts.get? v.symbol = some raw ∧
        (IsInput raw → (a.signature.Takes v ↔ (raw.writtenInside → raw.flowsOut) ∨
          ∃ w ∈ c.crossing.values, w.symbol ≠ v.symbol ∧ w.name = v.name ∧ w.ty = v.ty ∧
            w.style.BringsIn)) := by
  obtain ⟨facts, c, promoted, hfacts, hc, hdivides, hmade⟩ := Selection.exists_classification h
  refine ⟨facts, c, hfacts, Poll.answers_iff_run.mp hc, ?_⟩
  intro v hv
  obtain ⟨raw, symbol, ty, hraw, hmade⟩ := hmade v hv
  refine ⟨raw, hraw, ?_⟩
  intro hi
  rw [← hmade.bringsIn_iff hi]
  constructor
  · rintro ⟨p, hp, hname, hty, hmodifier⟩
    obtain ⟨w, hw, hparameter⟩ := hdivides.mem_parameters.mp hp
    obtain ⟨hname', hty', hbrings⟩ := of_parameter?_eq_some hparameter
    have hbrings := hbrings (by rcases hmodifier with hm | hm <;> simp [hm])
    by_cases hsymbol : w.symbol = v.symbol
    · rw [← Boundary.eq_of_mem_crossing hc hw hv hsymbol]
      exact Or.inl hbrings
    · exact Or.inr ⟨w, hw, hsymbol, hname' ▸ hname, hty' ▸ hty, hbrings⟩
  · rintro (hbrings | ⟨w, hw, -, hname, hty, hbrings⟩)
    · exact hdivides.exists_parameter_of_input hv hbrings
    · rw [Signature.Takes, ← hname, ← hty]
      exact hdivides.exists_parameter_of_input hw hbrings

/-- What a span selects and its analysis, for a host that never loses its patience. -/
def Document.analyzed? (d : Document) (span : Range) (options : Options) (model : Snapshot) :
    Option (Selection × Analysis) := do
  let s ← (d.select span options).toOption
  let result ← (Poll.run (s.analyze model options).run .unlimited).toOption
  pure (s, ← result.toOption)

theorem Document.exists_of_analyzed?_map {α : Type} {view : Selection × Analysis → α} {x : α}
    (h : (d.analyzed? span options model).map view = some x) :
    ∃ s a, Poll.run (d.classify span options).run .unlimited = .ok (.ok s) ∧
      Poll.run (s.analyze model options).run .unlimited = .ok (.ok a) ∧ view (s, a) = x := by
  obtain ⟨⟨s, a⟩, hsa, hview⟩ := Option.map_eq_some_iff.mp h
  simp only [analyzed?, Option.bind_eq_bind, Option.bind_eq_some_iff, Option.pure_def,
    Option.some.injEq, Prod.mk.injEq] at hsa
  obtain ⟨s, hs, result, hresult, a, ha, rfl, rfl⟩ := hsa
  cases Poll.eq_ok_of_toOption ha
  exact ⟨s, a, run_of_select (Poll.eq_ok_of_toOption hs), Poll.eq_ok_of_toOption hresult, hview⟩

/-- A method that assigns a variable to itself. -/
def Document.ofAssignment : Document := .ofStatements [.node .expressionStatement [
  .node .assignmentExpression [
    .node .nameExpression [.token .identifier "x"], .token .eq "=",
    .node .nameExpression [.token .identifier "x"]],
  .token .semicolon ";"]]

/-- A host that knows one variable and states the same facts about it everywhere. -/
def Model.Snapshot.ofFlags (flags : Flags) : Snapshot := .ofWrites [
  .symbol ⟨0, "x", .ordinaryLocal, some .int, none⟩, .dataFlow none (.ofList [(0, flags)]),
  .controlFlow none {}, .returnTypes none {}]

theorem Model.Snapshot.dataFlowOf_ofFlags {flags : Flags} {region : Region} {facts : DataFlow}
    (h : (ofFlags flags).dataFlowOf d region = .ok facts) : facts = .ofList [(0, flags)] := by
  rw [dataFlowOf, lookup] at h
  split at h
  · cases h
  · cases h
    rfl

/-- A variable that is only read is taken. -/
theorem ofAssignment_analyze_takes : ∃ s a facts c,
    Poll.run (s.analyze (.ofFlags (.ofFacts [.flowsIn, .readInside])) {}).run .unlimited =
      .ok (.ok a) ∧
    Poll.run (Boundary.classify s {} (.ofFlags (.ofFacts [.flowsIn, .readInside])) facts).run
      .unlimited = .ok (.ok c) ∧
    a.signature.parameters.map Parameter.name = ["x"] ∧
    ∀ v ∈ c.crossing.values, a.signature.Takes v := by
  have h : (Document.ofAssignment.analyzed? (.ofLength 17 4) {}
      (.ofFlags (.ofFacts [.flowsIn, .readInside]))).map
        (fun r => r.2.signature.parameters.map Parameter.name) = some ["x"] := by decide +kernel
  obtain ⟨s, a, -, ha, hparameters⟩ := Document.exists_of_analyzed?_map h
  obtain ⟨facts, c, hfacts, hc, htakes⟩ := Selection.analyze_takes ha
  refine ⟨s, a, facts, c, ha, hc, hparameters, ?_⟩
  intro v hv
  obtain ⟨raw, hraw, hiff⟩ := htakes v hv
  rw [Snapshot.dataFlowOf_ofFlags hfacts, Keyed.get?_eq_some_iff] at hraw
  have heq : raw = .ofFacts [.flowsIn, .readInside] :=
    congrArg Prod.snd (List.mem_singleton.mp hraw)
  subst heq
  exact (hiff ⟨rfl, rfl, by decide⟩).mpr (Or.inl (by decide))

/-- A variable that is read, overwritten and then seen by nobody is not taken, although its value
comes from outside. -/
theorem ofAssignment_input_lost : ∃ s a facts c v raw,
    Poll.run (Document.ofAssignment.classify (.ofLength 17 4) {}).run .unlimited = .ok (.ok s) ∧
    Poll.run (s.analyze (.ofFlags (.ofFacts [.flowsIn, .readInside, .writtenInside])) {}).run
      .unlimited = .ok (.ok a) ∧
    Poll.run (Boundary.classify s {}
      (.ofFlags (.ofFacts [.flowsIn, .readInside, .writtenInside])) facts).run .unlimited =
        .ok (.ok c) ∧
    v ∈ c.crossing.values ∧ facts.get? v.symbol = some raw ∧ IsInput raw ∧
    ¬ a.signature.Takes v := by
  have h : (Document.ofAssignment.analyzed? (.ofLength 17 4) {}
      (.ofFlags (.ofFacts [.flowsIn, .readInside, .writtenInside]))).map
        (fun r => (r.2.signature.passed.map Variable.symbol, r.2.signature.parameters.length)) =
          some ([0], 0) := by decide +kernel
  obtain ⟨s, a, hs, ha, hview⟩ := Document.exists_of_analyzed?_map h
  simp only [Prod.mk.injEq, List.length_eq_zero_iff] at hview
  obtain ⟨hpassed, hparameters⟩ := hview
  obtain ⟨facts, c, promoted, hfacts, hc, hdivides, -⟩ := Selection.exists_classification ha
  obtain ⟨v, hv, hsymbol⟩ : ∃ v ∈ a.signature.passed, v.symbol = 0 := by
    rw [← List.mem_map, hpassed]
    exact List.mem_singleton.mpr rfl
  rw [hdivides.passed] at hv
  refine ⟨s, a, facts, c, v, .ofFacts [.flowsIn, .readInside, .writtenInside], hs, ha,
    Poll.answers_iff_run.mp hc, (List.mem_filter.mp hv).1, ?_, ⟨rfl, rfl, by decide⟩, ?_⟩
  · rw [Snapshot.dataFlowOf_ofFlags hfacts, hsymbol]
    rfl
  · rintro ⟨p, hp, -⟩
    rw [hparameters] at hp
    cases hp

/-- The method gives back every output, whatever is selected and whichever outputs are returned. -/
theorem Selection.analyze_givesBack
    (h : Poll.run (s.analyze model options).run patience = .ok (.ok a)) :
    ∃ facts c, model.dataFlowOf s.document s.region = .ok facts ∧
      Poll.run (Boundary.classify s options model facts).run .unlimited = .ok (.ok c) ∧
      ∀ v ∈ c.crossing.values, ∃ raw symbol, facts.get? v.symbol = some raw ∧
        model.symbol? v.symbol = some symbol ∧
        (IsOutput (Boundary.adjust raw symbol.isStaticLocal) → a.signature.GivesBack v) := by
  obtain ⟨facts, c, promoted, hfacts, hc, hdivides, hmade⟩ := Selection.exists_classification h
  refine ⟨facts, c, hfacts, Poll.answers_iff_run.mp hc, ?_⟩
  intro v hv
  obtain ⟨raw, symbol, ty, hraw, hmade⟩ := hmade v hv
  refine ⟨raw, symbol, hraw, hmade.symbol_eq, ?_⟩
  intro ho
  exact hdivides.returned_or_exists_parameter hv (hmade.canBeReturned ho)

/-- A variable that is written and flows out is the result. -/
theorem ofAssignment_analyze_givesBack : ∃ s a facts c,
    Poll.run (s.analyze (.ofFlags (.ofFacts [.flowsOut, .writtenInside])) {}).run .unlimited =
      .ok (.ok a) ∧
    Poll.run (Boundary.classify s {} (.ofFlags (.ofFacts [.flowsOut, .writtenInside])) facts).run
      .unlimited = .ok (.ok c) ∧
    a.signature.returned.map Variable.name = ["x"] ∧
    ∀ v ∈ c.crossing.values, a.signature.GivesBack v := by
  have h : (Document.ofAssignment.analyzed? (.ofLength 17 4) {}
      (.ofFlags (.ofFacts [.flowsOut, .writtenInside]))).map
        (fun r => r.2.signature.returned.map Variable.name) = some ["x"] := by decide +kernel
  obtain ⟨s, a, -, ha, hreturned⟩ := Document.exists_of_analyzed?_map h
  obtain ⟨facts, c, hfacts, hc, hgives⟩ := Selection.analyze_givesBack ha
  refine ⟨s, a, facts, c, ha, hc, hreturned, ?_⟩
  intro v hv
  obtain ⟨raw, symbol, hraw, -, hback⟩ := hgives v hv
  rw [Snapshot.dataFlowOf_ofFlags hfacts, Keyed.get?_eq_some_iff] at hraw
  have heq : raw = .ofFacts [.flowsOut, .writtenInside] :=
    congrArg Prod.snd (List.mem_singleton.mp hraw)
  subst heq
  exact hback ⟨rfl, Or.inl rfl⟩

end ExtractMethod
