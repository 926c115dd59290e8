import ExtractMethod.Analysis.Basic
import ExtractMethod.Proofs.Boundary.Judgements
import ExtractMethod.Proofs.Signature.Infer

/-! What an analysis that ended says about each of its stages. -/
namespace ExtractMethod

open ExtractMethod.Flow (DataFlow)
open Model (FactsError Snapshot)
open Poll (Gives Steady)

variable {s : Selection} {model : Snapshot} {options : Options} {a : Analysis} {α : Type}
  {answer : Except FactsError α} {x : α}

/-- The host knew the facts about the region, and the signature was inferred from the findings that
were made of them. -/
structure Analysis.Stages (s : Selection) (model : Snapshot) (options : Options)
    (facts : DataFlow) (f : Findings) (a : Analysis) : Prop where
  dataFlow : model.dataFlowOf s.document s.region = .ok facts
  controlFlow : model.controlFlowOf s.document s.region = .ok f.controlFlow
  returnTypes : model.returnTypesOf s.document s.region = .ok f.returnTypes
  classification : Gives (Boundary.classify s options model facts) f.classification
  references : Gives (s.references model) f.references
  selection : f.selection = s
  signature : Gives (f.infer model.typeParams.values options) a.signature
  eq : a = ⟨s.type, s.finalSpan, s.changed, a.signature, f.verdict options a.signature⟩

instance (answer : Except FactsError α) : Steady (ofFacts answer).run := by
  simp only [ofFacts]
  infer_instance

theorem gives_ofFacts : Gives (ofFacts answer) x ↔ answer = .ok x := by
  rw [ofFacts, Poll.gives_mk]
  cases answer <;> simp [Except.mapError]

instance : Steady (s.references model).run := by
  simp only [Selection.references]
  infer_instance

theorem Selection.gives_analyze (h : Gives (s.analyze model options) a) :
    ∃ facts f, a.Stages s model options facts f := by
  simp only [analyze] at h
  simp only [Poll.gives_bind, gives_ofFacts, Poll.gives_pure] at h
  obtain ⟨_, _, facts, hfacts, controlFlow, hcontrol, returnTypes, hreturn, c, hc, references,
    hreferences, signature, hsignature, rfl⟩ := h
  exact ⟨facts, ⟨s, controlFlow, returnTypes, references, c⟩, hfacts, hcontrol, hreturn, hc,
    hreferences, rfl, hsignature, rfl⟩

/-- Stages that all ended make an analysis. -/
theorem Selection.gives_analyze_of_stages {facts : DataFlow} {f : Findings}
    (h : a.Stages s model options facts f) : Gives (s.analyze model options) a := by
  obtain ⟨hfacts, hcontrol, hreturn, hc, hreferences, hs, hsignature, heq⟩ := h
  obtain ⟨selection, controlFlow, returnTypes, references, c⟩ := f
  cases hs
  simp only [analyze]
  simp only [Poll.gives_bind, gives_ofFacts, Poll.gives_pure]
  exact ⟨(), Poll.gives_liftM.mpr Poll.answers_ask, facts, hfacts, controlFlow, hcontrol,
    returnTypes, hreturn, c, hc, references, hreferences, a.signature, hsignature, heq.symm⟩

/-- An error of the classification is the error of the whole analysis. -/
theorem Selection.fails_analyze {facts : DataFlow} {controlFlow : Flow.ControlFlow}
    {returnTypes : Flow.ReturnTypes} {e : AnalysisError}
    (hfacts : model.dataFlowOf s.document s.region = .ok facts)
    (hcontrol : model.controlFlowOf s.document s.region = .ok controlFlow)
    (hreturn : model.returnTypesOf s.document s.region = .ok returnTypes)
    (hc : Poll.Fails (Boundary.classify s options model facts) e) :
    Poll.Fails (s.analyze model options) e := by
  simp only [analyze]
  refine Poll.fails_bind.mpr (Or.inr ⟨(), Poll.gives_liftM.mpr Poll.answers_ask, ?_⟩)
  refine Poll.fails_bind.mpr (Or.inr ⟨facts, gives_ofFacts.mpr hfacts, ?_⟩)
  refine Poll.fails_bind.mpr (Or.inr ⟨controlFlow, gives_ofFacts.mpr hcontrol, ?_⟩)
  refine Poll.fails_bind.mpr (Or.inr ⟨returnTypes, gives_ofFacts.mpr hreturn, ?_⟩)
  exact Poll.fails_bind.mpr (Or.inl hc)

instance : Steady (s.analyze model options).run := by
  simp only [Selection.analyze]
  infer_instance

/-- An analysis that ended divides the variables of one classification of the facts. Every variable
was made of the facts about its own symbol. -/
theorem Selection.exists_classification {patience : Patience}
    (h : Poll.run (s.analyze model options).run patience = .ok (.ok a)) :
    ∃ facts c promoted, model.dataFlowOf s.document s.region = .ok facts ∧
      Gives (Boundary.classify s options model facts) c ∧
      a.signature.Divides c.crossing.values promoted ∧
      ∀ v ∈ c.crossing.values, ∃ raw symbol ty, facts.get? v.symbol = some raw ∧
        Boundary.MadeOf s options model raw symbol ty v := by
  obtain ⟨facts, f, hstages⟩ := gives_analyze (Poll.gives_of_run h)
  have hordered := Boundary.pairwise_precedes_of_classify hstages.classification
  refine ⟨facts, f.classification, (f.result options).promoted, hstages.dataFlow,
    hstages.classification, (gives_infer hstages.signature).divides hordered, ?_⟩
  intro v hv
  exact Boundary.exists_madeOf_of_mem_crossing hstages.classification hv

end ExtractMethod
