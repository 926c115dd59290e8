import Mathlib.Data.List.Forall2
import ExtractMethod.Proofs.Analysis.Concern
import ExtractMethod.Proofs.Analysis.Exchange
import ExtractMethod.Proofs.Boundary.Rearranged

/-! An analysis does not depend on the order in which a host lists the candidates. Only the names of
the unresolved variables follow that order. -/
namespace ExtractMethod

open Boundary (Classification HasOneReceiver SameCandidates)
open ExtractMethod.Flow (DataFlow)
open Model (ByRegion Snapshot Write)
open Poll (Gives)

variable {s : Selection} {model : Snapshot} {options : Options} {facts facts' : DataFlow}
  {f : Findings} {c : Classification} {signature : Signature} {a : Analysis} {v v' w w' : Verdict}

/-- The same reason, or the same unresolved variables in another order. -/
inductive Reason.Alike : String → String → Prop where
  | same (reason : String) : Alike reason reason
  | reordered {names names' : List String} (h : names.Perm names') :
    Alike (Reason.unresolved names) (Reason.unresolved names')

/-- The verdicts agree, except for the order of the names in a reason. -/
structure Verdict.Agrees (v w : Verdict) : Prop where
  succeeded : v.succeeded = w.succeeded
  reasons : List.Forall₂ Reason.Alike v.reasons w.reasons

/-- The analyses have the same signature, and verdicts that agree. -/
structure Analysis.Agrees (a b : Analysis) : Prop where
  signature : a.signature = b.signature
  succeeded : a.succeeded = b.succeeded
  reasons : List.Forall₂ Reason.Alike a.verdict.reasons b.verdict.reasons

namespace Verdict

theorem Agrees.refl (v : Verdict) : v.Agrees v :=
  ⟨rfl, List.forall₂_same.mpr fun reason _ => .same reason⟩

theorem Agrees.and (h : v.Agrees w) (h' : v'.Agrees w') : (v.and v').Agrees (w.and w') := by
  refine ⟨?_, ?_⟩
  · rw [Verdict.and, Verdict.and, h.succeeded, h'.succeeded]
  · exact List.rel_append h.reasons h'.reasons

theorem agrees_warning {reason reason' : String} (h : Reason.Alike reason reason')
    (hreason : reason ≠ "") (hreason' : reason' ≠ "") :
    (warning reason).Agrees (warning reason') := by
  refine ⟨rfl, ?_⟩
  rw [warning, warning, because, because, if_neg hreason, if_neg hreason']
  exact .cons h .nil

/-- A concern that is the same on both sides. -/
theorem agrees_option (concern : Option Verdict) : Option.Rel Agrees concern concern := by
  cases concern with
  | none => exact .none
  | some v => exact .some (Agrees.refl v)

end Verdict

namespace Findings

/-- The same findings, with another classification. -/
def reclassified (f : Findings) (c : Classification) : Findings := { f with classification := c }

section Reclassified

variable (h : f.classification.Agrees c)
include h

/-- The signature is inferred from the parts of the classification that agree. -/
theorem infer_reclassified (env : List ParamDecl) :
    (f.reclassified c).infer env options = f.infer env options := by
  obtain ⟨selection, controlFlow, returnTypes, references, c'⟩ := f
  obtain ⟨crossing, unresolved, ignored, addressTaken, returnForced, receiver, used⟩ := c
  obtain ⟨crossing', unresolved', ignored', addressTaken', returnForced', receiver', used'⟩ := c'
  obtain ⟨rfl, -, -, rfl, rfl, rfl, rfl⟩ := h
  rfl

theorem unresolvedConcern?_reclassified :
    Option.Rel Verdict.Agrees f.unresolvedConcern? (f.reclassified c).unresolvedConcern? := by
  have hresolved : (f.reclassified c).classification.isResolved = f.classification.isResolved := by
    rw [Bool.eq_iff_iff, Classification.isResolved, Classification.isResolved,
      List.isEmpty_iff_length_eq_zero, List.isEmpty_iff_length_eq_zero, h.unresolved.length_eq]
    rfl
  rw [unresolvedConcern?, unresolvedConcern?, hresolved]
  split
  · exact .none
  · exact .some (Verdict.agrees_warning (.reordered (h.unresolved.map Prod.snd))
      (Reason.ne_empty_of_head (by simp)) (Reason.ne_empty_of_head (by simp)))

/-- Only the concern about unresolved variables sees the parts that differ. -/
theorem verdict_reclassified :
    (f.verdict options signature).Agrees ((f.reclassified c).verdict options signature) := by
  have haddress : (f.reclassified c).addressConcern? = f.addressConcern? := by
    rw [addressConcern?, addressConcern?, h.addressTaken]
    rfl
  have hconcerns : List.Forall₂ Verdict.Agrees (f.concerns options signature)
      ((f.reclassified c).concerns options signature) := by
    refine List.rel_filterMap (R := Option.Rel Verdict.Agrees) (fun _ _ hrel => hrel) ?_
    rw [haddress]
    refine .cons (Verdict.agrees_option _) (.cons (Verdict.agrees_option _) ?_)
    refine .cons (Verdict.agrees_option _) (.cons (Verdict.agrees_option _) ?_)
    refine .cons (unresolvedConcern?_reclassified h) (List.forall₂_same.mpr ?_)
    intro concern _
    exact Verdict.agrees_option concern
  exact List.rel_foldl (fun _ _ hv _ _ hw => hv.and hw) (Verdict.Agrees.refl _) hconcerns

end Reclassified

end Findings

/-- Data-flow facts in another order give the same signature, and a verdict that agrees. -/
theorem Selection.analyze_rearranged {table : ByRegion DataFlow} {patience : Patience}
    (hfacts : model.dataFlowOf s.document s.region = .ok facts)
    (hfacts' : { model with dataFlow := table }.dataFlowOf s.document s.region = .ok facts')
    (hsame : SameCandidates facts facts') (hone : HasOneReceiver model facts)
    (h : Poll.run (s.analyze model options).run patience = .ok (.ok a)) :
    ∃ b, Poll.run (s.analyze { model with dataFlow := table } options).run .unlimited =
      .ok (.ok b) ∧ a.Agrees b := by
  obtain ⟨found, f, hstages⟩ := gives_analyze (Poll.gives_of_run h)
  cases Except.ok.inj (hfacts.symm.trans hstages.dataFlow)
  obtain ⟨c, hc, hagrees⟩ :=
    Boundary.exists_gives_classify_agrees hsame hone hstages.classification
  have hverdict : (f.verdict options a.signature).Agrees
      ((f.reclassified c).verdict options a.signature) := Findings.verdict_reclassified hagrees
  have hb : Analysis.Stages s { model with dataFlow := table } options facts' (f.reclassified c)
      { a with verdict := (f.reclassified c).verdict options a.signature } := by
    refine ⟨hfacts', hstages.controlFlow, hstages.returnTypes, hc, hstages.references,
      hstages.selection, ?_, ?_⟩
    · rw [Findings.infer_reclassified hagrees]
      exact hstages.signature
    · rw [hstages.eq]
  refine ⟨_, Poll.answers_iff_run.mp (gives_analyze_of_stages hb), rfl, ?_, ?_⟩
  · rw [hstages.eq]
    exact hverdict.succeeded
  · rw [hstages.eq]
    exact hverdict.reasons

/-- A host that knows a variable, the receiver, and two variables whose facts contradict each
other. -/
def writesOfUnclear (facts : DataFlow) : List Write := [
  .symbol ⟨0, "x", .ordinaryLocal, some .int, none⟩, .symbol ⟨1, "this", .receiver, none, none⟩,
  .symbol ⟨2, "a", .ordinaryLocal, some .object, none⟩,
  .symbol ⟨3, "b", .ordinaryLocal, some .object, none⟩,
  .dataFlow none facts, .controlFlow none {}, .returnTypes none {}]

def unclearFacts : DataFlow := .ofList [
  (0, .ofFacts [.flowsIn, .readInside]), (1, .ofFacts [.readInside]),
  (2, .ofFacts [.declaredInside, .flowsOut]), (3, .ofFacts [.declaredInside, .flowsOut])]

/-- The same facts from last to first, and facts about a symbol that is no candidate. -/
def unclearFactsReversed : DataFlow := .ofList [
  (3, .ofFacts [.declaredInside, .flowsOut]), (4, .ofFacts [.readOutside]),
  (2, .ofFacts [.declaredInside, .flowsOut]), (1, .ofFacts [.readInside]),
  (0, .ofFacts [.flowsIn, .readInside])]

/-- Symbol 1 is the only receiver that the host knows. -/
theorem eq_one_of_isReceiverIn {id : Nat}
    (h : Boundary.IsReceiverIn (.ofWrites (writesOfUnclear unclearFacts)) unclearFacts id) :
    id = 1 := by
  have hall : ∀ entry ∈ (Snapshot.ofWrites (writesOfUnclear unclearFacts)).symbols.entries,
      entry.2.isThis → entry.1 = 1 := by decide
  obtain ⟨symbol, hsymbol, hthis⟩ := h.receiver
  exact hall (id, symbol) (Keyed.get?_eq_some_iff.mp hsymbol) hthis

/-- The analysis of the reversed facts agrees, although there are unresolved variables to name. -/
theorem ofAssignment_analyze_rearranged : ∃ (s : Selection) (a b : Analysis),
    Poll.run (s.analyze (.ofWrites (writesOfUnclear unclearFacts)) {}).run .unlimited =
      .ok (.ok a) ∧
    Poll.run (s.analyze (.ofWrites (writesOfUnclear unclearFactsReversed)) {}).run .unlimited =
      .ok (.ok b) ∧
    a.Agrees b ∧ a.signature.parameters.map Parameter.name = ["x"] ∧
    a.verdict.reasons = [Reason.unresolved ["a", "b"]] := by
  have h : (Document.ofAssignment.analyzed? (.ofLength 17 4) {}
      (.ofWrites (writesOfUnclear unclearFacts))).map (fun r =>
        (r.2.signature.parameters.map Parameter.name, r.2.verdict.reasons)) =
          some (["x"], [Reason.unresolved ["a", "b"]]) := by decide +kernel
  obtain ⟨s, a, hs, ha, hview⟩ := Document.exists_of_analyzed?_map h
  simp only [Prod.mk.injEq] at hview
  have hspan := Document.span_region_of_classify hs
  have hfacts (facts : DataFlow) : (Snapshot.ofWrites (writesOfUnclear facts)).dataFlowOf
      s.document s.region = .ok facts := by
    rw [Snapshot.dataFlowOf, Snapshot.lookup_eq hspan]
    exact ByRegion.answer_eq_ok_iff.mpr rfl
  have hsame : SameCandidates unclearFacts unclearFactsReversed := by
    unfold SameCandidates
    decide
  have hone : HasOneReceiver (.ofWrites (writesOfUnclear unclearFacts)) unclearFacts :=
    fun _ _ hid hid' => (eq_one_of_isReceiverIn hid).trans (eq_one_of_isReceiverIn hid').symm
  obtain ⟨b, hb, hagrees⟩ := Selection.analyze_rearranged (hfacts unclearFacts)
    (hfacts unclearFactsReversed) hsame hone ha
  exact ⟨s, a, b, ha, hb, hagrees, hview.1, hview.2⟩

end ExtractMethod
