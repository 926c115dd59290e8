import ExtractMethod.Document.Basic

/-! A document comes of a balanced sequence of events, and of no other. Of a sequence that is not
balanced the first event that does not fit is reported, whatever comes after it. -/
namespace ExtractMethod

open ExtractMethod.Tree

namespace Document

/-- The answer to events: a report, or else the document of a root that comes of just these
events. -/
inductive Concludes (events : List Event) : Except BuildError Document → Prop where
  | report {e : BuildError} (reported : IsReported events e) : Concludes events (.error e)
  | document {d : Document} {root : Root} (laid : root.IsLaidOut d.nodes d.tokens d.text)
      (faultless : IsFaultless events) (events_eq : root.element.events = events) :
    Concludes events (.ok d)

theorem concludes_ofEvents (events : List Event) (version : Version) :
    Concludes events (ofEvents events version) := by
  have hanswer := Builder.concludes_ofEvents events
  simp only [ofEvents]
  split
  · next e herror =>
    cases hanswer with
    | report hsome hreported =>
      cases herror.symm.trans hsome
      exact .report hreported
    | root hfinishes _ _ => cases herror.symm.trans hfinishes.error?_eq
  · next hnone =>
    cases hanswer with
    | report hsome _ => cases hnone.symm.trans hsome
    | root hfinishes hfaultless hevents => exact .document hfinishes.laid hfaultless hevents

/-- The events of a tree describe just its document. -/
theorem ofEvents_events (root : Root) (version : Version) :
    ofEvents root.element.events version = .ok (ofRoot root version) := by
  have hfinishes := Builder.finishes_events root
  simp only [ofEvents]
  split
  · next e herror => cases herror.symm.trans hfinishes.error?_eq
  · simp only [hfinishes.laid.nodes_eq, hfinishes.laid.tokens_eq, hfinishes.laid.text_eq]
    rfl

end Document

/-- A document comes of a sequence of events exactly if the sequence is balanced. Otherwise it is
reported what is wrong with the first event that does not fit, whatever follows it, or which node
stays open, or that there is no root. -/
theorem Document.ofEvents_judges (events : List Event) (version : Version) :
    ((∃ d, Document.ofEvents events version = .ok d) ↔ IsBalanced events) ∧
      ∀ e, Document.ofEvents events version = .error e ↔ IsReported events e := by
  have hanswer := concludes_ofEvents events version
  generalize Document.ofEvents events version = answer at hanswer
  cases hanswer with
  | report h =>
    refine ⟨iff_of_false (by simp) h.not_isBalanced, fun e' => ?_⟩
    constructor
    · rintro ⟨⟩
      exact h
    · intro h'
      rw [h.unique h']
  | @document d root hlaid hfaultless hevents =>
    subst hevents
    have hbalanced := root.isBalanced_events hfaultless
    refine ⟨iff_of_true ⟨_, rfl⟩ hbalanced, fun e' => ?_⟩
    exact iff_of_false (by simp) fun h => h.not_isBalanced hbalanced

/-- Only the first of two faults is reported: the token outside of the node, and not the second
root. -/
example : (Builder.ofEvents [.start (.node .block), .finish, .token (.token .semicolon) ";",
    .start (.node .block)]).error? = some .tokenOutsideNode := rfl

end ExtractMethod
