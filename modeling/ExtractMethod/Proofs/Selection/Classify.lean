import ExtractMethod.Proofs.Document.Lookup
import ExtractMethod.Proofs.Selection.Expression
import ExtractMethod.Proofs.Selection.Run
import ExtractMethod.Proofs.Verdict
import ExtractMethod.Selection.Classify

/-! What a selection that was found says about each stage of the search. -/
namespace ExtractMethod

open ExtractMethod.Flow (Region)
open Poll (Answers Gives Steady)
open Text (Range)

/-- Two significant tokens of the document, in order. -/
structure Document.TokenPair (d : Document) (first last : Nat) : Prop where
  hasToken_first : d.hasToken first
  hasToken_last : d.hasToken last
  isSignificant_first : d.isSignificant first
  isSignificant_last : d.isSignificant last
  first_le_last : first ≤ last

/-- Nothing is noted about the target, or that it was widened to a whole loop. -/
def Verdict.IsTargetNote (notes : Verdict) : Prop :=
  notes = .ok ∨ notes = .warning Reason.loopWidened

theorem Verdict.isTargetNote_of_widened (widened : Bool) :
    (if widened then .warning Reason.loopWidened else .ok : Verdict).IsTargetNote := by
  cases widened with
  | true => exact Or.inr rfl
  | false => exact Or.inl rfl

theorem Verdict.IsTargetNote.succeeded {notes : Verdict} (h : notes.IsTargetNote) :
    notes.succeeded := by
  rcases h with rfl | rfl <;> rfl

theorem Verdict.IsTargetNote.eq_loopWidened {notes : Verdict} {reason : String}
    (h : notes.IsTargetNote) (hreason : reason ∈ notes.reasons) : reason = Reason.loopWidened := by
  rcases h with rfl | rfl
  · cases hreason
  · exact (mem_reasons_because.mp hreason).1

/-- The target is an expression that goes from one end of the bounds to the other. -/
structure Target.OfExpression (b : Bounds) (e : Nat) (t : Target) : Prop where
  region : t.region = .expression e
  root : t.root = e
  firstToken : t.firstToken = b.firstToken
  lastToken : t.lastToken = b.lastToken
  notes : t.notes.IsTargetNote

/-- The target consists of the statements of a run. -/
structure Target.OfRun (d : Document) (r : Run) (t : Target) : Prop where
  region : t.region = .statements r.first r.last
  root : t.root = r.container
  firstToken : d.firstToken? r.first = some t.firstToken
  lastToken : d.lastToken? r.last = some t.lastToken
  notes : t.notes.IsTargetNote

/-- The stages through which the selection was found: the bounds of the span, the lowest node around
them, and the target in the scope of that node. -/
structure Selection.Stages (d : Document) (span : Range) (options : Options) (b : Bounds)
    (common : Nat) (t : Target) (own : List Nat) (s : Selection) : Prop where
  bounds_eq : d.bounds span = .ok b
  gives_surroundings : Gives (d.surroundings b.firstToken b.lastToken) (common, s.scope)
  gives_target : Gives (d.target options.allowExpansion common s.scope b) t
  noErrors : ¬ d.hasErrorsIn s.finalSpan
  noCutDirectives : ¬ d.cutsDirectives s.finalSpan
  answers_own : Answers (d.ownNodes t.region) own
  noYield : ¬ own.any d.isYield
  eq : s = {
    document := d
    requestedSpan := span
    finalSpan := d.tokenSpan t.firstToken t.lastToken
    changed := t.firstToken ≠ b.firstToken || t.lastToken ≠ b.lastToken
    firstToken := t.firstToken
    lastToken := t.lastToken
    scope := s.scope
    root := t.root
    region := t.region
    facts := d.factsOf s.scope own
    notes := t.notes
    allowExpansion := options.allowExpansion }

namespace Document

variable {d : Document} {span : Range} {options : Options} {s : Selection} {scope : Scope}
  {b : Bounds} {t : Target} {common first last n : Nat} {allowExpansion : Bool} {region : Region}

theorem bounds_eq_ok (h : d.bounds span = .ok b) : d.TokenPair b.firstToken b.lastToken := by
  rw [bounds] at h
  split at h
  · cases h
  · dsimp only at h
    split at h
    · next first last hfirst hlast =>
      split at h
      · cases h
      · next hle =>
        cases h
        obtain ⟨hf, hsf⟩ := tokenOnRight?_eq_some hfirst
        obtain ⟨hl, hsl⟩ := tokenOnLeft?_eq_some hlast
        exact ⟨hf, hl, hsf, hsl, Nat.le_of_not_lt hle⟩
    · cases h

theorem gives_requireScope : Gives (d.requireScope n) scope ↔ d.scopeOf? n = some scope := by
  simp only [requireScope]
  simp only [Poll.gives_bind, Poll.gives_liftM]
  constructor
  · rintro ⟨found, hfound, h⟩
    cases hfound.unique (d.answers_innermostScope n)
    cases hs : d.scopeOf? n with
    | none =>
      rw [hs] at h
      cases Poll.not_gives_throw h
    | some found =>
      rw [hs] at h
      rw [Poll.gives_pure.mp h]
  · intro h
    refine ⟨_, d.answers_innermostScope n, ?_⟩
    rw [h]
    exact Poll.gives_pure.mpr rfl

instance : Steady (d.requireScope n).run := by
  simp only [requireScope]
  refine Poll.steady_run_bind inferInstance fun _ => ?_
  split <;> infer_instance

instance : Steady (d.surroundings first last).run := by
  simp only [surroundings]
  refine Poll.steady_run_bind inferInstance fun _ => ?_
  refine Poll.steady_run_bind inferInstance fun _ => ?_
  refine Poll.steady_run_bind inferInstance fun _ => ?_
  split <;> infer_instance

/-- The surroundings are the lowest node around both tokens, which lies in a type, and the scope of
that node. The tokens have scopes as well. -/
theorem gives_surroundings_iff : Gives (d.surroundings first last) (common, scope) ↔
    (∃ scope, d.scopeOf? (d.token first).parent = some scope) ∧
      (∃ scope, d.scopeOf? (d.token last).parent = some scope) ∧
      d.commonAncestorOfTokens? first last = some common ∧
      (d.ancestors common).any (fun n => (d.kind n).isTypeDeclaration) ∧
      d.scopeOf? common = some scope := by
  simp only [surroundings]
  simp only [Poll.gives_bind, gives_requireScope, Poll.gives_liftM]
  constructor
  · rintro ⟨_, _, outer, houter, outer', houter', h⟩
    refine ⟨⟨outer, houter⟩, ⟨outer', houter'⟩, ?_⟩
    split at h
    · cases Poll.not_gives_throw h
    · next n hn =>
      split at h
      · next htype =>
        simp only [Poll.gives_bind, gives_requireScope, Poll.gives_pure, Prod.mk.injEq] at h
        obtain ⟨_, hscope, rfl, rfl⟩ := h
        exact ⟨hn, htype, hscope⟩
      · cases Poll.not_gives_throw h
  · rintro ⟨⟨outer, houter⟩, ⟨outer', houter'⟩, hcommon, htype, hscope⟩
    refine ⟨(), Poll.answers_ask, outer, houter, outer', houter', ?_⟩
    simp only [hcommon, htype, if_true, Poll.gives_bind, gives_requireScope, Poll.gives_pure]
    exact ⟨scope, hscope, rfl⟩

instance : Steady (d.statementTarget allowExpansion scope b).run := by
  unfold statementTarget
  extract_lets finish
  have (found : Option Run) : Steady (finish found).run := by
    simp only [finish]
    split
    · infer_instance
    · split <;> infer_instance
  infer_instance

/-- The statements of a target are those of the run that one of the searches found, widened to the
whole of a loop. What was left out of the loop before is noted. -/
theorem gives_statementTarget_iff : Gives (d.statementTarget allowExpansion scope b) t ↔
    ∃ run, Answers (if allowExpansion then d.smallestRun scope b.firstToken b.lastToken
        else d.largestRun scope b.span) (some run) ∧ t.OfRun d (d.widenLoop run).1 ∧
      t.notes = if (d.widenLoop run).2 then .warning Reason.loopWidened else .ok := by
  unfold statementTarget
  extract_lets finish
  have hfinish {found : Option Run} : Gives (finish found) t ↔ ∃ run, found = some run ∧
      t.OfRun d (d.widenLoop run).1 ∧
      t.notes = if (d.widenLoop run).2 then .warning Reason.loopWidened else .ok := by
    simp only [finish]
    cases found with
    | none => simp
    | some run =>
      simp only [Option.some.injEq, exists_eq_left']
      split
      · next first last hfirst hlast =>
        rw [Poll.gives_pure]
        constructor
        · rintro rfl
          exact ⟨⟨rfl, rfl, hfirst, hlast, Verdict.isTargetNote_of_widened _⟩, rfl⟩
        · rintro ⟨⟨hregion, hroot, hfirst', hlast', -⟩, hnotes⟩
          cases hfirst.symm.trans hfirst'
          cases hlast.symm.trans hlast'
          cases t
          simp_all
      · next hnone =>
        refine iff_of_false Poll.not_gives_throw ?_
        rintro ⟨⟨-, -, hfirst, hlast, -⟩, -⟩
        exact hnone _ _ hfirst hlast
  have hsearch (x : Poll (Option Run)) [Steady x] : Gives (liftM x >>= finish) t ↔
      ∃ run, Answers x (some run) ∧ t.OfRun d (d.widenLoop run).1 ∧
        t.notes = if (d.widenLoop run).2 then .warning Reason.loopWidened else .ok := by
    simp only [Poll.gives_bind, Poll.gives_liftM, hfinish]
    constructor
    · rintro ⟨_, hfound, run, rfl, ht⟩
      exact ⟨run, hfound, ht⟩
    · rintro ⟨run, hfound, ht⟩
      exact ⟨_, hfound, run, rfl, ht⟩
  cases allowExpansion with
  | true =>
    simp only [if_true]
    exact hsearch (d.smallestRun scope b.firstToken b.lastToken)
  | false =>
    simp only [Bool.false_eq_true, if_false]
    exact hsearch (d.largestRun scope b.span)

theorem gives_statementTarget (h : Gives (d.statementTarget allowExpansion scope b) t) :
    ∃ run, Answers (if allowExpansion then d.smallestRun scope b.firstToken b.lastToken
        else d.largestRun scope b.span) (some run) ∧ t.OfRun d (d.widenLoop run).1 := by
  obtain ⟨run, hrun, ht, -⟩ := gives_statementTarget_iff.mp h
  exact ⟨run, hrun, ht⟩

instance : Steady (d.target allowExpansion common scope b).run := by
  simp only [target]
  refine Poll.steady_run_bind inferInstance fun _ => ?_
  split <;> infer_instance

/-- The target is the expression over the bounds if there is one that passes the checks, and some
statements if there is none. -/
theorem gives_target_iff : Gives (d.target allowExpansion common scope b) t ↔
    (∃ e, Answers (d.expressionOver scope common b.firstToken b.lastToken) (some e) ∧
      Gives (d.checkExpression scope e) () ∧
      t = ⟨.expression e, e, b.firstToken, b.lastToken, .ok⟩) ∨
    Answers (d.expressionOver scope common b.firstToken b.lastToken) none ∧
      Gives (d.statementTarget allowExpansion scope b) t := by
  simp only [target]
  simp only [Poll.gives_bind, Poll.gives_liftM]
  constructor
  · rintro ⟨found, hfound, h⟩
    cases found with
    | none => exact Or.inr ⟨hfound, h⟩
    | some e =>
      simp only [Poll.gives_bind, Poll.gives_pure] at h
      obtain ⟨_, hcheck, rfl⟩ := h
      exact Or.inl ⟨e, hfound, hcheck, rfl⟩
  · rintro (⟨e, hfound, hcheck, rfl⟩ | ⟨hfound, h⟩)
    · refine ⟨some e, hfound, ?_⟩
      simp only [Poll.gives_bind, Poll.gives_pure]
      exact ⟨(), hcheck, trivial⟩
    · exact ⟨none, hfound, h⟩

theorem gives_target (h : Gives (d.target allowExpansion common scope b) t) :
    (∃ e, Answers (d.expressionOver scope common b.firstToken b.lastToken) (some e) ∧
      t.OfExpression b e) ∨
    Gives (d.statementTarget allowExpansion scope b) t := by
  rcases gives_target_iff.mp h with ⟨e, he, -, rfl⟩ | ⟨-, h⟩
  · exact Or.inl ⟨e, he, rfl, rfl, rfl, rfl, Or.inl rfl⟩
  · exact Or.inr h

instance : Steady (d.ownNodes region) := by
  simp only [ownNodes]
  infer_instance

instance : Steady (d.classify span options).run := by
  rw [classify]
  infer_instance

theorem gives_classify_iff : Gives (d.classify span options) s ↔
    ∃ b common t own, s.Stages d span options b common t own := by
  simp only [classify]
  simp only [Poll.gives_bind, Poll.gives_mk, Poll.gives_check, Poll.gives_liftM,
    Poll.gives_pure]
  constructor
  · rintro ⟨b, hb, ⟨common, scope⟩, hsurroundings, t, ht, herrors, hcut, own, hown, hyield, rfl⟩
    exact ⟨b, common, t, own, hb, hsurroundings, ht, herrors, hcut, hown, hyield, rfl⟩
  · rintro ⟨b, common, t, own, hb, hsurroundings, ht, herrors, hcut, hown, hyield, heq⟩
    have hspan : s.finalSpan = d.tokenSpan t.firstToken t.lastToken :=
      congrArg Selection.finalSpan heq
    rw [hspan] at herrors hcut
    exact ⟨b, hb, (common, s.scope), hsurroundings, t, ht, herrors, hcut, own, hown, hyield,
      heq.symm⟩

theorem exists_stages {patience : Patience}
    (h : Poll.run (d.classify span options).run patience = .ok (.ok s)) :
    ∃ b common t own, s.Stages d span options b common t own :=
  gives_classify_iff.mp (Poll.gives_of_run h)

theorem isTargetNote_notes {patience : Patience}
    (h : Poll.run (d.classify span options).run patience = .ok (.ok s)) : s.notes.IsTargetNote := by
  obtain ⟨b, common, t, own, hstages⟩ := exists_stages h
  rw [hstages.eq]
  rcases gives_target hstages.gives_target with ⟨e, -, ht⟩ | hgives
  · exact ht.notes
  · obtain ⟨run, -, ht⟩ := gives_statementTarget hgives
    exact ht.notes

theorem document_of_classify {patience : Patience}
    (h : Poll.run (d.classify span options).run patience = .ok (.ok s)) : s.document = d := by
  obtain ⟨b, common, t, own, hstages⟩ := exists_stages h
  rw [hstages.eq]

theorem run_of_select (h : d.select span options = .ok s) :
    Poll.run (d.classify span options).run .unlimited = .ok (.ok s) := by
  simp only [select] at h
  split at h
  · next result hresult => rw [hresult, h]
  · cases h

/-- A selection of which a view is known was found. -/
theorem exists_of_select_map {α : Type} {view : Selection → α} {a : α}
    (h : (d.select span options).toOption.map view = some a) :
    ∃ s, Poll.run (d.classify span options).run .unlimited = .ok (.ok s) ∧ view s = a := by
  obtain ⟨s, hs, hview⟩ := Option.map_eq_some_iff.mp h
  exact ⟨s, run_of_select (Poll.eq_ok_of_toOption hs), hview⟩

end Document

namespace Selection.Stages

variable {d : Document} {span : Range} {options : Options} {b : Bounds} {common : Nat} {t : Target}
  {own : List Nat} {s : Selection} (h : s.Stages d span options b common t own)
include h

theorem common_eq : d.commonAncestorOfTokens? b.firstToken b.lastToken = some common :=
  (Document.gives_surroundings_iff.mp h.gives_surroundings).2.2.1

theorem scope_eq : d.scopeOf? common = some s.scope :=
  (Document.gives_surroundings_iff.mp h.gives_surroundings).2.2.2.2

theorem document_eq : s.document = d := by rw [h.eq]

theorem finalSpan_eq : s.finalSpan = d.tokenSpan t.firstToken t.lastToken := by rw [h.eq]

theorem finalSpan_eq_tokenSpan : s.finalSpan = d.tokenSpan s.firstToken s.lastToken := by rw [h.eq]

theorem region_eq : s.region = t.region := by rw [h.eq]

theorem root_eq : s.root = t.root := by rw [h.eq]

theorem facts_eq : s.facts = d.factsOf s.scope own := by rw [h.eq]

theorem notes_eq : s.notes = t.notes := by rw [h.eq]

theorem firstToken_eq : s.firstToken = t.firstToken := by rw [h.eq]

theorem lastToken_eq : s.lastToken = t.lastToken := by rw [h.eq]

theorem allowExpansion_eq : s.allowExpansion = options.allowExpansion := by rw [h.eq]

end Selection.Stages

end ExtractMethod
