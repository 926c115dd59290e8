import ExtractMethod.Proofs.Selection.Ends
import ExtractMethod.Proofs.Selection.FoundAgain
import ExtractMethod.Proofs.Selection.Innermost
import ExtractMethod.Proofs.Selection.Restamp

/-! Selections that are found again by their final span, in another version of their document. -/
namespace ExtractMethod

open ExtractMethod.Flow (Region)
open Poll (Answers Gives)
open Text (Range)

variable {d : Document} {span : Range} {options : Options} {s : Selection} {scope : Scope}
  {b : Bounds} {t : Target} {common first last n : Nat} {own : List Nat} {allowExpansion : Bool}
  {version : Version}

/-- The scope of the selection is that of the lowest node around its ends. -/
def Selection.IsAtHome (s : Selection) : Prop :=
  ∃ n, s.document.commonAncestorOfTokens? s.firstToken s.lastToken = some n ∧
    s.document.scopeOf? n = some s.scope

/-- The selection consists of one loop. -/
def Selection.IsLoop (s : Selection) : Prop :=
  ∃ n, s.region = .statements n n ∧ s.document.kind n = .loopBlock

/-- No list in the first statement of the region holds both ends in statements of its own, unless
that statement is a loop with an end at its header or its trailer. -/
def Selection.NoLowerList (s : Selection) : Prop :=
  ∀ c, s.document.isAncestor s.region.first c → (s.document.kind c).isStatementContainer →
    s.document.HoldsListed c s.firstToken → s.document.HoldsListed c s.lastToken →
    c = s.region.first ∧ s.document.IsLoopAround s.firstToken s.lastToken c

/-- All listed statements in the final span lie at or below one of the region. -/
def Selection.NoOtherStatement (s : Selection) : Prop :=
  ∀ n, s.document.IsCandidate s.scope s.finalSpan n → ∃ m, s.document.parent? m = some s.root ∧
    s.region.first ≤ m ∧ m ≤ s.region.last ∧ s.document.isAncestor m n

/-- What it takes for some statements to be found from their ends. -/
structure Selection.LeadsBack (s : Selection) : Prop where
  inType : ∃ n, (s.document.kind n).isTypeDeclaration ∧ s.firstToken ∈ s.document.tokensUnder n ∧
    s.lastToken ∈ s.document.tokensUnder n
  noExpression : ¬ s.document.HasExpressionOver s.scope s.firstToken s.lastToken
  noLowerList : s.allowExpansion → s.NoLowerList
  noOtherStatement : ¬ s.allowExpansion → s.NoOtherStatement

namespace Document

/-- A search through all stages finds the selection. -/
theorem select_of_stages (h : s.Stages d span options b common t own) :
    d.select span options = .ok s := by
  have hgives := gives_classify_iff.mpr ⟨b, common, t, own, h⟩
  simp only [select, Poll.answers_iff_run.mp hgives]

theorem exists_stages_of_select (h : d.select span options = .ok s) :
    ∃ b common t own, s.Stages d span options b common t own :=
  exists_stages (run_of_select h)

end Document

namespace Selection.Stages

/-- The ends of the selection are significant tokens in order. -/
theorem tokenPair (h : s.Stages d span options b common t own) :
    d.TokenPair s.firstToken s.lastToken := by
  obtain ⟨hscope, hbody⟩ := Document.scopeOf?_valid h.scope_eq
  have ht := Document.target_valid (Document.bounds_eq_ok h.bounds_eq)
    (Document.hasNode_of_isAncestor hbody).2 hscope h.gives_target
  rw [h.firstToken_eq, h.lastToken_eq]
  exact ht.tokens

/-- The selection is found again exactly if its ends have its scope and lead to its target. -/
theorem rehome_eq_ok_iff (h : s.Stages d span options b common t own) (hplain : d.HasPlainTokens)
    {notes : Verdict} :
    s.rehome (d.restamp version) = .ok { s with document := d.restamp version, notes } ↔
      ∃ common', Gives (d.surroundings s.firstToken s.lastToken) (common', s.scope) ∧
        Gives (d.target s.allowExpansion common' s.scope ⟨s.finalSpan, s.firstToken, s.lastToken⟩)
          ⟨s.region, s.root, s.firstToken, s.lastToken, notes⟩ := by
  have hspan := h.finalSpan_eq_tokenSpan
  have hbounds := Document.bounds_tokenSpan hplain h.tokenPair
  rw [← hspan] at hbounds
  constructor
  · intro hrehome
    rw [rehome] at hrehome
    cases hselect : (d.restamp version).select s.finalSpan
      { allowExpansion := s.allowExpansion } with
    | error e =>
      rw [hselect] at hrehome
      cases hrehome
    | ok moved =>
      rw [hselect] at hrehome
      obtain ⟨-, -, -, -, hfirst, hlast, hscope, hroot, hregion, -, hnotes, -⟩ :=
        Selection.mk.inj (Except.ok.inj hrehome)
      obtain ⟨b', common', t', own', hstages⟩ := Document.exists_stages_of_select hselect
      have hbounds' : d.bounds s.finalSpan = .ok b' := hstages.bounds_eq
      cases hbounds.symm.trans hbounds'
      have ht : t' = ⟨s.region, s.root, s.firstToken, s.lastToken, notes⟩ := by
        rw [← hregion, ← hroot, ← hfirst, ← hlast, ← hnotes, hstages.region_eq, hstages.root_eq,
          hstages.firstToken_eq, hstages.lastToken_eq, hstages.notes_eq]
      have hsurroundings := hstages.gives_surroundings
      have htarget := hstages.gives_target
      rw [Document.surroundings_restamp] at hsurroundings
      rw [Document.target_restamp, ht] at htarget
      rw [hscope] at hsurroundings htarget
      exact ⟨common', hsurroundings, htarget⟩
  · rintro ⟨common', hsurroundings, htarget⟩
    have hstages : Stages d s.finalSpan { allowExpansion := s.allowExpansion }
        ⟨s.finalSpan, s.firstToken, s.lastToken⟩ common'
        ⟨s.region, s.root, s.firstToken, s.lastToken, notes⟩ own
        { s with requestedSpan := s.finalSpan, changed := false, notes } := by
      refine ⟨hbounds, hsurroundings, htarget, h.noErrors, h.noCutDirectives, ?_, h.noYield, ?_⟩
      · exact h.region_eq ▸ h.answers_own
      · rw [← hspan, ← h.facts_eq, ← h.document_eq]
        simp
    rw [rehome, Document.select_of_stages (hstages.restamp version)]
    simp [Except.map]

/-- An expression is found again, with all that is known of it. -/
theorem rehome_of_isExpression (h : s.Stages d span options b common t own)
    (hplain : d.HasPlainTokens) (hs : s.isExpression) :
    s.rehome (d.restamp version) = .ok { s with document := d.restamp version } := by
  obtain ⟨e, he⟩ := s.isExpression_iff.mp hs
  rcases Document.gives_target_iff.mp h.gives_target with ⟨e', he', hcheck, ht⟩ | ⟨-, ht⟩
  · refine (h.rehome_eq_ok_iff hplain).mpr ⟨common, ?_, Document.gives_target_iff.mpr (Or.inl
      ⟨e', ?_, hcheck, ?_⟩)⟩
    · rw [h.firstToken_eq, h.lastToken_eq, ht]
      exact h.gives_surroundings
    · rw [h.firstToken_eq, h.lastToken_eq, ht]
      exact he'
    · rw [h.region_eq, h.root_eq, h.notes_eq, ht]
  · obtain ⟨run, -, hrun⟩ := Document.gives_statementTarget ht
    rw [h.region_eq, hrun.region] at he
    cases he

/-- Statements were found by one of the searches, and then perhaps widened. -/
theorem exists_run (h : s.Stages d span options b common t own) (hs : ¬ s.isExpression) :
    ∃ r : Run, Answers (if s.allowExpansion then d.smallestRun s.scope b.firstToken b.lastToken
        else d.largestRun s.scope b.span) (some r) ∧
      (d.widenLoop r).1.IsFinal d s.scope.body s.firstToken s.lastToken ∧
      s.region = .statements (d.widenLoop r).1.first (d.widenLoop r).1.last ∧
      s.root = (d.widenLoop r).1.container ∧
      s.notes = if (d.widenLoop r).2 then .warning Reason.loopWidened else .ok := by
  have hb := Document.bounds_eq_ok h.bounds_eq
  obtain ⟨hscope, -⟩ := Document.scopeOf?_valid h.scope_eq
  rcases Document.gives_target_iff.mp h.gives_target with ⟨e, -, -, ht⟩ | ⟨-, ht⟩
  · exact absurd (s.isExpression_iff.mpr ⟨e, by rw [h.region_eq, ht]⟩) hs
  · obtain ⟨r, hr, hrun, hnotes⟩ := Document.gives_statementTarget_iff.mp ht
    have hvalid := Document.widenLoop_valid (Document.valid_of_found hb hr) hscope.body_ne_loopBlock
    refine ⟨r, ?_, ⟨hvalid, ?_, ?_, Document.loopContainer?_widenLoop r⟩, ?_, ?_, ?_⟩
    · rw [h.allowExpansion_eq]
      exact hr
    · rw [h.firstToken_eq]
      exact hrun.firstToken
    · rw [h.lastToken_eq]
      exact hrun.lastToken
    · rw [h.region_eq, hrun.region]
    · rw [h.root_eq, hrun.root]
    · rw [h.notes_eq, hnotes]

/-- Only a selection that is a loop can have been widened. -/
theorem not_widened (h : s.Stages d span options b common t own) {r : Run}
    (hregion : s.region = .statements (d.widenLoop r).1.first (d.widenLoop r).1.last)
    (hloop : ¬ s.IsLoop) : (d.widenLoop r).2 = false := by
  rw [Bool.eq_false_iff]
  intro hwidened
  obtain ⟨hends, hkind⟩ := Document.widenLoop_snd hwidened
  refine hloop ⟨(d.widenLoop r).1.first, ?_, ?_⟩
  · rw [hregion, ← hends]
  · rw [h.document_eq]
    exact hkind

/-- A span that may be widened lies between the ends of the statements that were found. -/
theorem ends_around (h : s.Stages d span options b common t own) (hs : ¬ s.isExpression)
    (hallow : s.allowExpansion) : s.firstToken ≤ b.firstToken ∧ b.lastToken ≤ s.lastToken := by
  have hb := Document.bounds_eq_ok h.bounds_eq
  obtain ⟨r, hr, hfinal, -⟩ := h.exists_run hs
  rw [if_pos hallow] at hr
  obtain ⟨hvalid, hf, hl⟩ := Document.smallestRun_eq_some hb.hasToken_first hb.hasToken_last
    hb.first_le_last hr
  obtain ⟨hf', hl'⟩ := Document.mem_tokensUnder_widenLoop hvalid hf hl
  obtain ⟨-, -, hmin⟩ := Document.firstToken?_eq_some hfinal.firstToken
  obtain ⟨-, -, hmax⟩ := Document.lastToken?_eq_some hfinal.lastToken
  exact ⟨hmin _ hf' hb.isSignificant_first, hmax _ hl' hb.isSignificant_last⟩

/-- Wherever the span may be widened, the scope of the selection is that of its ends. -/
theorem isAtHome (h : s.Stages d span options b common t own) (hs : ¬ s.isExpression)
    (hallow : s.allowExpansion) : s.IsAtHome := by
  have hb := Document.bounds_eq_ok h.bounds_eq
  have htokens := h.tokenPair
  obtain ⟨hle, hge⟩ := h.ends_around hs hallow
  obtain ⟨r, -, hfinal, -⟩ := h.exists_run hs
  obtain ⟨hf, hl⟩ := hfinal.mem_container
  have hf' := Document.mem_tokensUnder_of_isAncestor hfinal.valid.inBody hf
  have hl' := Document.mem_tokensUnder_of_isAncestor hfinal.valid.inBody hl
  obtain ⟨n, hn⟩ := Document.exists_commonAncestorOfTokens? hf' hl'
  obtain ⟨hnf, hnl, hlowest⟩ := Document.commonAncestorOfTokens?_eq_some htokens.hasToken_first
    htokens.hasToken_last hn
  obtain ⟨-, -, hlowest'⟩ := Document.commonAncestorOfTokens?_eq_some hb.hasToken_first
    hb.hasToken_last h.common_eq
  -- The lowest node around the ends lies between the body and the lowest node around the span.
  have hnc : d.isAncestor n common := hlowest' n
    (Document.mem_tokensUnder_of_between hnf hnl hle (Nat.le_trans hb.first_le_last hge))
    (Document.mem_tokensUnder_of_between hnf hnl (Nat.le_trans hle hb.first_le_last) hge)
  rw [IsAtHome, h.document_eq]
  exact ⟨n, hn, Document.scopeOf?_between h.scope_eq (hlowest _ hf' hl') hnc⟩

/-- The search that found some statements finds them again from their ends exactly if there is
nothing else to find there. -/
theorem finds_again_iff (h : s.Stages d span options b common t own) (hs : ¬ s.isExpression) :
    (∃ r : Run, Answers (if s.allowExpansion then d.smallestRun s.scope s.firstToken s.lastToken
        else d.largestRun s.scope s.finalSpan) (some r) ∧
      (d.widenLoop r).1 = ⟨s.root, s.region.first, s.region.last⟩) ↔
      (s.allowExpansion → s.NoLowerList) ∧ (¬ s.allowExpansion → s.NoOtherStatement) := by
  have htokens := h.tokenPair
  obtain ⟨r, hr, hfinal, hregion, hroot, -⟩ := h.exists_run hs
  have hrun : (d.widenLoop r).1 = ⟨s.root, s.region.first, s.region.last⟩ := by
    rw [hregion, hroot]
    rfl
  rw [hrun] at hfinal
  by_cases hallow : s.allowExpansion
  · simp only [hallow, if_true, not_true_eq_false, false_implies, and_true, true_implies,
      Document.answers_smallestRun_iff htokens.hasToken_first htokens.hasToken_last
        htokens.first_le_last]
    rw [Document.smallestRun_again_iff hfinal, NoLowerList, h.document_eq]
  · simp only [hallow, Bool.false_eq_true, if_false, not_false_eq_true, false_implies, true_and,
      true_implies, Document.answers_largestRun_iff] at hr ⊢
    rw [NoOtherStatement, h.document_eq, h.finalSpan_eq_tokenSpan,
      Document.largestRun_again_iff hfinal ⟨r, hr, hrun⟩]

/-- Two statements or more lead back unless an expression goes from end to end. -/
theorem leadsBack_of_ne (h : s.Stages d span options b common t own) (hs : ¬ s.isExpression)
    (hne : s.region.first ≠ s.region.last)
    (htype : ∃ n, (d.kind n).isTypeDeclaration ∧ s.firstToken ∈ d.tokensUnder n ∧
      s.lastToken ∈ d.tokensUnder n)
    (hnone : ¬ d.HasExpressionOver s.scope s.firstToken s.lastToken) : s.LeadsBack := by
  obtain ⟨r, hr, hfinal, hregion, hroot, -⟩ := h.exists_run hs
  have hends : (d.widenLoop r).1.first ≠ (d.widenLoop r).1.last := by
    rw [hregion] at hne
    exact hne
  refine ⟨?_, ?_, ?_, ?_⟩
  · rw [h.document_eq]
    exact htype
  · rw [h.document_eq]
    exact hnone
  · -- The last token lies below the last statement, and so not below the first one.
    intro _ c hc _ _ hcl
    rw [h.document_eq, hregion] at hc
    rw [h.document_eq] at hcl
    have hl := (Document.lastToken?_eq_some hfinal.lastToken).1
    have hlf := Document.mem_tokensUnder_of_isAncestor hc hcl.mem_tokensUnder
    exact absurd (Document.eq_of_mem_tokensUnder hfinal.valid.parent_first hfinal.valid.parent_last
      hlf hl) hends
  · intro hallow
    refine ((h.finds_again_iff hs).mp ?_).2 hallow
    simp only [hallow, Bool.false_eq_true, if_false, Document.answers_largestRun_iff] at hr ⊢
    cases hloop : d.loopContainer? r with
    | none =>
      rw [Document.widenLoop_of_none hloop] at hfinal hregion hroot
      rw [h.finalSpan_eq_tokenSpan, hregion, hroot]
      refine ⟨r, Document.isLargest_tokenSpan hfinal hr, ?_⟩
      rw [Document.widenLoop_of_none hloop]
      rfl
    | some c =>
      rw [Document.widenLoop_of_some hloop] at hends
      exact absurd rfl hends

/-- The target of some statements is found from their ends exactly if no expression is in the way
and the search finds them again. -/
theorem gives_target_again_iff (h : s.Stages d span options b common t own)
    (hs : ¬ s.isExpression) {common' : Nat}
    (hcommon : d.commonAncestorOfTokens? s.firstToken s.lastToken = some common') :
    (∃ notes, Gives (d.target s.allowExpansion common' s.scope
        ⟨s.finalSpan, s.firstToken, s.lastToken⟩)
        ⟨s.region, s.root, s.firstToken, s.lastToken, notes⟩ ∧
      (¬ s.IsLoop → notes = s.notes)) ↔
    ¬ d.HasExpressionOver s.scope s.firstToken s.lastToken ∧
      ∃ r : Run, Answers (if s.allowExpansion then d.smallestRun s.scope s.firstToken s.lastToken
        else d.largestRun s.scope s.finalSpan) (some r) ∧
        (d.widenLoop r).1 = ⟨s.root, s.region.first, s.region.last⟩ := by
  obtain ⟨r₀, -, hfinal, hregion, hroot, hnotes⟩ := h.exists_run hs
  have htokens := h.tokenPair
  have hfinds : Answers (d.expressionOver s.scope common' s.firstToken s.lastToken) none ↔ _ :=
    Document.answers_expressionOver_none_iff htokens.hasToken_first htokens.hasToken_last hcommon
  constructor
  · rintro ⟨notes, htarget, -⟩
    rcases Document.gives_target_iff.mp htarget with ⟨e, -, -, ht⟩ | ⟨hnone, ht⟩
    · exact absurd (s.isExpression_iff.mpr ⟨e, congrArg Target.region ht⟩) hs
    · obtain ⟨r, hr, hrun, -⟩ := Document.gives_statementTarget_iff.mp ht
      refine ⟨hfinds.mp hnone, r, hr, ?_⟩
      have hregion' : s.region = .statements (d.widenLoop r).1.first (d.widenLoop r).1.last :=
        hrun.region
      have hroot' : s.root = (d.widenLoop r).1.container := hrun.root
      rw [hregion', hroot']
      rfl
  · rintro ⟨hnone, r, hr, hrun⟩
    have hrun₀ : (d.widenLoop r₀).1 = (d.widenLoop r).1 := by
      rw [hrun, hregion, hroot]
      rfl
    have hregion' : s.region = .statements (d.widenLoop r).1.first (d.widenLoop r).1.last := by
      rw [hregion, hrun₀]
    rw [hrun₀] at hfinal hroot
    refine ⟨if (d.widenLoop r).2 then .warning Reason.loopWidened else .ok,
      Document.gives_target_iff.mpr (Or.inr ⟨hfinds.mpr hnone,
        Document.gives_statementTarget_iff.mpr ⟨r, hr, ⟨hregion', hroot, hfinal.firstToken,
          hfinal.lastToken, Verdict.isTargetNote_of_widened _⟩, rfl⟩⟩), ?_⟩
    intro hloop
    rw [hnotes, h.not_widened hregion hloop, h.not_widened hregion' hloop]

/-- Statements that are selected where they live are found again exactly if they lead back. -/
theorem rehome_iff_leadsBack (h : s.Stages d span options b common t own)
    (hplain : d.HasPlainTokens) (hs : ¬ s.isExpression) (hhome : s.IsAtHome) :
    (∃ notes, s.rehome (d.restamp version) = .ok { s with document := d.restamp version, notes } ∧
      (¬ s.IsLoop → notes = s.notes)) ↔ s.LeadsBack := by
  obtain ⟨common', hcommon, hscope⟩ := hhome
  have hsurroundings : (∃ n, Gives (d.surroundings s.firstToken s.lastToken) (n, s.scope)) ↔ _ :=
    Document.exists_gives_surroundings_iff h.tokenPair.hasToken_first h.tokenPair.hasToken_last
  rw [h.document_eq] at hcommon hscope
  simp only [h.rehome_eq_ok_iff hplain]
  constructor
  · rintro ⟨notes, ⟨common'', hgives, htarget⟩, hnotes⟩
    have hcommon' := (Document.gives_surroundings_iff.mp hgives).2.2.1
    cases hcommon.symm.trans hcommon'
    obtain ⟨hnone, hagain⟩ := (h.gives_target_again_iff hs hcommon).mp ⟨notes, htarget, hnotes⟩
    obtain ⟨hsmallest, hlargest⟩ := (h.finds_again_iff hs).mp hagain
    obtain ⟨htype, -⟩ := hsurroundings.mp ⟨common', hgives⟩
    refine ⟨?_, ?_, hsmallest, hlargest⟩
    · rw [h.document_eq]
      exact htype
    · rw [h.document_eq]
      exact hnone
  · rintro ⟨htype, hnone, hsmallest, hlargest⟩
    rw [h.document_eq] at htype hnone
    obtain ⟨common'', hgives⟩ := hsurroundings.mpr ⟨htype, common', hcommon, hscope⟩
    have hcommon' := (Document.gives_surroundings_iff.mp hgives).2.2.1
    cases hcommon.symm.trans hcommon'
    obtain ⟨notes, htarget, hnotes⟩ := (h.gives_target_again_iff hs hcommon).mpr
      ⟨hnone, (h.finds_again_iff hs).mpr ⟨hsmallest, hlargest⟩⟩
    exact ⟨notes, ⟨common', hgives, htarget⟩, hnotes⟩

end Selection.Stages

/-- In a document with plain tokens, a selection is found again by its final span in every version:
always if it is an expression, and exactly if it leads back if it consists of statements. The notes
are the same then, except for a loop, which may have been widened before and need not be again. -/
theorem Document.classify_rehome {patience : Patience}
    (h : Poll.run (d.classify span options).run patience = .ok (.ok s)) (hplain : d.HasPlainTokens)
    (hhome : s.allowExpansion ∨ s.isExpression ∨ s.IsAtHome) (version : Version) :
    (s.isExpression → s.rehome (d.restamp version) = .ok { s with document := d.restamp version }) ∧
      ((∃ notes, s.rehome (d.restamp version) =
          .ok { s with document := d.restamp version, notes } ∧
        (¬ s.IsLoop → notes = s.notes)) ↔ s.isExpression ∨ s.LeadsBack) := by
  obtain ⟨b, common, t, own, hstages⟩ := exists_stages h
  by_cases hs : s.isExpression
  · have hrehome : s.rehome (d.restamp version) = .ok { s with document := d.restamp version } :=
      hstages.rehome_of_isExpression hplain hs
    exact ⟨fun _ => hrehome, iff_of_true ⟨s.notes, hrehome, fun _ => rfl⟩ (Or.inl hs)⟩
  · have hhome' : s.IsAtHome := by
      rcases hhome with hallow | hexpression | hhome
      · exact hstages.isAtHome hs hallow
      · exact absurd hexpression hs
      · exact hhome
    refine ⟨fun hexpression => absurd hexpression hs, ?_⟩
    rw [hstages.rehome_iff_leadsBack hplain hs hhome', or_iff_right hs]

/-- Two statements are found again in the next version. -/
theorem ofTwoNames_classify_rehome : ∃ s notes,
    Poll.run (Document.ofTwoNames.classify (.ofLength 17 4) {}).run .unlimited = .ok (.ok s) ∧
      s.region = .statements 6 8 ∧ s.rehome (Document.ofTwoNames.restamp ⟨1⟩) =
        .ok { s with document := Document.ofTwoNames.restamp ⟨1⟩, notes } := by
  have h : (Document.ofTwoNames.select (.ofLength 17 4) {}).toOption.map
      (fun s => (s.region, s.firstToken, s.lastToken, s.allowExpansion)) =
        some (.statements 6 8, 10, 13, true) := by decide +kernel
  obtain ⟨s, hs, hview⟩ := Document.exists_of_select_map h
  simp only [Prod.mk.injEq] at hview
  obtain ⟨hregion, hfirst, hlast, hallow⟩ := hview
  obtain ⟨b, common, t, own, hstages⟩ := Document.exists_stages hs
  have hexpression : ¬ s.isExpression := by
    rw [Selection.isExpression, hregion]
    exact Bool.false_ne_true
  have hnone : ¬ Document.ofTwoNames.HasExpressionOver s.scope 10 13 := by
    rintro ⟨e, hbody, htokens, hkind⟩
    have hnode := Document.hasNode_iff.mp (Document.hasNode_of_isAncestor hbody).2
    have hall : ∀ e < Document.ofTwoNames.nodeCount, Document.ofTwoNames.spansTokens e 10 13 →
        ¬ (Document.ofTwoNames.kind e).isExpression := by decide +kernel
    exact hall e hnode htokens hkind
  have hleads : s.LeadsBack := by
    refine hstages.leadsBack_of_ne hexpression ?_ ?_ ?_
    · rw [hregion]
      decide
    · rw [hfirst, hlast]
      exact ⟨1, by decide +kernel⟩
    · rwa [hfirst, hlast]
  obtain ⟨notes, hrehome, -⟩ :=
    (Document.classify_rehome hs (by decide +kernel) (Or.inl hallow) ⟨1⟩).2.mpr (Or.inr hleads)
  exact ⟨s, notes, hs, hregion, hrehome⟩

/-- What a selection leads to in another document, from what its final span selects there. -/
theorem Selection.exists_rehome_of_select_map {region : Region} {notes : Verdict}
    (h : (d.select s.finalSpan { allowExpansion := s.allowExpansion }).toOption.map
      (fun moved => (moved.region, moved.notes)) = some (region, notes)) :
    ∃ moved, s.rehome d = .ok moved ∧ moved.region = region ∧ moved.notes = notes := by
  obtain ⟨moved, hmoved, hview⟩ := Option.map_eq_some_iff.mp h
  obtain ⟨hregion, hnotes⟩ := Prod.mk.inj hview
  refine ⟨{ moved with requestedSpan := s.requestedSpan, changed := moved.changed || s.changed },
    ?_, hregion, hnotes⟩
  rw [rehome, Poll.eq_ok_of_toOption hmoved]
  rfl

/-- A method whose only statement is a sum without a semicolon. -/
def Document.ofSum : Document := .ofStatements [.node .expressionStatement [
  .node .binaryExpression [.node .nameExpression [.token .identifier "a"], .token .plus "+",
    .node .nameExpression [.token .identifier "b"]]]]

/-- A method with a loop around one statement. -/
def Document.ofLoop : Document := .ofStatements [.node .loopBlock [
  .node .loopHeader [.token .identifier "For"], .nameStatement "a",
  .node .loopTrailer [.token .identifier "Next"]]]

/-- A part of the sum is widened to its statement, but the final span leads to the expression. A
part of the loop is widened to the loop, but the final span is that of the whole loop and nothing is
noted. -/
theorem rehome_changes_region_or_notes :
    (Document.ofSum.HasPlainTokens ∧ ∃ s moved,
      Poll.run (Document.ofSum.classify (.ofLength 17 2) {}).run .unlimited = .ok (.ok s) ∧
        s.rehome (Document.ofSum.restamp ⟨1⟩) = .ok moved ∧ s.region = .statements 6 6 ∧
        moved.region = .expression 7) ∧
    (Document.ofLoop.HasPlainTokens ∧ ∃ s moved,
      Poll.run (Document.ofLoop.classify (.ofLength 20 3) {}).run .unlimited = .ok (.ok s) ∧
        s.rehome (Document.ofLoop.restamp ⟨1⟩) = .ok moved ∧ moved.region = s.region ∧
        s.notes = .warning Reason.loopWidened ∧ moved.notes = .ok) := by
  constructor
  · refine ⟨by decide +kernel, ?_⟩
    have h : (Document.ofSum.select (.ofLength 17 2) {}).toOption.map
        (fun s => (s.region, s.finalSpan, s.allowExpansion)) =
          some (.statements 6 6, .ofLength 17 3, true) := by decide +kernel
    obtain ⟨s, hs, hview⟩ := Document.exists_of_select_map h
    simp only [Prod.mk.injEq] at hview
    obtain ⟨hregion, hspan, hallow⟩ := hview
    have h' : ((Document.ofSum.restamp ⟨1⟩).select s.finalSpan
        { allowExpansion := s.allowExpansion }).toOption.map
          (fun moved => (moved.region, moved.notes)) = some (.expression 7, .ok) := by
      rw [hspan, hallow]
      decide +kernel
    obtain ⟨moved, hmoved, hregion', -⟩ := Selection.exists_rehome_of_select_map h'
    exact ⟨s, moved, hs, hmoved, hregion, hregion'⟩
  · refine ⟨by decide +kernel, ?_⟩
    have h : (Document.ofLoop.select (.ofLength 20 3) {}).toOption.map
        (fun s => (s.region, s.notes, s.finalSpan, s.allowExpansion)) =
          some (.statements 6 6, .warning Reason.loopWidened, .ofLength 17 9, true) := by
      decide +kernel
    obtain ⟨s, hs, hview⟩ := Document.exists_of_select_map h
    simp only [Prod.mk.injEq] at hview
    obtain ⟨hregion, hnotes, hspan, hallow⟩ := hview
    have h' : ((Document.ofLoop.restamp ⟨1⟩).select s.finalSpan
        { allowExpansion := s.allowExpansion }).toOption.map
          (fun moved => (moved.region, moved.notes)) = some (.statements 6 6, .ok) := by
      rw [hspan, hallow]
      decide +kernel
    obtain ⟨moved, hmoved, hregion', hnotes'⟩ := Selection.exists_rehome_of_select_map h'
    exact ⟨s, moved, hs, hmoved, hregion'.trans hregion.symm, hnotes, hnotes'⟩

end ExtractMethod
