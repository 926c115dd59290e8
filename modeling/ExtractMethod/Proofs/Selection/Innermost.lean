import ExtractMethod.Proofs.Selection.Legal

/-! Whether the scope of a selection is the one that its region lies in. The scope is that of the
tokens of the span, but some statements are searched for in all of its body. -/
namespace ExtractMethod

open ExtractMethod.Tree (Element NodeKind)
open Poll (Answers Gives)
open Text (Range)

variable {d : Document} {span : Range} {options : Options} {s : Selection} {scope : Scope}
  {b : Bounds} {t : Target} {r : Run} {common first last n p : Nat} {allowExpansion : Bool}

theorem Tree.NodeKind.isStatementContainer_iff {kind : NodeKind} :
    kind.isStatementContainer ↔ kind = .block ∨ kind = .loopBlock := by
  cases kind <;> simp [isStatementContainer]

/-- The innermost scope around the first node of the region, and around the last one. -/
structure Selection.LivesIn (s : Selection) (inner : Scope) : Prop where
  first : Poll.run (s.document.innermostScope s.region.first) .unlimited = .ok (some inner)
  last : Poll.run (s.document.innermostScope s.region.last) .unlimited = .ok (some inner)

namespace Document

/-- No list of statements owns a body. -/
theorem scopeOf?_of_isStatementContainer (hp : d.parent? n = some p)
    (hlist : (d.kind p).isStatementContainer) : d.scopeOf? n = d.scopeOf? p := by
  have hlink : d.scopeAt? n p = none := by
    rcases NodeKind.isStatementContainer_iff.mp hlist with hk | hk <;>
      simp [scopeAt?, kindOfScope?, hk]
  rw [scopeOf?_of_parent? hp, hlink, Option.none_or]

/-- The ends of a region in a scope find the same scope as the root. -/
theorem scopeOf?_region {region : Flow.Region} {body root : Nat}
    (h : region.LiesIn d body root) :
    d.scopeOf? region.first = d.scopeOf? root ∧ d.scopeOf? region.last = d.scopeOf? root := by
  cases region with
  | expression e =>
    obtain ⟨-, -, rfl⟩ := h
    exact ⟨rfl, rfl⟩
  | statements first last =>
    exact ⟨scopeOf?_of_isStatementContainer h.parent_first h.isList,
      scopeOf?_of_isStatementContainer h.parent_last h.isList⟩

theorem isAncestor_root {region : Flow.Region} {body root : Nat}
    (h : region.LiesIn d body root) : d.isAncestor body root := by
  cases region with
  | expression e =>
    obtain ⟨-, hbody, rfl⟩ := h
    exact hbody
  | statements first last => exact h.inBody

/-- The smallest run around the tokens lies around their lowest common node, also after a loop was
widened. -/
theorem isAncestor_of_smallestRun (hb : d.TokenPair first last)
    (hcommon : d.commonAncestorOfTokens? first last = some common)
    (h : Answers (d.smallestRun scope first last) (some r)) :
    d.isAncestor (d.widenLoop r).1.container common := by
  obtain ⟨hr, hfirst, hlast⟩ := smallestRun_eq_some hb.hasToken_first hb.hasToken_last
    hb.first_le_last h
  obtain ⟨-, -, hlowest⟩ :=
    commonAncestorOfTokens?_eq_some hb.hasToken_first hb.hasToken_last hcommon
  have hcontainer := hlowest _
    (mem_tokensUnder_of_isAncestor (parent?_isAncestor hr.parent_first).2 hfirst)
    (mem_tokensUnder_of_isAncestor (parent?_isAncestor hr.parent_last).2 hlast)
  exact isAncestor_trans (widenLoop_isAncestor hr) hcontainer

/-- An expression, and statements that the span may be widened to, lie around or at the lowest node
around the tokens of the span. -/
theorem isAncestor_root_common (hb : d.TokenPair b.firstToken b.lastToken)
    (hcommon : d.commonAncestorOfTokens? b.firstToken b.lastToken = some common)
    (hc : d.hasNode common) (h : Gives (d.target allowExpansion common scope b) t)
    (hroute : allowExpansion ∨ ∃ e, t.region = .expression e) : d.isAncestor t.root common := by
  rcases gives_target h with ⟨e, he, ht⟩ | h
  · rw [ht.root]
    exact (expressionOver_eq_some hc he).1
  · obtain ⟨run, hrun, ht⟩ := gives_statementTarget h
    rcases hroute with hallow | ⟨e, he⟩
    · rw [if_pos hallow] at hrun
      rw [ht.root]
      exact isAncestor_of_smallestRun hb hcommon hrun
    · rw [ht.region] at he
      cases he

end Document

theorem Selection.isExpression_iff (s : Selection) :
    s.isExpression ↔ ∃ e, s.region = .expression e := by
  simp only [isExpression]
  cases s.region <;> simp

/-- A region lives in the scope of its selection or in one that is nested in it: in the scope itself
exactly when no other body lies around the region in it, which is so for every expression and
whenever the span may be widened. What is known of the scope is said of that of the selection. -/
theorem Document.classify_livesIn {patience : Patience}
    (h : Poll.run (d.classify span options).run patience = .ok (.ok s)) :
    ∃ inner, s.LivesIn inner ∧ d.isAncestor s.scope.body inner.body ∧
      (inner = s.scope ↔ d.NoneBetween s.scope s.root) ∧
      (options.allowExpansion ∨ s.isExpression → inner = s.scope) ∧
      s.facts.scopeIsAsync = d.hasChildToken s.scope.member .asyncKw ∧
      s.facts.scopeIsStatic = d.hasNoInstance s.scope.member := by
  obtain ⟨b, common, t, own, hstages⟩ := exists_stages h
  have hb := bounds_eq_ok hstages.bounds_eq
  obtain ⟨hscope, hbody⟩ := scopeOf?_valid hstages.scope_eq
  have hc := (hasNode_of_isAncestor hbody).2
  have ht := (target_valid hb hc hscope hstages.gives_target).region
  have hroot := isAncestor_root ht
  obtain ⟨inner, hinner, hbelow⟩ := exists_scopeOf? hscope hroot
  obtain ⟨hfirst, hlast⟩ := scopeOf?_region ht
  have hexact := scopeOf?_eq_some_iff hscope hroot
  rw [hinner] at hfirst hlast
  rw [hinner, Option.some.injEq] at hexact
  rw [Selection.isExpression_iff, hstages.eq]
  refine ⟨inner, ⟨?_, ?_⟩, hbelow, hexact, ?_, rfl, rfl⟩
  · exact Poll.answers_iff_run.mp (hfirst ▸ d.answers_innermostScope _)
  · exact Poll.answers_iff_run.mp (hlast ▸ d.answers_innermostScope _)
  · intro hroute
    have hcommon := isAncestor_root_common hb hstages.common_eq hc hstages.gives_target hroute
    rw [scopeOf?_between hstages.scope_eq hroot hcommon] at hinner
    exact (Option.some.inj hinner).symm

/-- A method that assigns an asynchronous lambda with two statements. -/
def Document.ofLambda : Document := .ofStatements [.node .expressionStatement [
  .node .assignmentExpression [
    .node .nameExpression [.token .identifier "f"], .token .eq "=",
    .node .lambdaExpression [
      .token .asyncKw "async", .node .parameterList [.token .lParen "(", .token .rParen ")"],
      .token .arrow "=>", .node .block [.token .lBrace "\x7b", .nameStatement "a",
        .nameStatement "b", .token .rBrace "\x7d"]]],
  .token .semicolon ";"]]

/-- From the assignment to the end of the lambda, the whole statement is found, in the method. -/
theorem ofLambda_classify_livesIn : ∃ s inner,
    Poll.run (Document.ofLambda.classify (.ofLength 18 16) {}).run .unlimited = .ok (.ok s) ∧
      s.region = .statements 6 6 ∧ s.LivesIn inner ∧ inner = s.scope := by
  have h : (Document.ofLambda.select (.ofLength 18 16) {}).toOption.map Selection.region =
      some (.statements 6 6) := by decide +kernel
  obtain ⟨s, hs, hregion⟩ := Document.exists_of_select_map h
  obtain ⟨inner, hlives, -, -, hroute, -⟩ := Document.classify_livesIn hs
  exact ⟨s, inner, hs, hregion, hlives, hroute (Or.inl rfl)⟩

/-- If the span may not be widened, the statements of the lambda are found in the same place. They
live in the lambda, which is asynchronous, and not in the scope of the selection, which is not. -/
theorem ofLambda_classify_not_innermost : ∃ s inner,
    Poll.run (Document.ofLambda.classify (.ofLength 18 16) { allowExpansion := false }).run
        .unlimited = .ok (.ok s) ∧
      s.LivesIn inner ∧ inner ≠ s.scope ∧ inner.kind = .lambda ∧ s.scope.kind = .method ∧
      Document.ofLambda.hasChildToken inner.member .asyncKw ∧ ¬ s.facts.scopeIsAsync := by
  have h : (Document.ofLambda.select (.ofLength 18 16) { allowExpansion := false }).toOption.map
      (fun s => (s.region, s.scope, s.facts.scopeIsAsync)) =
        some (.statements 12 14, ⟨2, 5, .method⟩, false) := by decide +kernel
  have hfirst : Document.ofLambda.scopeOf? 12 = some ⟨9, 11, .lambda⟩ := by decide +kernel
  have hlast : Document.ofLambda.scopeOf? 14 = some ⟨9, 11, .lambda⟩ := by decide +kernel
  obtain ⟨s, hs, hview⟩ := Document.exists_of_select_map h
  simp only [Prod.mk.injEq] at hview
  obtain ⟨hregion, hscope, hasync⟩ := hview
  refine ⟨s, ⟨9, 11, .lambda⟩, hs, ⟨?_, ?_⟩, ?_, rfl, ?_, by decide +kernel, ?_⟩
  · rw [Document.document_of_classify hs, hregion]
    exact Poll.answers_iff_run.mp (hfirst ▸ Document.answers_innermostScope _ _)
  · rw [Document.document_of_classify hs, hregion]
    exact Poll.answers_iff_run.mp (hlast ▸ Document.answers_innermostScope _ _)
  · rw [hscope]
    decide
  · rw [hscope]
  · rw [hasync]
    decide

end ExtractMethod
