import ExtractMethod.Model.Snapshot
import ExtractMethod.Proofs.Selection.Classify
import ExtractMethod.Proofs.Selection.Outermost

/-! A selection that was found is a unit of the tree, and the facts about it are those about the
text that a call replaces. -/
namespace ExtractMethod

open ExtractMethod.Flow (Region)
open ExtractMethod.Tree (Element)
open Model (ByRegion FactsError Snapshot Topic)
open Poll (Answers Gives)
open Text (Range)

variable {d : Document} {span : Range} {options : Options} {s : Selection} {scope : Scope}
  {b : Bounds} {t : Target} {r : Run} {body common first last n : Nat} {allowExpansion : Bool}

/-- The region is an expression at or below the body, or a run of statements there. The root is the
expression or the list of the statements. -/
def Flow.Region.LiesIn (d : Document) (body root : Nat) : Region → Prop
  | .expression e => (d.kind e).isExpression ∧ d.isAncestor body e ∧ root = e
  | .statements first last => (Run.mk root first last).Valid d body

/-- The facts that a table has about a range of the text. -/
def Model.ByRegion.answer {α : Type} (table : ByRegion α) (topic : Topic) (range : Range) :
    Except FactsError α :=
  match table.find? range with
  | some facts => .ok facts
  | none => .error (.missing topic range)

/-- What can be extracted. -/
structure Selection.Legal (s : Selection) : Prop where
  tokens : s.document.TokenPair s.firstToken s.lastToken
  finalSpan : Range.between? (s.document.token s.firstToken).range.start
    (s.document.token s.lastToken).range.stop = some s.finalSpan
  parent_body : s.document.parent? s.scope.body = some s.scope.member
  succeeded : s.notes.succeeded
  region : s.region.LiesIn s.document s.scope.body s.root
  isSingle : s.type = .singleStatement ↔ ∃ n, s.region = .statements n n
  span_region : s.region.span s.document = .ok s.finalSpan
  lookup_region : ∀ {α : Type} (table : ByRegion α) (topic : Topic),
    Snapshot.lookup table topic s.document s.region = table.answer topic s.finalSpan

/-- The target lies in the scope, and its tokens are the ends of its region. -/
structure Target.Valid (d : Document) (body : Nat) (t : Target) : Prop where
  tokens : d.TokenPair t.firstToken t.lastToken
  firstToken : d.firstToken? t.region.first = some t.firstToken
  lastToken : d.lastToken? t.region.last = some t.lastToken
  succeeded : t.notes.succeeded
  region : t.region.LiesIn d body t.root

/-- The first token of a valid run does not come after the last one. -/
theorem Run.Valid.tokenPair (h : r.Valid d body) (hfirst : d.firstToken? r.first = some first)
    (hlast : d.lastToken? r.last = some last) : d.TokenPair first last := by
  obtain ⟨hf, hsf, -⟩ := Document.firstToken?_eq_some hfirst
  obtain ⟨hl, hsl, hmax⟩ := Document.lastToken?_eq_some hlast
  refine ⟨Document.hasToken_of_mem_tokensUnder hf, Document.hasToken_of_mem_tokensUnder hl,
    hsf, hsl, ?_⟩
  rcases Nat.lt_or_eq_of_le h.first_le_last with hlt | heq
  · have hnot := Document.not_isAncestor_of_parent?_eq h.parent_first h.parent_last
      (Nat.ne_of_lt hlt)
    exact Nat.le_of_lt (Document.lt_of_mem_tokensUnder hf hl hlt hnot)
  · rw [heq] at hf
    exact hmax first hf hsf

theorem Target.OfRun.valid (h : t.OfRun d r) (hr : r.Valid d body) : t.Valid d body := by
  refine ⟨hr.tokenPair h.firstToken h.lastToken, ?_, ?_, h.notes.succeeded, ?_⟩
  · rw [h.region]
    exact h.firstToken
  · rw [h.region]
    exact h.lastToken
  · rw [h.region, h.root]
    exact hr

namespace Document

theorem between?_tokenSpan (h : d.TokenPair first last) :
    Range.between? (d.token first).range.start (d.token last).range.stop =
      some (d.tokenSpan first last) := by
  have hle := start_le_stop h.first_le_last h.hasToken_last
  simp [tokenSpan, Range.between?, hle]

theorem tokenSpan_eq (h : d.TokenPair first last) :
    (d.tokenSpan first last).start = (d.token first).range.start ∧
      (d.tokenSpan first last).stop = (d.token last).range.stop := by
  have hle := start_le_stop h.first_le_last h.hasToken_last
  simp [tokenSpan, Range.between?, hle]

/-- The span of a region goes from the first token of its first node to the last one of its last
node. -/
theorem span_region_eq_ok {region : Region} (h : d.TokenPair first last)
    (hfirst : d.firstToken? region.first = some first)
    (hlast : d.lastToken? region.last = some last) :
    region.span d = .ok (d.tokenSpan first last) := by
  obtain ⟨hf, hsf, -⟩ := firstToken?_eq_some hfirst
  obtain ⟨hl, hsl, -⟩ := lastToken?_eq_some hlast
  obtain ⟨_, hfirst'⟩ := exists_lastToken? hf hsf
  obtain ⟨_, hlast'⟩ := exists_firstToken? hl hsl
  have hnodes := And.intro (hasNode_of_mem_tokensUnder hf) (hasNode_of_mem_tokensUnder hl)
  rw [Region.span, if_pos (by simpa using hnodes), (span_eq hfirst hfirst').1,
    (span_eq hlast' hlast).2, between?_tokenSpan h]

/-- Whichever search finds a run, it lies in the scope. -/
theorem valid_of_found (hb : d.TokenPair b.firstToken b.lastToken)
    (h : Answers (if allowExpansion then d.smallestRun scope b.firstToken b.lastToken
      else d.largestRun scope b.span) (some r)) : r.Valid d scope.body := by
  split at h
  · exact (smallestRun_eq_some hb.hasToken_first hb.hasToken_last hb.first_le_last h).1
  · exact (answers_largestRun_iff.mp h).valid

/-- The statements of a target are a run in the scope that is not widened any more. -/
theorem exists_run_of_statementTarget (hb : d.TokenPair b.firstToken b.lastToken)
    (hs : scope.Valid d) (h : Gives (d.statementTarget allowExpansion scope b) t) :
    ∃ r : Run, r.Valid d scope.body ∧ t.OfRun d r ∧ d.loopContainer? r = none := by
  obtain ⟨run, hrun, ht⟩ := gives_statementTarget h
  exact ⟨_, widenLoop_valid (valid_of_found hb hrun) hs.body_ne_loopBlock, ht,
    loopContainer?_widenLoop run⟩

theorem target_valid (hb : d.TokenPair b.firstToken b.lastToken) (hc : d.hasNode common)
    (hs : scope.Valid d) (h : Gives (d.target allowExpansion common scope b) t) :
    t.Valid d scope.body := by
  rcases gives_target h with ⟨e, he, ht⟩ | h
  · obtain ⟨-, htokens, hbody, hkind⟩ := expressionOver_eq_some hc he
    rw [spansTokens_iff] at htokens
    rw [← ht.firstToken, ← ht.lastToken] at htokens hb
    refine ⟨hb, ?_, ?_, ht.notes.succeeded, ?_⟩
    · rw [ht.region]
      exact htokens.1
    · rw [ht.region]
      exact htokens.2
    · rw [ht.region, ht.root]
      exact ⟨hkind, hbody, rfl⟩
  · obtain ⟨r, hr, ht, -⟩ := exists_run_of_statementTarget hb hs h
    exact ht.valid hr

end Document

theorem Selection.type_eq_singleStatement (s : Selection) :
    s.type = .singleStatement ↔ ∃ n, s.region = .statements n n := by
  simp only [type]
  cases s.region with
  | expression e => simp
  | statements first last =>
    by_cases h : first = last
    · simp [h]
    · simp [h]
      omega

theorem Model.Snapshot.lookup_eq {region : Region} {range : Range}
    (h : region.span d = .ok range) {α : Type} (table : ByRegion α) (topic : Topic) :
    Snapshot.lookup table topic d region = table.answer topic range := by
  rw [lookup, h]
  rfl

theorem Model.ByRegion.answer_eq_ok_iff {α : Type} {table : ByRegion α} {topic : Topic}
    {range : Range} {facts : α} :
    table.answer topic range = .ok facts ↔ table.find? range = some facts := by
  rw [answer]
  cases table.find? range <;> simp

theorem Document.span_region_of_classify {patience : Patience}
    (h : Poll.run (d.classify span options).run patience = .ok (.ok s)) :
    s.region.span s.document = .ok s.finalSpan := by
  obtain ⟨b, common, t, own, hstages⟩ := exists_stages h
  have hb := bounds_eq_ok hstages.bounds_eq
  obtain ⟨hscope, hbody⟩ := scopeOf?_valid hstages.scope_eq
  have ht := target_valid hb (hasNode_of_isAncestor hbody).2 hscope hstages.gives_target
  rw [hstages.eq]
  exact span_region_eq_ok ht.tokens ht.firstToken ht.lastToken

/-- Every selection that is found is legal, whatever was asked for. In particular facts about it can
only be missing, never be asked of a region that is none. -/
theorem Document.classify_legal {patience : Patience}
    (h : Poll.run (d.classify span options).run patience = .ok (.ok s)) :
    s.document = d ∧ s.Legal := by
  obtain ⟨b, common, t, own, hstages⟩ := exists_stages h
  have hb := bounds_eq_ok hstages.bounds_eq
  obtain ⟨hscope, hbody⟩ := scopeOf?_valid hstages.scope_eq
  have ht := target_valid hb (hasNode_of_isAncestor hbody).2 hscope hstages.gives_target
  have hspan := span_region_eq_ok ht.tokens ht.firstToken ht.lastToken
  rw [hstages.eq]
  exact ⟨rfl, ht.tokens, between?_tokenSpan ht.tokens, hscope.parent, ht.succeeded, ht.region,
    Selection.type_eq_singleStatement _, hspan, Snapshot.lookup_eq hspan⟩

/-- A statement that is a single name. -/
def Tree.Element.nameStatement (name : String) : Element :=
  .node .expressionStatement
    [.node .nameExpression [.token .identifier name], .token .semicolon ";"]

/-- A class with one method, whose body has the given statements. -/
def Document.ofStatements (statements : List Element) : Document :=
  .ofRoot ⟨.compilationUnit, [.node .classDeclaration [
    .token .classKw "class", .token .whitespace " ", .token .identifier "C", .token .lBrace "\x7b",
    .node .methodDeclaration [
      .node .typeRef [.token .voidKw "void"], .token .whitespace " ", .token .identifier "M",
      .node .parameterList [.token .lParen "(", .token .rParen ")"],
      .node .block (.token .lBrace "\x7b" :: statements ++ [.token .rBrace "\x7d"])],
    .token .rBrace "\x7d"]]⟩ .first

/-- A method with two statements. -/
def Document.ofTwoNames : Document := .ofStatements [.nameStatement "a", .nameStatement "b"]

/-- The two statements are found from the start of the first to the end of the second. -/
theorem ofTwoNames_classify_legal : ∃ s,
    Poll.run (Document.ofTwoNames.classify (.ofLength 17 4) {}).run .unlimited = .ok (.ok s) ∧
      s.region = .statements 6 8 ∧ s.document = .ofTwoNames ∧ s.Legal := by
  have h : (Document.ofTwoNames.select (.ofLength 17 4) {}).toOption.map Selection.region =
      some (.statements 6 8) := by decide +kernel
  obtain ⟨s, hs, hregion⟩ := Document.exists_of_select_map h
  exact ⟨s, hs, hregion, Document.classify_legal hs⟩

end ExtractMethod
