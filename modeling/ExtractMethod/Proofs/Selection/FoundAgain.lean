import ExtractMethod.Proofs.Selection.Legal
import ExtractMethod.Proofs.Selection.Search

/-! Which runs are found again if one searches from their own first to their own last token. -/
namespace ExtractMethod

open Text (Range)

/-- The node is a loop. Its header or its trailer has one of the tokens, and a statement of it has
the other. -/
def Document.IsLoopAround (d : Document) (first last p : Nat) : Prop :=
  d.kind p = .loopBlock ∧ ∃ u v, d.parent? u = some p ∧ d.parent? v = some p ∧
    (d.kind u).isStatement ∧ (d.kind v).isStatement ∧ first ∈ d.tokensUnder u ∧
    last ∈ d.tokensUnder v ∧ (d.isLoopEdge u ∨ d.isLoopEdge v)

/-- The run goes from the first token to the last one, and need not be widened. -/
structure Run.IsFinal (d : Document) (body first last : Nat) (r : Run) : Prop where
  valid : r.Valid d body
  firstToken : d.firstToken? r.first = some first
  lastToken : d.lastToken? r.last = some last
  notWidened : d.loopContainer? r = none

/-- The ends of a run lie in its list. -/
theorem Run.IsFinal.mem_container {d : Document} {body first last : Nat} {r : Run}
    (h : r.IsFinal d body first last) :
    first ∈ d.tokensUnder r.container ∧ last ∈ d.tokensUnder r.container :=
  ⟨Document.mem_tokensUnder_of_isAncestor (Document.parent?_isAncestor h.valid.parent_first).2
      (Document.firstToken?_eq_some h.firstToken).1,
    Document.mem_tokensUnder_of_isAncestor (Document.parent?_isAncestor h.valid.parent_last).2
      (Document.lastToken?_eq_some h.lastToken).1⟩

namespace Document

variable {d : Document} {scope : Scope} {span span' : Range} {run : Run}
  {a c n first last : Nat}

/-- Only one child of a node has a token below it. -/
theorem eq_of_mem_tokensUnder (ha : d.parent? a = some c) (hn : d.parent? n = some c)
    (hta : first ∈ d.tokensUnder a) (htn : first ∈ d.tokensUnder n) : a = n :=
  Nat.le_antisymm (le_of_mem_tokensUnder ha hn hta htn (Nat.le_refl _))
    (le_of_mem_tokensUnder hn ha htn hta (Nat.le_refl _))

/-- The smallest run around the ends of a final run is found to be that run unless there is a lower
list around them. Such a list has to be a loop of which the run consists. -/
theorem smallestRun_again_iff (h : run.IsFinal d scope.body first last) :
    (∃ r : Run, r.IsSmallest d scope first last ∧ (d.widenLoop r).1 = run) ↔
      ∀ c, d.isAncestor run.first c → (d.kind c).isStatementContainer → d.HoldsListed c first →
        d.HoldsListed c last → c = run.first ∧ d.IsLoopAround first last c := by
  obtain ⟨hvalid, hfirst, hlast, hnone⟩ := h
  have hf := (firstToken?_eq_some hfirst).1
  have hl := (lastToken?_eq_some hlast).1
  constructor
  · rintro ⟨r, hr, hwiden⟩ c hc hlist hcf hcl
    cases hloop : d.loopContainer? r with
    | none =>
      obtain rfl : r = run := by rwa [widenLoop_of_none hloop] at hwiden
      obtain ⟨hlt, hcontainer⟩ := parent?_isAncestor hvalid.parent_first
      have heq := hr.lowest.lowest c (isAncestor_trans hcontainer hc) hlist hcf hcl
      have := (isAncestor_iff.mp hc).1
      omega
    | some q =>
      obtain rfl : run = ⟨q, r.container, r.container⟩ := by
        rw [← hwiden, widenLoop_of_some hloop]
      obtain rfl := hr.lowest.lowest c hc hlist hcf hcl
      obtain ⟨hkind, hedge, -⟩ := loopContainer?_eq_some_iff.mp hloop
      exact ⟨rfl, hkind, r.first, r.last, hr.valid.parent_first, hr.valid.parent_last,
        hr.valid.first_isStatement, hr.valid.last_isStatement, hr.mem_first, hr.mem_last, hedge⟩
  · intro hlower
    have hcf := holdsListed_of_parent? hvalid.parent_first hvalid.isList hvalid.first_isStatement hf
    have hcl := holdsListed_of_parent? hvalid.parent_last hvalid.isList hvalid.last_isStatement hl
    obtain ⟨q, hcq, hq⟩ := exists_isLowestList hvalid.inBody hvalid.isList hcf hcl
    by_cases heq : run.container = q
    · exact ⟨run, ⟨hvalid, hf, hl, heq ▸ hq⟩, by rw [widenLoop_of_none hnone]⟩
    · -- The lower list lies in the only statement of the run.
      obtain ⟨p, hp, hpq⟩ := exists_child hcq heq
      have hpf := eq_of_mem_tokensUnder hvalid.parent_first hp hf
        (mem_tokensUnder_of_isAncestor hpq hq.holds_first.mem_tokensUnder)
      have hpl := eq_of_mem_tokensUnder hvalid.parent_last hp hl
        (mem_tokensUnder_of_isAncestor hpq hq.holds_last.mem_tokensUnder)
      obtain ⟨hqf, hkind, u, v, hu, hv, hsu, hsv, hfu, hlv, hedge⟩ :=
        hlower q (hpf ▸ hpq) hq.isList hq.holds_first hq.holds_last
      have hle := (hvalid.tokenPair hfirst hlast).first_le_last
      have hql : q = run.last := hqf.trans (hpf.trans hpl.symm)
      have hr : Run.Valid d scope.body ⟨q, u, v⟩ :=
        ⟨hq.inBody, hq.isList, hu, hv, hsu, hsv, le_of_mem_tokensUnder hu hv hfu hlv hle⟩
      refine ⟨⟨q, u, v⟩, ⟨hr, hfu, hlv, hq⟩, ?_⟩
      rw [widenLoop_of_some (loopContainer?_eq_some_iff.mpr
        ⟨hkind, hedge, hqf ▸ hvalid.parent_first, hvalid.isList⟩)]
      change Run.mk run.container q q = Run.mk run.container run.first run.last
      rw [← hqf, ← hql]

/-- Of two children of one node the text of the first one ends before that of the second one. -/
theorem stop_le_start_of_lt (ha : d.parent? a = some c) (hn : d.parent? n = some c) (hlt : a < n) :
    (d.fullRange a).stop ≤ (d.fullRange n).start := by
  rcases holds_or_precedes hlt (hasNode_of_parent? hn) with hholds | hprecedes
  · have hnot := not_isAncestor_of_parent?_eq ha hn (Nat.ne_of_lt hlt)
    exact absurd (isAncestor_iff.mpr ⟨Nat.le_of_lt hlt, hholds.lt_subtreeStop⟩) hnot
  · exact hprecedes.stop_le

/-- The span of a run covers all that lies in the list from its first to its last statement. -/
theorem covers_span (h : run.IsFinal d a first last) (hn : d.parent? n = some run.container)
    (hfn : run.first ≤ n) (hnl : n ≤ run.last) : (d.tokenSpan first last).covers (d.span n) := by
  obtain ⟨hvalid, hfirst, hlast, -⟩ := h
  obtain ⟨hstart, hstop⟩ := tokenSpan_eq (hvalid.tokenPair hfirst hlast)
  obtain ⟨hf, hsf, hmin⟩ := firstToken?_eq_some hfirst
  obtain ⟨hl, hsl, hmax⟩ := lastToken?_eq_some hlast
  simp only [Range.covers, Bool.and_eq_true, decide_eq_true_eq, hstart, hstop]
  cases hfn' : d.firstToken? n with
  | some f =>
    obtain ⟨hfu, hsfu, -⟩ := firstToken?_eq_some hfn'
    obtain ⟨l, hln'⟩ := exists_lastToken? hfu hsfu
    obtain ⟨hlu, hslu, -⟩ := lastToken?_eq_some hln'
    obtain ⟨hspanStart, hspanStop⟩ := span_eq hfn' hln'
    have hle : first ≤ f := by
      rcases Nat.lt_or_eq_of_le hfn with hlt | rfl
      · have hnot := not_isAncestor_of_parent?_eq hvalid.parent_first hn (Nat.ne_of_lt hlt)
        exact Nat.le_of_lt (lt_of_mem_tokensUnder hf hfu hlt hnot)
      · exact hmin f hfu hsfu
    have hge : l ≤ last := by
      rcases Nat.lt_or_eq_of_le hnl with hlt | rfl
      · have hnot := not_isAncestor_of_parent?_eq hn hvalid.parent_last (Nat.ne_of_lt hlt)
        exact Nat.le_of_lt (lt_of_mem_tokensUnder hlu hl hlt hnot)
      · exact hmax l hlu hslu
    rw [hspanStart, hspanStop]
    exact ⟨start_le_start hle (hasToken_of_mem_tokensUnder hfu),
      stop_le_stop hge (hasToken_of_mem_tokensUnder hl)⟩
  | none =>
    -- Without a token of its own the node lies between the ends of the run.
    have hnone {t : Nat} (ht : t ∈ d.tokensUnder n) : ¬ d.isSignificant t := by
      intro hst
      obtain ⟨f, hf'⟩ := exists_firstToken? ht hst
      cases hfn'.symm.trans hf'
    have hlt : run.first < n := Nat.lt_of_le_of_ne hfn fun heq => hnone (heq ▸ hf) hsf
    have hlt' : n < run.last := Nat.lt_of_le_of_ne hnl fun heq => hnone (heq ▸ hl) hsl
    have hspan : d.span n = d.fullRange n := by simp [span, hfn']
    have := stop_le_start_of_lt hvalid.parent_first hn hlt
    have := stop_le_start_of_lt hn hvalid.parent_last hlt'
    have := (range_of_mem_tokensUnder hf).2
    have := (range_of_mem_tokensUnder hl).1
    have := (d.token first).range.start_le_stop
    have := (d.token last).range.start_le_stop
    rw [hspan]
    omega

/-- The statements of a run are candidates in its span. -/
theorem isCandidate_tokenSpan (h : run.IsFinal d scope.body first last)
    (hn : d.parent? n = some run.container) (hkind : (d.kind n).isStatement)
    (hfn : run.first ≤ n) (hnl : n ≤ run.last) :
    d.IsCandidate scope (d.tokenSpan first last) n := by
  obtain ⟨hlt, hcontainer⟩ := parent?_isAncestor hn
  refine ⟨isAncestor_trans h.valid.inBody hcontainer, ?_,
    isInStatementList_iff.mpr ⟨hkind, _, hn, h.valid.isList⟩, covers_span h hn hfn hnl⟩
  have := (isAncestor_iff.mp h.valid.inBody).1
  omega

/-- A smaller span has fewer candidates. -/
theorem IsCandidate.mono (h : d.IsCandidate scope span' n) (hspan : span.covers span') :
    d.IsCandidate scope span n := by
  refine ⟨h.inBody, h.ne_body, h.isListed, ?_⟩
  have hcovers := h.covers
  simp only [Range.covers, Bool.and_eq_true, decide_eq_true_eq] at hspan hcovers ⊢
  omega

/-- A span that covers the ends of a run covers its span. -/
theorem covers_tokenSpan (h : run.IsFinal d a first last) (hfirst : span.covers (d.span run.first))
    (hlast : span.covers (d.span run.last)) : span.covers (d.tokenSpan first last) := by
  obtain ⟨hstart, hstop⟩ := tokenSpan_eq (h.valid.tokenPair h.firstToken h.lastToken)
  obtain ⟨hf, hsf, -⟩ := firstToken?_eq_some h.firstToken
  obtain ⟨hl, hsl, -⟩ := lastToken?_eq_some h.lastToken
  obtain ⟨_, hfirst'⟩ := exists_lastToken? hf hsf
  obtain ⟨_, hlast'⟩ := exists_firstToken? hl hsl
  simp only [Range.covers, Bool.and_eq_true, decide_eq_true_eq, hstart, hstop,
    span_eq h.firstToken hfirst', span_eq hlast' h.lastToken] at hfirst hlast ⊢
  exact ⟨hfirst.1, hlast.2⟩

/-- The largest run in a span is the largest one in its own span. -/
theorem isLargest_tokenSpan (h : run.IsFinal d scope.body first last)
    (hrun : run.IsLargest d scope span) : run.IsLargest d scope (d.tokenSpan first last) := by
  have hends := h.valid.first_le_last
  have hfirst := isCandidate_tokenSpan h h.valid.parent_first h.valid.first_isStatement
    (Nat.le_refl _) hends
  have hlast := isCandidate_tokenSpan h h.valid.parent_last h.valid.last_isStatement hends
    (Nat.le_refl _)
  have hmono {n : Nat} (hn : d.IsCandidate scope (d.tokenSpan first last) n) :
      d.IsCandidate scope span n :=
    hn.mono (covers_tokenSpan h hrun.first.isCandidate.covers hrun.last.isCandidate.covers)
  refine ⟨⟨hfirst, fun m hm => hrun.first.highest m (hmono hm)⟩,
    ⟨hlast, fun m hm => hrun.last.highest m (hmono hm)⟩, fun n hn => ?_⟩
  obtain ⟨m, hm, hmn⟩ := exists_isOutermost (hmono hn.isCandidate)
  obtain ⟨hmr, hfm, hml⟩ := hrun.between m hm
  have hkind := (isInStatementList_iff.mp hm.isCandidate.isListed).1
  obtain rfl := hn.highest m (isCandidate_tokenSpan h hmr hkind hfm hml) hmn
  exact ⟨hmr, hfm, hml⟩

/-- The largest run in the span of a run that was found as the largest one is found to be that run,
unless it was widened and there are other statements in the span of the whole loop. -/
theorem largestRun_again_iff (h : run.IsFinal d scope.body first last)
    (hfound : ∃ r : Run, r.IsLargest d scope span ∧ (d.widenLoop r).1 = run) :
    (∃ r : Run, r.IsLargest d scope (d.tokenSpan first last) ∧ (d.widenLoop r).1 = run) ↔
      ∀ n, d.IsCandidate scope (d.tokenSpan first last) n → ∃ m, d.parent? m = some run.container ∧
        run.first ≤ m ∧ m ≤ run.last ∧ d.isAncestor m n := by
  have hfirst := isCandidate_tokenSpan h h.valid.parent_first h.valid.first_isStatement
    (Nat.le_refl _) h.valid.first_le_last
  constructor
  · rintro ⟨r, hr, hwiden⟩ n hn
    cases hloop : d.loopContainer? r with
    | none =>
      obtain rfl : r = run := by rwa [widenLoop_of_none hloop] at hwiden
      obtain ⟨m, hm, hmn⟩ := exists_isOutermost hn
      obtain ⟨hmr, hfm, hml⟩ := hr.between m hm
      exact ⟨m, hmr, hfm, hml, hmn⟩
    | some q =>
      -- The loop lies in its own span, and so none of its statements is outermost there.
      obtain rfl : run = ⟨q, r.container, r.container⟩ := by
        rw [← hwiden, widenLoop_of_some hloop]
      obtain ⟨m, hm, hmr⟩ := exists_isOutermost hfirst
      have hle : m ≤ r.container := (isAncestor_iff.mp hmr).1
      have := (parent?_isAncestor (hr.between m hm).1).1
      omega
  · intro hall
    obtain ⟨r, hr, hwiden⟩ := hfound
    refine ⟨run, ?_, by rw [widenLoop_of_none h.notWidened]⟩
    cases hloop : d.loopContainer? r with
    | none =>
      obtain rfl : r = run := by rwa [widenLoop_of_none hloop] at hwiden
      exact isLargest_tokenSpan h hr
    | some q =>
      obtain rfl : run = ⟨q, r.container, r.container⟩ := by
        rw [← hwiden, widenLoop_of_some hloop]
      have hbelow {n : Nat} (hn : d.IsCandidate scope (d.tokenSpan first last) n) :
          d.isAncestor r.container n := by
        obtain ⟨m, -, hfm, hml, hmn⟩ := hall n hn
        obtain rfl := Nat.le_antisymm hml hfm
        exact hmn
      have houtermost : d.IsOutermost scope (d.tokenSpan first last) r.container :=
        ⟨hfirst, fun m hm hmr => isAncestor_antisymm hmr (hbelow hm)⟩
      refine ⟨houtermost, houtermost, fun n hn => ?_⟩
      obtain rfl := hn.highest _ hfirst (hbelow hn.isCandidate)
      exact ⟨h.valid.parent_first, Nat.le_refl _, Nat.le_refl _⟩

end Document

end ExtractMethod
