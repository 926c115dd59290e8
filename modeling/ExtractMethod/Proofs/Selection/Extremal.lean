import ExtractMethod.Proofs.Document.Walk
import ExtractMethod.Proofs.Selection.FoundAgain
import ExtractMethod.Proofs.Selection.Innermost

/-! What the searches find fits best. No run around two tokens is smaller than the one that is
found, no statement of a span is left out of the run in it, and no expression over two tokens lies
below the one that is found. -/
namespace ExtractMethod

open ExtractMethod.Flow (Region)
open Poll (Answers)
open Text (Range)

/-- The node is a statement of the run. -/
structure Run.Has (d : Document) (r : Run) (n : Nat) : Prop where
  parent : d.parent? n = some r.container
  isStatement : (d.kind n).isStatement
  first_le : r.first ≤ n
  le_last : n ≤ r.last

/-- The run lies at or below the body, and each of the two tokens below one of its statements. -/
structure Run.Covers (d : Document) (body first last : Nat) (r : Run) : Prop where
  valid : r.Valid d body
  holds_first : ∃ n, r.Has d n ∧ first ∈ d.tokensUnder n
  holds_last : ∃ n, r.Has d n ∧ last ∈ d.tokensUnder n

/-- Each statement of the run lies at or below one of the other run. -/
def Run.LiesIn (d : Document) (inner outer : Run) : Prop :=
  ∀ n, inner.Has d n → ∃ m, outer.Has d m ∧ d.isAncestor m n

namespace Run

variable {d : Document} {scope : Scope} {run r : Run} {body first last n : Nat}

theorem Valid.has_first (h : r.Valid d body) : r.Has d r.first :=
  ⟨h.parent_first, h.first_isStatement, Nat.le_refl _, h.first_le_last⟩

theorem Valid.has_last (h : r.Valid d body) : r.Has d r.last :=
  ⟨h.parent_last, h.last_isStatement, h.first_le_last, Nat.le_refl _⟩

/-- The tokens lie below listed statements of the container of a run that covers them. -/
theorem Covers.holdsListed (h : r.Covers d body first last) :
    d.HoldsListed r.container first ∧ d.HoldsListed r.container last := by
  obtain ⟨a, ha, hfirst⟩ := h.holds_first
  obtain ⟨b, hb, hlast⟩ := h.holds_last
  exact ⟨Document.holdsListed_of_parent? ha.parent h.valid.isList ha.isStatement hfirst,
    Document.holdsListed_of_parent? hb.parent h.valid.isList hb.isStatement hlast⟩

theorem IsSmallest.covers (h : run.IsSmallest d scope first last) :
    run.Covers d scope.body first last :=
  ⟨h.valid, ⟨_, h.valid.has_first, h.mem_first⟩, ⟨_, h.valid.has_last, h.mem_last⟩⟩

/-- In the lowest list a run that covers the tokens can be cut down to the statements around
them. -/
theorem Covers.exists_isSmallest (h : r.Covers d scope.body first last) (hle : first ≤ last)
    (hlowest : d.IsLowestList scope first last r.container) :
    ∃ run : Run, run.IsSmallest d scope first last := by
  obtain ⟨a, ha, hfirst⟩ := h.holds_first
  obtain ⟨b, hb, hlast⟩ := h.holds_last
  have hab := Document.le_of_mem_tokensUnder ha.parent hb.parent hfirst hlast hle
  have hvalid : Run.Valid d scope.body ⟨r.container, a, b⟩ :=
    ⟨h.valid.inBody, h.valid.isList, ha.parent, hb.parent, ha.isStatement, hb.isStatement, hab⟩
  exact ⟨_, hvalid, hfirst, hlast, hlowest⟩

/-- The smallest run lies in each run that covers the tokens, whether that is in the same list or in
one around it. -/
theorem IsSmallest.liesIn (h : run.IsSmallest d scope first last)
    (hr : r.Covers d scope.body first last) : run.LiesIn d r := by
  obtain ⟨hcf, hcl⟩ := hr.holdsListed
  obtain ⟨q, hrq, hq⟩ := Document.exists_isLowestList hr.valid.inBody hr.valid.isList hcf hcl
  obtain rfl := hq.unique h.lowest
  obtain ⟨a, ha, hfirst⟩ := hr.holds_first
  obtain ⟨b, hb, hlast⟩ := hr.holds_last
  intro n hn
  by_cases heq : r.container = run.container
  · have hpa := ha.parent
    have hpb := hb.parent
    rw [heq] at hpa hpb
    have hfirst_eq := Document.eq_of_mem_tokensUnder hpa h.valid.parent_first hfirst h.mem_first
    have hlast_eq := Document.eq_of_mem_tokensUnder hpb h.valid.parent_last hlast h.mem_last
    have hfirst_le : r.first ≤ n := Nat.le_trans (hfirst_eq ▸ ha.first_le) hn.first_le
    have hle_last : n ≤ r.last := Nat.le_trans hn.le_last (hlast_eq ▸ hb.le_last)
    exact ⟨n, ⟨heq ▸ hn.parent, hn.isStatement, hfirst_le, hle_last⟩,
      Document.isAncestor_self (Document.hasNode_of_parent? hn.parent)⟩
  · -- The list of the smallest run lies below a single statement of the other one.
    obtain ⟨p, hp, hpq⟩ := Document.exists_child hrq heq
    have hpf := Document.mem_tokensUnder_of_isAncestor hpq hq.holds_first.mem_tokensUnder
    obtain rfl := Document.eq_of_mem_tokensUnder ha.parent hp hfirst hpf
    exact ⟨a, ha, Document.isAncestor_trans hpq (Document.parent?_isAncestor hn.parent).2⟩

end Run

/-- The search for the smallest run around two tokens finds a run that covers them and lies in every
other run that does. It finds one exactly if the lowest list that has both tokens in listed
statements has a run that covers them. -/
theorem Document.smallestRun_least {d : Document} {first last : Nat} (hf : d.hasToken first)
    (hl : d.hasToken last) (hle : first ≤ last) (scope : Scope) :
    ∃ found, Answers (d.smallestRun scope first last) found ∧
      (found.isSome ↔ ∃ r : Run, r.Covers d scope.body first last ∧
        d.IsLowestList scope first last r.container) ∧
      ∀ run ∈ found, run.Covers d scope.body first last ∧
        ∀ r : Run, r.Covers d scope.body first last → run.LiesIn d r := by
  have hexact (run : Run) : Answers (d.smallestRun scope first last) (some run) ↔
      run.IsSmallest d scope first last := answers_smallestRun_iff hf hl hle
  obtain ⟨found, hfound, hiff⟩ := Poll.exists_answers_of_iff hexact
  refine ⟨found, hfound, ?_, fun run hrun => ?_⟩
  · rw [Option.isSome_iff_exists]
    constructor
    · rintro ⟨run, hrun⟩
      have hsmallest := (hiff run).mp hrun
      exact ⟨run, hsmallest.covers, hsmallest.lowest⟩
    · rintro ⟨r, hr, hlowest⟩
      obtain ⟨run, hrun⟩ := hr.exists_isSmallest hle hlowest
      exact ⟨run, (hiff run).mpr hrun⟩
  · have hsmallest := (hiff run).mp hrun
    exact ⟨hsmallest.covers, fun r hr => hsmallest.liesIn hr⟩

/-- The assignment of the lambda covers the tokens of the two statements in it. -/
theorem ofLambda_covers : (Run.mk 5 6 6).Covers .ofLambda 5 17 20 := by
  have hvalid : (Run.mk 5 6 6).Valid .ofLambda 5 :=
    ⟨by decide +kernel, by decide +kernel, by decide +kernel, by decide +kernel, by decide +kernel,
      by decide +kernel, Nat.le_refl _⟩
  exact ⟨hvalid, ⟨6, hvalid.has_first, by decide +kernel⟩, ⟨6, hvalid.has_last, by decide +kernel⟩⟩

/-- From the first statement of the lambda to the last one just the two of them are found. -/
theorem ofLambda_smallestRun_least :
    Answers (Document.ofLambda.smallestRun ⟨2, 5, .method⟩ 17 20) (some ⟨11, 12, 14⟩) ∧
      (Run.mk 11 12 14).Covers .ofLambda 5 17 20 ∧
      (Run.mk 11 12 14).LiesIn .ofLambda ⟨5, 6, 6⟩ := by
  have hf : Document.ofLambda.hasToken 17 := by decide +kernel
  have hl : Document.ofLambda.hasToken 20 := by decide +kernel
  have hrun : Answers (Document.ofLambda.smallestRun ⟨2, 5, .method⟩ 17 20) (some ⟨11, 12, 14⟩) :=
    Poll.answers_of_toOption (by decide +kernel)
  obtain ⟨found, hfound, -, hleast⟩ :=
    Document.smallestRun_least hf hl (by decide) ⟨2, 5, .method⟩
  obtain rfl := hfound.unique hrun
  obtain ⟨hcovers, hlies⟩ := hleast _ rfl
  exact ⟨hrun, hcovers, hlies _ ofLambda_covers⟩

section Largest

variable {d : Document} {scope : Scope} {span : Range} {run : Run} {body n : Nat}

/-- Some run is the largest one exactly if there are outermost statements and all of them are in one
list. -/
theorem Document.exists_isLargest_iff : (∃ run : Run, run.IsLargest d scope span) ↔
    (∃ n, d.IsOutermost scope span n) ∧ ∀ m n, d.IsOutermost scope span m →
      d.IsOutermost scope span n → d.parent? m = d.parent? n := by
  constructor
  · rintro ⟨run, hrun⟩
    refine ⟨⟨run.first, hrun.first⟩, fun m n hm hn => ?_⟩
    rw [(hrun.between m hm).1, (hrun.between n hn).1]
  · rintro ⟨⟨n, hn⟩, hparent⟩
    have hne : d.outermost scope span ≠ [] := List.ne_nil_of_mem (mem_outermost_iff.mpr hn)
    have hsorted : (d.outermost scope span).Pairwise (· > ·) :=
      (d.scattered_outermost scope span).imp And.left
    obtain ⟨hlast, hmax⟩ :=
      (head?_eq_some_iff_of_pairwise hsorted).mp (List.head?_eq_some_head hne)
    obtain ⟨hfirst, hmin⟩ :=
      (getLast?_eq_some_iff_of_pairwise hsorted).mp (List.getLast?_eq_some_getLast hne)
    simp only [mem_outermost_iff] at hlast hmax hfirst hmin
    obtain ⟨-, c, hc, -⟩ := isInStatementList_iff.mp hn.isCandidate.isListed
    exact ⟨⟨c, _, _⟩, hfirst, hlast, fun m hm =>
      ⟨(hparent m n hm hn).trans hc, hmin m hm, hmax m hm⟩⟩

/-- The statements of a run begin and end in order, even those without significant tokens. -/
theorem Run.Valid.start_le_stop (h : run.Valid d body) :
    (d.span run.first).start ≤ (d.span run.last).stop := by
  rcases Nat.lt_or_eq_of_le h.first_le_last with hlt | heq
  · have hordered := Document.stop_le_start_of_lt h.parent_first h.parent_last hlt
    have hfirst := d.fullRange_covers_span run.first
    have hlast := d.fullRange_covers_span run.last
    simp only [Range.covers, Bool.and_eq_true, decide_eq_true_eq] at hfirst hlast
    have := (d.span run.first).start_le_stop
    have := (d.span run.last).start_le_stop
    omega
  · rw [heq]
    exact (d.span run.last).start_le_stop

/-- The text of the largest run lies in the span. -/
theorem Run.IsLargest.exists_span_region (h : run.IsLargest d scope span) :
    ∃ range, (Region.statements run.first run.last).span d = .ok range ∧ span.covers range := by
  have hnodes := And.intro (Document.hasNode_of_parent? h.valid.parent_first)
    (Document.hasNode_of_parent? h.valid.parent_last)
  refine ⟨⟨_, _, h.valid.start_le_stop⟩, ?_, ?_⟩
  · simp [Region.span, Region.first, Region.last, hnodes, Range.between?, h.valid.start_le_stop]
  · have hfirst := h.first.isCandidate.covers
    have hlast := h.last.isCandidate.covers
    simp only [Range.covers, Bool.and_eq_true, decide_eq_true_eq] at hfirst hlast ⊢
    exact ⟨hfirst.1, hlast.2⟩

/-- Each listed statement of the span lies at or below a statement of the largest run. -/
theorem Run.IsLargest.exists_has (h : run.IsLargest d scope span)
    (hn : d.IsCandidate scope span n) : ∃ m, run.Has d m ∧ d.isAncestor m n := by
  obtain ⟨m, hm, hmn⟩ := Document.exists_isOutermost hn
  obtain ⟨hparent, hfirst, hlast⟩ := h.between m hm
  obtain ⟨hkind, -⟩ := Document.isInStatementList_iff.mp hm.isCandidate.isListed
  exact ⟨m, ⟨hparent, hkind, hfirst, hlast⟩, hmn⟩

end Largest

/-- The search for the largest run in a span finds one exactly if there are outermost listed
statements of the span and all of them are in one list. The run goes from the first of them to the
last, leaves out no listed statement of the span, and its own text lies in the span. -/
theorem Document.largestRun_greatest (d : Document) (scope : Scope) (span : Range) :
    ∃ found, Answers (d.largestRun scope span) found ∧
      (found.isSome ↔ (∃ n, d.IsOutermost scope span n) ∧ ∀ m n, d.IsOutermost scope span m →
        d.IsOutermost scope span n → d.parent? m = d.parent? n) ∧
      ∀ run ∈ found, run.IsLargest d scope span ∧
        (∀ n, d.IsCandidate scope span n → ∃ m, run.Has d m ∧ d.isAncestor m n) ∧
        ∃ range, (Region.statements run.first run.last).span d = .ok range ∧ span.covers range := by
  have hexact (run : Run) : Answers (d.largestRun scope span) (some run) ↔
      run.IsLargest d scope span := answers_largestRun_iff
  obtain ⟨found, hfound, hiff⟩ := Poll.exists_answers_of_iff hexact
  refine ⟨found, hfound, ?_, fun run hrun => ?_⟩
  · rw [Option.isSome_iff_exists, ← exists_isLargest_iff]
    exact exists_congr hiff
  · have hlargest := (hiff run).mp hrun
    exact ⟨hlargest, fun n => hlargest.exists_has, hlargest.exists_span_region⟩

/-- From the equals sign of the assignment to the end of the lambda the statements in the lambda are
found. -/
theorem ofLambda_largestRun_greatest :
    Answers (Document.ofLambda.largestRun ⟨2, 5, .method⟩ (.ofLength 18 16)) (some ⟨11, 12, 14⟩) ∧
      (Run.mk 11 12 14).IsLargest .ofLambda ⟨2, 5, .method⟩ (.ofLength 18 16) ∧
      ∃ range, (Region.statements 12 14).span .ofLambda = .ok range ∧
        (Range.ofLength 18 16).covers range := by
  have hrun : Answers (Document.ofLambda.largestRun ⟨2, 5, .method⟩ (.ofLength 18 16))
      (some ⟨11, 12, 14⟩) := Poll.answers_of_toOption (by decide +kernel)
  obtain ⟨found, hfound, -, hgreatest⟩ :=
    Document.ofLambda.largestRun_greatest ⟨2, 5, .method⟩ (.ofLength 18 16)
  obtain rfl := hfound.unique hrun
  obtain ⟨hlargest, -, hspan⟩ := hgreatest _ rfl
  exact ⟨hrun, hlargest, hspan⟩

/-- The search for an expression over two tokens, from the lowest node around them upwards, finds
one exactly if there is one in the scope, and all others lie around the one that it finds. It may
end at the first node that has more tokens, as the nodes over just the two follow each other from
the lowest one upwards. -/
theorem Document.expressionOver_innermost {d : Document} {common first last : Nat}
    (hf : d.hasToken first) (hl : d.hasToken last)
    (hcommon : d.commonAncestorOfTokens? first last = some common) (scope : Scope) :
    ∃ found, Answers (d.expressionOver scope common first last) found ∧
      (found.isSome ↔ d.HasExpressionOver scope first last) ∧
      (∀ e ∈ found, d.IsInnermostExpression scope first last e) ∧
      ∀ n, d.spansTokens n first last → d.isAncestor n common ∧
        ∀ m, d.isAncestor n m → d.isAncestor m common → d.spansTokens m first last := by
  have hexact (e : Nat) : Answers (d.expressionOver scope common first last) (some e) ↔
      d.IsInnermostExpression scope first last e := answers_expressionOver_iff hf hl hcommon
  obtain ⟨found, hfound, hiff⟩ := Poll.exists_answers_of_iff hexact
  refine ⟨found, hfound, ?_, fun e he => (hiff e).mp he, fun n => spansTokens_chain hf hl hcommon⟩
  rw [Option.isSome_iff_exists]
  constructor
  · rintro ⟨e, he⟩
    have hinnermost := (hiff e).mp he
    exact ⟨e, hinnermost.inBody, hinnermost.spansTokens, hinnermost.isExpression⟩
  · intro h
    obtain ⟨e, he⟩ := h.exists_isInnermostExpression
    exact ⟨e, (hiff e).mpr he⟩

/-- From the first token of the lambda to its last one the lambda is found. -/
theorem ofLambda_expressionOver_innermost :
    Document.ofLambda.commonAncestorOfTokens? 12 21 = some 9 ∧
      Answers (Document.ofLambda.expressionOver ⟨2, 5, .method⟩ 9 12 21) (some 9) ∧
      Document.ofLambda.IsInnermostExpression ⟨2, 5, .method⟩ 12 21 9 := by
  have hf : Document.ofLambda.hasToken 12 := by decide +kernel
  have hl : Document.ofLambda.hasToken 21 := by decide +kernel
  have hcommon : Document.ofLambda.commonAncestorOfTokens? 12 21 = some 9 := by decide +kernel
  have hrun : Answers (Document.ofLambda.expressionOver ⟨2, 5, .method⟩ 9 12 21) (some 9) :=
    Poll.answers_of_toOption (by decide +kernel)
  obtain ⟨found, hfound, -, hinnermost, -⟩ :=
    Document.expressionOver_innermost hf hl hcommon ⟨2, 5, .method⟩
  obtain rfl := hfound.unique hrun
  exact ⟨hcommon, hrun, hinnermost _ rfl⟩

end ExtractMethod
