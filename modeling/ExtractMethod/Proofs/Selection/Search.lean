import ExtractMethod.Proofs.Selection.Expression
import ExtractMethod.Proofs.Selection.Run

/-! What the searches for an expression and for the smallest run find is decided by the tree
alone. -/
namespace ExtractMethod

open Poll (Answers)

/-- Some expression in the body of the scope goes from the first token exactly to the last. -/
def Document.HasExpressionOver (d : Document) (scope : Scope) (first last : Nat) : Prop :=
  ∃ e, d.isAncestor scope.body e ∧ d.spansTokens e first last ∧ (d.kind e).isExpression

/-- Such an expression around which, or at which, all others of them lie. -/
structure Document.IsInnermostExpression (d : Document) (scope : Scope)
    (first last e : Nat) : Prop where
  inBody : d.isAncestor scope.body e
  spansTokens : d.spansTokens e first last
  isExpression : (d.kind e).isExpression
  innermost : ∀ n, d.isAncestor scope.body n → d.spansTokens n first last →
    (d.kind n).isExpression → d.isAncestor n e

/-- The token lies below a listed statement that lies strictly below the node. -/
def Document.HoldsListed (d : Document) (c t : Nat) : Prop :=
  ∃ n, d.isAncestor c n ∧ c ≠ n ∧ d.isInStatementList n ∧ t ∈ d.tokensUnder n

/-- The lowest list in the scope below which both tokens lie in listed statements. -/
structure Document.IsLowestList (d : Document) (scope : Scope) (first last c : Nat) : Prop where
  inBody : d.isAncestor scope.body c
  isList : (d.kind c).isStatementContainer
  holds_first : d.HoldsListed c first
  holds_last : d.HoldsListed c last
  lowest : ∀ m, d.isAncestor c m → (d.kind m).isStatementContainer → d.HoldsListed m first →
    d.HoldsListed m last → c = m

/-- The run lies in the lowest list and goes from the statement around the one token to that around
the other. -/
structure Run.IsSmallest (d : Document) (scope : Scope) (first last : Nat) (r : Run) : Prop where
  valid : r.Valid d scope.body
  mem_first : first ∈ d.tokensUnder r.first
  mem_last : last ∈ d.tokensUnder r.last
  lowest : d.IsLowestList scope first last r.container

namespace Document

variable {d : Document} {scope : Scope} {run : Run} {a c e n p common first last : Nat}

/-- A search upwards answers with what it settles on first. -/
theorem answers_search_ancestors {β : Type} {visit : Nat → Option (Option β)} {y : Option β}
    (h : d.isAncestor a n) (ha : visit a = some y)
    (hbelow : ∀ m, d.isAncestor a m → d.isAncestor m n → a ≠ m → visit m = none) :
    Answers (Poll.search visit (d.ancestors n) >>= fun found => pure found.join) y := by
  refine Poll.answers_bind.mpr ⟨_, Poll.answers_search _ _, Poll.answers_pure.mpr ?_⟩
  rw [findSome?_ancestors h ha hbelow]
  rfl

/-- A node between one that spans the tokens and the tokens themselves spans them as well. -/
theorem spansTokens_between (he : d.spansTokens a first last) (han : d.isAncestor a n)
    (hf : first ∈ d.tokensUnder n) (hl : last ∈ d.tokensUnder n) : d.spansTokens n first last := by
  rw [spansTokens_iff] at he ⊢
  obtain ⟨-, hsf, hmin⟩ := firstToken?_eq_some he.1
  obtain ⟨-, hsl, hmax⟩ := lastToken?_eq_some he.2
  obtain ⟨f, hfirst⟩ := exists_firstToken? hf hsf
  obtain ⟨l, hlast⟩ := exists_lastToken? hl hsl
  obtain ⟨hf', hsf', hmin'⟩ := firstToken?_eq_some hfirst
  obtain ⟨hl', hsl', hmax'⟩ := lastToken?_eq_some hlast
  have := hmin f (mem_tokensUnder_of_isAncestor han hf') hsf'
  have := hmin' first hf hsf
  have := hmax l (mem_tokensUnder_of_isAncestor han hl') hsl'
  have := hmax' last hl hsl
  have hfeq : f = first := by omega
  have hleq : l = last := by omega
  exact ⟨hfeq ▸ hfirst, hleq ▸ hlast⟩

theorem isAncestor_of_spansTokens (hn : d.spansTokens n first last) :
    d.isAncestor n (d.token first).parent := by
  obtain ⟨hf, -⟩ := firstToken?_eq_some (spansTokens_iff.mp hn).1
  exact (mem_tokensUnder_iff (hasToken_of_mem_tokensUnder hf)).mp hf

/-- Of the expressions that go from token to token there is an innermost one. -/
theorem HasExpressionOver.exists_isInnermostExpression (h : d.HasExpressionOver scope first last) :
    ∃ e, d.IsInnermostExpression scope first last e := by
  obtain ⟨e, hbody, htokens, hkind⟩ := h
  obtain ⟨c, hec, hct, ⟨hc, hspans⟩, hlowest⟩ := exists_lowest
    (P := fun n => (d.kind n).isExpression ∧ d.spansTokens n first last)
    (isAncestor_of_spansTokens htokens) ⟨hkind, htokens⟩
  refine ⟨c, isAncestor_trans hbody hec, hspans, hc, fun n _ hn hnkind => ?_⟩
  have hnt := isAncestor_of_spansTokens hn
  rcases Nat.le_total n c with hle | hle
  · exact isAncestor_of_le hnt hct hle
  · have hcn := isAncestor_of_le hct hnt hle
    obtain rfl := hlowest n hcn hnt ⟨hnkind, hn⟩
    exact hcn

/-- All nodes over just two tokens follow each other upwards from the lowest node around them. -/
theorem spansTokens_chain (hf : d.hasToken first) (hl : d.hasToken last)
    (hcommon : d.commonAncestorOfTokens? first last = some common)
    (hn : d.spansTokens n first last) : d.isAncestor n common ∧
      ∀ m, d.isAncestor n m → d.isAncestor m common → d.spansTokens m first last := by
  obtain ⟨hcf, hcl, hlowest⟩ := commonAncestorOfTokens?_eq_some hf hl hcommon
  obtain ⟨hfirst, hlast⟩ := spansTokens_iff.mp hn
  have hnc := hlowest n (firstToken?_eq_some hfirst).1 (lastToken?_eq_some hlast).1
  refine ⟨hnc, fun m hnm hmc => ?_⟩
  exact spansTokens_between hn hnm (mem_tokensUnder_of_isAncestor hmc hcf)
    (mem_tokensUnder_of_isAncestor hmc hcl)

/-- The search upwards from the lowest common node meets the innermost expression first. -/
theorem IsInnermostExpression.answers (hf : d.hasToken first) (hl : d.hasToken last)
    (hcommon : d.commonAncestorOfTokens? first last = some common)
    (h : d.IsInnermostExpression scope first last e) :
    Answers (d.expressionOver scope common first last) (some e) := by
  obtain ⟨hec, hchain⟩ := spansTokens_chain hf hl hcommon h.spansTokens
  refine answers_search_ancestors hec ?_ ?_
  · simp [h.spansTokens, h.inBody, h.isExpression]
  · intro m hem hmc hne
    have hbody := isAncestor_trans h.inBody hem
    have hm : ¬ (d.kind m).isExpression := fun hm =>
      hne (isAncestor_antisymm hem (h.innermost m hbody (hchain m hem hmc) hm))
    simp [hchain m hem hmc, hbody, hm]

/-- The search for an expression finds just the innermost one. -/
theorem answers_expressionOver_iff (hf : d.hasToken first) (hl : d.hasToken last)
    (hcommon : d.commonAncestorOfTokens? first last = some common) :
    Answers (d.expressionOver scope common first last) (some e) ↔
      d.IsInnermostExpression scope first last e := by
  constructor
  · intro h
    obtain ⟨hcf, -⟩ := commonAncestorOfTokens?_eq_some hf hl hcommon
    obtain ⟨-, htokens, hbody, hkind⟩ := expressionOver_eq_some (hasNode_of_mem_tokensUnder hcf) h
    have hexpression : d.HasExpressionOver scope first last := ⟨e, hbody, htokens, hkind⟩
    obtain ⟨c, hc⟩ := hexpression.exists_isInnermostExpression
    cases h.unique (hc.answers hf hl hcommon)
    exact hc
  · exact fun h => h.answers hf hl hcommon

/-- The search for an expression fails exactly if there is none. -/
theorem answers_expressionOver_none_iff (hf : d.hasToken first) (hl : d.hasToken last)
    (hcommon : d.commonAncestorOfTokens? first last = some common) :
    Answers (d.expressionOver scope common first last) none ↔
      ¬ d.HasExpressionOver scope first last := by
  constructor
  · intro h hexpression
    obtain ⟨e, he⟩ := hexpression.exists_isInnermostExpression
    cases h.unique (he.answers hf hl hcommon)
  · intro hnone
    obtain ⟨found, hfound⟩ :=
      (inferInstance : Poll.Steady (d.expressionOver scope common first last)).answers
    cases found with
    | none => exact hfound
    | some e =>
      have he := (answers_expressionOver_iff hf hl hcommon).mp hfound
      exact absurd ⟨e, he.inBody, he.spansTokens, he.isExpression⟩ hnone

theorem HoldsListed.mem_tokensUnder (h : d.HoldsListed c n) : n ∈ d.tokensUnder c := by
  obtain ⟨m, hcm, -, -, hm⟩ := h
  exact mem_tokensUnder_of_isAncestor hcm hm

/-- Below a list that holds both tokens in listed statements there is a lowest one. -/
theorem exists_isLowestList (hbody : d.isAncestor scope.body c)
    (hlist : (d.kind c).isStatementContainer) (hf : d.HoldsListed c first)
    (hl : d.HoldsListed c last) :
    ∃ q, d.isAncestor c q ∧ d.IsLowestList scope first last q := by
  have hholder {q t : Nat} (h : d.HoldsListed q t) : d.isAncestor q (d.token t).parent :=
    (mem_tokensUnder_iff (hasToken_of_mem_tokensUnder h.mem_tokensUnder)).mp h.mem_tokensUnder
  obtain ⟨q, hcq, hqt, ⟨hqlist, hqf, hql⟩, hlowest⟩ := exists_lowest
    (P := fun q => (d.kind q).isStatementContainer ∧ d.HoldsListed q first ∧ d.HoldsListed q last)
    (hholder hf) ⟨hlist, hf, hl⟩
  refine ⟨q, hcq, isAncestor_trans hbody hcq, hqlist, hqf, hql, ?_⟩
  intro m hqm hmlist hmf hml
  exact hlowest m hqm (hholder hmf) ⟨hmlist, hmf, hml⟩

/-- There is only one lowest list. -/
theorem IsLowestList.unique (hc : d.IsLowestList scope first last c)
    (hn : d.IsLowestList scope first last n) : c = n := by
  have hf := hasToken_of_mem_tokensUnder hc.holds_first.mem_tokensUnder
  have hct := (mem_tokensUnder_iff hf).mp hc.holds_first.mem_tokensUnder
  have hnt := (mem_tokensUnder_iff hf).mp hn.holds_first.mem_tokensUnder
  rcases Nat.le_total c n with hle | hle
  · exact hc.lowest n (isAncestor_of_le hct hnt hle) hn.isList hn.holds_first hn.holds_last
  · exact (hn.lowest c (isAncestor_of_le hnt hct hle) hc.isList hc.holds_first hc.holds_last).symm

/-- Below a list in the scope a token has a nearest listed statement. -/
theorem exists_listedAncestor (hbody : d.isAncestor scope.body c) (h : d.HoldsListed c n) :
    ∃ a, Answers (d.listedAncestor scope (d.token n).parent) (some a) ∧ d.isAncestor c a ∧ c ≠ a ∧
      d.isInStatementList a ∧ d.isAncestor a (d.token n).parent := by
  obtain ⟨e, hce, hne, hlisted, he⟩ := h
  have hen := (mem_tokensUnder_iff (hasToken_of_mem_tokensUnder he)).mp he
  obtain ⟨a, hea, han, ha, hlowest⟩ := exists_lowest (P := fun m => d.isInStatementList m)
    hen hlisted
  have hca : c ≠ a := fun heq => hne (isAncestor_antisymm hce (heq ▸ hea))
  have hnotBody {m : Nat} (ham : d.isAncestor a m) : m ≠ scope.body := by
    rintro rfl
    have hcm := isAncestor_trans (isAncestor_trans hce hea) ham
    obtain rfl := isAncestor_antisymm hbody hcm
    exact hca (isAncestor_antisymm (isAncestor_trans hce hea) ham)
  refine ⟨a, answers_search_ancestors han ?_ ?_, isAncestor_trans hce hea, hca, ha, han⟩
  · simp [hnotBody (isAncestor_self (hasNode_of_isAncestor hea).2), ha]
  · intro m ham hmn hne
    have hm : ¬ d.isInStatementList m := fun hm => hne (hlowest m ham hmn hm)
    simp [hnotBody ham, hm]

/-- The child of a node around another one is found. -/
theorem childAbove?_of_parent? (hp : d.parent? p = some c) (h : d.isAncestor p n) :
    d.childAbove? c n = some p := by
  have hsome : (d.childAbove? c n).isSome := by
    rw [childAbove?, List.find?_isSome]
    exact ⟨p, mem_ancestors_of_isAncestor h, by simpa using hp⟩
  obtain ⟨q, hq⟩ := Option.isSome_iff_exists.mp hsome
  obtain ⟨hqn, hqc⟩ := childAbove?_eq_some (hasNode_of_isAncestor h).2 hq
  rw [hq]
  apply congrArg
  apply Classical.byContradiction
  intro hne
  rcases Nat.le_total p q with hle | hle
  · exact not_isAncestor_of_parent?_eq hp hqc (Ne.symm hne) (isAncestor_of_le h hqn hle)
  · exact not_isAncestor_of_parent?_eq hqc hp hne (isAncestor_of_le hqn h hle)

/-- The search for the smallest run ends at the lowest list. -/
theorem answers_smallestRun (h : d.IsLowestList scope first last c) :
    Answers (d.smallestRun scope first last)
      (d.runIn? (d.token first).parent (d.token last).parent c) := by
  obtain ⟨start, hstart, hcs, hnes, hls, hsf⟩ := exists_listedAncestor h.inBody h.holds_first
  obtain ⟨stop, hstop, hct, hnet, hlt, htl⟩ := exists_listedAncestor h.inBody h.holds_last
  have hbelow :
      d.runIn? (d.token first).parent (d.token last).parent c = d.runIn? start stop c := by
    obtain ⟨u, hu, hus⟩ := exists_child hcs hnes
    obtain ⟨v, hv, hvt⟩ := exists_child hct hnet
    rw [runIn?, runIn?, childAbove?_of_parent? hu hus, childAbove?_of_parent? hv hvt,
      childAbove?_of_parent? hu (isAncestor_trans hus hsf),
      childAbove?_of_parent? hv (isAncestor_trans hvt htl)]
  obtain ⟨common, hcommon⟩ := exists_commonAncestor? hcs hct
  obtain ⟨hcommon_start, hcommon_stop, hlowest⟩ :=
    commonAncestor?_eq_some (hasNode_of_isAncestor hcs).2 hcommon
  have hcc := hlowest c hcs hct
  rw [hbelow]
  refine Poll.answers_bind.mpr ⟨_, hstart, Poll.answers_bind.mpr ⟨_, hstop, ?_⟩⟩
  simp only [hcommon]
  refine answers_search_ancestors hcc ?_ ?_
  · simp [h.inBody, hnes, hnet, h.isList]
  · intro m hcm hmc hne
    have hbody := isAncestor_trans h.inBody hcm
    by_cases hends : m = start ∨ m = stop
    · simp [hbody, hends]
    · obtain ⟨hms, hmt⟩ := not_or.mp hends
      have hm : ¬ (d.kind m).isStatementContainer := by
        intro hm
        refine hne (h.lowest m hcm hm ⟨start, isAncestor_trans hmc hcommon_start, hms, hls, ?_⟩
          ⟨stop, isAncestor_trans hmc hcommon_stop, hmt, hlt, ?_⟩)
        · have hf := hasToken_of_mem_tokensUnder h.holds_first.mem_tokensUnder
          exact (mem_tokensUnder_iff hf).mpr hsf
        · have hl := hasToken_of_mem_tokensUnder h.holds_last.mem_tokensUnder
          exact (mem_tokensUnder_iff hl).mpr htl
      simp [hbody, hends, hm]

theorem holdsListed_of_parent? (hp : d.parent? p = some c) (hlist : (d.kind c).isStatementContainer)
    (hkind : (d.kind p).isStatement) (ht : n ∈ d.tokensUnder p) : d.HoldsListed c n := by
  obtain ⟨hlt, hcp⟩ := parent?_isAncestor hp
  exact ⟨p, hcp, Nat.ne_of_lt hlt, isInStatementList_iff.mpr ⟨hkind, c, hp, hlist⟩, ht⟩

/-- The search for the smallest run finds just this run. -/
theorem answers_smallestRun_iff (hf : d.hasToken first) (hl : d.hasToken last)
    (hle : first ≤ last) :
    Answers (d.smallestRun scope first last) (some run) ↔ run.IsSmallest d scope first last := by
  constructor
  · intro h
    obtain ⟨hvalid, hrf, hrl⟩ := smallestRun_eq_some hf hl hle h
    obtain ⟨q, -, hq⟩ := exists_isLowestList hvalid.inBody hvalid.isList
      (holdsListed_of_parent? hvalid.parent_first hvalid.isList hvalid.first_isStatement hrf)
      (holdsListed_of_parent? hvalid.parent_last hvalid.isList hvalid.last_isStatement hrl)
    have hrun := h.unique (answers_smallestRun hq)
    obtain ⟨rfl, -⟩ := runIn?_eq_some (hasNode_of_mem_tokensUnder (mem_tokensUnder_parent hf))
      (hasNode_of_mem_tokensUnder (mem_tokensUnder_parent hl)) hrun.symm
    exact ⟨hvalid, hrf, hrl, hq⟩
  · intro h
    have hchild {p : Nat} (hp : d.parent? p = some run.container) (hkind : (d.kind p).isStatement) :
        d.isInStatementList p :=
      isInStatementList_iff.mpr ⟨hkind, _, hp, h.valid.isList⟩
    have hrun : d.runIn? (d.token first).parent (d.token last).parent run.container = some run := by
      rw [runIn?,
        childAbove?_of_parent? h.valid.parent_first ((mem_tokensUnder_iff hf).mp h.mem_first),
        childAbove?_of_parent? h.valid.parent_last ((mem_tokensUnder_iff hl).mp h.mem_last)]
      simp [hchild h.valid.parent_first h.valid.first_isStatement,
        hchild h.valid.parent_last h.valid.last_isStatement]
    exact hrun ▸ answers_smallestRun h.lowest

end Document

end ExtractMethod
