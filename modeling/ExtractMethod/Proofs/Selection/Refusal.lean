import ExtractMethod.Proofs.Document.Ancestry
import ExtractMethod.Proofs.Selection.Legal

/-! The reasons for which a span is refused. That two tokens have no node around them is none of
these, as any two tokens of a document have one. -/
namespace ExtractMethod

open Poll (Fails Gives Steady)
open Text (Range)

/-- The reasons for which a span may be refused. -/
def refusals : List String :=
  [Reason.invalidSelection, Reason.noValidToken, Reason.noValidSelection, Reason.notInType,
    Reason.constantInitializer, Reason.refOrOutArgument, Reason.noValidStatementRange,
    Reason.containsErrors, Reason.cutsDirectives, Reason.containsYield]

/-- A failure for one of these reasons. -/
def Verdict.IsRefusal (v : Verdict) : Prop := ∃ reason ∈ refusals, v = .failed reason

theorem Verdict.isRefusal_failed {reason : String} (h : reason ∈ refusals) :
    (failed reason).IsRefusal := ⟨reason, h, rfl⟩

namespace Poll

variable {α β : Type} {x : Poll α} {y : ExceptT Verdict Poll α} {g : α → ExceptT Verdict Poll β}
  {a : α} {reason : String}

/-- Whatever error the computation ends with is a refusal. -/
def OnlyRefuses (y : ExceptT Verdict Poll α) : Prop := ∀ v, Fails y v → v.IsRefusal

theorem onlyRefuses_pure : OnlyRefuses (pure a : ExceptT Verdict Poll α) := by
  intro v h
  exact absurd h not_fails_pure

theorem onlyRefuses_liftM [Steady x] : OnlyRefuses (liftM x : ExceptT Verdict Poll α) := by
  intro v h
  exact absurd h not_fails_liftM

theorem onlyRefuses_throw (h : reason ∈ refusals) :
    OnlyRefuses (throw (.failed reason) : ExceptT Verdict Poll α) := by
  intro v hv
  cases answers_pure.mp hv
  exact Verdict.isRefusal_failed h

/-- The second part has to refuse only after what the first part gives. -/
theorem onlyRefuses_bind [Steady y.run] (hy : OnlyRefuses y)
    (hg : ∀ a, Gives y a → OnlyRefuses (g a)) : OnlyRefuses (y >>= g) := by
  intro v h
  rcases fails_bind.mp h with h | ⟨a, ha, h⟩
  · exact hy v h
  · exact hg a ha v h

/-- A check before the rest of a computation. -/
theorem onlyRefuses_check {p : Prop} [Decidable p] {after : PUnit → ExceptT Verdict Poll α}
    (h : reason ∈ refusals) (hy : OnlyRefuses y) :
    OnlyRefuses (if p then throw (.failed reason) >>= after else y) := by
  split
  · exact onlyRefuses_bind (onlyRefuses_throw h) fun _ ha => absurd ha not_gives_throw
  · exact hy

end Poll

namespace Document

variable {d : Document} {span : Range} {options : Options} {scope : Scope}
  {b : Bounds} {v : Verdict} {e n first last common : Nat} {allowExpansion : Bool}

open Poll (OnlyRefuses onlyRefuses_bind onlyRefuses_check onlyRefuses_liftM onlyRefuses_pure
  onlyRefuses_throw)

theorem isRefusal_bounds (h : d.bounds span = .error v) : v.IsRefusal := by
  rw [bounds] at h
  split at h
  · cases h
    exact Verdict.isRefusal_failed (by simp [refusals])
  · dsimp only at h
    split at h
    · split at h
      · cases h
        exact Verdict.isRefusal_failed (by simp [refusals])
      · cases h
    · cases h
      exact Verdict.isRefusal_failed (by simp [refusals])

theorem onlyRefuses_requireScope : OnlyRefuses (d.requireScope n) := by
  simp only [requireScope]
  refine onlyRefuses_bind onlyRefuses_liftM fun found _ => ?_
  cases found with
  | none => exact onlyRefuses_throw (by simp [refusals])
  | some scope => exact onlyRefuses_pure

/-- The tokens have a lowest node around them, so the search for one is not what fails. -/
theorem onlyRefuses_surroundings (hf : d.hasToken first) (hl : d.hasToken last) :
    OnlyRefuses (d.surroundings first last) := by
  obtain ⟨c, hc, -⟩ := exists_lowestAroundTokens hf hl
  simp only [surroundings, hc]
  refine onlyRefuses_bind onlyRefuses_liftM fun _ _ => ?_
  refine onlyRefuses_bind onlyRefuses_requireScope fun _ _ => ?_
  refine onlyRefuses_bind onlyRefuses_requireScope fun _ _ => ?_
  split
  · exact onlyRefuses_bind onlyRefuses_requireScope fun _ _ => onlyRefuses_pure
  · exact onlyRefuses_throw (by simp [refusals])

theorem onlyRefuses_checkExpression : OnlyRefuses (d.checkExpression scope e) := by
  simp only [checkExpression]
  refine onlyRefuses_bind onlyRefuses_liftM fun _ _ => ?_
  refine onlyRefuses_check (by simp [refusals]) ?_
  split
  · exact onlyRefuses_throw (by simp [refusals])
  · exact onlyRefuses_pure

theorem onlyRefuses_statementTarget : OnlyRefuses (d.statementTarget allowExpansion scope b) := by
  unfold statementTarget
  extract_lets finish
  have hfinish (found : Option Run) : OnlyRefuses (finish found) := by
    simp only [finish]
    split
    · exact onlyRefuses_throw (by simp [refusals])
    · split
      · exact onlyRefuses_pure
      · exact onlyRefuses_throw (by simp [refusals])
  cases allowExpansion with
  | true => exact onlyRefuses_bind onlyRefuses_liftM fun found _ => hfinish found
  | false => exact onlyRefuses_bind onlyRefuses_liftM fun found _ => hfinish found

theorem onlyRefuses_target : OnlyRefuses (d.target allowExpansion common scope b) := by
  simp only [target]
  refine onlyRefuses_bind onlyRefuses_liftM fun found _ => ?_
  cases found with
  | none => exact onlyRefuses_statementTarget
  | some e => exact onlyRefuses_bind onlyRefuses_checkExpression fun _ _ => onlyRefuses_pure

/-- Whenever a span is refused, it is for one of the ten reasons. -/
theorem onlyRefuses_classify : OnlyRefuses (d.classify span options) := by
  simp only [classify]
  refine onlyRefuses_bind (fun v hv => isRefusal_bounds (Poll.fails_mk.mp hv)) fun b hb => ?_
  have htokens := bounds_eq_ok (Poll.gives_mk.mp hb)
  refine onlyRefuses_bind (onlyRefuses_surroundings htokens.hasToken_first htokens.hasToken_last)
    fun _ _ => ?_
  refine onlyRefuses_bind onlyRefuses_target fun _ _ => ?_
  refine onlyRefuses_check (by simp [refusals]) ?_
  refine onlyRefuses_check (by simp [refusals]) ?_
  refine onlyRefuses_bind onlyRefuses_liftM fun _ _ => ?_
  exact onlyRefuses_check (by simp [refusals]) onlyRefuses_pure

theorem noCommonRoot_not_mem_refusals : Reason.noCommonRoot ∉ refusals := by decide

end Document

/-- Any two nodes have a lowest node around them, in whichever order they are given, and any two
tokens have one with both of them below it. So no span is refused for want of a common root. -/
theorem Document.commonAncestor_lowest (d : Document) :
    (∀ a b, d.hasNode a → d.hasNode b → ∃ c, d.commonAncestor? a b = some c ∧
      d.commonAncestor? b a = some c ∧ c ∈ d.ancestors a ∧ c ∈ d.ancestors b ∧
      ∀ n ∈ d.ancestors a, n ∈ d.ancestors b → n ∈ d.ancestors c) ∧
    (∀ s t, d.hasToken s → d.hasToken t → ∃ c, d.commonAncestorOfTokens? s t = some c ∧
      s ∈ d.tokensUnder c ∧ t ∈ d.tokensUnder c ∧
      ∀ n, s ∈ d.tokensUnder n → t ∈ d.tokensUnder n → n ∈ d.ancestors c) ∧
    ∀ span options patience,
      Poll.run (d.classify span options).run patience ≠
        .ok (.error (.failed Reason.noCommonRoot)) := by
  refine ⟨?_, ?_, ?_⟩
  · intro a b ha hb
    obtain ⟨c, hc, hc', hca, hcb, hlowest⟩ := exists_lowestAround ha hb
    refine ⟨c, hc, hc', mem_ancestors_of_isAncestor hca, mem_ancestors_of_isAncestor hcb, ?_⟩
    intro n hna hnb
    rw [mem_ancestors_iff ha] at hna
    rw [mem_ancestors_iff hb] at hnb
    exact mem_ancestors_of_isAncestor (hlowest n hna hnb)
  · intro s t hs ht
    obtain ⟨c, hc, hsc, htc, hlowest⟩ := exists_lowestAroundTokens hs ht
    exact ⟨c, hc, hsc, htc, fun n hns hnt => mem_ancestors_of_isAncestor (hlowest n hns hnt)⟩
  · intro span options patience h
    obtain ⟨reason, hreason, heq⟩ := onlyRefuses_classify _ (Poll.answers_of_run h)
    have hmem : Reason.noCommonRoot ∈ (Verdict.failed reason).reasons := by
      rw [← heq]
      exact Verdict.mem_reasons_because.mpr ⟨rfl, by decide⟩
    obtain ⟨rfl, -⟩ := Verdict.mem_reasons_because.mp hmem
    exact noCommonRoot_not_mem_refusals hreason

/-- The names in two statements of a block have the block as the lowest node around them, and so
have the tokens of the names. -/
theorem ofTwoNames_commonAncestor_lowest :
    (Document.ofTwoNames.hasNode 7 ∧ Document.ofTwoNames.hasNode 9 ∧
      Document.ofTwoNames.commonAncestor? 7 9 = some 5 ∧
      Document.ofTwoNames.commonAncestor? 9 7 = some 5 ∧
      ∀ n ∈ Document.ofTwoNames.ancestors 7, n ∈ Document.ofTwoNames.ancestors 9 →
        n ∈ Document.ofTwoNames.ancestors 5) ∧
    Document.ofTwoNames.hasToken 10 ∧ Document.ofTwoNames.hasToken 12 ∧
      Document.ofTwoNames.commonAncestorOfTokens? 10 12 = some 5 ∧
      10 ∈ Document.ofTwoNames.tokensUnder 5 ∧ 12 ∈ Document.ofTwoNames.tokensUnder 5 := by
  obtain ⟨hnodes, htokens, -⟩ := Document.commonAncestor_lowest .ofTwoNames
  constructor
  · have ha : Document.ofTwoNames.hasNode 7 := by decide +kernel
    have hb : Document.ofTwoNames.hasNode 9 := by decide +kernel
    have hcommon : Document.ofTwoNames.commonAncestor? 7 9 = some 5 := by decide +kernel
    obtain ⟨c, hc, hc', -, -, hlowest⟩ := hnodes 7 9 ha hb
    obtain rfl : c = 5 := Option.some.inj (hc.symm.trans hcommon)
    exact ⟨ha, hb, hc, hc', hlowest⟩
  · have hs : Document.ofTwoNames.hasToken 10 := by decide +kernel
    have ht : Document.ofTwoNames.hasToken 12 := by decide +kernel
    have hcommon : Document.ofTwoNames.commonAncestorOfTokens? 10 12 = some 5 := by decide +kernel
    obtain ⟨c, hc, hsc, htc, -⟩ := htokens 10 12 hs ht
    obtain rfl : c = 5 := Option.some.inj (hc.symm.trans hcommon)
    exact ⟨hs, ht, hc, hsc, htc⟩

end ExtractMethod
