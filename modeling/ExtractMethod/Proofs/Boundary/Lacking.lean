import ExtractMethod.Proofs.Boundary.Classification

/-! What a host must know to have the candidates judged. The first candidate for which something is
missing is the one that is reported. -/
namespace ExtractMethod.Boundary

open ExtractMethod.Flow (DataFlow Flags)
open Model (Snapshot Symbol)
open Poll (Fails Gives)

variable {s : Selection} {options : Options} {model : Snapshot} {facts : DataFlow}
  {raw : Flags} {symbol : Symbol} {id : Nat} {entry : Nat × Flags} {e : AnalysisError}

/-- The candidate may cross the boundary: it is not left out, and it is seen outside. -/
structure MayCross (s : Selection) (symbol : Symbol) (raw : Flags) : Prop where
  notExempt : exemption? s symbol = none
  notLocal : ¬ isLocalToRegion (adjust raw symbol.isStaticLocal)

/-- The host does not know the symbol of a candidate, or has no type for one that may cross. -/
inductive Lacks (s : Selection) (model : Snapshot) : Nat × Flags → AnalysisError → Prop where
  | symbol {id : Nat} {raw : Flags} (hc : raw.isCandidate) (h : model.symbol? id = none) :
    Lacks s model (id, raw) (.unknownSymbol id)
  | type {id : Nat} {raw : Flags} {symbol : Symbol} (hc : raw.isCandidate)
    (hsymbol : model.symbol? id = some symbol) (hcross : MayCross s symbol raw)
    (hty : symbol.ty = none) : Lacks s model (id, raw) (.missingType id symbol.name)

/-- The error is about the first candidate for which the host lacks something. -/
def LacksFirst (s : Selection) (model : Snapshot) (facts : DataFlow) (e : AnalysisError) : Prop :=
  ∃ before entry after, facts.entries = before ++ entry :: after ∧
    (∀ earlier ∈ before, ∀ e, ¬ Lacks s model earlier e) ∧ Lacks s model entry e

/-- The host knows the symbols of all candidates and the types of those that may cross. -/
structure KnowsCandidates (s : Selection) (model : Snapshot) (facts : DataFlow) : Prop where
  symbols : ∀ id raw, facts.get? id = some raw → raw.isCandidate →
    ∃ symbol, model.symbol? id = some symbol
  types : ∀ id raw symbol, facts.get? id = some raw → raw.isCandidate →
    model.symbol? id = some symbol → MayCross s symbol raw → ∃ ty, symbol.ty = some ty

theorem knowsCandidates_iff :
    KnowsCandidates s model facts ↔ ∀ entry ∈ facts.entries, ∀ e, ¬ Lacks s model entry e := by
  constructor
  · rintro ⟨hsymbols, htypes⟩ ⟨id, raw⟩ hentry e hlacks
    have hraw := Keyed.get?_eq_some_iff.mpr hentry
    cases hlacks with
    | symbol hc hnone =>
      obtain ⟨symbol, hsymbol⟩ := hsymbols id raw hraw hc
      rw [hsymbol] at hnone
      cases hnone
    | type hc hsymbol hcross hnone =>
      obtain ⟨ty, hty⟩ := htypes id raw _ hraw hc hsymbol hcross
      rw [hty] at hnone
      cases hnone
  · intro h
    refine ⟨?_, ?_⟩
    · intro id raw hraw hc
      rw [← Option.ne_none_iff_exists']
      exact fun hnone => h _ (Keyed.get?_eq_some_iff.mp hraw) _ (.symbol hc hnone)
    · intro id raw symbol hraw hc hsymbol hcross
      rw [← Option.ne_none_iff_exists']
      exact fun hnone =>
        h _ (Keyed.get?_eq_some_iff.mp hraw) _ (.type hc hsymbol hcross hnone)

theorem judgeVariable_eq_error_iff : judgeVariable s options model id symbol raw = .error e ↔
    ¬ isLocalToRegion (adjust raw symbol.isStaticLocal) ∧ symbol.ty = none ∧
      e = .missingType id symbol.name := by
  unfold judgeVariable
  dsimp only
  split
  · next hl => simp [hl]
  · next hl =>
    split
    · next hty => simp [hl, hty, eq_comm]
    · next ty hty =>
      split <;> simp [hty]

theorem judge_eq_error_iff : judge s options model entry = .error e ↔ Lacks s model entry e := by
  obtain ⟨id, raw⟩ := entry
  constructor
  · intro h
    unfold judge at h
    dsimp only at h
    split at h
    · next hc =>
      split at h
      · next hnone =>
        cases h
        exact .symbol hc hnone
      · next symbol hsymbol =>
        split at h
        · cases h
        · next he =>
          cases hfate : judgeVariable s options model id symbol raw with
          | ok fate =>
            rw [hfate] at h
            cases h
          | error e' =>
            rw [hfate] at h
            cases h
            obtain ⟨hl, hty, rfl⟩ := judgeVariable_eq_error_iff.mp hfate
            exact .type hc hsymbol ⟨he, hl⟩ hty
    · cases h
  · intro h
    cases h with
    | symbol hc hnone => simp [judge, hc, hnone]
    | type hc hsymbol hcross hty =>
      have hfate : judgeVariable s options model id _ raw = .error _ :=
        judgeVariable_eq_error_iff.mpr ⟨hcross.notLocal, hty, rfl⟩
      simp [judge, hc, hsymbol, hcross.notExempt, hfate, Except.map]

theorem exists_judge_iff :
    (∃ found, judge s options model entry = .ok found) ↔ ∀ e, ¬ Lacks s model entry e := by
  cases h : judge s options model entry with
  | ok found =>
    refine iff_of_true ⟨found, rfl⟩ fun e hlacks => ?_
    have herror : judge s options model entry = .error e := judge_eq_error_iff.mpr hlacks
    rw [h] at herror
    cases herror
  | error e =>
    refine iff_of_false (by simp) fun hnone => hnone e ?_
    exact judge_eq_error_iff.mp h

theorem exists_gives_classify_iff :
    (∃ c, Gives (classify s options model facts) c) ↔ KnowsCandidates s model facts := by
  rw [knowsCandidates_iff]
  constructor
  · rintro ⟨c, hc⟩ entry hentry
    obtain ⟨judgements, hj, -⟩ := gives_classify.mp hc
    exact exists_judge_iff.mp ((Poll.gives_collect.mp hj).1 entry hentry)
  · intro h
    have hall : ∀ entry ∈ facts.entries, ∃ found, judge s options model entry = .ok found :=
      fun entry hentry => exists_judge_iff.mpr (h entry hentry)
    exact ⟨_, gives_classify.mpr ⟨_, Poll.gives_collect.mpr ⟨hall, rfl⟩, rfl⟩⟩

theorem fails_classify_iff :
    Fails (classify s options model facts) e ↔ LacksFirst s model facts e := by
  simp only [classify]
  simp only [Poll.fails_bind, Poll.not_fails_pure, and_false, exists_false, or_false,
    Poll.fails_collect, exists_judge_iff, judge_eq_error_iff]
  rfl

end ExtractMethod.Boundary
