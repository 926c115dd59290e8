import ExtractMethod.Cancel.Poll

/-! What a polling computation answers does not depend on the patience of the host. Patience only
decides whether the answer comes at all. A loop asks the host once for each element that it
visits. -/
namespace ExtractMethod.Poll

variable {α β σ ε : Type} {x : Poll α} {f : α → Poll β} {a b : α} {c : β} {m n : Nat}

/-- The computation answers `a` after `n` questions to the host. -/
structure Takes (x : Poll α) (n : Nat) (a : α) : Prop where
  unlimited : x .unlimited = some (a, .unlimited)
  limited (k : Nat) : x (.limited k) = if n ≤ k then some (a, .limited (k - n)) else none

/-- A host that is patient enough gets the answer `a`. -/
def Answers (x : Poll α) (a : α) : Prop := ∃ n, Takes x n a

/-- The computation has one answer, whoever asks for it. -/
class Steady (x : Poll α) : Prop where
  answers : ∃ a, Answers x a

theorem Answers.steady (h : Answers x a) : Steady x := ⟨a, h⟩

theorem Answers.unique (ha : Answers x a) (hb : Answers x b) : a = b := by
  obtain ⟨_, ha⟩ := ha
  obtain ⟨_, hb⟩ := hb
  have h := ha.unlimited.symm.trans hb.unlimited
  simp only [Option.some.injEq, Prod.mk.injEq] at h
  exact h.1

theorem answers_iff_run [hx : Steady x] : Answers x a ↔ x.run .unlimited = .ok a := by
  obtain ⟨b, hb⟩ := hx.answers
  have hrun : x.run .unlimited = .ok b := by
    obtain ⟨_, hb⟩ := hb
    simp [run, hb.unlimited]
  rw [hrun]
  constructor
  · intro ha
    rw [ha.unique hb]
  · intro h
    cases h
    exact hb

/-- Any host that gets an answer gets the one answer. -/
theorem answers_of_run [hx : Steady x] {patience : Patience} (h : x.run patience = .ok a) :
    Answers x a := by
  obtain ⟨b, n, hb⟩ := hx.answers
  have heq : b = a := by
    cases patience with
    | unlimited => simpa [run, hb.unlimited] using h
    | limited k =>
      by_cases hn : n ≤ k
      · simpa [run, hb.limited, hn] using h
      · simp [run, hb.limited, hn] at h
  rw [← heq]
  exact ⟨n, hb⟩

/-- A search has an answer. If it may find just the elements with a property, it finds one of these,
or there are none. -/
theorem exists_answers_of_iff {x : Poll (Option α)} [hx : Steady x] {P : α → Prop}
    (h : ∀ a, Answers x (some a) ↔ P a) : ∃ found, Answers x found ∧ ∀ a, a ∈ found ↔ P a := by
  obtain ⟨found, hfound⟩ := hx.answers
  refine ⟨found, hfound, fun a => ?_⟩
  rw [← h]
  constructor
  · rintro rfl
    exact hfound
  · exact hfound.unique

theorem run_map (g : α → β) (x : Poll α) (patience : Patience) :
    (g <$> x).run patience = (x.run patience).map g := by
  have hmap : (g <$> x) patience = (x patience).map fun r => (g r.1, r.2) := by
    change (x patience).bind (fun r => some (g r.1, r.2)) = _
    cases x patience <;> rfl
  rw [run, run, hmap]
  cases x patience <;> rfl

theorem takes_pure (a : α) : Takes (pure a) 0 a := ⟨rfl, fun _ => rfl⟩

theorem takes_ask : Takes ask 1 () := by
  refine ⟨rfl, ?_⟩
  intro k
  cases k <;> simp [ask, Patience.spend]

theorem takes_bind (hx : Takes x m a) (hf : Takes (f a) n c) : Takes (x >>= f) (m + n) c := by
  refine ⟨?_, ?_⟩
  · change (x .unlimited).bind (fun r => f r.1 r.2) = _
    simp [hx.unlimited, hf.unlimited]
  · intro k
    change (x (.limited k)).bind (fun r => f r.1 r.2) = _
    rw [hx.limited]
    by_cases hm : m ≤ k
    · rw [if_pos hm, Option.bind_some, hf.limited]
      by_cases hn : n ≤ k - m
      · rw [if_pos hn, if_pos (by omega), Nat.sub_sub]
      · rw [if_neg hn, if_neg (by omega)]
    · rw [if_neg hm, if_neg (by omega)]
      rfl

/-- What is left of a computation once its first part has answered. -/
theorem takes_of_bind (hx : Takes x m a) (h : Takes (x >>= f) n c) :
    m ≤ n ∧ Takes (f a) (n - m) c := by
  have hu : (x .unlimited).bind (fun r => f r.1 r.2) = some (c, .unlimited) := h.unlimited
  have hl (k : Nat) : (x (.limited k)).bind (fun r => f r.1 r.2) =
      if n ≤ k then some (c, .limited (k - n)) else none := h.limited k
  have hmn : m ≤ n := by
    have hn := hl n
    rw [hx.limited] at hn
    by_cases hm : m ≤ n
    · exact hm
    · simp [hm] at hn
  refine ⟨hmn, ?_, ?_⟩
  · simpa [hx.unlimited] using hu
  · intro k
    have hk := hl (k + m)
    rw [hx.limited, if_pos (by omega), Option.bind_some] at hk
    have he : k + m - m = k := by omega
    simp only [he] at hk
    rw [hk]
    by_cases hn : n ≤ k + m
    · rw [if_pos hn, if_pos (by omega)]
      have : k + m - n = k - (n - m) := by omega
      rw [this]
    · rw [if_neg hn, if_neg (by omega)]

@[simp] theorem answers_pure : Answers (pure a) b ↔ a = b := by
  constructor
  · intro h
    exact Answers.unique ⟨0, takes_pure a⟩ h
  · rintro rfl
    exact ⟨0, takes_pure a⟩

theorem answers_ask : Answers ask () := ⟨1, takes_ask⟩

theorem answers_bind [hx : Steady x] :
    Answers (x >>= f) c ↔ ∃ a, Answers x a ∧ Answers (f a) c := by
  constructor
  · rintro ⟨_, h⟩
    obtain ⟨a, _, ha⟩ := hx.answers
    exact ⟨a, ⟨_, ha⟩, _, (takes_of_bind ha h).2⟩
  · rintro ⟨a, ⟨_, ha⟩, _, hc⟩
    exact ⟨_, takes_bind ha hc⟩

instance (a : α) : Steady (pure a : Poll α) := (answers_pure.mpr rfl).steady

instance : Steady ask := answers_ask.steady

theorem steady_bind (hx : Steady x) (hf : ∀ a, Steady (f a)) : Steady (x >>= f) := by
  obtain ⟨a, ha⟩ := hx.answers
  obtain ⟨c, hc⟩ := (hf a).answers
  exact (answers_bind.mpr ⟨a, ha, hc⟩).steady

instance [hx : Steady x] [hf : ∀ a, Steady (f a)] : Steady (x >>= f) := steady_bind hx hf

instance {p : Prop} [Decidable p] {y : Poll α} [hx : Steady x] [hy : Steady y] :
    Steady (if p then x else y) := by
  split
  · exact hx
  · exact hy

/-- How many elements are visited in order until one ends it, with this one, or all of them. -/
def visits (ends : α → Bool) (xs : List α) : Nat := min (xs.findIdx ends + 1) xs.length

theorem visits_cons (ends : α → Bool) (a : α) (xs : List α) :
    visits ends (a :: xs) = 1 + if ends a then 0 else visits ends xs := by
  simp only [visits, List.findIdx_cons, List.length_cons]
  cases ends a
  · simp only [cond_false, Bool.false_eq_true, if_false]
    omega
  · simp only [cond_true, if_true]
    omega

/-- A search asks once for each element up to the one that settles it. -/
theorem takes_search (visit : α → Option β) (xs : List α) :
    Takes (search visit xs) (visits (fun a => (visit a).isSome) xs) (xs.findSome? visit) := by
  induction xs with
  | nil => exact takes_pure none
  | cons a rest ih =>
    rw [visits_cons]
    refine takes_bind takes_ask ?_
    cases hv : visit a with
    | none => simpa [hv] using ih
    | some b => simpa [hv] using takes_pure (some b)

theorem answers_search (visit : α → Option β) (xs : List α) :
    Answers (search visit xs) (xs.findSome? visit) := ⟨_, takes_search visit xs⟩

instance (visit : α → Option β) (xs : List α) : Steady (search visit xs) :=
  (answers_search visit xs).steady

/-- A search for which a visit may also settle that there is nothing to find. -/
theorem exists_of_search_join {visit : α → Option (Option β)} {xs : List α} {b : β}
    (h : Answers (search visit xs >>= fun found => pure found.join) (some b)) :
    ∃ a ∈ xs, visit a = some (some b) := by
  obtain ⟨found, hfound, h⟩ := answers_bind.mp h
  cases hfound.unique (answers_search visit xs)
  rw [answers_pure, Option.join_eq_some_iff] at h
  exact List.exists_of_findSome?_eq_some h

/-- A fold asks once for each element. -/
theorem takes_fold (step : σ → α → σ) (state : σ) (xs : List α) :
    Takes (fold step state xs) xs.length (xs.foldl step state) := by
  induction xs generalizing state with
  | nil => exact takes_pure state
  | cons a rest ih =>
    rw [List.length_cons, Nat.add_comm]
    exact takes_bind takes_ask (ih (step state a))

theorem answers_fold (step : σ → α → σ) (state : σ) (xs : List α) :
    Answers (fold step state xs) (xs.foldl step state) := ⟨_, takes_fold step state xs⟩

instance (step : σ → α → σ) (state : σ) (xs : List α) : Steady (fold step state xs) :=
  (answers_fold step state xs).steady

section Except

variable {ε' : Type} {y : ExceptT ε Poll α} {g : α → ExceptT ε Poll β} {e : ε}

theorem eq_ok_of_toOption {r : Except ε α} (h : r.toOption = some a) : r = .ok a := by
  cases r with
  | ok b => exact congrArg Except.ok (Option.some.inj h)
  | error e => cases h

theorem answers_of_toOption [Steady x] (h : (x.run .unlimited).toOption = some a) : Answers x a :=
  answers_iff_run.mpr (eq_ok_of_toOption h)

/-- The computation ends with the value `a` and not with an error. -/
def Gives (y : ExceptT ε Poll α) (a : α) : Prop := Answers y.run (.ok a)

instance (a : α) : Steady (pure a : ExceptT ε Poll α).run := by
  rw [ExceptT.run_pure]
  infer_instance

instance (e : ε) : Steady (throw e : ExceptT ε Poll α).run := by
  rw [ExceptT.run_throw]
  infer_instance

instance [Steady x] : Steady (liftM x : ExceptT ε Poll α).run := by
  change Steady (x >>= fun a => pure (Except.ok a))
  infer_instance

instance (r : Except ε α) : Steady (ExceptT.mk (pure r) : ExceptT ε Poll α).run :=
  inferInstanceAs (Steady (pure r : Poll (Except ε α)))

theorem steady_run_bind (hy : Steady y.run) (hg : ∀ a, Steady (g a).run) :
    Steady (y >>= g).run := by
  rw [ExceptT.run_bind]
  refine steady_bind hy fun r => ?_
  cases r with
  | ok a => exact hg a
  | error e => exact inferInstanceAs (Steady (pure _))

instance [hy : Steady y.run] [hg : ∀ a, Steady (g a).run] : Steady (y >>= g).run :=
  steady_run_bind hy hg

instance {p : Prop} [Decidable p] {z : ExceptT ε Poll α} [hy : Steady y.run] [hz : Steady z.run] :
    Steady (if p then y else z).run := by
  split
  · exact hy
  · exact hz

@[simp] theorem gives_pure : Gives (pure a : ExceptT ε Poll α) b ↔ a = b := by
  simp [Gives]

@[simp] theorem not_gives_throw : ¬ Gives (throw e : ExceptT ε Poll α) a := by
  simp [Gives]

/-- A check that fails ends the computation. -/
theorem gives_check {p : Prop} [Decidable p] {after : PUnit → ExceptT ε Poll α} :
    Gives (if p then throw e >>= after else y) a ↔ ¬ p ∧ Gives y a := by
  by_cases hp : p
  · simp [hp, Gives]
  · simp [hp]

theorem gives_mk {r : Except ε α} :
    Gives (ExceptT.mk (pure r) : ExceptT ε Poll α) a ↔ r = .ok a :=
  answers_pure

theorem gives_liftM [Steady x] : Gives (liftM x : ExceptT ε Poll α) a ↔ Answers x a := by
  change Answers (x >>= fun a => pure (.ok a)) (.ok a : Except ε α) ↔ _
  rw [answers_bind]
  constructor
  · rintro ⟨b, hb, h⟩
    cases answers_pure.mp h
    exact hb
  · intro h
    exact ⟨a, h, answers_pure.mpr rfl⟩

theorem gives_bind [Steady y.run] :
    Gives (y >>= g) c ↔ ∃ a, Gives y a ∧ Gives (g a) c := by
  simp only [Gives]
  rw [ExceptT.run_bind, answers_bind]
  constructor
  · rintro ⟨r, hr, h⟩
    cases r with
    | ok a => exact ⟨a, hr, h⟩
    | error e => cases answers_pure.mp h
  · rintro ⟨a, ha, h⟩
    exact ⟨.ok a, ha, h⟩

theorem gives_of_run [Steady y.run] {patience : Patience}
    (h : Poll.run y.run patience = .ok (.ok a)) : Gives y a :=
  answers_of_run h

theorem takes_run_bind {r : Except ε β} (hy : Takes y.run m (.ok a)) (hg : Takes (g a).run n r) :
    Takes (y >>= g).run (m + n) r := by
  rw [ExceptT.run_bind]
  exact takes_bind hy hg

theorem takes_run_map {r : Except ε α} (f : α → β) (hy : Takes y.run n r) :
    Takes (y >>= fun a => pure (f a)).run n (r.map f) := by
  rw [ExceptT.run_bind, ← Nat.add_zero n]
  refine takes_bind hy ?_
  cases r with
  | ok a => exact takes_pure (Except.ok (f a))
  | error e => exact takes_pure (Except.error e)

theorem takes_run_ask : Takes (liftM ask : ExceptT ε Poll PUnit).run 1 (.ok ()) := by
  change Takes (ask >>= fun u => pure (Except.ok u)) (1 + 0) _
  exact takes_bind takes_ask (takes_pure _)

/-- A collection asks once for each element up to the first visit that fails. -/
theorem takes_collect (visit : α → Except ε (Option β)) (xs : List α) :
    Takes (collect visit xs).run (visits (fun a => !(visit a).isOk) xs) (xs.filterMapM visit) := by
  induction xs with
  | nil => exact takes_pure (Except.ok [])
  | cons a rest ih =>
    rw [visits_cons, List.filterMapM_cons]
    refine takes_run_bind takes_run_ask ?_
    cases hv : visit a with
    | error e => exact takes_pure (Except.error e)
    | ok found =>
      cases found with
      | none => exact ih
      | some b => exact takes_run_map (b :: ·) ih

theorem steady_collect (visit : α → Except ε (Option β)) (xs : List α) :
    Steady (collect visit xs).run := Answers.steady ⟨_, takes_collect visit xs⟩

instance (visit : α → Except ε (Option β)) (xs : List α) : Steady (collect visit xs).run :=
  steady_collect visit xs

/-- Every visit succeeds, and what the visits find is collected in order. -/
theorem gives_collect {visit : α → Except ε (Option β)} {xs : List α} {found : List β} :
    Gives (collect visit xs) found ↔
      (∀ a ∈ xs, ∃ r, visit a = .ok r) ∧ found = xs.filterMap fun a => (visit a).toOption.join := by
  induction xs generalizing found with
  | nil => simp [collect, eq_comm]
  | cons a rest ih =>
    simp only [collect, gives_bind, gives_liftM, gives_mk, List.forall_mem_cons]
    constructor
    · rintro ⟨_, _, r, hr, h⟩
      cases r with
      | none =>
        obtain ⟨hrest, rfl⟩ := ih.mp h
        exact ⟨⟨⟨none, hr⟩, hrest⟩, by simp [hr, Except.toOption]⟩
      | some b =>
        simp only [gives_bind, gives_pure] at h
        obtain ⟨later, h, rfl⟩ := h
        obtain ⟨hrest, rfl⟩ := ih.mp h
        exact ⟨⟨⟨some b, hr⟩, hrest⟩, by simp [hr, Except.toOption]⟩
    · rintro ⟨⟨⟨r, hr⟩, hrest⟩, rfl⟩
      refine ⟨(), answers_ask, r, hr, ?_⟩
      cases r with
      | none =>
        simpa [hr, Except.toOption] using ih.mpr ⟨hrest, rfl⟩
      | some b =>
        simp only [gives_bind, gives_pure]
        exact ⟨_, ih.mpr ⟨hrest, rfl⟩, by simp [hr, Except.toOption]⟩

/-- Everything that is collected was found by some visit. -/
theorem exists_visit_of_mem {visit : α → Except ε (Option β)} {xs : List α} {found : List β} {b : β}
    (h : Gives (collect visit xs) found) (hb : b ∈ found) :
    ∃ a ∈ xs, visit a = .ok (some b) := by
  obtain ⟨-, rfl⟩ := gives_collect.mp h
  obtain ⟨a, ha, hfound⟩ := List.mem_filterMap.mp hb
  exact ⟨a, ha, eq_ok_of_toOption (Option.join_eq_some_iff.mp hfound)⟩

/-- The computation ends with the error `e` and not with a value. -/
def Fails (y : ExceptT ε Poll α) (e : ε) : Prop := Answers y.run (.error e)

theorem Gives.not_fails (h : Gives y a) : ¬ Fails y e := by
  intro he
  cases Answers.unique h he

theorem gives_or_fails [hy : Steady y.run] : (∃ a, Gives y a) ∨ ∃ e, Fails y e := by
  obtain ⟨r, hr⟩ := hy.answers
  cases r with
  | ok a => exact Or.inl ⟨a, hr⟩
  | error e => exact Or.inr ⟨e, hr⟩

@[simp] theorem not_fails_pure : ¬ Fails (pure a : ExceptT ε Poll α) e := by
  simp [Fails]

theorem fails_mk {r : Except ε α} :
    Fails (ExceptT.mk (pure r) : ExceptT ε Poll α) e ↔ r = .error e :=
  answers_pure

theorem not_fails_liftM [hx : Steady x] : ¬ Fails (liftM x : ExceptT ε Poll α) e := by
  obtain ⟨a, ha⟩ := hx.answers
  exact (gives_liftM.mpr ha).not_fails

/-- The first part fails, or it gives what the second part fails on. -/
theorem fails_bind [Steady y.run] :
    Fails (y >>= g) e ↔ Fails y e ∨ ∃ a, Gives y a ∧ Fails (g a) e := by
  simp only [Fails, Gives]
  rw [ExceptT.run_bind, answers_bind]
  constructor
  · rintro ⟨r, hr, h⟩
    cases r with
    | ok a => exact Or.inr ⟨a, hr, h⟩
    | error e =>
      cases answers_pure.mp h
      exact Or.inl hr
  · rintro (h | ⟨a, ha, h⟩)
    · exact ⟨.error e, h, answers_pure.mpr rfl⟩
    · exact ⟨.ok a, ha, h⟩

/-- Asking the host changes no answer. -/
theorem answers_ask_bind {g : PUnit → ExceptT ε Poll α} {r : Except ε α}
    (h : Answers (g ⟨⟩).run r) :
    Answers (liftM ask >>= g : ExceptT ε Poll α).run r := by
  cases r with
  | ok a => exact gives_bind.mpr ⟨⟨⟩, gives_liftM.mpr answers_ask, h⟩
  | error e => exact fails_bind.mpr (Or.inr ⟨⟨⟩, gives_liftM.mpr answers_ask, h⟩)

theorem answers_bind_pure {f : α → β} {r : Except ε α} (h : Answers y.run r) :
    Answers (y >>= fun a => pure (f a)).run (r.map f) :=
  h.imp fun _ => takes_run_map f

/-- The collection ends with the error of the first visit that fails. -/
theorem fails_collect {visit : α → Except ε (Option β)} {xs : List α} :
    Fails (collect visit xs) e ↔ ∃ before a after, xs = before ++ a :: after ∧
      (∀ b ∈ before, ∃ r, visit b = .ok r) ∧ visit a = .error e := by
  induction xs with
  | nil => simp [collect]
  | cons head rest ih =>
    simp only [collect, fails_bind, gives_liftM, gives_mk, fails_mk, not_fails_liftM, false_or]
    constructor
    · rintro ⟨_, -, hhead | ⟨r, hr, h⟩⟩
      · exact ⟨[], head, rest, rfl, by simp, hhead⟩
      · have hrest : Fails (collect visit rest) e := by
          cases r with
          | none => exact h
          | some b =>
            rcases fails_bind.mp h with h | ⟨later, -, h⟩
            · exact h
            · exact absurd h not_fails_pure
        obtain ⟨before, a, after, rfl, hbefore, ha⟩ := ih.mp hrest
        refine ⟨head :: before, a, after, rfl, ?_, ha⟩
        exact List.forall_mem_cons.mpr ⟨⟨r, hr⟩, hbefore⟩
    · rintro ⟨before, a, after, heq, hbefore, ha⟩
      refine ⟨(), answers_ask, ?_⟩
      cases before with
      | nil =>
        cases heq
        exact Or.inl ha
      | cons b before =>
        cases heq
        obtain ⟨⟨r, hr⟩, hbefore⟩ := List.forall_mem_cons.mp hbefore
        have hrest := ih.mpr ⟨before, a, after, rfl, hbefore, ha⟩
        refine Or.inr ⟨r, hr, ?_⟩
        cases r with
        | none => exact hrest
        | some b => exact fails_bind.mpr (Or.inl hrest)

theorem adapt_run (f : ε → ε') (y : ExceptT ε Poll α) :
    (ExceptT.adapt f y).run = y.run >>= fun r => pure (r.mapError f) :=
  map_eq_pure_bind _ _

instance (f : ε → ε') [Steady y.run] : Steady (ExceptT.adapt f y).run := by
  rw [adapt_run]
  infer_instance

theorem gives_adapt {f : ε → ε'} [Steady y.run] : Gives (ExceptT.adapt f y) a ↔ Gives y a := by
  simp only [Gives]
  rw [adapt_run, answers_bind]
  constructor
  · rintro ⟨r, hr, h⟩
    rw [answers_pure] at h
    cases r with
    | ok b =>
      cases h
      exact hr
    | error e => cases h
  · intro h
    exact ⟨.ok a, h, answers_pure.mpr rfl⟩

end Except

end ExtractMethod.Poll
