import ExtractMethod.Boundary.Table

/-! What the decision table and its exceptions make of inputs and outputs. -/
namespace ExtractMethod.Boundary

open ExtractMethod.Flow (Flags)

variable {flags : Flags} {style : Style} {isStaticLocal isValueType isReturnForced : Bool}

/-- The value of the variable comes from outside and is read inside. -/
structure IsInput (flags : Flags) : Prop where
  flowsIn : flags.flowsIn
  readInside : flags.readInside
  notDeclaredInside : ¬ flags.declaredInside

/-- A value that is written inside is seen outside. -/
structure IsOutput (flags : Flags) : Prop where
  writtenInside : flags.writtenInside
  seenOutside : flags.flowsOut ∨ flags.declaredInside ∧ (flags.readOutside ∨ flags.writtenOutside)

/-- A parameter of the style has the value of the variable from the start. -/
def Style.BringsIn (style : Style) : Prop :=
  style.modifier? = some .none ∨ style.modifier? = some .ref

theorem adjust_of_not_declaredInside (h : ¬ flags.declaredInside) :
    adjust flags isStaticLocal =
      { flags with readOutside := flags.readOutside || flags.flowsOut } := by
  simp [adjust, h]

theorem canBeReturned_mustReturn (h : style.canBeReturned) : style.mustReturn.canBeReturned := by
  cases style <;> simp_all [Style.canBeReturned, Style.modifier?, Style.mustReturn]

theorem modifier?_of_canBeReturned (h : style.canBeReturned) :
    style.modifier? = some .ref ∨ style.modifier? = some .out := by
  simpa [Style.canBeReturned] using h

/-- The table makes every output one that a result can carry. -/
theorem exists_style?_of_isOutput (h : IsOutput flags) :
    ∃ style, style? flags = some style ∧ style.canBeReturned := by
  by_cases hd : flags.declaredInside
  · by_cases ho : flags.flowsOut
    · exact ⟨.outWithMoveOut, by simp [style?, declaredStyle?, hd, ho, h.writtenInside], rfl⟩
    · have hseen : flags.readOutside ∨ flags.writtenOutside := by
        rcases h.seenOutside with hout | ⟨-, hseen⟩
        · exact absurd hout ho
        · exact hseen
      exact ⟨.splitOut, by simp [style?, declaredStyle?, hd, ho, hseen], rfl⟩
  · have ho : flags.flowsOut := by
      rcases h.seenOutside with hout | ⟨hdecl, -⟩
      · exact hout
      · exact absurd hdecl hd
    refine ⟨writtenStyle flags, by simp [style?, hd, h.writtenInside], ?_⟩
    simp only [writtenStyle]
    by_cases hin : flags.flowsIn
    · simp [hin, ho]
      rfl
    · by_cases halways : flags.alwaysAssigned <;> simp [hin, ho, halways] <;> rfl

/-- No exception to the table takes an output back. -/
theorem exists_overridden?_of_isOutput (h : IsOutput flags) :
    ∃ style, overridden? (style? flags) flags isValueType isReturnForced = some style ∧
      style.canBeReturned := by
  obtain ⟨style, hstyle, hreturned⟩ := exists_style?_of_isOutput h
  have hmove : style ≠ .moveIn := by
    rintro rfl
    cases hreturned
  cases isReturnForced with
  | false => exact ⟨style, by simp [overridden?, hstyle, hmove, h.writtenInside], hreturned⟩
  | true =>
    exact ⟨style.mustReturn, by simp [overridden?, hstyle, hmove, h.writtenInside],
      canBeReturned_mustReturn hreturned⟩

/-- The style that an input gets. -/
def inputStyle (flags : Flags) (isReturnForced : Bool) : Style :=
  if !flags.writtenInside then .inputOnly
  else if flags.flowsOut then .ref
  else if isReturnForced then .out
  else .splitIn

theorem overridden?_of_isInput (h : IsInput flags) :
    overridden? (style? flags) flags isValueType isReturnForced =
      some (inputStyle flags isReturnForced) := by
  have hd : flags.declaredInside = false := by simpa using h.notDeclaredInside
  by_cases hw : flags.writtenInside
  · have hstyle : style? flags = some (if flags.flowsOut then .ref else .splitIn) := by
      simp [style?, writtenStyle, hd, hw, h.flowsIn]
    by_cases ho : flags.flowsOut <;> cases isReturnForced <;>
      simp [overridden?, inputStyle, hstyle, hw, ho, Style.mustReturn]
  · have hstyle : style? flags = some .inputOnly := by
      simp [style?, hd, hw, h.readInside]
    simp [overridden?, inputStyle, hstyle, hw]

/-- The value of an input is brought in unless it is overwritten and then seen by nobody. -/
theorem bringsIn_inputStyle :
    (inputStyle flags isReturnForced).BringsIn ↔ (flags.writtenInside → flags.flowsOut) := by
  simp only [inputStyle]
  by_cases hw : flags.writtenInside
  · by_cases ho : flags.flowsOut
    · simp [hw, ho, Style.BringsIn, Style.modifier?]
    · cases isReturnForced <;> simp [hw, ho, Style.BringsIn, Style.modifier?]
  · simp [hw, Style.BringsIn, Style.modifier?]

theorem isInput_adjust (h : IsInput flags) : IsInput (adjust flags isStaticLocal) := by
  rw [adjust_of_not_declaredInside h.notDeclaredInside]
  exact ⟨h.flowsIn, h.readInside, h.notDeclaredInside⟩

/-- A value flows out of the region that declares the variable and never writes it. -/
structure IsContradictory (flags : Flags) : Prop where
  declaredInside : flags.declaredInside
  flowsOut : flags.flowsOut
  notWrittenInside : ¬ flags.writtenInside

theorem isContradictory_adjust :
    IsContradictory (adjust flags isStaticLocal) ↔ IsContradictory flags := by
  constructor
  · intro ⟨hd, ho, hw⟩
    have hw' : flags.writtenInside = false := by simpa [adjust] using hw
    exact ⟨hd, by simpa [adjust, hw'] using ho, by simp [hw']⟩
  · intro ⟨hd, ho, hw⟩
    exact ⟨hd, by simp [adjust, ho], hw⟩

/-- The table has a style for all facts about a candidate that do not contradict each other. -/
theorem style?_eq_none_iff (hc : flags.isCandidate) :
    style? flags = none ↔ IsContradictory flags := by
  by_cases hd : flags.declaredInside
  · by_cases ho : flags.flowsOut
    · by_cases hw : flags.writtenInside
      · simp only [style?, declaredStyle?, hd, ho, hw, if_true, reduceCtorEq, false_iff]
        exact fun h => h.notWrittenInside hw
      · simp only [style?, declaredStyle?, hd, ho, hw, if_true, Bool.false_eq_true, if_false,
          true_iff]
        exact ⟨hd, ho, hw⟩
    · have hstyle : style? flags ≠ none := by
        simp only [style?, declaredStyle?, hd, ho, if_true, Bool.false_eq_true, if_false]
        split <;> simp
      exact iff_of_false hstyle fun h => ho h.flowsOut
  · have hstyle : style? flags ≠ none := by
      simp only [style?, hd, Bool.false_eq_true, if_false]
      by_cases hw : flags.writtenInside
      · simp [hw]
      · have hr : flags.readInside := by simpa [Flags.isCandidate, hd, hw] using hc
        simp [hw, hr]
    exact iff_of_false hstyle fun h => hd h.declaredInside

/-- Only what is declared inside and never seen outside is left alone. -/
theorem isLocalToRegion_of_style? (h : style? flags = some .none) : isLocalToRegion flags := by
  rw [style?] at h
  split at h
  · next hd =>
    rw [declaredStyle?] at h
    split at h
    · split at h <;> cases h
    · next ho =>
      split at h
      · cases h
      · next hseen =>
        rw [Bool.not_eq_true, Bool.or_eq_false_iff] at hseen
        simp [isLocalToRegion, hd, ho, hseen]
  · split at h
    · have hwritten : writtenStyle flags ≠ .none := by
        simp only [writtenStyle]
        repeat' split
        all_goals decide
      exact absurd (Option.some.inj h) hwritten
    · split at h <;> cases h

theorem mustReturn_eq_none_iff : style.mustReturn = .none ↔ style = .none := by
  cases style <;> decide

/-- The only exception that gives a style where the table has none is the one for values that are
never written. -/
theorem overridden?_eq_none_iff {style : Option Style} :
    overridden? style flags isValueType isReturnForced = none ↔
      style = none ∧ (isValueType → flags.writtenInside) := by
  cases style with
  | none =>
    cases isValueType <;> cases hw : flags.writtenInside <;> cases isReturnForced <;>
      simp [overridden?, hw]
  | some style =>
    by_cases hm : flags.captured ∧ style = .moveIn <;> cases isValueType <;>
      cases hw : flags.writtenInside <;> cases isReturnForced <;> simp [overridden?, hm, hw]

/-- Neither the table nor an exception to it has a style. -/
theorem overridden?_style?_eq_none_iff (hc : flags.isCandidate) (isReturnForced : Bool) :
    overridden? (style? flags) flags isValueType isReturnForced = none ↔
      IsContradictory flags ∧ ¬ isValueType := by
  rw [overridden?_eq_none_iff, style?_eq_none_iff hc]
  constructor
  · rintro ⟨h, hvalue⟩
    exact ⟨h, fun hty => h.notWrittenInside (hvalue hty)⟩
  · rintro ⟨h, hvalue⟩
    exact ⟨h, fun hty => absurd hty hvalue⟩

/-- No exception makes a variable one that is left alone. -/
theorem eq_none_of_overridden? {style : Option Style}
    (h : overridden? style flags isValueType isReturnForced = some .none) :
    style = some .none := by
  unfold overridden? at h
  extract_lets uncaptured passed at h
  have hpassed : passed = some .none := by
    split at h
    · obtain ⟨before, hbefore, hmust⟩ := Option.map_eq_some_iff.mp h
      rw [hbefore, mustReturn_eq_none_iff.mp hmust]
    · exact h
  have huncaptured : uncaptured = some .none := by
    simp only [passed] at hpassed
    split at hpassed
    · cases hpassed
    · exact hpassed
  simp only [uncaptured] at huncaptured
  split at huncaptured
  · cases huncaptured
  · exact huncaptured

end ExtractMethod.Boundary
