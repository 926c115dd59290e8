import ExtractMethod.Ty.Basic

/-! The types that occur in a type, at any depth. -/
namespace ExtractMethod.Ty

/-- The second type is the first, or occurs somewhere in it. -/
inductive HasPart : Ty → Ty → Prop where
  | self (ty : Ty) : HasPart ty ty
  | argument {name : Name} {args : List Ty} {kind : NamedKind} {arg part : Ty} (ha : arg ∈ args)
    (h : HasPart arg part) : HasPart (.named name args kind) part
  | element {element part : Ty} (h : HasPart element part) : HasPart (.array element) part
  | inner {inner part : Ty} (h : HasPart inner part) : HasPart (.nullable inner) part
  | component {elements : List (Option Name × Ty)} {entry : Option Name × Ty} {part : Ty}
    (he : entry ∈ elements) (h : HasPart entry.2 part) : HasPart (.tuple elements) part
  | result {result part : Ty} (h : HasPart result part) : HasPart (.taskOf result) part

/-- An anonymous type occurs in the type. -/
def MentionsAnonymous (ty : Ty) : Prop := ∃ name, ty.HasPart (.anonymous name)

mutual

theorem hasAnonymous_iff (ty : Ty) : ty.hasAnonymous ↔ ty.MentionsAnonymous := by
  cases ty with
  | anonymous name => exact iff_of_true rfl ⟨name, .self _⟩
  | named name args kind =>
    rw [hasAnonymous, anyAnonymous_iff args]
    constructor
    · rintro ⟨arg, harg, name, h⟩
      exact ⟨name, .argument harg h⟩
    · rintro ⟨name, h⟩
      cases h with
      | argument harg h => exact ⟨_, harg, name, h⟩
  | array element =>
    rw [hasAnonymous, hasAnonymous_iff element]
    constructor
    · rintro ⟨name, h⟩
      exact ⟨name, .element h⟩
    · rintro ⟨name, h⟩
      cases h with
      | element h => exact ⟨name, h⟩
  | nullable inner =>
    rw [hasAnonymous, hasAnonymous_iff inner]
    constructor
    · rintro ⟨name, h⟩
      exact ⟨name, .inner h⟩
    · rintro ⟨name, h⟩
      cases h with
      | inner h => exact ⟨name, h⟩
  | tuple elements =>
    rw [hasAnonymous, anyElementAnonymous_iff elements]
    constructor
    · rintro ⟨entry, hentry, name, h⟩
      exact ⟨name, .component hentry h⟩
    · rintro ⟨name, h⟩
      cases h with
      | component hentry h => exact ⟨_, hentry, name, h⟩
  | taskOf result =>
    rw [hasAnonymous, hasAnonymous_iff result]
    constructor
    · rintro ⟨name, h⟩
      exact ⟨name, .result h⟩
    · rintro ⟨name, h⟩
      cases h with
      | result h => exact ⟨name, h⟩
  | void | object | primitive p | typeParam param | bareTask | error =>
    refine iff_of_false Bool.false_ne_true ?_
    rintro ⟨name, h⟩
    cases h

theorem anyAnonymous_iff (tys : List Ty) :
    anyAnonymous tys ↔ ∃ ty ∈ tys, ty.MentionsAnonymous := by
  cases tys with
  | nil => simp [anyAnonymous]
  | cons ty rest =>
    rw [anyAnonymous, Bool.or_eq_true, hasAnonymous_iff ty, anyAnonymous_iff rest]
    simp only [List.mem_cons, exists_eq_or_imp]

theorem anyElementAnonymous_iff (elements : List (Option Name × Ty)) :
    anyElementAnonymous elements ↔ ∃ entry ∈ elements, entry.2.MentionsAnonymous := by
  cases elements with
  | nil => simp [anyElementAnonymous]
  | cons entry rest =>
    obtain ⟨name, ty⟩ := entry
    rw [anyElementAnonymous, Bool.or_eq_true, hasAnonymous_iff ty, anyElementAnonymous_iff rest]
    simp only [List.mem_cons, exists_eq_or_imp]

end

end ExtractMethod.Ty
