import ExtractMethod.Proofs.Ty.Part
import ExtractMethod.Proofs.Ty.Traversal

/-! Putting the object type in place of anonymous types changes a type only if there are some in it,
and nothing that is asked of types but whether there are. -/
namespace ExtractMethod.Ty

theorem not_mentionsAnonymous_eraseAnonymous (ty : Ty) :
    ¬ ty.eraseAnonymous.MentionsAnonymous := by
  rw [← hasAnonymous_iff, hasAnonymous_eraseAnonymous]
  exact Bool.false_ne_true

theorem eraseAnonymous_eq_self_iff (ty : Ty) : ty.eraseAnonymous = ty ↔ ¬ ty.MentionsAnonymous := by
  constructor
  · intro h
    rw [← h]
    exact not_mentionsAnonymous_eraseAnonymous ty
  · intro h
    exact eraseAnonymous_of_not_hasAnonymous ty (mt (hasAnonymous_iff ty).mp h)

theorem collectParams_eraseAnonymous (found : List TypeParamRef) (ty : Ty) :
    ty.eraseAnonymous.collectParams found = ty.collectParams found := by
  rw [collectParams_eq_foldl, collectParams_eq_foldl, paramUses_eraseAnonymous]

/-- The two types are passed, copied and changed alike. -/
structure BehavesLike (a b : Ty) : Prop where
  isVoid : a.isVoid = b.isVoid
  isValueType : a.isValueType = b.isValueType
  isReferenceType : a.isReferenceType = b.isReferenceType
  isAnnotatedReference : a.isAnnotatedReference = b.isAnnotatedReference
  isUserStruct : a.isUserStruct = b.isUserStruct
  isMutableStruct : a.isMutableStruct = b.isMutableStruct

theorem BehavesLike.nullable {a b : Ty} (h : a.BehavesLike b) :
    (Ty.nullable a).BehavesLike (.nullable b) :=
  ⟨rfl, h.isValueType, h.isReferenceType, h.isReferenceType, rfl, rfl⟩

/-- An anonymous type is a reference type, as the object type is, and every other type keeps its
form. -/
theorem behavesLike_eraseAnonymous (ty : Ty) : ty.eraseAnonymous.BehavesLike ty := by
  cases ty with
  | nullable inner => exact (behavesLike_eraseAnonymous inner).nullable
  | named name args kind => cases kind <;> exact ⟨rfl, rfl, rfl, rfl, rfl, rfl⟩
  | _ => exact ⟨rfl, rfl, rfl, rfl, rfl, rfl⟩

/-- The first type is the second with its anonymous types taken out, and differs from it in nothing
else that a signature depends on. -/
structure IsErasureOf (erased ty : Ty) : Prop where
  not_mentionsAnonymous : ¬ erased.MentionsAnonymous
  eq_iff : erased = ty ↔ ¬ ty.MentionsAnonymous
  hasAnonymous_iff : ty.hasAnonymous ↔ erased ≠ ty
  again : erased.eraseAnonymous = erased
  collectParams : ∀ found, erased.collectParams found = ty.collectParams found
  behavesLike : erased.BehavesLike ty

theorem eraseAnonymous_isErasureOf (ty : Ty) : ty.eraseAnonymous.IsErasureOf ty where
  not_mentionsAnonymous := not_mentionsAnonymous_eraseAnonymous ty
  eq_iff := eraseAnonymous_eq_self_iff ty
  hasAnonymous_iff := by
    rw [Ne, eraseAnonymous_eq_self_iff, Classical.not_not]
    exact Ty.hasAnonymous_iff ty
  again := eraseAnonymous_eraseAnonymous ty
  collectParams found := collectParams_eraseAnonymous found ty
  behavesLike := behavesLike_eraseAnonymous ty

end ExtractMethod.Ty
