import ExtractMethod.Proofs.Ty.Param

/-! What the walks through a type change and find. -/
namespace ExtractMethod.Ty

mutual

theorem hasAnonymous_eraseAnonymous (ty : Ty) : ty.eraseAnonymous.hasAnonymous = false := by
  cases ty with
  | named name args kind => exact anyAnonymous_eraseAll args
  | array element => exact hasAnonymous_eraseAnonymous element
  | nullable inner => exact hasAnonymous_eraseAnonymous inner
  | tuple elements => exact anyElementAnonymous_eraseElements elements
  | taskOf result => exact hasAnonymous_eraseAnonymous result
  | _ => rfl

theorem anyAnonymous_eraseAll (tys : List Ty) : anyAnonymous (eraseAll tys) = false := by
  cases tys with
  | nil => rfl
  | cons ty rest =>
    rw [eraseAll, anyAnonymous, hasAnonymous_eraseAnonymous ty, anyAnonymous_eraseAll rest]
    rfl

theorem anyElementAnonymous_eraseElements (elements : List (Option Name × Ty)) :
    anyElementAnonymous (eraseElements elements) = false := by
  cases elements with
  | nil => rfl
  | cons element rest =>
    obtain ⟨name, ty⟩ := element
    rw [eraseElements, anyElementAnonymous, hasAnonymous_eraseAnonymous ty,
      anyElementAnonymous_eraseElements rest]
    rfl

end

mutual

/-- A type without an anonymous type in it stays as it is. -/
theorem eraseAnonymous_of_not_hasAnonymous (ty : Ty) (h : ¬ ty.hasAnonymous) :
    ty.eraseAnonymous = ty := by
  cases ty with
  | named name args kind => rw [eraseAnonymous, eraseAll_of_not_anyAnonymous args h]
  | array element => rw [eraseAnonymous, eraseAnonymous_of_not_hasAnonymous element h]
  | nullable inner => rw [eraseAnonymous, eraseAnonymous_of_not_hasAnonymous inner h]
  | tuple elements =>
    rw [eraseAnonymous, eraseElements_of_not_anyElementAnonymous elements h]
  | taskOf result => rw [eraseAnonymous, eraseAnonymous_of_not_hasAnonymous result h]
  | anonymous name => exact absurd rfl h
  | _ => rfl

theorem eraseAll_of_not_anyAnonymous (tys : List Ty) (h : ¬ anyAnonymous tys) :
    eraseAll tys = tys := by
  cases tys with
  | nil => rfl
  | cons ty rest =>
    rw [anyAnonymous, Bool.or_eq_true, not_or] at h
    rw [eraseAll, eraseAnonymous_of_not_hasAnonymous ty h.1, eraseAll_of_not_anyAnonymous rest h.2]

theorem eraseElements_of_not_anyElementAnonymous (elements : List (Option Name × Ty))
    (h : ¬ anyElementAnonymous elements) : eraseElements elements = elements := by
  cases elements with
  | nil => rfl
  | cons element rest =>
    obtain ⟨name, ty⟩ := element
    rw [anyElementAnonymous, Bool.or_eq_true, not_or] at h
    rw [eraseElements, eraseAnonymous_of_not_hasAnonymous ty h.1,
      eraseElements_of_not_anyElementAnonymous rest h.2]

end

theorem eraseAnonymous_eraseAnonymous (ty : Ty) :
    ty.eraseAnonymous.eraseAnonymous = ty.eraseAnonymous := by
  refine eraseAnonymous_of_not_hasAnonymous _ ?_
  rw [hasAnonymous_eraseAnonymous]
  exact Bool.false_ne_true

theorem hasAnonymous_asTask (ty : Ty) : ty.asTask.hasAnonymous = ty.hasAnonymous := by
  cases ty <;> rfl

/-- A mark that is dropped is no anonymous type, and what it stands on is kept. -/
theorem hasAnonymous_withoutAnnotation (ty : Ty) :
    ty.withoutAnnotation.hasAnonymous = ty.hasAnonymous := by
  cases ty with
  | nullable inner =>
    rw [ withoutAnnotation]
    split <;> rfl
  | _ => rfl

mutual

/-- An anonymous type uses no parameter, so none is lost with it. -/
theorem paramUses_eraseAnonymous (ty : Ty) : ty.eraseAnonymous.paramUses = ty.paramUses := by
  cases ty with
  | named name args kind => exact paramUsesAll_eraseAll args
  | array element => exact paramUses_eraseAnonymous element
  | nullable inner => exact paramUses_eraseAnonymous inner
  | tuple elements => exact paramUsesElements_eraseElements elements
  | taskOf result => exact paramUses_eraseAnonymous result
  | _ => rfl

theorem paramUsesAll_eraseAll (tys : List Ty) : paramUsesAll (eraseAll tys) = paramUsesAll tys := by
  cases tys with
  | nil => rfl
  | cons ty rest =>
    rw [eraseAll, paramUsesAll, paramUses_eraseAnonymous ty, paramUsesAll_eraseAll rest,
      paramUsesAll]

theorem paramUsesElements_eraseElements (elements : List (Option Name × Ty)) :
    paramUsesElements (eraseElements elements) = paramUsesElements elements := by
  cases elements with
  | nil => rfl
  | cons element rest =>
    obtain ⟨name, ty⟩ := element
    rw [eraseElements, paramUsesElements, paramUses_eraseAnonymous ty,
      paramUsesElements_eraseElements rest, paramUsesElements]

end

theorem paramUses_asTask (ty : Ty) : ty.asTask.paramUses = ty.paramUses := by
  cases ty <;> rfl

variable {found : List TypeParamRef} {param : TypeParamRef} {id : Nat}

mutual

/-- Collecting takes the uses one after the other. -/
theorem collectParams_eq_foldl (found : List TypeParamRef) (ty : Ty) :
    ty.collectParams found = ty.paramUses.foldl addParam found := by
  cases ty with
  | named name args kind => exact collectParamsAll_eq_foldl found args
  | array element => exact collectParams_eq_foldl found element
  | nullable inner => exact collectParams_eq_foldl found inner
  | tuple elements => exact collectParamsElements_eq_foldl found elements
  | taskOf result => exact collectParams_eq_foldl found result
  | _ => rfl

theorem collectParamsAll_eq_foldl (found : List TypeParamRef) (tys : List Ty) :
    collectParamsAll found tys = (paramUsesAll tys).foldl addParam found := by
  cases tys with
  | nil => rfl
  | cons ty rest =>
    rw [collectParamsAll, collectParamsAll_eq_foldl _ rest, collectParams_eq_foldl found ty,
      paramUsesAll, List.foldl_append]

theorem collectParamsElements_eq_foldl (found : List TypeParamRef)
    (elements : List (Option Name × Ty)) :
    collectParamsElements found elements = (paramUsesElements elements).foldl addParam found := by
  cases elements with
  | nil => rfl
  | cons element rest =>
    obtain ⟨name, ty⟩ := element
    rw [collectParamsElements, collectParamsElements_eq_foldl _ rest,
      collectParams_eq_foldl found ty, paramUsesElements, List.foldl_append]

end

theorem map_id_addParam (found : List TypeParamRef) (param : TypeParamRef) :
    (addParam found param).map TypeParamRef.id =
      found.map TypeParamRef.id ++ newIds (found.map TypeParamRef.id) [param.id] := by
  by_cases hseen : param.id ∈ found.map TypeParamRef.id
  · have hany : found.any fun seen => seen.id = param.id := by simpa using hseen
    rw [addParam, if_pos hany, newIds, if_pos (List.contains_iff_mem.mpr hseen)]
    exact (List.append_nil _).symm
  · have hany : ¬ found.any fun seen => seen.id = param.id := by simpa using hseen
    rw [addParam, if_neg hany, newIds, if_neg (by simpa using hseen), List.map_append]
    rfl

/-- What is collected is what was found before, and then every other use where it comes first. -/
theorem map_id_foldl_addParam (found params : List TypeParamRef) :
    (params.foldl addParam found).map TypeParamRef.id =
      found.map TypeParamRef.id ++
        newIds (found.map TypeParamRef.id) (params.map TypeParamRef.id) := by
  induction params generalizing found with
  | nil => exact (List.append_nil _).symm
  | cons param rest ih =>
    rw [List.foldl_cons, ih, map_id_addParam, List.append_assoc, ← newIds_append]
    rfl

/-- The parameters that are collected are those that were found before and those that are used. -/
theorem mem_map_id_foldl_addParam (found params : List TypeParamRef) :
    id ∈ (params.foldl addParam found).map TypeParamRef.id ↔
      id ∈ found.map TypeParamRef.id ∨ id ∈ params.map TypeParamRef.id := by
  rw [map_id_foldl_addParam, List.mem_append, mem_newIds]
  by_cases hfound : id ∈ found.map TypeParamRef.id
  · simp [hfound]
  · simp [hfound]

theorem mem_map_id_collectParamsAll (found : List TypeParamRef) (tys : List Ty) :
    id ∈ (collectParamsAll found tys).map TypeParamRef.id ↔
      id ∈ found.map TypeParamRef.id ∨ id ∈ (paramUsesAll tys).map TypeParamRef.id := by
  rw [collectParamsAll_eq_foldl, mem_map_id_foldl_addParam]

theorem mem_paramUsesAll {tys : List Ty} : param ∈ paramUsesAll tys ↔
    ∃ ty ∈ tys, param ∈ ty.paramUses := by
  induction tys with
  | nil => simp [paramUsesAll]
  | cons ty rest ih =>
    rw [paramUsesAll, List.mem_append, ih]
    simp only [List.mem_cons, exists_eq_or_imp]

theorem mem_paramUsesElements {elements : List (Option Name × Ty)} :
    param ∈ paramUsesElements elements ↔ ∃ entry ∈ elements, param ∈ entry.2.paramUses := by
  induction elements with
  | nil => simp [paramUsesElements]
  | cons entry rest ih =>
    rw [paramUsesElements, List.mem_append, ih]
    simp only [List.mem_cons, exists_eq_or_imp]

theorem id_mem_collectParamsAll {tys : List Ty} {ty : Ty} (hty : ty ∈ tys)
    (hparam : param ∈ ty.paramUses) : param.id ∈ (collectParamsAll [] tys).map TypeParamRef.id := by
  refine (mem_map_id_collectParamsAll [] tys).mpr (Or.inr ?_)
  exact List.mem_map_of_mem (mem_paramUsesAll.mpr ⟨ty, hty, hparam⟩)

end ExtractMethod.Ty
