import ExtractMethod.Proofs.Ty.Part
import ExtractMethod.Proofs.Ty.Traversal
import Mathlib.Data.List.Induction

/-! Collecting type parameters appends those that are used and were not found before, each where it
is used first. -/
namespace ExtractMethod.Ty

variable {found uses : List TypeParamRef} {param : TypeParamRef}

/-! A parameter is used exactly if it is a part of the type. -/

mutual

theorem hasPart_of_mem_paramUses (ty : Ty) (h : param ∈ ty.paramUses) :
    ty.HasPart (.typeParam param) := by
  cases ty with
  | typeParam other =>
    cases List.mem_singleton.mp h
    exact .self _
  | named name args kind =>
    obtain ⟨arg, harg, hpart⟩ := exists_hasPart_of_mem_paramUsesAll args h
    exact .argument harg hpart
  | array element => exact .element (hasPart_of_mem_paramUses element h)
  | nullable inner => exact .inner (hasPart_of_mem_paramUses inner h)
  | tuple elements =>
    obtain ⟨entry, hentry, hpart⟩ := exists_hasPart_of_mem_paramUsesElements elements h
    exact .component hentry hpart
  | taskOf result => exact .result (hasPart_of_mem_paramUses result h)
  | void | object | primitive p | bareTask | anonymous name | error => cases h

theorem exists_hasPart_of_mem_paramUsesAll (tys : List Ty) (h : param ∈ paramUsesAll tys) :
    ∃ ty ∈ tys, ty.HasPart (.typeParam param) := by
  cases tys with
  | nil => cases h
  | cons ty rest =>
    rw [paramUsesAll, List.mem_append] at h
    rcases h with h | h
    · exact ⟨ty, List.mem_cons_self, hasPart_of_mem_paramUses ty h⟩
    · obtain ⟨other, hother, hpart⟩ := exists_hasPart_of_mem_paramUsesAll rest h
      exact ⟨other, List.mem_cons_of_mem _ hother, hpart⟩

theorem exists_hasPart_of_mem_paramUsesElements (elements : List (Option Name × Ty))
    (h : param ∈ paramUsesElements elements) :
    ∃ entry ∈ elements, entry.2.HasPart (.typeParam param) := by
  cases elements with
  | nil => cases h
  | cons entry rest =>
    obtain ⟨name, ty⟩ := entry
    rw [paramUsesElements, List.mem_append] at h
    rcases h with h | h
    · exact ⟨(name, ty), List.mem_cons_self, hasPart_of_mem_paramUses ty h⟩
    · obtain ⟨other, hother, hpart⟩ := exists_hasPart_of_mem_paramUsesElements rest h
      exact ⟨other, List.mem_cons_of_mem _ hother, hpart⟩

end

theorem HasPart.mem_paramUses {ty : Ty} (h : ty.HasPart (.typeParam param)) :
    param ∈ ty.paramUses := by
  generalize hpart : Ty.typeParam param = part at h
  induction h with
  | self =>
    rw [← hpart]
    exact List.mem_singleton_self param
  | argument harg _ ih => exact mem_paramUsesAll.mpr ⟨_, harg, ih hpart⟩
  | element _ ih => exact ih hpart
  | inner _ ih => exact ih hpart
  | component hentry _ ih => exact mem_paramUsesElements.mpr ⟨_, hentry, ih hpart⟩
  | result _ ih => exact ih hpart

theorem mem_paramUses_iff (ty : Ty) (param : TypeParamRef) :
    param ∈ ty.paramUses ↔ ty.HasPart (.typeParam param) :=
  ⟨hasPart_of_mem_paramUses ty, HasPart.mem_paramUses⟩

/-! First uses. -/

/-- The uses whose parameter neither was found before nor has an earlier use. -/
def firstUses (found uses : List TypeParamRef) : List TypeParamRef :=
  (uses.zipIdx.filter fun use =>
    use.1.id ∉ (found ++ uses.take use.2).map TypeParamRef.id).map Prod.fst

/-- The last use is a first one if its parameter is nowhere before it. -/
theorem firstUses_concat (found uses : List TypeParamRef) (param : TypeParamRef) :
    firstUses found (uses ++ [param]) = firstUses found uses ++
      if param.id ∈ (found ++ uses).map TypeParamRef.id then [] else [param] := by
  rw [firstUses, List.zipIdx_append, List.filter_append, List.map_append]
  congr 1
  · refine congrArg (List.map Prod.fst) (List.filter_congr fun use hmem => ?_)
    rw [List.take_append_of_le_length (Nat.le_of_lt (List.snd_lt_of_mem_zipIdx hmem))]
  · rw [Nat.zero_add, List.zipIdx_singleton, List.filter_cons, List.take_left, List.filter_nil]
    by_cases hseen : param.id ∈ (found ++ uses).map TypeParamRef.id
    · rw [if_pos hseen, if_neg (by rwa [decide_eq_true_eq, Classical.not_not])]
      rfl
    · rw [if_neg hseen, if_pos (by rwa [decide_eq_true_eq])]
      rfl

theorem addParam_eq_append (found : List TypeParamRef) (param : TypeParamRef) :
    addParam found param =
      found ++ if param.id ∈ found.map TypeParamRef.id then [] else [param] := by
  by_cases hseen : param.id ∈ found.map TypeParamRef.id
  · have hany : found.any fun seen => seen.id = param.id := by simpa using hseen
    rw [addParam, if_pos hany, if_pos hseen, List.append_nil]
  · have hany : ¬ found.any fun seen => seen.id = param.id := by simpa using hseen
    rw [addParam, if_neg hany, if_neg hseen]

/-- By induction from the last use backwards: what was collected before it has the parameters that
were found and those of all earlier uses. -/
theorem foldl_addParam (found uses : List TypeParamRef) :
    uses.foldl addParam found = found ++ firstUses found uses := by
  induction uses using List.reverseRecOn with
  | nil => exact (List.append_nil found).symm
  | append_singleton uses param ih =>
    have hcollected : param.id ∈ (uses.foldl addParam found).map TypeParamRef.id ↔
        param.id ∈ (found ++ uses).map TypeParamRef.id := by
      rw [mem_map_id_foldl_addParam, List.map_append, List.mem_append]
    rw [List.foldl_append, List.foldl_cons, List.foldl_nil, addParam_eq_append, firstUses_concat]
    simp only [hcollected]
    rw [ih, List.append_assoc]

theorem firstUses_eq_nil (h : ∀ use ∈ uses, use.id ∈ found.map TypeParamRef.id) :
    firstUses found uses = [] := by
  rw [firstUses, List.map_eq_nil_iff, List.filter_eq_nil_iff]
  rintro ⟨use, i⟩ hmem
  have hfound := h use (List.fst_mem_of_mem_zipIdx hmem)
  simp [List.map_append, hfound]

/-- Collecting one after the other is collecting along all uses. -/
theorem foldl_collectParams (found : List TypeParamRef) (tys : List Ty) :
    tys.foldl collectParams found = found ++ firstUses found (tys.flatMap paramUses) := by
  rw [← foldl_addParam, List.foldl_flatMap]
  congr 1
  funext found ty
  exact collectParams_eq_foldl found ty

/-- What is used are the parts that are type parameters. Collecting appends the first uses, those of
several types in the order of the types, and nothing when it is done again. -/
theorem collectParams_appendsFirstUses (found : List TypeParamRef) (ty : Ty) (tys : List Ty) :
    (∀ param, param ∈ ty.paramUses ↔ ty.HasPart (.typeParam param)) ∧
    ty.collectParams found = found ++ firstUses found ty.paramUses ∧
    tys.foldl collectParams found = found ++ firstUses found (tys.flatMap paramUses) ∧
    ty.collectParams (ty.collectParams found) = ty.collectParams found := by
  have hcollect (found : List TypeParamRef) :
      ty.collectParams found = found ++ firstUses found ty.paramUses := by
    rw [collectParams_eq_foldl, foldl_addParam]
  refine ⟨mem_paramUses_iff ty, hcollect found, foldl_collectParams found tys, ?_⟩
  rw [hcollect (ty.collectParams found), firstUses_eq_nil, List.append_nil]
  intro use huse
  rw [collectParams_eq_foldl, mem_map_id_foldl_addParam]
  exact Or.inr (List.mem_map_of_mem huse)

/-- Parameters with the same number are one parameter, and the name that comes first stays. -/
example : (Ty.tuple [(none, .typeParam ⟨1, "T"⟩), (some "rest", .array (.typeParam ⟨0, "U"⟩)),
    (none, .typeParam ⟨1, "V"⟩)]).collectParams [⟨0, "S"⟩] = [⟨0, "S"⟩, ⟨1, "T"⟩] := by
  decide

end ExtractMethod.Ty
