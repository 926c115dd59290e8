import ExtractMethod.Proofs.Boundary.Order
import ExtractMethod.Proofs.Boundary.Table
import ExtractMethod.Proofs.Ty.Param
import ExtractMethod.Signature.Infer
import Mathlib.Data.List.Perm.Basic

/-! The signature divides the classified variables: some are returned, and the others passed as
their styles ask for. -/
namespace ExtractMethod

open Boundary (Modifier Variable)
open Poll (Gives Steady)

variable {crossing : List Variable} {promoted : List Modifier} {signature : Signature}
  {f : Findings} {env : List ParamDecl} {options : Options} {kept returned : List Variable}
  {v : Variable} {p : Parameter} {m : Modifier}

/-- What the signature has of each of the findings. -/
structure Signature.InferredFrom (f : Findings) (env : List ParamDecl) (options : Options)
    (signature : Signature) : Prop where
  passed : signature.passed = f.crossing.filter fun v => !passedBy (f.result options).promoted v
  returned : signature.returned = (f.crossing.filter (passedBy (f.result options).promoted)).map
    fun v => { v with isReturned := true }
  parameters : signature.parameters = parametersOf signature.passed signature.returned
  returnType : signature.returnType =
    if f.selection.needsAsync then (f.result options).ty.eraseAnonymous.asTask
    else (f.result options).ty.eraseAnonymous
  returnTypeHadAnonymous : signature.returnTypeHadAnonymous = (f.result options).ty.hasAnonymous
  awaitsBareTask : signature.awaitsBareTask =
    (f.selection.needsAsync && (f.result options).ty.eraseAnonymous.isVoid)
  returnsByRef : signature.returnsByRef = (f.result options).byRef
  instanceRequired : signature.instanceRequired = f.instanceRequired
  shouldBeReadonly : signature.shouldBeReadonly = f.shouldBeReadonly
  staticRequired : signature.staticRequired =
    (f.selection.facts.scopeIsStatic || f.selection.facts.inPrimaryConstructorBaseType)
  typeParams : Gives (constraintClosure env (Ty.collectParamsAll []
    ((signature.passed ++ signature.returned).map Variable.ty ++ [signature.returnType])))
      signature.typeParams

/-- The parameter of a variable. One that is returned is passed only if its value is needed, and
then by value. -/
def parameter? (promoted : List Modifier) (v : Variable) : Option Parameter :=
  if passedBy promoted v then
    if v.modifier? = some .ref then some ⟨v.name, v.ty, .none⟩ else none
  else v.modifier?.map fun modifier => ⟨v.name, v.ty, modifier⟩

/-- The outputs that are passed in a promoted way are returned. -/
structure Signature.Divides (crossing : List Variable) (promoted : List Modifier)
    (signature : Signature) : Prop where
  outputs : ∀ m ∈ promoted, m = .ref ∨ m = .out
  returned : signature.returned = (crossing.filter (passedBy promoted)).map
    fun v => { v with isReturned := true }
  passed : signature.passed = crossing.filter fun v => !passedBy promoted v
  parameters : signature.parameters = crossing.filterMap (parameter? promoted)

theorem mem_promotedModifiers {needsAsync returnForced : Bool}
    (h : m ∈ promotedModifiers crossing needsAsync returnForced options) :
    m = .ref ∨ m = .out := by
  rw [promotedModifiers] at h
  dsimp only at h
  split at h
  · split at h
    · simpa using h
    · cases h
  · split at h
    · simpa using h
    · split at h
      · exact Or.inr (List.mem_singleton.mp h)
      · split at h
        · exact Or.inl (List.mem_singleton.mp h)
        · cases h

theorem mem_promoted_result (h : m ∈ (f.result options).promoted) : m = .ref ∨ m = .out := by
  simp only [Findings.result] at h
  split at h
  · cases h
  · split at h
    · cases h
    · exact mem_promotedModifiers h

instance : Steady (f.infer env options).run := by
  simp only [Findings.infer]
  infer_instance

theorem gives_infer (h : Gives (f.infer env options) signature) :
    signature.InferredFrom f env options := by
  simp only [Findings.infer] at h
  simp only [Poll.gives_bind, Poll.gives_adapt, Poll.gives_pure] at h
  obtain ⟨typeParams, hclosure, rfl⟩ := h
  exact ⟨rfl, rfl, rfl, rfl, rfl, rfl, rfl, rfl, rfl, rfl, hclosure⟩

/-- What is filtered into two parts that are mapped apart is what is mapped at once, rearranged. -/
theorem filterMap_filter_append_perm {α β : Type} (p : α → Bool) (f g : α → Option β)
    (xs : List α) : ((xs.filter fun a => !p a).filterMap f ++ (xs.filter p).filterMap g).Perm
      (xs.filterMap fun a => if p a then g a else f a) := by
  have hf : (xs.filter fun a => !p a).filterMap f =
      (xs.filter fun a => !p a).filterMap fun a => if p a then g a else f a := by
    refine List.filterMap_congr fun a ha => ?_
    have hp : p a = false := by simpa using (List.mem_filter.mp ha).2
    rw [hp, if_neg Bool.false_ne_true]
  have hg : (xs.filter p).filterMap g =
      (xs.filter p).filterMap fun a => if p a then g a else f a := by
    refine List.filterMap_congr fun a ha => ?_
    rw [if_pos (List.mem_filter.mp ha).2]
  rw [hf, hg, ← List.filterMap_append]
  exact (List.perm_append_comm.trans (List.filter_append_perm p xs)).filterMap _

/-- What is sorted for the parameter of a variable. -/
def slot? (promoted : List Modifier) (v : Variable) : Option (Variable × Modifier) :=
  if passedBy promoted v then
    if v.modifier? = some .ref then some ({ v with isReturned := true }, .none) else none
  else v.modifier?.map fun modifier => (v, modifier)

theorem map_slot? : ((slot? promoted v).map fun (v, modifier) =>
    (⟨v.name, v.ty, modifier⟩ : Parameter)) = parameter? promoted v := by
  rw [slot?, parameter?]
  split
  · split <;> rfl
  · rw [Option.map_map]
    rfl

/-- Neither the mark of a returned variable nor its modifier changes its place. -/
theorem precedes_of_slot? {w : Variable} {a b : Variable × Modifier} (h : v.Precedes w)
    (ha : slot? promoted v = some a) (hb : slot? promoted w = some b) : a.1.Precedes b.1 := by
  have hplace {v : Variable} {a : Variable × Modifier} (h : slot? promoted v = some a) :
      a.1.name = v.name ∧ a.1.declaredAt = v.declaredAt ∧ a.1.symbol = v.symbol := by
    rw [slot?] at h
    split at h
    · split at h
      · cases h
        exact ⟨rfl, rfl, rfl⟩
      · cases h
    · obtain ⟨m, -, rfl⟩ := Option.map_eq_some_iff.mp h
      exact ⟨rfl, rfl, rfl⟩
  obtain ⟨hname, hoffset, hsymbol⟩ := hplace ha
  obtain ⟨hname', hoffset', hsymbol'⟩ := hplace hb
  rw [Variable.Precedes, hname, hoffset, hsymbol, hname', hoffset', hsymbol']
  exact h

/-- Variables in order have their parameters in the same order, although those that are returned are
listed apart. -/
theorem parametersOf_eq (h : crossing.Pairwise Variable.Precedes) :
    parametersOf (crossing.filter fun v => !passedBy promoted v)
      ((crossing.filter (passedBy promoted)).map fun v => { v with isReturned := true }) =
        crossing.filterMap (parameter? promoted) := by
  -- Both parts are sorted as one list, and that rearranges the parameters of the whole.
  have hneeded : ((((crossing.filter (passedBy promoted)).map fun v =>
      { v with isReturned := true }).filter fun v => v.modifier? = some .ref).map
        fun v => (v, Modifier.none)) = (crossing.filter (passedBy promoted)).filterMap fun v =>
          if v.modifier? = some .ref then some ({ v with isReturned := true }, .none)
          else none := by
    rw [← List.filterMap_eq_map, List.filterMap_filter, List.filterMap_map]
    refine List.filterMap_congr fun v _ => ?_
    simp only [Function.comp, decide_eq_true_eq]
    rfl
  have hsorted := Variable.mergeSort_eq_of_perm
    (filterMap_filter_append_perm (passedBy promoted)
      (fun v => v.modifier?.map fun modifier => (v, modifier)) _ crossing)
    (List.Pairwise.filterMap (slot? promoted)
      (fun _ _ hvw _ ha _ hb => precedes_of_slot? hvw ha hb) h)
  rw [parametersOf]
  dsimp only
  rw [hneeded, hsorted, List.map_filterMap]
  exact List.filterMap_congr fun v _ => map_slot?

theorem Signature.InferredFrom.divides (h : signature.InferredFrom f env options)
    (hordered : f.crossing.Pairwise Variable.Precedes) :
    signature.Divides f.crossing (f.result options).promoted := by
  refine ⟨fun _ => mem_promoted_result, h.returned, h.passed, ?_⟩
  rw [h.parameters, h.passed, h.returned, parametersOf_eq hordered]

/-- Dividing the variables and marking those that are returned loses nothing else of them. -/
theorem mem_map_divided {β : Type} {view : Variable → β} {b : β} {p : Variable → Bool}
    (hview : ∀ v : Variable, view { v with isReturned := true } = view v) :
    b ∈ ((crossing.filter fun v => !p v) ++ (crossing.filter p).map fun v : Variable =>
      { v with isReturned := true }).map view ↔ b ∈ crossing.map view := by
  have hmarked : ((crossing.filter p).map fun v : Variable =>
      { v with isReturned := true }).map view = (crossing.filter p).map view := by
    rw [List.map_map]
    exact List.map_congr_left fun v _ => hview v
  have hperm := List.perm_append_comm.trans (List.filter_append_perm p crossing)
  rw [List.map_append, hmarked, ← List.map_append]
  exact (hperm.map view).mem_iff

theorem Signature.InferredFrom.mem_map_iff (h : signature.InferredFrom f env options) {β : Type}
    {view : Variable → β} {b : β}
    (hview : ∀ v : Variable, view { v with isReturned := true } = view v) :
    b ∈ (signature.passed ++ signature.returned).map view ↔ b ∈ f.crossing.map view := by
  rw [h.passed, h.returned]
  exact mem_map_divided hview

/-- Every parameter has the type of some variable. -/
theorem exists_of_mem_parametersOf (h : p ∈ parametersOf kept returned) :
    ∃ v ∈ kept ++ returned, v.ty = p.ty := by
  obtain ⟨⟨v, modifier⟩, hv, rfl⟩ := List.mem_map.mp h
  rw [List.mem_mergeSort] at hv
  refine ⟨v, ?_, rfl⟩
  rcases List.mem_append.mp hv with hv | hv
  · obtain ⟨w, hw, hmodifier⟩ := List.mem_filterMap.mp hv
    obtain ⟨_, -, heq⟩ := Option.map_eq_some_iff.mp hmodifier
    cases heq
    exact List.mem_append_left _ hw
  · obtain ⟨w, hw, heq⟩ := List.mem_map.mp hv
    cases heq
    exact List.mem_append_right _ (List.mem_filter.mp hw).1

theorem passedBy_iff (h : v.modifier? = some m) : passedBy promoted v ↔ m ∈ promoted := by
  simp [passedBy, h]

/-- A parameter has the name and the type of its variable. One that brings a value in stands for a
variable that does. -/
theorem of_parameter?_eq_some (h : parameter? promoted v = some p) :
    p.name = v.name ∧ p.ty = v.ty ∧
      (p.modifier ≠ .out → v.style.BringsIn) := by
  simp only [parameter?] at h
  split at h
  · split at h
    · next href =>
      cases h
      exact ⟨rfl, rfl, fun _ => Or.inr href⟩
    · cases h
  · obtain ⟨m, hm, rfl⟩ := Option.map_eq_some_iff.mp h
    refine ⟨rfl, rfl, fun hout => ?_⟩
    cases m with
    | none => exact Or.inl hm
    | ref => exact Or.inr hm
    | out => exact absurd rfl hout

namespace Signature.Divides

variable (h : signature.Divides crossing promoted)
include h

theorem mem_parameters : p ∈ signature.parameters ↔
    ∃ v ∈ crossing, parameter? promoted v = some p := by
  rw [h.parameters]
  exact List.mem_filterMap

/-- A variable that is passed by value or by reference brings its value in, also if it is
returned. -/
theorem exists_parameter_of_input (hv : v ∈ crossing)
    (hm : v.style.BringsIn) :
    ∃ p ∈ signature.parameters, p.name = v.name ∧ p.ty = v.ty ∧
      (p.modifier = .none ∨ p.modifier = .ref) := by
  rcases hm with hm | hm
  · change v.modifier? = some .none at hm
    have hnone : .none ∉ promoted := by
      intro hnone
      have := h.outputs .none hnone
      simp at this
    refine ⟨⟨v.name, v.ty, .none⟩, h.mem_parameters.mpr ⟨v, hv, ?_⟩, rfl, rfl, Or.inl rfl⟩
    simp [parameter?, passedBy_iff hm, hm, hnone]
  · change v.modifier? = some .ref at hm
    by_cases href : .ref ∈ promoted
    · refine ⟨⟨v.name, v.ty, .none⟩, h.mem_parameters.mpr ⟨v, hv, ?_⟩, rfl, rfl, Or.inl rfl⟩
      simp [parameter?, passedBy_iff hm, hm, href]
    · refine ⟨⟨v.name, v.ty, .ref⟩, h.mem_parameters.mpr ⟨v, hv, ?_⟩, rfl, rfl, Or.inr rfl⟩
      simp [parameter?, passedBy_iff hm, hm, href]

/-- An output is returned or passed by reference. -/
theorem returned_or_exists_parameter (hv : v ∈ crossing)
    (hm : v.style.canBeReturned) :
    { v with isReturned := true } ∈ signature.returned ∨
      ∃ p ∈ signature.parameters, p.name = v.name ∧ p.ty = v.ty ∧
        (p.modifier = .ref ∨ p.modifier = .out) := by
  by_cases hpassed : passedBy promoted v
  · refine Or.inl ?_
    rw [h.returned]
    exact List.mem_map_of_mem (List.mem_filter.mpr ⟨hv, hpassed⟩)
  · refine Or.inr ?_
    rcases Boundary.modifier?_of_canBeReturned hm with hm | hm
    · change v.modifier? = some .ref at hm
      refine ⟨⟨v.name, v.ty, .ref⟩, h.mem_parameters.mpr ⟨v, hv, ?_⟩, rfl, rfl, Or.inl rfl⟩
      simp [parameter?, hpassed, hm]
    · change v.modifier? = some .out at hm
      refine ⟨⟨v.name, v.ty, .out⟩, h.mem_parameters.mpr ⟨v, hv, ?_⟩, rfl, rfl, Or.inr rfl⟩
      simp [parameter?, hpassed, hm]

end Signature.Divides

end ExtractMethod
