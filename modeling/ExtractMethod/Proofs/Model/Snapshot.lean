import ExtractMethod.Model.Snapshot
import ExtractMethod.Proofs.Keyed

/-! Type parameters are kept under their own numbers, whatever a host writes. -/
namespace ExtractMethod.Model.Snapshot

variable {s : Snapshot} {write : Write} {writes : List Write} {decl : ParamDecl}

/-- Every declaration of a type parameter is kept under its number. -/
def IsNumbered (s : Snapshot) : Prop := ∀ entry ∈ s.typeParams.entries, entry.1 = entry.2.id

theorem isNumbered_empty : empty.IsNumbered := nofun

theorem isNumbered_write (h : s.IsNumbered) : (s.write write).IsNumbered := by
  cases write with
  | typeParam decl =>
    intro entry hentry
    rcases mem_putEntry hentry with rfl | hentry
    · rfl
    · exact h entry hentry
  | symbol | reference | nullability | dataFlow | controlFlow | returnTypes => exact h

theorem isNumbered_foldl (h : s.IsNumbered) : (writes.foldl Snapshot.write s).IsNumbered := by
  induction writes generalizing s with
  | nil => exact h
  | cons write rest ih => exact ih (isNumbered_write h)

theorem isNumbered_ofWrites : (ofWrites writes).IsNumbered := isNumbered_foldl isNumbered_empty

theorem IsNumbered.typeParam?_eq_some (h : s.IsNumbered) (hdecl : decl ∈ s.typeParams.values) :
    s.typeParam? decl.id = some decl := by
  obtain ⟨entry, hentry, rfl⟩ := List.mem_map.mp hdecl
  rw [typeParam?, Keyed.get?_eq_some_iff, ← h entry hentry]
  exact hentry

theorem IsNumbered.map_id (h : s.IsNumbered) :
    s.typeParams.values.map ParamDecl.id = s.typeParams.keys := by
  rw [Keyed.values, Keyed.keys, List.map_map]
  exact List.map_congr_left fun entry hentry => (h entry hentry).symm

theorem IsNumbered.nodup_map_id (h : s.IsNumbered) :
    (s.typeParams.values.map ParamDecl.id).Nodup := by
  rw [h.map_id]
  exact s.typeParams.nodup

theorem IsNumbered.exists_typeParam?_iff (h : s.IsNumbered) {id : Nat} :
    (∃ decl, s.typeParam? id = some decl) ↔ ∃ decl ∈ s.typeParams.values, decl.id = id := by
  constructor
  · rintro ⟨decl, hdecl⟩
    rw [typeParam?, Keyed.get?_eq_some_iff] at hdecl
    exact ⟨decl, List.mem_map_of_mem hdecl, (h _ hdecl).symm⟩
  · rintro ⟨decl, hdecl, rfl⟩
    exact ⟨decl, h.typeParam?_eq_some hdecl⟩

end ExtractMethod.Model.Snapshot
