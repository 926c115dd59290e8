import ExtractMethod.Keyed
import Mathlib.Data.List.Induction
import Mathlib.Data.List.Nodup

/-! The entries of a map and what it has under a key are the same. -/
namespace ExtractMethod

variable {κ ν : Type} [DecidableEq κ] {m : Keyed κ ν} {key : κ} {value : ν}
  {entries : List (κ × ν)} {entry : κ × ν}

theorem mem_putEntry (h : entry ∈ putEntry key value entries) :
    entry = (key, value) ∨ entry ∈ entries := by
  induction entries with
  | nil => exact Or.inl (List.mem_singleton.mp h)
  | cons head rest ih =>
    by_cases hk : head.1 = key
    · rw [putEntry, if_pos hk] at h
      rcases List.mem_cons.mp h with h | h
      · exact Or.inl h
      · exact Or.inr (List.mem_cons_of_mem _ h)
    · rw [putEntry, if_neg hk] at h
      rcases List.mem_cons.mp h with rfl | h
      · exact Or.inr List.mem_cons_self
      · rcases ih h with h | h
        · exact Or.inl h
        · exact Or.inr (List.mem_cons_of_mem _ h)

theorem putEntry_of_not_mem (h : key ∉ entries.map Prod.fst) :
    putEntry key value entries = entries ++ [(key, value)] := by
  induction entries with
  | nil => rfl
  | cons head rest ih =>
    rw [List.map_cons, List.mem_cons, not_or] at h
    rw [putEntry, if_neg (Ne.symm h.1), ih h.2]
    rfl

theorem find?_putEntry (key other : κ) (value : ν) (entries : List (κ × ν)) :
    (putEntry key value entries).find? (fun entry => entry.1 = other) =
      if key = other then some (key, value) else entries.find? fun entry => entry.1 = other := by
  induction entries with
  | nil => by_cases h : key = other <;> simp [putEntry, h]
  | cons head rest ih =>
    obtain ⟨k, v⟩ := head
    rw [putEntry]
    by_cases hk : k = key
    · by_cases h : key = other <;> simp [hk, h]
    · rw [if_neg hk]
      by_cases h : k = other
      · have hne : ¬ key = other := fun heq => hk (h.trans heq.symm)
        simp [h, hne]
      · simpa [h] using ih

namespace Keyed

omit [DecidableEq κ] in
theorem eq_of_entries {other : Keyed κ ν} (h : m.entries = other.entries) : m = other := by
  cases m
  cases other
  cases h
  rfl

theorem get?_eq_some_iff : m.get? key = some value ↔ (key, value) ∈ m.entries := by
  rw [get?, Option.map_eq_some_iff]
  constructor
  · rintro ⟨entry, hentry, rfl⟩
    have hk : entry.1 = key := by simpa using List.find?_some hentry
    rw [← hk]
    exact List.mem_of_find?_eq_some hentry
  · intro h
    obtain ⟨found, hfound⟩ :
        ∃ found, m.entries.find? (fun entry => entry.1 = key) = some found := by
      rw [← Option.isSome_iff_exists, List.find?_isSome]
      exact ⟨_, h, by simp⟩
    have hk : found.1 = key := by simpa using List.find?_some hfound
    have heq := List.inj_on_of_nodup_map m.nodup (List.mem_of_find?_eq_some hfound) h hk
    exact ⟨found, hfound, by rw [heq]⟩

theorem mem_of_mem_foldl_insert
    (h : entry ∈ (entries.foldl (fun m e => m.insert e.1 e.2) m).entries) :
    entry ∈ m.entries ∨ entry ∈ entries := by
  induction entries generalizing m with
  | nil => exact Or.inl h
  | cons head rest ih =>
    rcases ih h with h | h
    · rcases mem_putEntry h with rfl | h
      · exact Or.inr List.mem_cons_self
      · exact Or.inl h
    · exact Or.inr (List.mem_cons_of_mem _ h)

/-- A map made of a list has only entries of the list. -/
theorem mem_of_mem_ofList (h : entry ∈ (ofList entries).entries) : entry ∈ entries := by
  rcases mem_of_mem_foldl_insert h with h | h
  · cases h
  · exact h

theorem entries_foldl_insert (h : ((m.entries ++ entries).map Prod.fst).Nodup) :
    (entries.foldl (fun m e => m.insert e.1 e.2) m).entries = m.entries ++ entries := by
  induction entries generalizing m with
  | nil => exact (List.append_nil _).symm
  | cons head rest ih =>
    have hhead : head.1 ∉ m.entries.map Prod.fst := by
      intro hmem
      rw [List.map_append, List.nodup_append] at h
      exact h.2.2 _ hmem _ List.mem_cons_self rfl
    have hinsert : (m.insert head.1 head.2).entries = m.entries ++ [head] :=
      putEntry_of_not_mem hhead
    rw [List.foldl_cons, ih (by simpa [hinsert] using h), hinsert, List.append_assoc]
    rfl

/-- A list with distinct keys is kept as it is. -/
theorem entries_ofList (h : (entries.map Prod.fst).Nodup) : (ofList entries).entries = entries :=
  entries_foldl_insert h

theorem get?_insert (m : Keyed κ ν) (key : κ) (value : ν) (other : κ) :
    (m.insert key value).get? other = if key = other then some value else m.get? other := by
  rw [get?, get?, insert, find?_putEntry]
  split <;> rfl

theorem keys_insert (m : Keyed κ ν) (key : κ) (value : ν) :
    (m.insert key value).keys = if key ∈ m.keys then m.keys else m.keys ++ [key] :=
  map_fst_putEntry key value m.entries

/-- The last value that stands under the key. -/
def lastUnder (key : κ) (entries : List (κ × ν)) : Option ν :=
  (entries.filter fun entry => entry.1 = key).getLast?.map Prod.snd

theorem lastUnder_concat (key : κ) (entries : List (κ × ν)) (entry : κ × ν) :
    lastUnder key (entries ++ [entry]) =
      if entry.1 = key then some entry.2 else lastUnder key entries := by
  by_cases h : entry.1 = key <;> simp [lastUnder, h]

theorem ofList_concat (entries : List (κ × ν)) (entry : κ × ν) :
    ofList (entries ++ [entry]) = (ofList entries).insert entry.1 entry.2 :=
  List.foldl_concat _ _ _ _

theorem eraseDups_concat (xs : List κ) (x : κ) :
    (xs ++ [x]).eraseDups = if x ∈ xs then xs.eraseDups else xs.eraseDups ++ [x] := by
  by_cases h : x ∈ xs <;> simp [List.eraseDups_append, List.removeAll, List.eraseDups_cons, h]

theorem get?_ofList (entries : List (κ × ν)) (key : κ) :
    (ofList entries).get? key = lastUnder key entries := by
  induction entries using List.reverseRecOn with
  | nil => rfl
  | append_singleton entries entry ih =>
    rw [ofList_concat, get?_insert, lastUnder_concat, ih]

/-- Keys stand in the order in which they first came. -/
theorem keys_ofList (entries : List (κ × ν)) :
    (ofList entries).keys = (entries.map Prod.fst).eraseDups := by
  induction entries using List.reverseRecOn with
  | nil => rfl
  | append_singleton entries entry ih =>
    rw [ofList_concat, keys_insert, ih, List.map_append, List.map_singleton, eraseDups_concat]
    simp only [List.mem_eraseDups]

end Keyed

end ExtractMethod
