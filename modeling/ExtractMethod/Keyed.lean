namespace ExtractMethod

variable {κ ν : Type} [DecidableEq κ]

/-- Puts a value under a key: in place if the key is there, else at the end. -/
def putEntry (key : κ) (value : ν) : List (κ × ν) → List (κ × ν)
  | [] => [(key, value)]
  | (k, v) :: rest =>
    if k = key then (key, value) :: rest else (k, v) :: putEntry key value rest

theorem map_fst_putEntry (key : κ) (value : ν) (entries : List (κ × ν)) :
    (putEntry key value entries).map Prod.fst =
      if key ∈ entries.map Prod.fst then entries.map Prod.fst
      else entries.map Prod.fst ++ [key] := by
  induction entries with
  | nil => simp [putEntry]
  | cons entry rest ih =>
    obtain ⟨k, v⟩ := entry
    by_cases h : k = key
    · simp [putEntry, h]
    · have h' : ¬ key = k := fun e => h e.symm
      simp only [putEntry, h, if_false, List.map_cons, List.mem_cons, h', false_or, ih]
      split <;> rfl

theorem nodup_putEntry {key : κ} {value : ν} {entries : List (κ × ν)}
    (h : (entries.map Prod.fst).Nodup) : ((putEntry key value entries).map Prod.fst).Nodup := by
  rw [map_fst_putEntry]
  split
  · exact h
  · next hk =>
    rw [List.nodup_append]
    refine ⟨h, by simp, ?_⟩
    intro a ha b hb e
    rw [List.mem_singleton] at hb
    exact hk (hb ▸ e ▸ ha)

variable (κ ν) in
/-- A finite map that remembers in which order its keys were first put. -/
structure Keyed where
  entries : List (κ × ν)
  nodup : (entries.map Prod.fst).Nodup

namespace Keyed

def empty : Keyed κ ν := ⟨[], List.nodup_nil⟩

instance : Inhabited (Keyed κ ν) := ⟨empty⟩

/-- A key keeps its first place and takes the last value. -/
def insert (m : Keyed κ ν) (key : κ) (value : ν) : Keyed κ ν :=
  ⟨putEntry key value m.entries, nodup_putEntry m.nodup⟩

def ofList (entries : List (κ × ν)) : Keyed κ ν :=
  entries.foldl (fun m entry => m.insert entry.1 entry.2) empty

def get? (m : Keyed κ ν) (key : κ) : Option ν :=
  (m.entries.find? fun entry => entry.1 = key).map Prod.snd

def contains (m : Keyed κ ν) (key : κ) : Bool := m.entries.any fun entry => entry.1 = key

def keys (m : Keyed κ ν) : List κ := m.entries.map Prod.fst

def values (m : Keyed κ ν) : List ν := m.entries.map Prod.snd

def size (m : Keyed κ ν) : Nat := m.entries.length

def isEmpty (m : Keyed κ ν) : Bool := m.entries.isEmpty

end Keyed

end ExtractMethod
