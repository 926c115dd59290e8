namespace ExtractMethod.Json

/-- A JSON value. A number is its digits and how many of them stand after the point. -/
inductive Value where
  | null
  | bool (b : Bool)
  | number (digits : Int) (decimals : Nat)
  | text (s : String)
  | list (items : List Value)
  | record (members : List (String × Value))
deriving Inhabited

namespace Value

def nat (n : Nat) : Value := .number n 0

def ofNat? : Option Nat → Value
  | some n => nat n
  | none => .null

def ofText? : Option String → Value
  | some s => .text s
  | none => .null

def texts (l : List String) : Value := .list (l.map .text)

def nats (l : List Nat) : Value := .list (l.map nat)

def text? : Value → Option String
  | .text s => some s
  | _ => none

def bool? : Value → Option Bool
  | .bool b => some b
  | _ => none

/-- A natural number below the bound. -/
def natBelow? (bound : Nat) : Value → Option Nat
  | .number digits 0 =>
    if 0 ≤ digits ∧ digits < (bound : Int) then some digits.toNat else none
  | _ => none

/-- An identifier or an offset, which has 32 bits. -/
def word? (v : Value) : Option Nat := v.natBelow? 4294967296

def items? : Value → Option (List Value)
  | .list items => some items
  | _ => none

/-- The first member of that name, if the value is a record that has one. -/
def member? (v : Value) (name : String) : Option Value :=
  match v with
  | .record members => (members.find? fun m => m.1 = name).map Prod.snd
  | _ => none

/-- The fields of a record by name, or of a list by place, which then has all of them. -/
def fields? (names : List String) : Value → Option (List (Option Value))
  | .record members => some (names.map (Value.record members).member?)
  | .list items => if items.length = names.length then some (items.map some) else none
  | _ => none

/-- The fields of a record by name, or of a list by place, which may leave out the last ones. -/
def someFields? (names : List String) : Value → Option (List (Option Value))
  | .record members => some (names.map (Value.record members).member?)
  | .list items =>
    if items.length ≤ names.length then
      some (items.map some ++ List.replicate (names.length - items.length) none)
    else none
  | _ => none

theorem sizeOf_lt_of_member? {v w : Value} {name : String} (h : v.member? name = some w) :
    sizeOf w < sizeOf v := by
  cases v with
  | record members =>
    simp only [member?, Option.map_eq_some_iff] at h
    obtain ⟨⟨k, x⟩, hfind, rfl⟩ := h
    have hmem := List.sizeOf_lt_of_mem (List.mem_of_find?_eq_some hfind)
    simp only [Prod.mk.sizeOf_spec] at hmem
    simp only [record.sizeOf_spec]
    omega
  | _ => simp [member?] at h

theorem sizeOf_items_lt {items : List Value} {n : Nat} (h : sizeOf (list items) < n) :
    sizeOf items < n := by
  rw [list.sizeOf_spec] at h
  omega

theorem sizeOf_lt_of_mem_fields? {v w : Value} {names : List String}
    {fields : List (Option Value)} (h : v.fields? names = some fields) (hw : some w ∈ fields) :
    sizeOf w < sizeOf v := by
  cases v with
  | record members =>
    simp only [fields?, Option.some.injEq] at h
    subst h
    obtain ⟨name, _, hname⟩ := List.mem_map.mp hw
    exact sizeOf_lt_of_member? hname
  | list items =>
    simp only [fields?] at h
    split at h
    · cases h
      obtain ⟨x, hx, he⟩ := List.mem_map.mp hw
      cases he
      have := List.sizeOf_lt_of_mem hx
      simp only [list.sizeOf_spec]
      omega
    · simp at h
  | _ => simp [fields?] at h

end Value

end ExtractMethod.Json
