import ExtractMethod.Proofs.Boundary.Rearranged

/-! The receiver and the parameters of a primary constructor are no variables of the boundary. That
they are used is noted about the classification as a whole. -/
namespace ExtractMethod.Boundary

open ExtractMethod.Flow (DataFlow Flags)
open Model (Snapshot Symbol)
open Poll (Gives)

variable {s : Selection} {options : Options} {model : Snapshot} {facts : DataFlow}
  {c : Classification} {j : Judgement} {judgements : List Judgement} {id : Nat} {raw : Flags}
  {symbol : Symbol} {reason : Exemption}

/-- The host lists the symbol as a candidate with these facts. -/
structure IsListed (model : Snapshot) (facts : DataFlow) (id : Nat) (symbol : Symbol)
    (raw : Flags) : Prop where
  facts_eq : facts.get? id = some raw
  isCandidate : raw.isCandidate
  symbol_eq : model.symbol? id = some symbol

/-- The symbol is a parameter of a primary constructor, and neither the receiver nor made up. -/
def IsPrimaryParameter (symbol : Symbol) : Prop := symbol.kind = .parameter false true false

theorem exemption?_eq_receiver_iff : exemption? s symbol = some .receiver ↔ symbol.isThis := by
  constructor
  · exact exemption?_eq_receiver
  · intro hthis
    rw [exemption?, if_pos hthis]

theorem exemption?_eq_primary_iff : exemption? s symbol = some .primaryConstructorParameter ↔
    IsPrimaryParameter symbol ∧ ¬ s.facts.inPrimaryConstructorBaseType := by
  obtain ⟨id, name, kind, ty, declaration⟩ := symbol
  simp only [exemption?, IsPrimaryParameter, Symbol.isThis, Symbol.isSynthesizedParameter,
    Symbol.isPrimaryConstructorParameter]
  cases kind with
  | parameter isThis isPrimary isSynthesized =>
    cases isThis <;> cases isPrimary <;> cases isSynthesized <;> simp
    all_goals split_ifs <;> simp_all
  | _ => simp <;> split_ifs <;> simp

theorem Judgement.usesPrimaryParameter_iff : j.usesPrimaryParameter ↔
    j.fate = .ignored .primaryConstructorParameter ∧
      (j.flags.readInside ∨ j.flags.writtenInside) := by
  rw [usesPrimaryParameter, Bool.and_eq_true, Bool.or_eq_true]
  refine and_congr_left fun _ => ?_
  split
  · next h => simp [h]
  · next h => simpa using h

/-- What is left out for its symbol alone was left out for just this reason. -/
theorem Judgement.Stands.fate_eq_iff (h : j.Stands s options model facts raw)
    (hreason : reason ≠ .localToSelection) :
    j.fate = .ignored reason ↔ exemption? s j.symbol = some reason := by
  have hfate := h.fate
  generalize j.fate = fate at hfate
  cases hfate with
  | exempt he => simp [he]
  | isLocal he _ => simp [he, hreason.symm]
  | unresolved he => simp [he]
  | crosses he => simp [he]

section OfJudgements

variable (h : Gives (Poll.collect (judge s options model) facts.entries) judgements)
include h

/-- Some judgement passes a test exactly if some candidate has the property that the test stands
for. -/
theorem any_judgements_iff {test : Judgement → Bool} {P : Symbol → Flags → Prop}
    (htest : ∀ j raw, j.Stands s options model facts raw → (test j ↔ P j.symbol raw)) :
    judgements.any test ↔ ∃ id symbol raw, IsListed model facts id symbol raw ∧ P symbol raw := by
  rw [List.any_eq_true]
  constructor
  · rintro ⟨j, hj, hpasses⟩
    obtain ⟨raw, hstands⟩ := exists_stands h hj
    exact ⟨j.id, j.symbol, raw, ⟨hstands.facts_eq, hstands.isCandidate, hstands.symbol_eq⟩,
      (htest j raw hstands).mp hpasses⟩
  · rintro ⟨id, symbol, raw, ⟨hraw, hcandidate, hsymbol⟩, hP⟩
    obtain ⟨j, hj, rfl⟩ := List.mem_map.mp ((mem_map_id_iff h).mpr ⟨raw, hraw, hcandidate⟩)
    obtain ⟨raw', hstands⟩ := exists_stands h hj
    cases hstands.facts_eq.symm.trans hraw
    cases hstands.symbol_eq.symm.trans hsymbol
    exact ⟨j, hj, (htest j _ hstands).mpr hP⟩

theorem any_receivers_iff {use : Flags → Bool} :
    ((judgements.filter Judgement.isReceiver).any fun j => use j.flags) ↔
      ∃ id symbol raw, IsListed model facts id symbol raw ∧ symbol.isThis ∧ use raw := by
  rw [List.any_filter]
  refine any_judgements_iff h fun j raw hstands => ?_
  rw [Bool.and_eq_true, Judgement.isReceiver_iff, hstands.fate_eq_iff (by simp),
    exemption?_eq_receiver_iff, hstands.flags_eq]

theorem any_primaryParameters_iff : judgements.any Judgement.usesPrimaryParameter ↔
    ¬ s.facts.inPrimaryConstructorBaseType ∧ ∃ id symbol raw, IsListed model facts id symbol raw ∧
      IsPrimaryParameter symbol ∧ (raw.readInside ∨ raw.writtenInside) := by
  have htest (j : Judgement) (raw : Flags) (hstands : j.Stands s options model facts raw) :
      (j.usesPrimaryParameter ↔
        (IsPrimaryParameter j.symbol ∧ ¬ s.facts.inPrimaryConstructorBaseType) ∧
          (raw.readInside ∨ raw.writtenInside)) := by
    rw [Judgement.usesPrimaryParameter_iff, hstands.fate_eq_iff (by simp),
      exemption?_eq_primary_iff, hstands.flags_eq]
  rw [any_judgements_iff h (P := fun symbol raw => (IsPrimaryParameter symbol ∧
    ¬ s.facts.inPrimaryConstructorBaseType) ∧ (raw.readInside ∨ raw.writtenInside)) htest]
  constructor
  · rintro ⟨id, symbol, raw, hlisted, ⟨hprimary, hbase⟩, huse⟩
    exact ⟨hbase, id, symbol, raw, hlisted, hprimary, huse⟩
  · rintro ⟨hbase, id, symbol, raw, hlisted, hprimary, huse⟩
    exact ⟨id, symbol, raw, hlisted, ⟨hprimary, hbase⟩, huse⟩

end OfJudgements

/-- The selected code uses the receiver, or a parameter of the primary constructor that only the
members of an instance have. -/
inductive UsesInstance (s : Selection) (model : Snapshot) (facts : DataFlow) : Prop where
  | receiver {id : Nat} {symbol : Symbol} {raw : Flags} (h : IsListed model facts id symbol raw)
    (hthis : symbol.isThis) (huse : raw.readInside ∨ raw.writtenInside) : UsesInstance s model facts
  | primaryParameter {id : Nat} {symbol : Symbol} {raw : Flags}
    (h : IsListed model facts id symbol raw)
    (hprimary : IsPrimaryParameter symbol) (hbase : ¬ s.facts.inPrimaryConstructorBaseType)
    (huse : raw.readInside ∨ raw.writtenInside) : UsesInstance s model facts

/-- Of a classification it is known whether the selected code uses the instance. -/
theorem usesInstance_iff (h : Gives (classify s options model facts) c) :
    (c.receiver.read ∨ c.receiver.written ∨
      c.primaryParametersUsed ∧ ¬ s.facts.inPrimaryConstructorBaseType) ↔
        UsesInstance s model facts := by
  obtain ⟨judgements, hjudgements, rfl⟩ := gives_classify.mp h
  simp only [Classification.ofJudgements, any_receivers_iff hjudgements,
    any_primaryParameters_iff hjudgements]
  constructor
  · rintro (⟨id, symbol, raw, hlisted, hthis, hread⟩ | ⟨id, symbol, raw, hlisted, hthis, hwritten⟩ |
      ⟨⟨hbase, id, symbol, raw, hlisted, hprimary, huse⟩, -⟩)
    · exact .receiver hlisted hthis (Or.inl hread)
    · exact .receiver hlisted hthis (Or.inr hwritten)
    · exact .primaryParameter hlisted hprimary hbase huse
  · rintro (⟨hlisted, hthis, hread | hwritten⟩ | ⟨hlisted, hprimary, hbase, huse⟩)
    · exact Or.inl ⟨_, _, _, hlisted, hthis, hread⟩
    · exact Or.inr (Or.inl ⟨_, _, _, hlisted, hthis, hwritten⟩)
    · exact Or.inr (Or.inr ⟨⟨hbase, _, _, _, hlisted, hprimary, huse⟩, hbase⟩)

end ExtractMethod.Boundary
