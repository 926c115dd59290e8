import ExtractMethod.Proofs.Boundary.Judgements

/-! A classification does not depend on the order in which a host lists the candidates. Only the
lists of what it leaves out follow that order. -/
namespace ExtractMethod.Boundary

open ExtractMethod.Flow (DataFlow Flags)
open Model (Snapshot Symbol)
open Poll (Gives)

variable {s : Selection} {options : Options} {model : Snapshot} {facts facts' : DataFlow}
  {c : Classification} {j : Judgement} {judgements judgements' : List Judgement} {raw : Flags}
  {symbol : Symbol} {id : Nat}

/-- Both hosts list the same candidates with the same facts, in any order. What they state about
other symbols may differ. -/
def SameCandidates (facts facts' : DataFlow) : Prop :=
  (facts.entries.filter fun entry => entry.2.isCandidate).Perm
    (facts'.entries.filter fun entry => entry.2.isCandidate)

/-- The symbol is a candidate and the receiver. -/
structure IsReceiverIn (model : Snapshot) (facts : DataFlow) (id : Nat) : Prop where
  candidate : ∃ raw, facts.get? id = some raw ∧ raw.isCandidate
  receiver : ∃ symbol, model.symbol? id = some symbol ∧ symbol.isThis

/-- At most one candidate is the receiver. -/
def HasOneReceiver (model : Snapshot) (facts : DataFlow) : Prop :=
  ∀ id id', IsReceiverIn model facts id → IsReceiverIn model facts id' → id = id'

/-- The classifications agree, except for the order of what they leave out. -/
structure Classification.Agrees (c c' : Classification) : Prop where
  crossing : c.crossing = c'.crossing
  unresolved : c.unresolved.Perm c'.unresolved
  ignored : c.ignored.entries.Perm c'.ignored.entries
  addressTaken : c.addressTaken = c'.addressTaken
  returnForced : c.returnForced = c'.returnForced
  receiver : c.receiver = c'.receiver
  primaryParametersUsed : c.primaryParametersUsed = c'.primaryParametersUsed

theorem judge_of_not_isCandidate {entry : Nat × Flags} (h : ¬ entry.2.isCandidate) :
    judge s options model entry = .ok none := by
  simp [judge, h]

/-- Only the candidates matter for what is collected. -/
theorem filterMap_judge (entries : List (Nat × Flags)) :
    (entries.filterMap fun entry => (judge s options model entry).toOption.join) =
      (entries.filter fun entry => entry.2.isCandidate).filterMap
        fun entry => (judge s options model entry).toOption.join := by
  rw [List.filterMap_filter]
  refine List.filterMap_congr fun entry _ => ?_
  split
  · rfl
  · next hc =>
    rw [judge_of_not_isCandidate hc]
    rfl

/-- The same candidates are judged in the same way. -/
theorem exists_gives_rearranged (hsame : SameCandidates facts facts')
    (h : Gives (Poll.collect (judge s options model) facts.entries) judgements) :
    ∃ judgements', Gives (Poll.collect (judge s options model) facts'.entries) judgements' ∧
      judgements.Perm judgements' := by
  obtain ⟨hall, rfl⟩ := Poll.gives_collect.mp h
  refine ⟨_, Poll.gives_collect.mpr ⟨?_, rfl⟩, ?_⟩
  · intro entry hentry
    by_cases hc : entry.2.isCandidate
    · have hmem : entry ∈ facts.entries.filter fun entry => entry.2.isCandidate :=
        hsame.mem_iff.mpr (List.mem_filter.mpr ⟨hentry, hc⟩)
      exact hall entry (List.mem_filter.mp hmem).1
    · exact ⟨none, judge_of_not_isCandidate hc⟩
  · rw [filterMap_judge facts.entries, filterMap_judge facts'.entries]
    exact hsame.filterMap _

theorem exemption?_eq_receiver (h : exemption? s symbol = some .receiver) : symbol.isThis := by
  unfold exemption? at h
  split at h
  · assumption
  · repeat' split at h
    all_goals cases h

theorem Judgement.isReceiver_iff : j.isReceiver ↔ j.fate = .ignored .receiver := by
  rw [isReceiver]
  split
  · next h => simp [h]
  · next h => simpa using h

/-- A judgement about a receiver is about a receiver of the facts. -/
theorem Judgement.Stands.isReceiverIn (h : j.Stands s options model facts raw)
    (hj : j.isReceiver) : IsReceiverIn model facts j.id := by
  refine ⟨⟨raw, h.facts_eq, h.isCandidate⟩, j.symbol, h.symbol_eq, ?_⟩
  have hfate := h.fate
  rw [Judgement.isReceiver_iff.mp hj] at hfate
  cases hfate with
  | exempt he => exact exemption?_eq_receiver he

section OfJudgements

variable (h : Gives (Poll.collect (judge s options model) facts.entries) judgements)
include h

theorem eq_of_isReceiver (hone : HasOneReceiver model facts) {k : Judgement}
    (hj : j ∈ judgements.filter Judgement.isReceiver)
    (hk : k ∈ judgements.filter Judgement.isReceiver) : j = k := by
  obtain ⟨hj, hreceiver⟩ := List.mem_filter.mp hj
  obtain ⟨hk, hreceiver'⟩ := List.mem_filter.mp hk
  obtain ⟨raw, hstands⟩ := exists_stands h hj
  obtain ⟨raw', hstands'⟩ := exists_stands h hk
  have hid := hone _ _ (hstands.isReceiverIn hreceiver) (hstands'.isReceiverIn hreceiver')
  exact List.inj_on_of_nodup_map (nodup_map_id h) hj hk hid

/-- There is at most one receiver, so rearranging the judgements does not move it. -/
theorem filter_isReceiver_eq (hone : HasOneReceiver model facts)
    (hperm : judgements.Perm judgements') :
    judgements.filter Judgement.isReceiver = judgements'.filter Judgement.isReceiver := by
  have hfiltered := hperm.filter Judgement.isReceiver
  have htrue (js : List Judgement) : js.Pairwise fun _ _ => True :=
    List.pairwise_of_forall fun _ _ => trivial
  refine List.Perm.eq_of_pairwise ?_ (htrue _) (htrue _) hfiltered
  intro j k hj hk _ _
  exact eq_of_isReceiver h hone hj (hfiltered.mem_iff.mpr hk)

theorem crossing_eq_of_perm
    (h' : Gives (Poll.collect (judge s options model) facts'.entries) judgements')
    (hperm : judgements.Perm judgements') :
    (Classification.ofJudgements judgements).crossing =
      (Classification.ofJudgements judgements').crossing := by
  refine Keyed.eq_of_entries ?_
  have hordered := pairwise_precedes h'
  rw [values_crossing h'] at hordered
  have hvalues : (judgements.filterMap Judgement.crossing?).Perm
      ((judgements'.filterMap Judgement.crossing?).mergeSort Variable.le) :=
    (hperm.filterMap _).trans (List.mergeSort_perm _ _).symm
  rw [entries_crossing h, entries_crossing h']
  exact congrArg _ (Variable.mergeSort_eq_of_perm hvalues hordered)

theorem agrees_of_perm (hone : HasOneReceiver model facts)
    (h' : Gives (Poll.collect (judge s options model) facts'.entries) judgements')
    (hperm : judgements.Perm judgements') :
    (Classification.ofJudgements judgements).Agrees (.ofJudgements judgements') := by
  refine ⟨crossing_eq_of_perm h h' hperm, hperm.filterMap _, ?_, hperm.any_eq, hperm.any_eq, ?_,
    hperm.any_eq⟩
  · rw [entries_ignored h, entries_ignored h']
    exact hperm.filterMap _
  · simp only [Classification.ofJudgements]
    rw [filter_isReceiver_eq h hone hperm]

end OfJudgements

/-- Facts with the same candidates are classified alike. -/
theorem exists_gives_classify_agrees (hsame : SameCandidates facts facts')
    (hone : HasOneReceiver model facts) (h : Gives (classify s options model facts) c) :
    ∃ c', Gives (classify s options model facts') c' ∧ c.Agrees c' := by
  obtain ⟨judgements, hj, rfl⟩ := gives_classify.mp h
  obtain ⟨judgements', hj', hperm⟩ := exists_gives_rearranged hsame hj
  exact ⟨_, gives_classify.mpr ⟨judgements', hj', rfl⟩, agrees_of_perm hj hone hj' hperm⟩

end ExtractMethod.Boundary
