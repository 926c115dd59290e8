import ExtractMethod.Proofs.Analysis.Exchange
import ExtractMethod.Proofs.Analysis.References
import ExtractMethod.Proofs.Model.Reordered

/-! What is collected of the references is listed once, in the order in which the selected code
first uses it, however the host adds the references. -/
namespace ExtractMethod

open Model (Reference Reordered Snapshot Symbol Write)
open Poll (Gives)
open Text (Range)

namespace Model

/-- The references that were written and touch a range, in document order. -/
def touching (range : Range) (log : List Write) : List Reference :=
  (Reference.inDocumentOrder (log.filterMap Write.reference?)).filter fun r =>
    range.intersects r.range ∨ r.range.isEmpty ∧ range.contains r.range.start

/-- A reference of the one kind stands before all references of the other. -/
def FirstBefore (references : List Reference) (P Q : Reference → Prop) : Prop :=
  ∃ before r after, references = before ++ r :: after ∧ P r ∧ ∀ q ∈ before ++ [r], ¬ Q q

/-- The symbol is a local function that the span does not declare. -/
def Snapshot.KnowsOuter (model : Snapshot) (span : Range) (id : Nat) : Prop :=
  ∃ symbol isStatic, model.symbol? id = some symbol ∧ symbol.kind = .localFunction isStatic ∧
    ¬ symbol.isDeclaredIn span

/-- The reference assigns a readonly field of that name. -/
def Snapshot.Assigns (model : Snapshot) (name : Name) (r : Reference) : Prop :=
  ∃ symbol, model.symbol? r.symbol = some symbol ∧ symbol.isReadonlyField ∧ r.isWritten ∧
    symbol.name = name

/-- The call stands for a local function that the span does not declare, where it is first referred
to. -/
structure Snapshot.IsFirstCall (model : Snapshot) (span : Range) (references : List Reference)
    (call : LocalCall) : Prop where
  exists_symbol : ∃ symbol, model.symbol? call.symbol = some symbol ∧
    symbol.kind = .localFunction call.isStatic ∧ ¬ symbol.isDeclaredIn span ∧
    symbol.name = call.name
  range_eq :
    (references.find? fun r => r.symbol = call.symbol).map Reference.range = some call.range

end Model

/-- Each function and each field is listed once, in the order of the first references, and each
function with its first reference. -/
structure Mentions.ListsFirstUses (mentions : Mentions) (model : Snapshot) (span : Range)
    (references : List Reference) : Prop where
  mem_outerCalls : ∀ call, call ∈ mentions.outerCalls ↔ model.IsFirstCall span references call
  outerCalls_nodup : (mentions.outerCalls.map LocalCall.symbol).Nodup
  outerCalls_ordered : mentions.outerCalls.Pairwise fun a b =>
    Model.FirstBefore references (·.symbol = a.symbol) (·.symbol = b.symbol)
  mem_readonlyWrites : ∀ name, name ∈ mentions.readonlyWrites ↔
    ∃ r ∈ references, model.Assigns name r
  readonlyWrites_nodup : mentions.readonlyWrites.Nodup
  readonlyWrites_ordered : mentions.readonlyWrites.Pairwise fun a b =>
    Model.FirstBefore references (model.Assigns a) (model.Assigns b)

variable {s : Selection} {model : Snapshot} {mentions : Mentions} {references : List Reference}
  {calls : List LocalCall} {call : LocalCall} {span : Range} {reference : Reference}

namespace Model

theorem FirstBefore.irrefl {P : Reference → Prop} : ¬ FirstBefore references P P := by
  rintro ⟨before, r, after, -, hr, hnone⟩
  exact hnone r (by simp) hr

/-- Of each thing that some references are about, the first is kept, so the things that are kept
stand in the order of the first references. -/
theorem pairwise_eraseDups_filterMap {κ : Type} [DecidableEq κ] (about : Reference → Option κ)
    (references : List Reference) : (references.filterMap about).eraseDups.Pairwise fun a b =>
      FirstBefore references (about · = some a) (about · = some b) := by
  induction references using List.reverseRecOn with
  | nil => exact .nil
  | append_singleton references r ih =>
    have hkept : (references.filterMap about).eraseDups.Pairwise fun a b =>
        FirstBefore (references ++ [r]) (about · = some a) (about · = some b) := by
      refine ih.imp ?_
      rintro a b ⟨before, first, after, rfl, hfirst, hbefore⟩
      exact ⟨before, first, after ++ [r], by simp, hfirst, hbefore⟩
    rw [List.filterMap_append, List.filterMap_cons]
    cases hr : about r with
    | none => simpa using hkept
    | some b =>
      rw [List.filterMap_nil, Keyed.eraseDups_concat]
      split
      · exact hkept
      · next hb =>
        rw [List.pairwise_append]
        refine ⟨hkept, List.pairwise_singleton _ _, fun a ha b' hb' => ?_⟩
        rw [List.mem_singleton.mp hb']
        obtain ⟨q, hq, haq⟩ := List.mem_filterMap.mp (List.mem_eraseDups.mp ha)
        obtain ⟨before, after, rfl⟩ := List.append_of_mem hq
        refine ⟨before, q, after ++ [r], by simp, haq, fun q' hq' hbq => hb ?_⟩
        refine List.mem_filterMap.mpr ⟨q', ?_, hbq⟩
        rw [List.append_cons]
        exact List.mem_append_left _ hq'

end Model

namespace Mentions

theorem firstCalls_concat (calls : List LocalCall) (call : LocalCall) :
    firstCalls (calls ++ [call]) = if call.symbol ∈ calls.map LocalCall.symbol then firstCalls calls
      else firstCalls calls ++ [call] := by
  induction calls with
  | nil => rfl
  | cons head rest ih =>
    rw [List.cons_append, firstCalls, ih, firstCalls]
    by_cases hrest : call.symbol ∈ rest.map LocalCall.symbol
    · have hmem : call.symbol ∈ (head :: rest).map LocalCall.symbol := List.mem_cons_of_mem _ hrest
      rw [if_pos hrest, if_pos hmem]
    · rw [if_neg hrest]
      by_cases hhead : call.symbol = head.symbol <;> simp [hhead, hrest]

theorem map_symbol_firstCalls (calls : List LocalCall) :
    (firstCalls calls).map LocalCall.symbol = (calls.map LocalCall.symbol).eraseDups := by
  induction calls using List.reverseRecOn with
  | nil => rfl
  | append_singleton calls call ih =>
    rw [firstCalls_concat, List.map_append, List.map_singleton, Keyed.eraseDups_concat, ← ih]
    split
    · rfl
    · simp

theorem mem_firstCalls_iff :
    call ∈ firstCalls calls ↔ calls.find? (fun c => c.symbol = call.symbol) = some call := by
  induction calls with
  | nil => simp [firstCalls]
  | cons head rest ih =>
    rw [firstCalls, List.mem_cons, List.mem_filter, ih, List.find?_cons]
    by_cases h : head.symbol = call.symbol
    · simp [h, eq_comm]
    · have hne : call ≠ head := by
        rintro rfl
        exact h rfl
      simp [h, hne, Ne.symm h]

end Mentions

namespace Model.Snapshot

/-- What the reference adds to the calls, if anything. -/
def callAt? (model : Snapshot) (span : Range) (r : Reference) : Option LocalCall :=
  (model.symbol? r.symbol).bind fun symbol => Mentions.outerCall? span (r, symbol)

/-- What the reference adds to the names of fields, if anything. -/
def writeAt? (model : Snapshot) (r : Reference) : Option Name :=
  (model.symbol? r.symbol).bind fun symbol => Mentions.readonlyWrite? (r, symbol)

theorem callAt?_eq_some_iff : model.callAt? span reference = some call ↔
    ∃ symbol, model.symbol? reference.symbol = some symbol ∧
      symbol.kind = .localFunction call.isStatic ∧ ¬ symbol.isDeclaredIn span ∧
      call = ⟨reference.symbol, symbol.name, call.isStatic, reference.range⟩ := by
  simp only [callAt?, Option.bind_eq_some_iff, Mentions.outerCall?_eq_some_iff]

theorem writeAt?_eq_some_iff {name : Name} :
    model.writeAt? reference = some name ↔ model.Assigns name reference := by
  simp [writeAt?, Option.bind_eq_some_iff, Mentions.readonlyWrite?, Assigns, and_assoc]

theorem symbol_of_callAt? (h : model.callAt? span reference = some call) :
    call.symbol = reference.symbol ∧ model.KnowsOuter span call.symbol := by
  obtain ⟨symbol, hsymbol, hkind, hdeclared, hcall⟩ := callAt?_eq_some_iff.mp h
  have hid : call.symbol = reference.symbol := congrArg LocalCall.symbol hcall
  exact ⟨hid, symbol, call.isStatic, hid ▸ hsymbol, hkind, hdeclared⟩

/-- Of a local function that the span does not declare, every reference adds a call. -/
theorem map_symbol_callAt?_eq_some_iff {id : Nat} (h : model.KnowsOuter span id) :
    (model.callAt? span reference).map LocalCall.symbol = some id ↔ reference.symbol = id := by
  rw [Option.map_eq_some_iff]
  constructor
  · rintro ⟨call, hcall, rfl⟩
    exact (symbol_of_callAt? hcall).1.symm
  · rintro rfl
    obtain ⟨symbol, isStatic, hsymbol, hkind, hdeclared⟩ := h
    exact ⟨⟨reference.symbol, symbol.name, isStatic, reference.range⟩,
      callAt?_eq_some_iff.mpr ⟨symbol, hsymbol, hkind, hdeclared, rfl⟩, rfl⟩

theorem find?_any_callAt? {id : Nat} (h : model.KnowsOuter span id) (references : List Reference) :
    (references.find? fun r => (model.callAt? span r).any fun call => call.symbol = id) =
      references.find? fun r => r.symbol = id := by
  congr 1
  funext r
  rw [Bool.eq_iff_iff, decide_eq_true_iff, ← map_symbol_callAt?_eq_some_iff h]
  simp [Option.any_eq_true, Option.map_eq_some_iff]

theorem IsFirstCall.knowsOuter (h : model.IsFirstCall span references call) :
    model.KnowsOuter span call.symbol := by
  obtain ⟨symbol, hsymbol, hkind, hdeclared, -⟩ := h.exists_symbol
  exact ⟨symbol, call.isStatic, hsymbol, hkind, hdeclared⟩

theorem mem_firstCalls_callAt?_iff :
    call ∈ Mentions.firstCalls (references.filterMap (model.callAt? span)) ↔
      model.IsFirstCall span references call := by
  rw [Mentions.mem_firstCalls_iff, List.find?_filterMap, Option.bind_eq_some_iff]
  constructor
  · rintro ⟨r, hfind, hcall⟩
    rw [find?_any_callAt? (symbol_of_callAt? hcall).2] at hfind
    obtain ⟨symbol, hsymbol, hkind, hdeclared, heq⟩ := callAt?_eq_some_iff.mp hcall
    refine ⟨⟨symbol, ?_, hkind, hdeclared, ?_⟩, ?_⟩
    · rw [(symbol_of_callAt? hcall).1, hsymbol]
    · rw [heq]
    · rw [hfind, heq]
      rfl
  · intro h
    obtain ⟨r, hfind, hrange⟩ := Option.map_eq_some_iff.mp h.range_eq
    obtain ⟨symbol, hsymbol, hkind, hdeclared, hname⟩ := h.exists_symbol
    have hid : r.symbol = call.symbol := by simpa using List.find?_some hfind
    refine ⟨r, (find?_any_callAt? h.knowsOuter references).trans hfind, ?_⟩
    refine callAt?_eq_some_iff.mpr ⟨symbol, hid ▸ hsymbol, hkind, hdeclared, ?_⟩
    rw [hid, hname, hrange]

end Model.Snapshot

/-- The references are collected from first to last, with what the host knows of each. -/
theorem Selection.gives_references_iff : Gives (s.references model) mentions ↔
    (∀ r ∈ model.referencesIn s.finalSpan, ∃ symbol, model.symbol? r.symbol = some symbol) ∧
      mentions = ⟨Mentions.firstCalls
          ((model.referencesIn s.finalSpan).filterMap (model.callAt? s.finalSpan)),
        ((model.referencesIn s.finalSpan).filterMap model.writeAt?).eraseDups⟩ := by
  have hresolve (r) : (model.resolve r).toOption.join =
      (model.symbol? r.symbol).map fun symbol => (r, symbol) := by
    rw [Snapshot.resolve]
    cases model.symbol? r.symbol <;> rfl
  simp only [references]
  simp only [Poll.gives_bind, Poll.gives_pure, Poll.gives_collect, Snapshot.resolve_eq_ok, hresolve]
  have hcollected : Mentions.ofReferences s.finalSpan ((model.referencesIn s.finalSpan).filterMap
      fun r => (model.symbol? r.symbol).map fun symbol => (r, symbol)) =
        ⟨Mentions.firstCalls
          ((model.referencesIn s.finalSpan).filterMap (model.callAt? s.finalSpan)),
        ((model.referencesIn s.finalSpan).filterMap model.writeAt?).eraseDups⟩ := by
    simp only [Mentions.ofReferences, List.filterMap_filterMap, Option.bind_map]
    rfl
  constructor
  · rintro ⟨_, ⟨hknown, rfl⟩, rfl⟩
    exact ⟨hknown, hcollected⟩
  · rintro ⟨hknown, rfl⟩
    exact ⟨_, ⟨hknown, rfl⟩, hcollected⟩

/-- Whatever the references are, the first use of each thing is listed. -/
theorem Mentions.listsFirstUses (model : Snapshot) (span : Range) (references : List Reference) :
    ListsFirstUses ⟨firstCalls (references.filterMap (model.callAt? span)),
      (references.filterMap model.writeAt?).eraseDups⟩ model span references := by
  have hcall {call} (h : call ∈ firstCalls (references.filterMap (model.callAt? span))) :
      model.KnowsOuter span call.symbol := (Snapshot.mem_firstCalls_callAt?_iff.mp h).knowsOuter
  have hcalls := Model.pairwise_eraseDups_filterMap
    (fun r => (model.callAt? span r).map LocalCall.symbol) references
  rw [← List.map_filterMap, ← map_symbol_firstCalls] at hcalls
  have hwrites := Model.pairwise_eraseDups_filterMap model.writeAt? references
  refine ⟨fun call => Snapshot.mem_firstCalls_callAt?_iff, ?_, ?_, fun name => ?_, ?_, ?_⟩
  · refine hcalls.imp fun hfirst heq => ?_
    rw [heq] at hfirst
    exact Model.FirstBefore.irrefl hfirst
  · refine (List.pairwise_map.mp hcalls).imp_of_mem fun ha hb hfirst => ?_
    simpa only [Snapshot.map_symbol_callAt?_eq_some_iff (hcall ha),
      Snapshot.map_symbol_callAt?_eq_some_iff (hcall hb)] using hfirst
  · simp only [List.mem_eraseDups, List.mem_filterMap, Snapshot.writeAt?_eq_some_iff]
  · refine hwrites.imp fun hfirst heq => ?_
    rw [heq] at hfirst
    exact Model.FirstBefore.irrefl hfirst
  · simpa only [Snapshot.writeAt?_eq_some_iff] using hwrites

theorem Model.referencesIn_ofWrites (log : List Write) (range : Range) :
    (Snapshot.ofWrites log).referencesIn range = touching range log :=
  (Snapshot.ofWrites_refines log).referencesIn_eq range

theorem Model.mem_of_mem_touching {log : List Write} {range : Range}
    (h : reference ∈ touching range log) : reference ∈ log.filterMap Write.reference? :=
  (List.mergeSort_perm _ _).mem_iff.mp (List.mem_filter.mp h).1

/-- If the host knows what the selected code refers to, each local function and each readonly field
is listed once, in the order of first use in the document. The order in which references were added
does not matter, except for those that start together. -/
theorem Selection.references_listsFirstUses (s : Selection) (log : List Write) :
    ((∀ r ∈ Model.touching s.finalSpan log,
        ∃ symbol, (Snapshot.ofWrites log).symbol? r.symbol = some symbol) →
      ∃ mentions, Poll.run (s.references (.ofWrites log)).run .unlimited = .ok (.ok mentions) ∧
        mentions.ListsFirstUses (.ofWrites log) s.finalSpan (Model.touching s.finalSpan log)) ∧
    ∀ log', Reordered log log' → ∀ patience,
      Poll.run (s.references (.ofWrites log')).run patience =
        Poll.run (s.references (.ofWrites log)).run patience := by
  refine ⟨fun hknown => ?_, fun log' hreordered patience => ?_⟩
  · rw [← Model.referencesIn_ofWrites] at hknown ⊢
    exact ⟨_, Poll.answers_iff_run.mp (gives_references_iff.mpr ⟨hknown, rfl⟩),
      Mentions.listsFirstUses _ _ _⟩
  · rw [hreordered.ofWrites_eq]

/-- A host that knows two local functions and a readonly field, and adds the given references. -/
def writesOfUses (references : List Reference) : List Write := [
  .symbol ⟨0, "f", .localFunction false, none, none⟩,
  .symbol ⟨1, "g", .localFunction true, none, none⟩,
  .symbol ⟨2, "k", .field true, none, none⟩] ++ references.map .reference

/-- The second function, the first one twice, and the field, from the middle of the code
outwards. -/
def scatteredUses : List Reference := [⟨1, .ofLength 19 1, false⟩, ⟨0, .ofLength 18 1, false⟩,
  ⟨0, .ofLength 20 1, false⟩, ⟨2, .ofLength 17 1, true⟩]

/-- The first function is listed first, although it was added after the second, and once. It does
not matter if the references are added from last to first. -/
theorem ofAssignment_references_listsFirstUses : ∃ (s : Selection) (mentions : Mentions),
    Poll.run (Document.ofAssignment.classify (.ofLength 17 4) {}).run .unlimited = .ok (.ok s) ∧
    Poll.run (s.references (.ofWrites (writesOfUses scatteredUses))).run .unlimited =
      .ok (.ok mentions) ∧
    mentions.outerCalls.map (fun call => (call.symbol, call.range.start)) = [(0, 18), (1, 19)] ∧
    mentions.ListsFirstUses (.ofWrites (writesOfUses scatteredUses)) s.finalSpan
      (Model.touching s.finalSpan (writesOfUses scatteredUses)) ∧
    ∀ patience,
      Poll.run (s.references (.ofWrites (writesOfUses scatteredUses.reverse))).run patience =
        Poll.run (s.references (.ofWrites (writesOfUses scatteredUses))).run patience := by
  have h : (Document.ofAssignment.select (.ofLength 17 4) {}).toOption.map (fun s =>
      (Poll.run (s.references (.ofWrites (writesOfUses scatteredUses))).run .unlimited).toOption.map
        fun result => result.toOption.map fun mentions =>
          mentions.outerCalls.map fun call => (call.symbol, call.range.start)) =
            some (some (some [(0, 18), (1, 19)])) := by decide +kernel
  obtain ⟨s, hs, hview⟩ := Document.exists_of_select_map h
  obtain ⟨hlists, hsame⟩ := s.references_listsFirstUses (writesOfUses scatteredUses)
  obtain ⟨mentions, hmentions, hfirst⟩ := hlists fun r hr => by
    have hall : ∀ r ∈ scatteredUses,
        ((Snapshot.ofWrites (writesOfUses scatteredUses)).symbol? r.symbol).isSome := by decide
    exact Option.isSome_iff_exists.mp (hall r (Model.mem_of_mem_touching hr))
  have hcalls : mentions.outerCalls.map (fun call => (call.symbol, call.range.start)) =
      [(0, 18), (1, 19)] := by
    simpa [hmentions, Except.toOption] using hview
  have hreversed : Reordered (writesOfUses scatteredUses) (writesOfUses scatteredUses.reverse) :=
    .of_perm rfl (by decide) (by decide)
  exact ⟨s, mentions, hs, hmentions, hcalls, hfirst, hsame _ hreversed⟩

end ExtractMethod
