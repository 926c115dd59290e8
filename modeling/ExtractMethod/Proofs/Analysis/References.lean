import ExtractMethod.Analysis.References
import ExtractMethod.Proofs.Patience

/-! What is collected of the references tells what the selected code refers to. -/
namespace ExtractMethod

open Model (Reference Snapshot Symbol SymbolKind)
open Poll (Gives)
open Text (Range)

variable {s : Selection} {model : Snapshot} {reference : Reference} {symbol : Symbol}
  {mentions : Mentions} {calls : List LocalCall}

namespace Model.Snapshot

/-- The selected code has the reference, and the host knows its symbol. -/
structure RefersTo (model : Snapshot) (s : Selection) (reference : Reference) (symbol : Symbol) :
    Prop where
  mem : reference ∈ model.referencesIn s.finalSpan
  symbol_eq : model.symbol? reference.symbol = some symbol

/-- The selected code assigns some readonly field. -/
def AssignsReadonly (model : Snapshot) (s : Selection) : Prop :=
  ∃ reference symbol, model.RefersTo s reference symbol ∧ symbol.isReadonlyField ∧
    reference.isWritten

/-- The selected code names some local function that it does not declare. -/
def NamesOuterFunction (model : Snapshot) (s : Selection) : Prop :=
  ∃ reference symbol, model.RefersTo s reference symbol ∧
    (∃ isStatic, symbol.kind = .localFunction isStatic) ∧ ¬ symbol.isDeclaredIn s.finalSpan

/-- The selected code names some local function that it does not declare and that is not static. -/
def NamesInstanceFunction (model : Snapshot) (s : Selection) : Prop :=
  ∃ reference symbol, model.RefersTo s reference symbol ∧ symbol.kind = .localFunction false ∧
    ¬ symbol.isDeclaredIn s.finalSpan

theorem NamesInstanceFunction.namesOuterFunction (h : model.NamesInstanceFunction s) :
    model.NamesOuterFunction s := by
  obtain ⟨reference, symbol, hrefers, hkind, houter⟩ := h
  exact ⟨reference, symbol, hrefers, ⟨false, hkind⟩, houter⟩

theorem resolve_eq_ok : (∃ found, model.resolve reference = .ok found) ↔
    ∃ symbol, model.symbol? reference.symbol = some symbol := by
  rw [resolve]
  cases model.symbol? reference.symbol <;> simp

theorem join_resolve_eq_some_iff {entry : Reference × Symbol} :
    (model.resolve reference).toOption.join = some entry ↔
      entry.1 = reference ∧ model.symbol? reference.symbol = some entry.2 := by
  obtain ⟨reference', symbol⟩ := entry
  rw [resolve]
  cases model.symbol? reference.symbol with
  | none => simp [Except.toOption]
  | some known => simp [Except.toOption, eq_comm]

end Model.Snapshot

/-- The references can be collected exactly if the host knows the symbols of all of them. -/
theorem Selection.exists_gives_references_iff : (∃ m, Gives (s.references model) m) ↔
    ∀ reference ∈ model.referencesIn s.finalSpan,
      ∃ symbol, model.symbol? reference.symbol = some symbol := by
  simp only [references]
  simp only [Poll.gives_bind, Poll.gives_pure, Poll.gives_collect, Snapshot.resolve_eq_ok]
  constructor
  · rintro ⟨_, _, ⟨hall, -⟩, -⟩
    exact hall
  · intro hall
    exact ⟨_, _, ⟨hall, rfl⟩, rfl⟩

/-- What is collected is made of exactly the references in the selected code. -/
theorem Selection.gives_references (h : Gives (s.references model) mentions) :
    ∃ found, mentions = .ofReferences s.finalSpan found ∧ ∀ reference symbol,
      (reference, symbol) ∈ found ↔ model.RefersTo s reference symbol := by
  simp only [references] at h
  simp only [Poll.gives_bind, Poll.gives_pure, Poll.gives_collect] at h
  obtain ⟨found, ⟨-, rfl⟩, rfl⟩ := h
  refine ⟨_, rfl, ?_⟩
  intro reference symbol
  simp only [List.mem_filterMap, Snapshot.join_resolve_eq_some_iff]
  constructor
  · rintro ⟨_, hmem, rfl, hsymbol⟩
    exact ⟨hmem, hsymbol⟩
  · rintro ⟨hmem, hsymbol⟩
    exact ⟨reference, hmem, rfl, hsymbol⟩

namespace Mentions

theorem isEmpty_firstCalls : (firstCalls calls).isEmpty = calls.isEmpty := by
  cases calls <;> rfl

theorem firstCalls_sublist (calls : List LocalCall) : (firstCalls calls).Sublist calls := by
  induction calls with
  | nil => exact .slnil
  | cons call rest ih => exact (List.filter_sublist.trans ih).cons_cons call

/-- Each function that is called has a first call. -/
theorem exists_mem_firstCalls {call : LocalCall} (h : call ∈ calls) :
    ∃ first ∈ firstCalls calls, first.symbol = call.symbol := by
  induction calls with
  | nil => cases h
  | cons head rest ih =>
    by_cases hsame : head.symbol = call.symbol
    · exact ⟨head, List.mem_cons_self, hsame⟩
    · have hrest : call ∈ rest := by
        refine List.mem_of_ne_of_mem ?_ h
        rintro rfl
        exact hsame rfl
      obtain ⟨first, hfirst, heq⟩ := ih hrest
      refine ⟨first, List.mem_cons_of_mem _ (List.mem_filter.mpr ⟨hfirst, ?_⟩), heq⟩
      simpa [heq] using Ne.symm hsame

theorem outerCall?_eq_some_iff {span : Range} {call : LocalCall} :
    outerCall? span (reference, symbol) = some call ↔
      symbol.kind = .localFunction call.isStatic ∧ ¬ symbol.isDeclaredIn span ∧
        call = ⟨reference.symbol, symbol.name, call.isStatic, reference.range⟩ := by
  rw [outerCall?]
  cases symbol.kind with
  | localFunction isStatic =>
    by_cases hdeclared : symbol.isDeclaredIn span
    · simp [hdeclared]
    · simp only [hdeclared]
      constructor
      · rintro ⟨⟩
        exact ⟨rfl, by simp, rfl⟩
      · rintro ⟨⟨⟩, -, hcall⟩
        exact congrArg some hcall.symm
  | _ => simp

theorem exists_outerCall?_iff {span : Range} :
    (∃ call, outerCall? span (reference, symbol) = some call) ↔
      (∃ isStatic, symbol.kind = .localFunction isStatic) ∧ ¬ symbol.isDeclaredIn span := by
  rw [outerCall?]
  cases symbol.kind with
  | localFunction isStatic => simp
  | _ => simp

theorem exists_readonlyWrite?_iff : (∃ name, readonlyWrite? (reference, symbol) = some name) ↔
    symbol.isReadonlyField ∧ reference.isWritten := by
  simp [readonlyWrite?]

end Mentions

section Collected

variable (h : Gives (s.references model) mentions)
include h

theorem isEmpty_readonlyWrites :
    mentions.readonlyWrites.isEmpty = false ↔ model.AssignsReadonly s := by
  obtain ⟨found, rfl, hfound⟩ := Selection.gives_references h
  rw [Mentions.ofReferences, List.isEmpty_eq_false_iff_exists_mem]
  simp only [List.mem_eraseDups, List.mem_filterMap]
  constructor
  · rintro ⟨name, ⟨reference, symbol⟩, hmem, hname⟩
    have hwrites := Mentions.exists_readonlyWrite?_iff.mp ⟨name, hname⟩
    exact ⟨reference, symbol, (hfound _ _).mp hmem, hwrites⟩
  · rintro ⟨reference, symbol, hrefers, hwrites⟩
    obtain ⟨name, hname⟩ := Mentions.exists_readonlyWrite?_iff.mpr hwrites
    exact ⟨name, (reference, symbol), (hfound _ _).mpr hrefers, hname⟩

theorem isEmpty_outerCalls :
    mentions.outerCalls.isEmpty = false ↔ model.NamesOuterFunction s := by
  obtain ⟨found, rfl, hfound⟩ := Selection.gives_references h
  rw [Mentions.ofReferences, Mentions.isEmpty_firstCalls, List.isEmpty_eq_false_iff_exists_mem]
  simp only [List.mem_filterMap]
  constructor
  · rintro ⟨call, ⟨reference, symbol⟩, hmem, hcall⟩
    have houter := Mentions.exists_outerCall?_iff.mp ⟨call, hcall⟩
    exact ⟨reference, symbol, (hfound _ _).mp hmem, houter⟩
  · rintro ⟨reference, symbol, hrefers, houter⟩
    obtain ⟨call, hcall⟩ := Mentions.exists_outerCall?_iff.mpr houter
    exact ⟨call, (reference, symbol), (hfound _ _).mpr hrefers, hcall⟩

/-- Whether a function is static is known from its symbol, so it does not matter which of its calls
is kept. -/
theorem callsInstanceFunction_iff : mentions.callsInstanceFunction ↔
    model.NamesInstanceFunction s := by
  obtain ⟨found, rfl, hfound⟩ := Selection.gives_references h
  rw [Mentions.callsInstanceFunction, List.any_eq_true]
  constructor
  · rintro ⟨call, hcall, hstatic⟩
    obtain ⟨⟨reference, symbol⟩, hmem, houter⟩ :=
      List.mem_filterMap.mp ((Mentions.firstCalls_sublist _).subset hcall)
    obtain ⟨hkind, hdeclared, -⟩ := Mentions.outerCall?_eq_some_iff.mp houter
    rw [Bool.not_eq_true'] at hstatic
    exact ⟨reference, symbol, (hfound _ _).mp hmem, hstatic ▸ hkind, hdeclared⟩
  · rintro ⟨reference, symbol, hrefers, hkind, hdeclared⟩
    have houter : Mentions.outerCall? s.finalSpan (reference, symbol) =
        some ⟨reference.symbol, symbol.name, false, reference.range⟩ :=
      Mentions.outerCall?_eq_some_iff.mpr ⟨hkind, hdeclared, rfl⟩
    obtain ⟨first, hfirst, hsame⟩ := Mentions.exists_mem_firstCalls
      (List.mem_filterMap.mpr ⟨_, (hfound _ _).mpr hrefers, houter⟩)
    obtain ⟨⟨reference', symbol'⟩, hmem', houter'⟩ :=
      List.mem_filterMap.mp ((Mentions.firstCalls_sublist _).subset hfirst)
    obtain ⟨hkind', -, hcall⟩ := Mentions.outerCall?_eq_some_iff.mp houter'
    have hid : reference'.symbol = reference.symbol :=
      (congrArg LocalCall.symbol hcall).symm.trans hsame
    have hsymbol : symbol' = symbol := by
      have hknown := ((hfound _ _).mp hmem').symbol_eq
      rw [hid, hrefers.symbol_eq] at hknown
      exact (Option.some.inj hknown).symm
    rw [hsymbol, hkind, SymbolKind.localFunction.injEq] at hkind'
    exact ⟨first, hfirst, by rw [← hkind']; rfl⟩

end Collected

end ExtractMethod
