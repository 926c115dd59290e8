import ExtractMethod.Tree.Element
import ExtractMethod.Tree.Event

/-! Balanced sequences of events, and what is wrong with the others. -/
namespace ExtractMethod.Tree

/-- The open nodes after one more event, the innermost first. -/
def Event.reopen (stack : List Kind) : Event → List Kind
  | .start kind => kind :: stack
  | .token _ _ => stack
  | .finish => stack.tail

/-- The kinds of the nodes that are open after the events, the innermost first. -/
def openKinds (events : List Event) : List Kind := events.foldl Event.reopen []

/-- What is wrong with an event after the ones before it. A wrong kind is told before a wrong
place. -/
def Event.fault? (before : List Event) : Event → Option BuildError
  | .start kind =>
    if kind.node? = none then some (.notANodeKind kind)
    else if before ≠ [] ∧ openKinds before = [] then some .multipleRoots
    else none
  | .token kind _ =>
    if kind.token? = none then some (.notATokenKind kind)
    else if openKinds before = [] then some .tokenOutsideNode
    else none
  | .finish => if openKinds before = [] then some .unmatchedFinish else none

/-- Nothing is wrong with any of the events. -/
def IsFaultless (events : List Event) : Prop :=
  ∀ before event, before ++ [event] <+: events → event.fault? before = none

/-- What is wrong with the first event that something is wrong with. -/
def IsFirstFault (events : List Event) (e : BuildError) : Prop :=
  ∃ before event, before ++ [event] <+: events ∧ IsFaultless before ∧ event.fault? before = some e

/-- What is reported of events that no tree comes of. -/
inductive IsReported (events : List Event) : BuildError → Prop where
  | fault {e : BuildError} (first : IsFirstFault events e) : IsReported events e
  | unclosed {kind : NodeKind} {outer : List Kind} (faultless : IsFaultless events)
      (innermost : openKinds events = .node kind :: outer) : IsReported events (.unclosedNode kind)
  | empty (nil : events = []) : IsReported events .empty

/-- Nodes are nested, tokens are inside of them, and one node holds all the others. -/
structure IsBalanced (events : List Event) : Prop where
  node_kind : ∀ kind, .start kind ∈ events → ∃ node, kind = .node node
  token_kind : ∀ kind text, .token kind text ∈ events → ∃ token, kind = .token token
  token_inside : ∀ before kind text, before ++ [.token kind text] <+: events → openKinds before ≠ []
  finish_inside : ∀ before, before ++ [.finish] <+: events → openKinds before ≠ []
  opens_root : ∃ kind rest, events = .start kind :: rest
  one_root : ∀ before kind, before ++ [.start kind] <+: events → before = [] ∨ openKinds before ≠ []
  closed : openKinds events = []

variable {events before : List Event} {event : Event} {e e' : BuildError}

theorem Event.fault?_start_eq_none_iff {kind : Kind} : (Event.start kind).fault? before = none ↔
    (∃ node, kind = .node node) ∧ (before = [] ∨ openKinds before ≠ []) := by
  cases kind with
  | node kind => simp [fault?, Kind.node?, Decidable.imp_iff_not_or]
  | token kind => simp [fault?, Kind.node?]
  | endMark => simp [fault?, Kind.node?]

theorem Event.fault?_token_eq_none_iff {kind : Kind} {text : String} :
    (Event.token kind text).fault? before = none ↔
      (∃ token, kind = .token token) ∧ openKinds before ≠ [] := by
  cases kind with
  | node kind => simp [fault?, Kind.token?]
  | token kind => simp [fault?, Kind.token?]
  | endMark => simp [fault?, Kind.token?]

theorem Event.fault?_finish_eq_none_iff :
    Event.finish.fault? before = none ↔ openKinds before ≠ [] := by
  simp [fault?]

theorem exists_prefix_of_mem (h : event ∈ events) : ∃ before, before ++ [event] <+: events := by
  obtain ⟨before, after, rfl⟩ := List.append_of_mem h
  exact ⟨before, after, by simp⟩

theorem isFaultless_nil : IsFaultless [] := by
  intro before event h
  simpa using h.length_le

theorem isFaultless_concat :
    IsFaultless (events ++ [event]) ↔ IsFaultless events ∧ event.fault? events = none := by
  constructor
  · intro h
    refine ⟨fun before event hpre => ?_, h events event (List.prefix_refl _)⟩
    exact h before event (hpre.trans (List.prefix_append _ _))
  · rintro ⟨hevents, hevent⟩ before event' hpre
    rcases List.prefix_concat_iff.mp hpre with heq | hpre
    · obtain ⟨rfl, rfl⟩ : before = events ∧ event' = event := by simpa using heq
      exact hevent
    · exact hevents before event' hpre

theorem IsFirstFault.append (h : IsFirstFault events e) (after : List Event) :
    IsFirstFault (events ++ after) e := by
  obtain ⟨before, event, hpre, hbefore, hevent⟩ := h
  exact ⟨before, event, hpre.trans (List.prefix_append _ _), hbefore, hevent⟩

theorem IsFirstFault.not_isFaultless (h : IsFirstFault events e) : ¬ IsFaultless events := by
  obtain ⟨before, event, hpre, -, hevent⟩ := h
  intro hnone
  rw [hnone before event hpre] at hevent
  cases hevent

/-- There is only one first fault. -/
theorem IsFirstFault.unique (h : IsFirstFault events e) (h' : IsFirstFault events e') : e = e' := by
  obtain ⟨before, event, hpre, hbefore, hevent⟩ := h
  obtain ⟨before', event', hpre', hbefore', hevent'⟩ := h'
  rcases Nat.lt_trichotomy before.length before'.length with hlt | heq | hgt
  · have hearlier : before ++ [event] <+: before' :=
      List.prefix_of_prefix_length_le hpre ((List.prefix_append _ _).trans hpre')
        (by simp; omega)
    rw [hbefore' before event hearlier] at hevent
    cases hevent
  · have hsame : before ++ [event] = before' ++ [event'] :=
      (List.prefix_of_prefix_length_le hpre hpre' (by simp [heq])).eq_of_length (by simp [heq])
    obtain ⟨rfl, rfl⟩ : before = before' ∧ event = event' := by simpa using hsame
    exact Option.some.inj (hevent.symm.trans hevent')
  · have hearlier : before' ++ [event'] <+: before :=
      List.prefix_of_prefix_length_le hpre' ((List.prefix_append _ _).trans hpre)
        (by simp; omega)
    rw [hbefore before' event' hearlier] at hevent'
    cases hevent'

/-- A sequence is balanced if nothing is wrong with its events, there are some, and no node stays
open. -/
theorem isBalanced_iff :
    IsBalanced events ↔ IsFaultless events ∧ events ≠ [] ∧ openKinds events = [] := by
  constructor
  · intro h
    refine ⟨?_, ?_, h.closed⟩
    · intro before event hpre
      have hmem : event ∈ events := hpre.subset (by simp)
      cases event with
      | start kind =>
        exact Event.fault?_start_eq_none_iff.mpr
          ⟨h.node_kind kind hmem, h.one_root before kind hpre⟩
      | token kind text =>
        exact Event.fault?_token_eq_none_iff.mpr
          ⟨h.token_kind kind text hmem, h.token_inside before kind text hpre⟩
      | finish => exact Event.fault?_finish_eq_none_iff.mpr (h.finish_inside before hpre)
    · obtain ⟨kind, rest, rfl⟩ := h.opens_root
      simp
  · rintro ⟨hfaultless, hne, hclosed⟩
    have hstart (before kind) (h : before ++ [.start kind] <+: events) :=
      Event.fault?_start_eq_none_iff.mp (hfaultless before _ h)
    have htoken (before kind text) (h : before ++ [.token kind text] <+: events) :=
      Event.fault?_token_eq_none_iff.mp (hfaultless before _ h)
    have hfinish (before) (h : before ++ [.finish] <+: events) :=
      Event.fault?_finish_eq_none_iff.mp (hfaultless before _ h)
    refine ⟨?_, ?_, ?_, hfinish, ?_, ?_, hclosed⟩
    · intro kind hmem
      obtain ⟨before, hpre⟩ := exists_prefix_of_mem hmem
      exact (hstart before kind hpre).1
    · intro kind text hmem
      obtain ⟨before, hpre⟩ := exists_prefix_of_mem hmem
      exact (htoken before kind text hpre).1
    · intro before kind text hpre
      exact (htoken before kind text hpre).2
    · cases events with
      | nil => exact absurd rfl hne
      | cons first rest =>
        have hfirst : [first] <+: first :: rest := by simp
        cases first with
        | start kind => exact ⟨kind, rest, rfl⟩
        | token kind text => exact absurd rfl (htoken [] kind text hfirst).2
        | finish => exact absurd rfl (hfinish [] hfirst)
    · intro before kind hpre
      exact (hstart before kind hpre).2

theorem IsReported.not_isBalanced (h : IsReported events e) : ¬ IsBalanced events := by
  rw [isBalanced_iff]
  rintro ⟨hfaultless, hne, hclosed⟩
  cases h with
  | fault hfault => exact hfault.not_isFaultless hfaultless
  | unclosed _ hopen => simp [hclosed] at hopen
  | empty hnil => exact hne hnil

/-- There is one report only. -/
theorem IsReported.unique (h : IsReported events e) (h' : IsReported events e') : e = e' := by
  cases h with
  | fault hfault =>
    cases h' with
    | fault hfault' => exact hfault.unique hfault'
    | unclosed hnone _ => exact absurd hnone hfault.not_isFaultless
    | empty hnil => exact absurd (hnil ▸ isFaultless_nil) hfault.not_isFaultless
  | unclosed hnone hopen =>
    cases h' with
    | fault hfault => exact absurd hnone hfault.not_isFaultless
    | unclosed _ hopen' =>
      cases hopen.symm.trans hopen'
      rfl
    | empty hnil =>
      subst hnil
      cases hopen
  | empty hnil =>
    subst hnil
    cases h' with
    | fault hfault => exact absurd isFaultless_nil hfault.not_isFaultless
    | unclosed _ hopen => cases hopen
    | empty _ => rfl

end ExtractMethod.Tree
