import ExtractMethod.Fixture.Writer
import ExtractMethod.Proofs.Fixture.Grammar

/-! What the writer makes of strokes: their events with single spaces put in, and for each marker
the length of what is written before it. -/
namespace ExtractMethod.Tree

def Event.text? : Event → Option String
  | .token _ text => some text
  | .start _ => none
  | .finish => none

/-- The text that events describe. -/
def eventText (events : List Event) : String := String.join (events.filterMap Event.text?)

theorem eventText_append (first second : List Event) :
    eventText (first ++ second) = eventText first ++ eventText second := by
  rw [eventText, List.filterMap_append, String.join_append]
  rfl

end ExtractMethod.Tree

namespace ExtractMethod.Fixture

open ExtractMethod.Tree (Event Kind TokenKind eventText eventText_append)

/-- The event that a stroke stands for. A marker stands for none. -/
def Stroke.event? : Stroke → Option Event
  | .start kind => some (.start kind)
  | .text content => some (.token (.token (TokenKind.infer content)) content)
  | .token kind content => some (.token kind content)
  | .newline => some (.token (.token .whitespace) "\n")
  | .marker _ => none
  | .finish => some .finish

/-- The events that strokes stand for, with nothing put between them. -/
def plainEvents (strokes : List Stroke) : List Event := strokes.filterMap Stroke.event?

theorem plainEvents_append (first second : List Stroke) :
    plainEvents (first ++ second) = plainEvents first ++ plainEvents second :=
  List.filterMap_append

def singleSpace : Event := .token (.token .whitespace) " "

/-- A space may be put before the start of a node, and before a token that is no whitespace. -/
def TakesSpace : Event → Prop
  | .start _ => True
  | .token kind _ => kind ≠ .token .whitespace
  | .finish => False

/-- Some events, and the same events with single spaces put in, at most one before each of them. -/
inductive Spaced : List Event → List Event → Prop where
  | nil : Spaced [] []
  | keep (event : Event) {plain written : List Event} (rest : Spaced plain written) :
    Spaced (event :: plain) (event :: written)
  | insert {event : Event} {plain written : List Event} (takes : TakesSpace event)
    (rest : Spaced plain written) : Spaced (event :: plain) (singleSpace :: event :: written)

variable {first second written written' : List Event} {stroke : Stroke} {event : Event}

theorem Spaced.append (h : Spaced first written) (h' : Spaced second written') :
    Spaced (first ++ second) (written ++ written') := by
  induction h with
  | nil => exact h'
  | keep event _ ih => exact .keep event ih
  | insert takes _ ih => exact .insert takes ih

/-- The events with spaces can be cut where the plain ones can. -/
theorem Spaced.exists_append (h : Spaced (first ++ second) written) : ∃ before after,
    written = before ++ after ∧ Spaced first before ∧ Spaced second after := by
  induction first generalizing written with
  | nil => exact ⟨[], written, rfl, .nil, h⟩
  | cons event first ih =>
    cases h with
    | keep _ rest =>
      obtain ⟨before, after, rfl, hfirst, hsecond⟩ := ih rest
      exact ⟨event :: before, after, rfl, .keep event hfirst, hsecond⟩
    | insert takes rest =>
      obtain ⟨before, after, rfl, hfirst, hsecond⟩ := ih rest
      exact ⟨singleSpace :: event :: before, after, rfl, .insert takes hfirst, hsecond⟩

theorem TakesSpace.ne_singleSpace (h : TakesSpace event) : event ≠ singleSpace := by
  rintro rfl
  exact h rfl

/-- From the events with spaces it can be told which of them come of the first plain ones. -/
theorem Spaced.unique {plain events : List Event} (h : Spaced plain written)
    (h' : Spaced plain written') (hpre : written <+: events) (hpre' : written' <+: events) :
    written = written' := by
  induction h generalizing written' events with
  | nil =>
    cases h'
    rfl
  | keep event rest ih =>
    -- Both begin with the first of the events, so a space comes first in both or in none.
    obtain ⟨tail, rfl⟩ := hpre
    cases h' with
    | keep _ rest' =>
      rw [ih rest' (List.prefix_append _ tail) (List.prefix_cons_inj event |>.mp hpre')]
    | insert takes rest' =>
      exact absurd (List.cons_prefix_cons.mp hpre').1.symm takes.ne_singleSpace
  | insert takes rest ih =>
    obtain ⟨tail, rfl⟩ := hpre
    cases h' with
    | keep _ rest' => exact absurd (List.cons_prefix_cons.mp hpre').1 takes.ne_singleSpace
    | insert _ rest' =>
      obtain ⟨-, hpre'⟩ := List.cons_prefix_cons.mp hpre'
      rw [ih rest' (List.prefix_append _ tail) (List.prefix_cons_inj _ |>.mp hpre')]

namespace Writer

variable {w w' w'' : Writer}

/-- Writes one stroke. -/
def write (w : Writer) : Stroke → Writer
  | .start kind => w.settleSpace.push (.start kind)
  | .text text => w.token (.token (TokenKind.infer text)) text
  | .token kind text => w.token kind text
  | .newline => w.dropSpace.emit (.token .whitespace) "\n"
  | .marker digit => { w with markers := (digit, w.offset) :: w.markers }
  | .finish => w.push .finish

mutual

/-- An item is written stroke by stroke. -/
theorem item_eq : (item : Item) → (w : Writer) → w.item item = item.strokes.foldl write w
  | .node kind items, w => by simp [Writer.item, Item.strokes, write, items_eq items]
  | .text _, _ => rfl
  | .token _ _, _ => rfl
  | .newline, _ => rfl
  | .marker _, _ => rfl

theorem items_eq : (items : List Item) → (w : Writer) →
    Writer.items w items = (strokesBelow items).foldl write w
  | [], _ => rfl
  | item :: items, w => by simp [Writer.items, strokesBelow, item_eq item, items_eq items]

end

/-! The events and the offset. -/

/-- How a writer goes on with some strokes: with their events, among them spaces, and by the length
of their text. -/
structure GoesOn (w : Writer) (strokes : List Stroke)
    (written : List Event) (w' : Writer) : Prop where
  spaced : Spaced (plainEvents strokes) written
  events_eq : w'.events = written.reverse ++ w.events
  offset_eq : w'.offset = w.offset + (eventText written).utf8ByteSize

theorem GoesOn.nil (w : Writer) : w.GoesOn [] [] w :=
  ⟨.nil, rfl, rfl⟩

theorem GoesOn.append {before after : List Stroke} (h : w.GoesOn before written w')
    (h' : w'.GoesOn after written' w'') : w.GoesOn (before ++ after) (written ++ written') w'' where
  spaced := by
    rw [plainEvents_append]
    exact h.spaced.append h'.spaced
  events_eq := by rw [h'.events_eq, h.events_eq, List.reverse_append, List.append_assoc]
  offset_eq := by
    rw [h'.offset_eq, h.offset_eq, eventText_append, String.utf8ByteSize_append, Nat.add_assoc]

theorem GoesOn.keep (hevent : stroke.event? = some event) (hevents : w'.events = event :: w.events)
    (hoffset : w'.offset = w.offset + (eventText [event]).utf8ByteSize) :
    w.GoesOn [stroke] [event] w' where
  spaced := by
    rw [plainEvents, List.filterMap_cons_some hevent]
    exact .keep event .nil
  events_eq := hevents
  offset_eq := hoffset

theorem GoesOn.insert (hevent : stroke.event? = some event) (htakes : TakesSpace event)
    (hevents : w'.events = event :: singleSpace :: w.events)
    (hoffset : w'.offset = w.offset + 1 + (eventText [event]).utf8ByteSize) :
    w.GoesOn [stroke] [singleSpace, event] w' where
  spaced := by
    rw [plainEvents, List.filterMap_cons_some hevent]
    exact .insert htakes .nil
  events_eq := hevents
  offset_eq := by
    have hsize : (eventText [singleSpace, event]).utf8ByteSize =
        1 + (eventText [event]).utf8ByteSize := by
      rw [show [singleSpace, event] = [singleSpace] ++ [event] from rfl, eventText_append,
        String.utf8ByteSize_append]
      rfl
    rw [hoffset, hsize, Nat.add_assoc]

/-- The space that is due is put before an event that takes one. -/
theorem exists_goesOn_settled (hevent : stroke.event? = some event) (htakes : TakesSpace event)
    (hevents : w'.events = event :: w.settleSpace.events)
    (hoffset : w'.offset = w.settleSpace.offset + (eventText [event]).utf8ByteSize) :
    ∃ written, w.GoesOn [stroke] written w' := by
  unfold settleSpace at hevents hoffset
  split at hevents
  · next hpending =>
    rw [if_pos hpending] at hoffset
    exact ⟨_, .insert hevent htakes hevents hoffset⟩
  · next hpending =>
    rw [if_neg hpending] at hoffset
    exact ⟨_, .keep hevent hevents hoffset⟩

theorem exists_goesOn_token {kind : Kind} {text : String} (w : Writer)
    (hevent : stroke.event? = some (.token kind text)) :
    ∃ written, w.GoesOn [stroke] written (w.token kind text) := by
  have hsize : (eventText [.token kind text]).utf8ByteSize = text.utf8ByteSize := by
    simp [eventText, Event.text?]
  unfold token
  split
  · exact ⟨_, .keep hevent rfl (by rw [hsize]; rfl)⟩
  · next hkind =>
    split
    · exact ⟨_, .keep hevent rfl (by rw [hsize]; rfl)⟩
    · exact exists_goesOn_settled hevent hkind rfl (by rw [hsize]; rfl)

/-- One stroke. -/
theorem exists_goesOn_write (w : Writer) (stroke : Stroke) :
    ∃ written, w.GoesOn [stroke] written (w.write stroke) := by
  cases stroke with
  | start kind => exact exists_goesOn_settled rfl trivial rfl rfl
  | text text => exact exists_goesOn_token w rfl
  | token kind text => exact exists_goesOn_token w rfl
  | newline => exact ⟨_, .keep rfl rfl rfl⟩
  | marker digit => exact ⟨[], .nil, rfl, rfl⟩
  | finish => exact ⟨_, .keep rfl rfl rfl⟩

/-- A run over strokes. -/
theorem exists_goesOn (w : Writer) (strokes : List Stroke) :
    ∃ written, w.GoesOn strokes written (strokes.foldl write w) := by
  induction strokes generalizing w with
  | nil => exact ⟨[], .nil w⟩
  | cons stroke strokes ih =>
    obtain ⟨first, hfirst⟩ := exists_goesOn_write w stroke
    obtain ⟨rest, hrest⟩ := ih (w.write stroke)
    exact ⟨first ++ rest, hfirst.append hrest⟩

/-! The markers. -/

theorem markers_settleSpace (w : Writer) : w.settleSpace.markers = w.markers := by
  unfold settleSpace
  split <;> rfl

theorem markers_token (w : Writer) (kind : Kind) (text : String) :
    (w.token kind text).markers = w.markers := by
  unfold token
  split
  · rfl
  · split
    · rfl
    · exact w.markers_settleSpace

/-- Only a marker is noted, with the offset reached. -/
theorem markers_write (w : Writer) (stroke : Stroke) :
    (w.write stroke).markers = (digits [stroke]).map (·, w.offset) ++ w.markers := by
  cases stroke with
  | start kind => exact w.markers_settleSpace
  | text text => exact w.markers_token _ _
  | token kind text => exact w.markers_token _ _
  | newline => rfl
  | marker digit => rfl
  | finish => rfl

theorem lookup_foldl_write {digit : Nat} {strokes : List Stroke} (h : digit ∉ digits strokes)
    (w : Writer) : (strokes.foldl write w).markers.lookup digit = w.markers.lookup digit := by
  induction strokes generalizing w with
  | nil => rfl
  | cons stroke strokes ih =>
    have hstroke : digit ∉ digits [stroke] ∧ digit ∉ digits strokes := by
      rwa [← List.singleton_append, digits_append, List.mem_append, not_or] at h
    rw [List.foldl_cons, ih hstroke.2, markers_write, List.lookup_append]
    have hnone : ((digits [stroke]).map (·, w.offset)).lookup digit = none := by
      rw [List.lookup_eq_none_iff]
      rintro ⟨digit', offset⟩ hmem
      obtain ⟨_, hdigit, ⟨⟩⟩ := List.mem_map.mp hmem
      exact bne_iff_ne.mpr fun heq => hstroke.1 (heq ▸ hdigit)
    rw [hnone, Option.none_or]

/-- A marker keeps the offset that it is written at. -/
theorem lookup_markers {before after : List Stroke} {digit : Nat}
    (h : (digits (before ++ .marker digit :: after)).Nodup) (w : Writer) :
    ((before ++ .marker digit :: after).foldl write w).markers.lookup digit =
      some (before.foldl write w).offset := by
  have hafter : digit ∉ digits after := by
    rw [digits_append, List.nodup_append] at h
    exact (List.nodup_cons.mp h.2.1).1
  rw [List.foldl_append, List.foldl_cons, lookup_foldl_write hafter]
  simp [write]

end Writer

end ExtractMethod.Fixture
