import ExtractMethod.Proofs.Fixture.Rendering

/-! Markers point into the text of a fixture, right after the token before them. -/
namespace ExtractMethod

open Text (bytes)
open ExtractMethod.Tree (Event eventText eventText_append)

/-- The tokens of a document are those of its events. -/
theorem Document.texts_events (d : Document) :
    ((d.walk (.node 0)).map d.event).filterMap Event.text? = d.texts := by
  have hevent : ∀ v, (d.event v).text? = v.passed?.map fun t => (d.token t).text := by
    intro v
    cases v <;> rfl
  rw [texts_eq_map, ← d.isNumbered.passed_eq, List.filterMap_map, List.map_filterMap]
  exact List.filterMap_congr fun v _ => hevent v

namespace Fixture

variable {f : Fixture} {source : String} {item : Item} {strokes before after : List Stroke}
  {written : List Event} {digit offset : Nat}

/-- The first events of a fixture that some first strokes are written as. A space that was due after
them is not among them. -/
structure IsEmitted (f : Fixture) (before : List Stroke) (written : List Event) : Prop where
  initial : written <+: f.events
  spaced : Spaced (plainEvents before) written

/-- How the markers of a fixture agree with the strokes of its source. -/
structure PlacesMarkers (f : Fixture) (strokes : List Stroke) : Prop where
  /-- Just the digits of the markers have an offset. -/
  exists_offset_iff : ∀ digit, (∃ offset, f.marker digit = .ok offset) ↔ digit ∈ digits strokes
  exists_isEmitted : ∀ before after, strokes = before ++ after →
    ∃ written, f.IsEmitted before written
  /-- The offset of a marker is the length of what was emitted before it. -/
  marker_eq : ∀ before digit after written, strokes = before ++ .marker digit :: after →
    f.IsEmitted before written → f.marker digit = .ok (eventText written).utf8ByteSize
  on_boundary : ∀ digit offset, f.marker digit = .ok offset →
    offset ≤ f.document.size ∧ ∃ t ≤ f.document.tokenCount, offset = f.document.tokenStart t
  mono : ∀ before digit between digit' after offset offset',
    strokes = before ++ .marker digit :: between ++ .marker digit' :: after →
    f.marker digit = .ok offset → f.marker digit' = .ok offset' → offset ≤ offset'

/-- A fixture is what the writer makes of some strokes. -/
structure IsOf (f : Fixture) (strokes : List Stroke) : Prop where
  events_eq : f.events = (strokes.foldl Writer.write .empty).events.reverse
  markers_eq : f.markers = (strokes.foldl Writer.write .empty).markers
  nodup : (digits strokes).Nodup

theorem exists_isOf (h : parse source = .ok f) :
    ∃ item : Item, item.IsWrittenIn source ∧ f.IsOf item.strokes := by
  obtain ⟨item, hwritten, hdocument, hmarkers⟩ := parse_eq_ok_iff.mp h
  refine ⟨item, hwritten, ?_, ?_, hwritten.nodup⟩
  · rw [events, (Document.ofEvents_lossless hdocument).1, Writer.item_eq]
  · rw [hmarkers, Writer.item_eq]

theorem mem_digits :
    digit ∈ digits strokes ↔ ∃ before after, strokes = before ++ .marker digit :: after := by
  constructor
  · intro h
    obtain ⟨stroke, hmem, hdigit⟩ := List.mem_filterMap.mp h
    cases stroke with
    | marker digit' =>
      cases hdigit
      exact List.append_of_mem hmem
    | _ => cases hdigit
  · rintro ⟨before, after, rfl⟩
    exact List.mem_filterMap.mpr ⟨.marker digit, by simp, rfl⟩

/-- What is emitted can be told from the events of the document. -/
theorem IsEmitted.unique {written' : List Event} (h : f.IsEmitted before written)
    (h' : f.IsEmitted before written') : written = written' :=
  h.spaced.unique h'.spaced h.initial h'.initial

/-- What is emitted later comes after it. -/
theorem IsEmitted.isPrefix {written' : List Event} (h : f.IsEmitted before written)
    (h' : f.IsEmitted (before ++ after) written') : written <+: written' := by
  have hspaced := h'.spaced
  rw [plainEvents_append] at hspaced
  obtain ⟨first, rest, rfl, hfirst, -⟩ := hspaced.exists_append
  rw [h.unique ⟨(List.prefix_append first rest).trans h'.initial, hfirst⟩]
  exact List.prefix_append first rest

theorem eventText_events (f : Fixture) : eventText f.events = f.document.text := by
  rw [eventText, events, f.document.texts_events, f.document.text_eq_join]

theorem utf8ByteSize_eventText_le {written' : List Event} (h : written <+: written') :
    (eventText written).utf8ByteSize ≤ (eventText written').utf8ByteSize := by
  obtain ⟨rest, rfl⟩ := h
  rw [eventText_append, String.utf8ByteSize_append]
  exact Nat.le_add_right _ _

/-- The events up to some point end where a token ends. -/
theorem IsEmitted.exists_tokenStart (h : f.IsEmitted before written) : ∃ t ≤ f.document.tokenCount,
    (eventText written).utf8ByteSize = f.document.tokenStart t := by
  obtain ⟨rest, heq⟩ := h.initial
  have htexts := f.document.texts_events
  rw [← events, ← heq, List.filterMap_append] at htexts
  have hcount := congrArg List.length htexts
  rw [f.document.texts_eq_map, List.length_append, List.length_map, List.length_range] at hcount
  have hle : (written.filterMap Event.text?).length ≤ f.document.tokenCount := by omega
  refine ⟨_, hle, ?_⟩
  rw [Document.tokenStart_eq hle, ← htexts, List.take_left]
  rfl

/-- Some first strokes of a fixture are emitted, up to the offset that is counted along. -/
theorem IsOf.exists_isEmitted (h : f.IsOf strokes) (hstrokes : strokes = before ++ after) :
    ∃ written, f.IsEmitted before written ∧
      (before.foldl Writer.write .empty).offset = (eventText written).utf8ByteSize := by
  obtain ⟨written, hwritten⟩ := Writer.empty.exists_goesOn before
  obtain ⟨rest, hrest⟩ := (before.foldl Writer.write .empty).exists_goesOn after
  refine ⟨written, ⟨⟨rest, ?_⟩, hwritten.spaced⟩, ?_⟩
  · rw [h.events_eq, hstrokes, List.foldl_append, hrest.events_eq, hwritten.events_eq]
    simp [Writer.empty]
  · rw [hwritten.offset_eq]
    exact Nat.zero_add _

theorem IsOf.offset_eq (h : f.IsOf strokes) :
    (strokes.foldl Writer.write .empty).offset = f.document.text.utf8ByteSize := by
  obtain ⟨written, hwritten⟩ := Writer.empty.exists_goesOn strokes
  have hevents : f.events = written := by
    rw [h.events_eq, hwritten.events_eq]
    simp [Writer.empty]
  rw [← f.eventText_events, hevents, hwritten.offset_eq]
  exact Nat.zero_add _

theorem IsOf.marker_eq (h : f.IsOf strokes) (hstrokes : strokes = before ++ .marker digit :: after)
    (hwritten : f.IsEmitted before written) :
    f.marker digit = .ok (eventText written).utf8ByteSize := by
  obtain ⟨written', hwritten', hoffset⟩ := h.exists_isEmitted hstrokes
  have hlookup := Writer.lookup_markers (hstrokes ▸ h.nodup) .empty
  rw [← hstrokes, ← h.markers_eq, hoffset, ← hwritten.unique hwritten'] at hlookup
  rw [marker, hlookup]

theorem IsOf.mem_digits_of_marker (h : f.IsOf strokes) (hmarker : f.marker digit = .ok offset) :
    digit ∈ digits strokes := by
  by_contra hnone
  have hlookup := Writer.lookup_foldl_write hnone .empty
  rw [← h.markers_eq] at hlookup
  simp [marker, hlookup, Writer.empty] at hmarker

/-- An offset of a marker is one that was emitted up to. -/
theorem IsOf.exists_of_marker (h : f.IsOf strokes) (hmarker : f.marker digit = .ok offset) :
    ∃ before written, f.IsEmitted before written ∧ offset = (eventText written).utf8ByteSize := by
  obtain ⟨before, after, hstrokes⟩ := mem_digits.mp (h.mem_digits_of_marker hmarker)
  obtain ⟨written, hwritten, -⟩ := h.exists_isEmitted hstrokes
  rw [h.marker_eq hstrokes hwritten] at hmarker
  exact ⟨before, written, hwritten, (Except.ok.inj hmarker).symm⟩

theorem IsOf.placesMarkers (h : f.IsOf strokes) : f.PlacesMarkers strokes where
  exists_offset_iff digit := by
    refine ⟨fun ⟨offset, hmarker⟩ => h.mem_digits_of_marker hmarker, fun hmem => ?_⟩
    obtain ⟨before, after, hstrokes⟩ := mem_digits.mp hmem
    obtain ⟨written, hwritten, -⟩ := h.exists_isEmitted hstrokes
    exact ⟨_, h.marker_eq hstrokes hwritten⟩
  exists_isEmitted before after hstrokes := by
    obtain ⟨written, hwritten, -⟩ := h.exists_isEmitted hstrokes
    exact ⟨written, hwritten⟩
  marker_eq before digit after written := h.marker_eq
  on_boundary digit offset hmarker := by
    obtain ⟨before, written, hwritten, rfl⟩ := h.exists_of_marker hmarker
    refine ⟨?_, hwritten.exists_tokenStart⟩
    rw [Document.size, ← f.eventText_events]
    exact utf8ByteSize_eventText_le hwritten.initial
  mono before digit between digit' after offset offset' hstrokes hmarker hmarker' := by
    have hlater : strokes = (before ++ .marker digit :: between) ++ .marker digit' :: after :=
      hstrokes
    obtain ⟨written', hwritten', -⟩ := h.exists_isEmitted hlater
    rw [List.append_assoc] at hstrokes
    obtain ⟨written, hwritten, -⟩ := h.exists_isEmitted hstrokes
    rw [h.marker_eq hlater hwritten'] at hmarker'
    rw [h.marker_eq hstrokes hwritten] at hmarker
    cases hmarker
    cases hmarker'
    exact utf8ByteSize_eventText_le (hwritten.isPrefix hwritten')

end Fixture

/-- The markers of a fixture point into its text, and the offset that is counted along with it ends
at the length of the text. -/
theorem Fixture.parse_placesMarkers {f : Fixture} {source : String}
    (h : Fixture.parse source = .ok f) :
    ∃ item : Item, readItem source = .ok item ∧ item.IsWrittenIn source ∧
      f.PlacesMarkers item.strokes ∧
      (Writer.empty.item item).offset = f.document.text.utf8ByteSize := by
  obtain ⟨item, hwritten, hof⟩ := exists_isOf h
  refine ⟨item, readItem_eq_ok_iff.mpr hwritten, hwritten, hof.placesMarkers, ?_⟩
  rw [Writer.item_eq]
  exact hof.offset_eq

/-- The tree that the block is written as. -/
def Fixture.blockRoot : Tree.Root := ⟨.block, [.token .lBrace "\x7b", .token .whitespace " ",
  .token .stringLiteral "\"", .token .whitespace "\n", .node .errorNode [], .token .rBrace "\x7d"]⟩

/-- The first marker is right after the brace, before the space that the string takes, and the
second one after the line break. -/
theorem Fixture.parse_placesMarkers_block : ∃ f, Fixture.parse blockSource = .ok f ∧
    f.marker 0 = .ok 1 ∧ f.marker 1 = .ok 4 ∧
    ∃ item : Item, readItem blockSource = .ok item ∧ item.IsWrittenIn blockSource ∧
      f.PlacesMarkers item.strokes ∧
      (Writer.empty.item item).offset = f.document.text.utf8ByteSize := by
  obtain ⟨written, hrenders, hsource⟩ := renders_block
  have hwritten := hrenders.isWrittenIn .nil .nil hsource (by decide)
  have hevents : (Writer.empty.item (.node (.node .block) blockItems)).events.reverse =
      blockRoot.element.events := by decide +kernel
  have hmarkers : (Writer.empty.item (.node (.node .block) blockItems)).markers =
      [(1, 4), (0, 1)] := by
    decide +kernel
  have hdocument := Document.ofEvents_events blockRoot Version.first
  rw [← hevents] at hdocument
  have hparse : Fixture.parse blockSource = .ok ⟨.ofRoot blockRoot .first, [(1, 4), (0, 1)]⟩ :=
    parse_eq_ok_iff.mpr ⟨_, hwritten, hdocument, hmarkers.symm⟩
  exact ⟨_, hparse, rfl, rfl, Fixture.parse_placesMarkers hparse⟩

end ExtractMethod
