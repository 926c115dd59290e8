import ExtractMethod.Fixture.Basic
import ExtractMethod.Proofs.Document.Walk
import ExtractMethod.Proofs.Fixture.Reader
import ExtractMethod.Proofs.Fixture.Writer

/-! A rendering of a node is read as this node, and its document has the node's events, with single
spaces put in and nothing else changed. -/
namespace ExtractMethod

open Text (bytes)
open ExtractMethod.Tree (Element Event Kind NodeKind Root TokenKind eventsAll eventsAll_append)

namespace Fixture

variable {item : Item} {items : List Item} {lead written body last rest : List UInt8}
  {source : String}

/-! The strokes of a rendering. -/

theorem isWordByte_of_isBlankByte {b : UInt8} (h : isBlankByte b) : isWordByte b = false := by
  simp only [isBlankByte, Bool.or_eq_true, decide_eq_true_eq] at h
  rcases h with (((rfl | rfl) | rfl) | rfl) | rfl <;> decide

/-- A gap ends a word, unless it is empty. -/
theorem Gap.wordEnds (h : Gap lead) (hrest : lead = [] → WordEnds rest) :
    WordEnds (lead ++ rest) := by
  cases h with
  | nil => exact hrest rfl
  | blank isBlank => exact .cons (isWordByte_of_isBlankByte isBlank) _
  | comment => exact .cons (by decide) _

theorem RendersBelow.wordEnds (h : RendersBelow items body) (hrest : WordEnds rest) :
    WordEnds (body ++ rest) := by
  cases h with
  | nil gap => exact gap.wordEnds fun _ => hrest
  | cons gap apart =>
    rw [List.append_assoc, List.append_assoc]
    exact gap.wordEnds fun hnil => absurd hnil apart

mutual

/-- A rendering has the strokes of its item. -/
theorem Renders.spelled : {item : Item} → {written : List UInt8} → Renders item written →
    {lead rest : List UInt8} → Gap lead → WordEnds rest →
    Spelled item.strokes (lead ++ written ++ rest) rest
  | _, _, .text quoted, _, _, hlead, _ => .single hlead (.text quoted) False.elim
  | _, _, .token _ quoted, _, _, hlead, _ =>
    .single hlead (.token Kind.noConfusion quoted) False.elim
  | _, _, .newline, _, _, hlead, hrest => .single hlead .newline fun _ => hrest
  | _, _, .marker lt_ten, _, _, hlead, _ => .single hlead (.marker lt_ten) False.elim
  | _, _, .node kind gap below, lead, rest, hlead, _ => by
    have hclose : WordEnds (ascii ')' :: rest) := .cons (by decide) rest
    obtain ⟨last, hlast, hbelow⟩ := below.spelled hclose
    have hspells : (Stroke.start (.node kind)).Spells _ := .start Kind.noConfusion gap
    have hstart := Spelled.single hlead hspells fun _ => below.wordEnds hclose
    have hfinish : Spelled [.finish] (last ++ [ascii ')'] ++ rest) rest :=
      .single hlast .finish False.elim
    rw [List.append_assoc, List.singleton_append] at hfinish
    simpa [Item.strokes, Kind.name] using hstart.append (hbelow.append hfinish)

theorem RendersBelow.spelled : {items : List Item} → {body : List UInt8} → RendersBelow items body →
    {rest : List UInt8} → WordEnds rest →
    ∃ last, Gap last ∧ Spelled (strokesBelow items) (body ++ rest) (last ++ rest)
  | _, _, .nil gap, _, _ => ⟨_, gap, .nil _⟩
  | _, _, .cons gap _ first below, _, hrest => by
    obtain ⟨last, hlast, hbelow⟩ := below.spelled hrest
    refine ⟨last, hlast, ?_⟩
    have hfirst := first.spelled gap (below.wordEnds hrest)
    rw [List.append_assoc]
    exact hfirst.append hbelow

end

theorem Renders.isWrittenIn (h : Renders item written) (hlead : Gap lead) (hlast : Gap last)
    (hsource : bytes source = lead ++ written ++ last) (hdigits : (digits item.strokes).Nodup) :
    item.IsWrittenIn source := by
  have hends : WordEnds last := by
    have hnil : WordEnds (last ++ []) := hlast.wordEnds fun _ => .nil
    rwa [List.append_nil] at hnil
  refine ⟨⟨last, ?_, ?_⟩, hdigits⟩
  · rw [hsource]
    exact h.spelled hlead hends
  · simpa [skipBlank] using hlast.skipBlank_append []

/-- The events of the document, as a walk meets them. -/
def events (f : Fixture) : List Event := (f.document.walk (.node 0)).map f.document.event

/-- A fixture is read of a source exactly if it is written of the item of the source. -/
theorem parse_eq_ok_iff {f : Fixture} : parse source = .ok f ↔
    ∃ item : Item, item.IsWrittenIn source ∧
      Document.ofEvents (Writer.empty.item item).events.reverse Version.first = .ok f.document ∧
      f.markers = (Writer.empty.item item).markers := by
  simp only [← readItem_eq_ok_iff, parse, bind, Except.bind]
  constructor
  · intro h
    split at h
    · cases h
    · next item hitem =>
      simp only [ofItem] at h
      split at h
      · next d hd =>
        cases h
        exact ⟨item, hitem, hd, rfl⟩
      · cases h
  · rintro ⟨item, hitem, hdocument, hmarkers⟩
    simp only [hitem, ofItem, hdocument, ← hmarkers]

/-! The events of a rendered item. -/

theorem Spaced.exists_token {kind : TokenKind} {text : String} {events : List Event}
    (h : Spaced [.token (.token kind) text] events) : ∃ elements, events = eventsAll elements := by
  cases h with
  | keep _ rest =>
    cases rest
    exact ⟨[.token kind text], rfl⟩
  | insert _ rest =>
    cases rest
    exact ⟨[.token .whitespace " ", .token kind text], rfl⟩

/-- No space is put before the end of a node. -/
theorem Spaced.exists_finish {plain events : List Event} (h : Spaced (plain ++ [.finish]) events) :
    ∃ below, events = below ++ [.finish] ∧ Spaced plain below := by
  obtain ⟨below, last, rfl, hbelow, hlast⟩ := h.exists_append
  cases hlast with
  | keep _ rest =>
    cases rest
    exact ⟨below, rfl, hbelow⟩
  | insert takes => exact takes.elim

mutual

/-- The events of an item describe elements, wherever spaces are put in. -/
theorem Renders.exists_elements : {item : Item} → {written : List UInt8} → Renders item written →
    {events : List Event} → Spaced (plainEvents item.strokes) events →
    ∃ elements, events = eventsAll elements
  | _, _, .text _, _, h => Spaced.exists_token h
  | _, _, .token _ _, _, h => Spaced.exists_token h
  | _, _, .newline, _, h => Spaced.exists_token h
  | _, _, .marker _, _, h => by
    cases h
    exact ⟨[], rfl⟩
  | _, _, @Renders.node kind _ _ items _ below, _, h => by
    have hplain : plainEvents (Item.node (.node kind) items).strokes =
        .start (.node kind) :: (plainEvents (strokesBelow items) ++ [.finish]) :=
      congrArg _ (plainEvents_append _ _)
    rw [hplain] at h
    cases h with
    | keep _ rest =>
      obtain ⟨inner, rfl, hinner⟩ := rest.exists_finish
      obtain ⟨children, rfl⟩ := below.exists_elements hinner
      exact ⟨[.node kind children], by simp [eventsAll, Element.events]⟩
    | insert _ rest =>
      -- The space is a token beside the node, not in it.
      obtain ⟨inner, rfl, hinner⟩ := rest.exists_finish
      obtain ⟨children, rfl⟩ := below.exists_elements hinner
      exact ⟨[.token .whitespace " ", .node kind children], by
        simp [eventsAll, Element.events, singleSpace]⟩

theorem RendersBelow.exists_elements : {items : List Item} → {body : List UInt8} →
    RendersBelow items body →
    {events : List Event} → Spaced (plainEvents (strokesBelow items)) events →
    ∃ elements, events = eventsAll elements
  | _, _, .nil _, _, h => by
    cases h
    exact ⟨[], rfl⟩
  | _, _, .cons _ _ first below, _, h => by
    rw [strokesBelow, plainEvents_append] at h
    obtain ⟨before, after, rfl, hbefore, hafter⟩ := h.exists_append
    obtain ⟨elements, rfl⟩ := first.exists_elements hbefore
    obtain ⟨elements', rfl⟩ := below.exists_elements hafter
    exact ⟨elements ++ elements', (eventsAll_append _ _).symm⟩

end

/-- A rendered node is written as the events of a tree. -/
theorem RendersBelow.exists_root (h : RendersBelow items body) (kind : NodeKind) : ∃ root : Root,
    (Writer.empty.item (.node (.node kind) items)).events.reverse = root.element.events ∧
      Spaced (plainEvents (Item.node (.node kind) items).strokes) root.element.events := by
  obtain ⟨events, hgoesOn⟩ :=
    (Writer.empty.write (.start (.node kind))).exists_goesOn (strokesBelow items ++ [.finish])
  have hspaced := hgoesOn.spaced
  rw [plainEvents_append] at hspaced
  obtain ⟨inner, rfl, hinner⟩ := hspaced.exists_finish
  obtain ⟨children, rfl⟩ := h.exists_elements hinner
  refine ⟨⟨kind, children⟩, ?_, ?_⟩
  · rw [Writer.item_eq, Item.strokes, List.foldl_cons, hgoesOn.events_eq]
    simp [Root.element, Element.events, Writer.write, Writer.settleSpace, Writer.empty, Writer.push]
  · exact .keep _ hgoesOn.spaced

end Fixture

/-- Every rendering of a node is read. The tree of the document has the events of the node, with
nothing put in but single spaces. -/
theorem Fixture.parse_rendering {kind : NodeKind} {items : List Item} {source : String}
    {lead written last : List UInt8} (h : Renders (.node (.node kind) items) written)
    (hlead : Gap lead) (hlast : Gap last) (hsource : bytes source = lead ++ written ++ last)
    (hdigits : (digits (Item.node (.node kind) items).strokes).Nodup) :
    ∃ f, Fixture.parse source = .ok f ∧
      Spaced (plainEvents (Item.node (.node kind) items).strokes) f.events := by
  have hwritten := h.isWrittenIn hlead hlast hsource hdigits
  cases h with
  | node _ _ below =>
    obtain ⟨root, hevents, hspaced⟩ := below.exists_root kind
    have hdocument := Document.ofEvents_events root Version.first
    refine ⟨⟨.ofRoot root .first, (Writer.empty.item (.node (.node kind) items)).markers⟩, ?_, ?_⟩
    · rw [← hevents] at hdocument
      exact parse_eq_ok_iff.mpr ⟨_, hwritten, hdocument, rfl⟩
    · rw [events, (Document.ofEvents_lossless hdocument).1]
      exact hspaced

namespace Fixture

/-- A block with a comment, an escaped quote, a line break, an empty node and two markers. -/
def blockItems : List Item :=
  [.text "\x7b", .marker 0, .token (.token .stringLiteral) "\"", .newline,
    .node (.node .errorNode) [], .marker 1, .text "\x7d"]

def blockSource : String :=
  "(Block ;; braces\n\"\x7b\" $0 StringLiteral:\"\\\"\" nl (ErrorNode) $1 \"\x7d\")"

theorem renders_block : ∃ written, Renders (.node (.node .block) blockItems) written ∧
    bytes blockSource = [] ++ written ++ [] := by
  have hblank : Gap [32] := .blank rfl .nil
  have hcomment : Gap ([32, ascii ';', ascii ';'] ++ bytes " braces" ++ [10]) :=
    .blank rfl (.comment (by decide) .nil)
  have hbelow : RendersBelow blockItems _ :=
    .cons hcomment (List.cons_ne_nil _ _) (.text (quoted_escape _)) <|
    .cons hblank (List.cons_ne_nil _ _) (.marker (by decide)) <|
    .cons hblank (List.cons_ne_nil _ _) (.token _ (quoted_escape _)) <|
    .cons hblank (List.cons_ne_nil _ _) .newline <|
    .cons hblank (List.cons_ne_nil _ _) (.node _ .nil (.nil .nil)) <|
    .cons hblank (List.cons_ne_nil _ _) (.marker (by decide)) <|
    .cons hblank (List.cons_ne_nil _ _) (.text (quoted_escape _)) <|
    .nil .nil
  exact ⟨_, .node _ .nil hbelow, by decide +kernel⟩

/-- The block is read, whatever the blanks and the comment are. -/
theorem parse_rendering_block : ∃ f, Fixture.parse blockSource = .ok f ∧
    Spaced (plainEvents (Item.node (.node .block) blockItems).strokes) f.events := by
  obtain ⟨written, hrenders, hsource⟩ := renders_block
  exact Fixture.parse_rendering hrenders .nil .nil hsource (by decide)

end Fixture

end ExtractMethod
