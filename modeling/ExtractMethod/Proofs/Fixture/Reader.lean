import ExtractMethod.Proofs.Fixture.Scan

/-! The reader takes one stroke at a time. It finds an item in a source exactly if the strokes of
the item are all that the source has written. -/
namespace ExtractMethod.Fixture

open Text (bytes)
open ExtractMethod.Tree (Kind)

variable {stroke : Stroke} {openItems : List OpenItem} {noted : List Nat} {b : UInt8}
  {input middle written rest after : List UInt8} {size : Nat} {p : Progress} {item : Item}
  {source : String}

/-- What a stroke adds to some open nodes. A marker must not have a digit that is noted already. -/
inductive Advances (openItems : List OpenItem) (noted : List Nat) : Stroke → Progress → Prop where
  | start (kind : Kind) :
    Advances openItems noted (.start kind) (.within (⟨kind, []⟩ :: openItems) noted)
  | finish {innermost : OpenItem} {outer : List OpenItem}
    (eq_cons : openItems = innermost :: outer) : Advances openItems noted .finish
      (.ofItem outer noted (.node innermost.kind innermost.items.reverse))
  | leaf {stroke : Stroke} {item : Item} (single : item.strokes = [stroke])
    (fresh : ∀ digit ∈ digits [stroke], digit ∉ noted) :
    Advances openItems noted stroke (.ofItem openItems (digits [stroke] ++ noted) item)

/-! One step of the reader. -/

theorem readLeafStep_eq (h : readLeaf size b rest = .ok (item, after))
    (single : item.strokes = [stroke]) (fresh : ∀ digit ∈ digits [stroke], digit ∉ noted) :
    readLeafStep size openItems noted b rest =
      .ok (.ofItem openItems (digits [stroke] ++ noted) item, after) := by
  rw [readLeafStep, h]
  cases item with
  | node kind items => simp [Item.strokes] at single
  | marker digit =>
    cases single
    have hfresh : digit ∉ noted := fresh digit (by simp [digits, Stroke.digit?])
    simp [hfresh, digits, Stroke.digit?]
  | text text =>
    cases single
    rfl
  | token kind text =>
    cases single
    rfl
  | newline =>
    cases single
    rfl

theorem exists_stroke_of_readLeafStep
    (h : readLeafStep size openItems noted b rest = .ok (p, after)) :
    ∃ stroke written, stroke.Spells written ∧ b :: rest = written ++ after ∧
      (stroke.EndsInWord → WordEnds after) ∧ Advances openItems noted stroke p := by
  cases hleaf : readLeaf size b rest with
  | error e => simp [readLeafStep, hleaf] at h
  | ok found =>
    obtain ⟨item, rest'⟩ := found
    obtain ⟨stroke, written, hsingle, hspells, heq, hends⟩ := exists_stroke_of_readLeaf hleaf
    have hfresh : ∀ digit ∈ digits [stroke], digit ∉ noted := by
      intro digit hdigit hnoted
      cases item with
      | marker digit' =>
        cases hsingle
        obtain rfl : digit = digit' := by simpa [digits, Stroke.digit?] using hdigit
        simp [readLeafStep, hleaf, hnoted] at h
      | node kind items => simp [Item.strokes] at hsingle
      | text text =>
        cases hsingle
        cases hdigit
      | token kind text =>
        cases hsingle
        cases hdigit
      | newline =>
        cases hsingle
        cases hdigit
    rw [readLeafStep_eq hleaf hsingle hfresh] at h
    cases h
    exact ⟨stroke, written, hspells, heq, hends, .leaf hsingle hfresh⟩

theorem Stroke.Spells.skipBlank_append (h : stroke.Spells written) (rest : List UInt8) :
    skipBlank (written ++ rest) = written ++ rest := by
  cases h with
  | start => exact skipBlank_cons (by decide) (by decide) _
  | finish => exact skipBlank_cons (by decide) (by decide) _
  | newline => exact skipBlank_cons (by decide) (by decide) _
  | marker => exact skipBlank_cons (by decide) (by decide) _
  | text quoted =>
    obtain ⟨inner, -, rfl⟩ := quoted
    exact skipBlank_cons (by decide) (by decide) _
  | token named =>
    rw [List.append_assoc]
    exact skipBlank_name named _

/-- The reader sees from the first byte whether a leaf comes. -/
theorem Stroke.Spells.exists_first (h : stroke.Spells written) (single : item.strokes = [stroke]) :
    ∃ b tail, written = b :: tail ∧ b ≠ ascii '(' ∧ b ≠ ascii ')' := by
  cases h with
  | start => cases item <;> simp [Item.strokes] at single
  | finish => cases item <;> simp [Item.strokes] at single
  | newline => exact ⟨_, _, rfl, by decide, by decide⟩
  | marker => exact ⟨_, _, rfl, by decide, by decide⟩
  | text quoted =>
    obtain ⟨inner, -, rfl⟩ := quoted
    exact ⟨_, _, rfl, by decide, by decide⟩
  | token named =>
    obtain ⟨b, tail, hname, hletter⟩ := exists_letter_name named
    rw [hname]
    exact ⟨b, _, rfl, ne_of_isLetterByte hletter (by decide),
      ne_of_isLetterByte hletter (by decide)⟩

theorem spelled_start {lead : List UInt8} {kind : Kind} (hgap : Gap lead)
    (hkind : readKind (readWord (skipBlank rest)).1 = .ok kind) :
    Spelled [.start kind] (lead ++ ascii '(' :: rest) (readWord (skipBlank rest)).2 := by
  generalize hword : readWord (skipBlank rest) = word at hkind ⊢
  obtain ⟨name, after⟩ := word
  obtain ⟨rfl, hnamed⟩ := name_eq_of_readKind hkind
  obtain ⟨heq, hends⟩ := eq_append_of_readWord hword
  obtain ⟨b, tail, hname, -⟩ := exists_letter_name hnamed
  obtain ⟨inner, hinner, hrest⟩ := exists_gap rest (by rw [heq, hname, List.cons_append])
  have hspelled := Spelled.single hgap (.start hnamed hinner) fun _ => hends
  rw [hrest]
  simpa [hname] using hspelled

theorem exists_stroke_of_readStep (h : readStep size openItems noted input = .ok (p, after)) :
    ∃ stroke, Spelled [stroke] input after ∧ Advances openItems noted stroke p := by
  have hleaf {lead rest : List UInt8} {b : UInt8} (hgap : Gap lead)
      (h : readLeafStep size openItems noted b rest = .ok (p, after)) :
      ∃ stroke, Spelled [stroke] (lead ++ b :: rest) after ∧ Advances openItems noted stroke p := by
    obtain ⟨stroke, written, hspells, heq, hends, hadvances⟩ := exists_stroke_of_readLeafStep h
    refine ⟨stroke, ?_, hadvances⟩
    rw [heq, ← List.append_assoc]
    exact .single hgap hspells hends
  unfold readStep at h
  split at h
  · cases h
  · cases h
  · next b rest hblank =>
    obtain ⟨lead, hgap, rfl⟩ := exists_gap input hblank
    split at h
    · next hopen =>
      simp only at h
      split at h
      · cases h
      · next kind hkind =>
        cases h
        rw [hopen]
        exact ⟨.start kind, spelled_start hgap hkind, .start kind⟩
    · split at h
      · next hclose =>
        split at h
        · exact hleaf hgap h
        · cases h
          refine ⟨.finish, ?_, .finish rfl⟩
          have hspelled : Spelled [.finish] (lead ++ [ascii ')'] ++ after) after :=
            .single hgap .finish False.elim
          rwa [hclose, List.append_cons]
      · exact hleaf hgap h

theorem readStep_eq (h : Spelled [stroke] input after)
    (hadvances : Advances openItems noted stroke p) :
    readStep size openItems noted input = .ok (p, after) := by
  cases h with
  | @cons _ _ lead written after _ gap spells apart tail =>
    cases tail
    have hblank : skipBlank (lead ++ written ++ after) = written ++ after := by
      rw [List.append_assoc, gap.skipBlank_append, spells.skipBlank_append]
    cases hadvances with
    | start kind =>
      cases spells with
      | start named gap =>
        have hword := readWord_append (isWordByte_of_mem_name named) (apart trivial)
        rw [readStep.eq_def, hblank]
        simp only [List.cons_append, List.append_assoc, if_true, gap.skipBlank_append,
          skipBlank_name named, hword, readKind_name named]
    | finish eq_cons =>
      cases spells
      rw [readStep.eq_def, hblank, eq_cons]
      rfl
    | leaf single fresh =>
      obtain ⟨b, tail, rfl, hopen, hclose⟩ := spells.exists_first single
      have hleaf : readLeaf size b (tail ++ after) = .ok (_, after) :=
        spells.readLeaf_eq single apart rfl
      rw [readStep.eq_def, hblank]
      simp only [List.cons_append, hopen, hclose, if_false]
      exact readLeafStep_eq hleaf single fresh

/-! A run of the reader. -/

/-- What the reader answers from here on. -/
def Progress.resume (size : Nat) (rest : List UInt8) : Progress → Except Error (Item × List UInt8)
  | .within openItems noted => readFrom size openItems noted rest
  | .complete item => .ok (item, rest)

theorem readFrom_eq (h : readStep size openItems noted input = .ok (p, after)) :
    readFrom size openItems noted input = p.resume size after := by
  rw [readFrom]
  split
  · next e he => cases he.symm.trans h
  · next hp =>
    cases hp.symm.trans h
    rfl
  · next hp =>
    cases hp.symm.trans h
    rfl

/-- The digits are all different, and none of them is noted already. -/
def AreFresh (noted : List Nat) (strokes : List Stroke) : Prop :=
  (digits strokes).Nodup ∧ ∀ digit ∈ digits strokes, digit ∉ noted

theorem AreFresh.append {first second : List Stroke} (h : AreFresh noted (first ++ second)) :
    AreFresh noted first ∧ AreFresh ((digits first).reverse ++ noted) second := by
  obtain ⟨hnodup, hfresh⟩ := h
  rw [digits_append, List.nodup_append] at hnodup
  simp only [digits_append, List.mem_append] at hfresh
  refine ⟨⟨hnodup.1, fun digit hmem => hfresh digit (.inl hmem)⟩, hnodup.2.1, fun digit hmem => ?_⟩
  rw [List.mem_append, List.mem_reverse, not_or]
  exact ⟨fun hfirst => hnodup.2.2 digit hfirst digit hmem rfl, hfresh digit (.inr hmem)⟩

mutual

/-- The strokes of an item are read as this item. -/
theorem readFrom_item : (item : Item) → {openItems : List OpenItem} → {noted : List Nat} →
    {input rest : List UInt8} → Spelled item.strokes input rest → AreFresh noted item.strokes →
    readFrom size openItems noted input =
      (Progress.ofItem openItems ((digits item.strokes).reverse ++ noted) item).resume size rest
  | .node kind items, openItems, noted, input, rest, h, hfresh => by
    have hstrokes : (Item.node kind items).strokes =
        [.start kind] ++ (strokesBelow items ++ [.finish]) := rfl
    rw [hstrokes] at h
    obtain ⟨body, hstart, hbody⟩ := h.exists_middle
    obtain ⟨last, hbelow, hfinish⟩ := hbody.exists_middle
    have hdigits : digits (Item.node kind items).strokes = digits (strokesBelow items) := by
      simp [Item.strokes, digits, List.filterMap_cons, Stroke.digit?]
    rw [AreFresh, hdigits] at hfresh
    -- The node is opened, its items are collected in it, and it is handed to the node around it.
    rw [readFrom_eq (readStep_eq hstart (.start kind)), Progress.resume,
      readFrom_items items hbelow hfresh, readFrom_eq (readStep_eq hfinish (.finish rfl)), hdigits]
    simp
  | .text text, openItems, noted, input, rest, h, hfresh =>
    readFrom_eq (readStep_eq h (.leaf rfl hfresh.2))
  | .token kind text, openItems, noted, input, rest, h, hfresh =>
    readFrom_eq (readStep_eq h (.leaf rfl hfresh.2))
  | .newline, openItems, noted, input, rest, h, hfresh =>
    readFrom_eq (readStep_eq h (.leaf rfl hfresh.2))
  | .marker digit, openItems, noted, input, rest, h, hfresh =>
    readFrom_eq (readStep_eq h (.leaf rfl hfresh.2))

theorem readFrom_items : (items : List Item) → {o : OpenItem} → {outer : List OpenItem} →
    {noted : List Nat} → {input rest : List UInt8} → Spelled (strokesBelow items) input rest →
    AreFresh noted (strokesBelow items) → readFrom size (o :: outer) noted input =
      readFrom size ({ o with items := items.reverse ++ o.items } :: outer)
        ((digits (strokesBelow items)).reverse ++ noted) rest
  | [], o, outer, noted, input, rest, h, hfresh => by
    cases h
    rfl
  | item :: items, o, outer, noted, input, rest, h, hfresh => by
    obtain ⟨middle, hfirst, hrest⟩ := h.exists_middle
    obtain ⟨hfresh, hfreshRest⟩ := hfresh.append
    rw [readFrom_item item hfirst hfresh, Progress.ofItem, Progress.resume,
      readFrom_items items hrest hfreshRest]
    simp [strokesBelow, digits_append]

end

/-! The strokes of an item that is under way. -/

def OpenItem.strokes (o : OpenItem) : List Stroke := .start o.kind :: strokesBelow o.items.reverse

def openStrokes : List OpenItem → List Stroke
  | [] => []
  | o :: outer => openStrokes outer ++ o.strokes

/-- The strokes that brought the reader so far. -/
def Progress.strokes : Progress → List Stroke
  | .within openItems _ => openStrokes openItems
  | .complete item => item.strokes

theorem strokesBelow_append (first second : List Item) :
    strokesBelow (first ++ second) = strokesBelow first ++ strokesBelow second := by
  induction first with
  | nil => rfl
  | cons item items ih => simp [strokesBelow, ih]

theorem Progress.strokes_ofItem (openItems : List OpenItem) (noted : List Nat) (item : Item) :
    (Progress.ofItem openItems noted item).strokes = openStrokes openItems ++ item.strokes := by
  cases openItems with
  | nil => rfl
  | cons o outer =>
    simp [ofItem, strokes, openStrokes, OpenItem.strokes, strokesBelow_append, strokesBelow]

theorem Advances.strokes_eq (h : Advances openItems noted stroke p) :
    p.strokes = openStrokes openItems ++ [stroke] := by
  cases h with
  | start => rfl
  | finish eq_cons =>
    rw [Progress.strokes_ofItem, eq_cons, openStrokes, OpenItem.strokes, Item.strokes]
    simp
  | leaf single => rw [Progress.strokes_ofItem, single]

theorem Advances.fresh (h : Advances openItems noted stroke p) :
    ∀ digit ∈ digits [stroke], digit ∉ noted := by
  cases h with
  | start => exact fun _ hmem => by cases hmem
  | finish => exact fun _ hmem => by cases hmem
  | leaf _ fresh => exact fresh

theorem Advances.noted_eq {inner : List OpenItem} {noted' : List Nat}
    (h : Advances openItems noted stroke (.within inner noted')) :
    noted' = digits [stroke] ++ noted := by
  have hofItem {openItems : List OpenItem} {noted : List Nat} {item : Item}
      (h : Progress.within inner noted' = .ofItem openItems noted item) : noted' = noted := by
    cases openItems <;> cases h
    rfl
  generalize hp : Progress.within inner noted' = p at h
  cases h with
  | start =>
    cases hp
    rfl
  | finish => exact hofItem hp
  | leaf => exact hofItem hp

/-- All that is written up to here are the strokes so far, their markers have different digits, and
these are noted. -/
structure Progress.Covers (p : Progress) (source rest : List UInt8) : Prop where
  spelled : Spelled p.strokes source rest
  nodup : (digits p.strokes).Nodup
  noted : ∀ openItems noted, p = .within openItems noted → digits p.strokes ⊆ noted

theorem Progress.Covers.step {source : List UInt8}
    (h : (Progress.within openItems noted).Covers source input)
    (hspelled : Spelled [stroke] input rest) (hadvances : Advances openItems noted stroke p) :
    p.Covers source rest := by
  have hnoted : digits (openStrokes openItems) ⊆ noted := h.noted openItems noted rfl
  have hdigits : digits p.strokes = digits (openStrokes openItems) ++ digits [stroke] := by
    rw [hadvances.strokes_eq, digits_append]
  refine ⟨?_, ?_, ?_⟩
  · rw [hadvances.strokes_eq]
    exact h.spelled.append hspelled
  · rw [hdigits, List.nodup_append]
    refine ⟨h.nodup, ?_, ?_⟩
    · rw [digits, List.filterMap_cons]
      cases stroke.digit? <;> simp
    · rintro digit hmem _ hmem' rfl
      exact hadvances.fresh digit hmem' (hnoted hmem)
  · rintro inner noted' rfl
    rw [hdigits, hadvances.noted_eq]
    intro digit hmem
    rcases List.mem_append.mp hmem with hmem | hmem
    · exact List.mem_append_right _ (hnoted hmem)
    · exact List.mem_append_left _ hmem

/-- A run of the reader. -/
theorem covers_readFrom {source : List UInt8}
    (h : (Progress.within openItems noted).Covers source input)
    (hread : readFrom size openItems noted input = .ok (item, rest)) :
    (Progress.complete item).Covers source rest := by
  induction openItems, noted, input using readFrom.induct size with
  | case1 openItems noted input e he =>
    rw [readFrom, he] at hread
    cases hread
  | case2 openItems noted input found after hstep =>
    obtain ⟨stroke, hspelled, hadvances⟩ := exists_stroke_of_readStep hstep
    rw [readFrom_eq hstep] at hread
    cases hread
    exact h.step hspelled hadvances
  | case3 openItems noted input inner noted' after hstep ih =>
    obtain ⟨stroke, hspelled, hadvances⟩ := exists_stroke_of_readStep hstep
    rw [readFrom_eq hstep] at hread
    exact ih (h.step hspelled hadvances) hread

/-- The source has the strokes of an item, with different digits, and after them only blanks and
comments. -/
structure Item.IsWrittenIn (item : Item) (source : String) : Prop where
  spelled : ∃ rest, Spelled item.strokes (bytes source) rest ∧ skipBlank rest = []
  nodup : (digits item.strokes).Nodup

/-- The reader finds an item exactly if the item is written in the source. -/
theorem readItem_eq_ok_iff : readItem source = .ok item ↔ item.IsWrittenIn source := by
  have hstart : (Progress.within [] []).Covers (bytes source) (bytes source) := by
    refine ⟨.nil _, List.nodup_nil, fun _ _ _ => List.nil_subset _⟩
  constructor
  · intro h
    simp only [readItem, bind, Except.bind] at h
    split at h
    · cases h
    · next found hfound =>
      obtain ⟨found, rest⟩ := found
      have hcovers := covers_readFrom hstart hfound
      simp only at h
      split at h
      · next hblank =>
        cases h
        exact ⟨⟨rest, hcovers.spelled, hblank⟩, hcovers.nodup⟩
      · cases h
  · rintro ⟨⟨rest, hspelled, hblank⟩, hnodup⟩
    have hread : readFrom (bytes source).length [] [] (bytes source) = .ok (item, rest) :=
      readFrom_item item hspelled ⟨hnodup, fun _ _ => List.not_mem_nil⟩
    simp [readItem, bind, Except.bind, hread, hblank]

end ExtractMethod.Fixture
