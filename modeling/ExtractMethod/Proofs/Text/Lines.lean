import ExtractMethod.Proofs.Text.Encoding
import ExtractMethod.Proofs.Text.PartitionPoint

/-! The lines of a text fill it from its start to its end. No line has a byte of a break in it, and
each but the last ends where one break begins. All of them can be asked for as long as there are
fewer than `2 ^ 32` of them. -/
namespace ExtractMethod.Text

variable {content rest : List UInt8} {breaks : List (Nat × Nat)} {b : UInt8}
  {offset start stop next i : Nat}

/-- A line feed and a carriage return break a line. -/
def IsLineBreak (b : UInt8) : Prop := b = lineFeed ∨ b = carriageReturn
deriving Decidable

/-- A line ends at the one offset and the next one starts at the other, and all bytes between them
break the line. The content begins at `offset`. -/
structure BreaksAt (offset : Nat) (content : List UInt8) (line : Nat × Nat) : Prop where
  le_stop : offset ≤ line.1
  stop_lt_start : line.1 < line.2
  isLineBreak : ∀ i, line.1 ≤ offset + i → offset + i < line.2 →
    ∃ b, content[i]? = some b ∧ IsLineBreak b

/-- One break goes from `stop` up to the given offset. It is a line feed, a carriage return with a
line feed, or a carriage return that no line feed follows. -/
inductive IsBreak (content : List UInt8) (stop : Nat) : Nat → Prop where
  | lineFeed (lf : content[stop]? = some lineFeed) : IsBreak content stop (stop + 1)
  | both (cr : content[stop]? = some carriageReturn) (lf : content[stop + 1]? = some lineFeed) :
    IsBreak content stop (stop + 2)
  | carriageReturn (cr : content[stop]? = some carriageReturn)
    (alone : content[stop + 1]? ≠ some Text.lineFeed) : IsBreak content stop (stop + 1)

/-- No byte from the one offset up to the other breaks a line. -/
def IsUnbroken (content : List UInt8) (start stop : Nat) : Prop :=
  ∀ i b, start ≤ i → i < stop → content[i]? = some b → ¬ IsLineBreak b

/-- From an offset on the content consists of a line for each of the breaks and of a last line. -/
inductive Splits (content : List UInt8) : Nat → List (Nat × Nat) → Prop where
  | last {start : Nat} (start_le : start ≤ content.length)
    (unbroken : IsUnbroken content start content.length) : Splits content start []
  | line {start stop next : Nat} {breaks : List (Nat × Nat)} (start_le : start ≤ stop)
    (unbroken : IsUnbroken content start stop) (isBreak : IsBreak content stop next)
    (rest : Splits content next breaks) : Splits content start ((stop, next) :: breaks)

theorem IsBreak.lt (h : IsBreak content stop next) : stop < next := by
  cases h with
  | lineFeed lf => exact Nat.lt_succ_self stop
  | both cr lf => omega
  | carriageReturn cr alone => exact Nat.lt_succ_self stop

/-- All bytes of a break are ones that break a line. -/
theorem IsBreak.isLineBreak (h : IsBreak content stop next) (hle : stop ≤ i) (hlt : i < next) :
    ∃ b, content[i]? = some b ∧ IsLineBreak b := by
  cases h with
  | lineFeed lf =>
    obtain rfl : i = stop := by omega
    exact ⟨_, lf, Or.inl rfl⟩
  | both cr lf =>
    obtain rfl | rfl : i = stop ∨ i = stop + 1 := by omega
    · exact ⟨_, cr, Or.inr rfl⟩
    · exact ⟨_, lf, Or.inl rfl⟩
  | carriageReturn cr alone =>
    obtain rfl : i = stop := by omega
    exact ⟨_, cr, Or.inr rfl⟩

theorem IsBreak.breaksAt (h : IsBreak content stop next) : BreaksAt 0 content (stop, next) where
  le_stop := Nat.zero_le stop
  stop_lt_start := h.lt
  isLineBreak i hle hlt := by
    rw [Nat.zero_add] at hle hlt
    exact h.isLineBreak hle hlt

/-- The byte before the next line is one that breaks the line. -/
theorem IsBreak.exists_isLineBreak (h : IsBreak content stop next) :
    ∃ i b, next = i + 1 ∧ content[i]? = some b ∧ IsLineBreak b := by
  have hlt := h.lt
  obtain ⟨b, hget, hb⟩ : ∃ b, content[next - 1]? = some b ∧ IsLineBreak b :=
    h.isLineBreak (by omega) (by omega)
  exact ⟨next - 1, b, by omega, hget, hb⟩

theorem IsBreak.next_le_length (h : IsBreak content stop next) : next ≤ content.length := by
  obtain ⟨i, b, rfl, hget, -⟩ := h.exists_isLineBreak
  exact (List.getElem?_eq_some_iff.mp hget).1

/-- A byte that breaks a line is a break of its own, unless it is a carriage return with a line
feed. -/
theorem isBreak_of_isLineBreak (hget : content[stop]? = some b) (hb : IsLineBreak b)
    (hnot : ¬ (b = carriageReturn ∧ content[stop + 1]? = some lineFeed)) :
    IsBreak content stop (stop + 1) := by
  rcases hb with rfl | rfl
  · exact .lineFeed hget
  · exact .carriageReturn hget fun hlf => hnot ⟨rfl, hlf⟩

theorem isUnbroken_self (content : List UInt8) (start : Nat) : IsUnbroken content start start := by
  intro i b hle hlt
  omega

theorem IsUnbroken.succ (h : IsUnbroken content start offset) (hget : content[offset]? = some b)
    (hb : ¬ IsLineBreak b) : IsUnbroken content start (offset + 1) := by
  intro i c hle hlt hc
  rcases Nat.lt_or_eq_of_le (Nat.le_of_lt_succ hlt) with hlt | rfl
  · exact h i c hle hlt hc
  · cases hget.symm.trans hc
    exact hb

theorem of_drop_eq_cons (h : content.drop offset = b :: rest) : offset < content.length ∧
    content[offset]? = some b ∧ content.drop (offset + 1) = rest := by
  have hget : content[offset]? = some b := by
    rw [← Nat.add_zero offset, ← List.getElem?_drop, h]
    rfl
  refine ⟨(List.getElem?_eq_some_iff.mp hget).1, hget, ?_⟩
  rw [← List.drop_drop, h]
  rfl

/-- The scan from an offset on, in a line that began before it and is unbroken so far, splits the
content from the beginning of this line on. -/
theorem splits_lineBreaks (hrest : content.drop offset = rest) (hoffset : offset ≤ content.length)
    (hle : start ≤ offset) (hown : IsUnbroken content start offset) :
    Splits content start (lineBreaks offset rest) := by
  induction offset, rest using lineBreaks.induct generalizing start with
  | case1 offset =>
    obtain rfl : offset = content.length := Nat.le_antisymm hoffset (List.drop_eq_nil_iff.mp hrest)
    exact .last hle hown
  | case2 offset b hb =>
    obtain ⟨hlt, hget, hdrop⟩ := of_drop_eq_cons hrest
    have hlength : content.length = offset + 1 :=
      Nat.le_antisymm (List.drop_eq_nil_iff.mp hdrop) hlt
    rw [lineBreaks, if_pos hb]
    refine .line hle hown (isBreak_of_isLineBreak hget hb (by simp [hlength])) (.last hlt ?_)
    rw [hlength]
    exact isUnbroken_self content (offset + 1)
  | case3 offset b hb =>
    obtain ⟨hlt, hget, hdrop⟩ := of_drop_eq_cons hrest
    have hlength : content.length = offset + 1 :=
      Nat.le_antisymm (List.drop_eq_nil_iff.mp hdrop) hlt
    rw [lineBreaks, if_neg hb]
    refine .last (by omega) ?_
    rw [hlength]
    exact hown.succ hget hb
  | case4 offset b c rest hbc ih =>
    obtain ⟨-, hget, hdrop⟩ := of_drop_eq_cons hrest
    obtain ⟨hlt, hget', hdrop'⟩ := of_drop_eq_cons hdrop
    obtain ⟨rfl, rfl⟩ := hbc
    rw [lineBreaks, if_pos ⟨rfl, rfl⟩]
    exact .line hle hown (.both hget hget')
      (ih hdrop' hlt (Nat.le_refl _) (isUnbroken_self content (offset + 2)))
  | case5 offset b c rest hbc hb ih =>
    obtain ⟨hlt, hget, hdrop⟩ := of_drop_eq_cons hrest
    obtain ⟨-, hget', -⟩ := of_drop_eq_cons hdrop
    rw [lineBreaks, if_neg hbc, if_pos hb]
    refine .line hle hown (isBreak_of_isLineBreak hget hb ?_)
      (ih hdrop hlt (Nat.le_refl _) (isUnbroken_self content (offset + 1)))
    rwa [hget', Option.some.injEq]
  | case6 offset b c rest hbc hb ih =>
    obtain ⟨hlt, hget, hdrop⟩ := of_drop_eq_cons hrest
    rw [lineBreaks, if_neg hbc, if_neg hb]
    exact ih hdrop hlt (by omega) (hown.succ hget hb)

theorem splits (content : List UInt8) : Splits content 0 (lineBreaks 0 content) :=
  splits_lineBreaks rfl (Nat.zero_le _) (Nat.le_refl _) (isUnbroken_self content 0)

/-- Each line starts after the ones before it. -/
theorem Splits.starts_pairwise (h : Splits content start breaks) :
    (start :: breaks.map Prod.snd).Pairwise (· < ·) := by
  induction h with
  | last => exact List.pairwise_singleton _ _
  | @line start stop next breaks hle _ hbreak _ ih =>
    have hlt : start < next := Nat.lt_of_le_of_lt hle hbreak.lt
    refine List.pairwise_cons.mpr ⟨?_, ih⟩
    intro other hother
    rcases List.mem_cons.mp hother with rfl | hother
    · exact hlt
    · exact Nat.lt_trans hlt ((List.pairwise_cons.mp ih).1 other hother)

theorem Splits.isBreak_of_mem (h : Splits content start breaks) (hmem : (stop, next) ∈ breaks) :
    IsBreak content stop next := by
  induction h with
  | last => cases hmem
  | line _ _ hbreak _ ih =>
    rcases List.mem_cons.mp hmem with heq | hmem
    · cases heq
      exact hbreak
    · exact ih hmem

/-- Line by line, the starts and the ends belong together. -/
theorem Splits.exists_isUnbroken (h : Splits content start breaks) (hi : i ≤ breaks.length) :
    ∃ first stop, (start :: breaks.map Prod.snd)[i]? = some first ∧
      (breaks.map Prod.fst ++ [content.length])[i]? = some stop ∧ first ≤ stop ∧
        IsUnbroken content first stop := by
  induction h generalizing i with
  | @last start hle hown =>
    obtain rfl : i = 0 := by simpa using hi
    exact ⟨start, content.length, rfl, rfl, hle, hown⟩
  | @line start stop next breaks hle hown _ _ ih =>
    cases i with
    | zero => exact ⟨start, stop, rfl, rfl, hle, hown⟩
    | succ i => exact ih (by simpa using hi)

theorem length_lineBreaks_le (offset : Nat) (content : List UInt8) :
    (lineBreaks offset content).length ≤ content.length := by
  induction offset, content using lineBreaks.induct with
  | case1 offset => exact Nat.le_refl _
  | case2 offset b hb => simp [lineBreaks, hb]
  | case3 offset b hb => simp [lineBreaks, hb]
  | case4 offset b c rest hbc ih =>
    rw [lineBreaks, if_pos hbc]
    simp only [List.length_cons]
    omega
  | case5 offset b c rest hbc hb ih =>
    rw [lineBreaks, if_neg hbc, if_pos hb]
    exact Nat.succ_le_succ ih
  | case6 offset b c rest hbc hb ih =>
    rw [lineBreaks, if_neg hbc, if_neg hb]
    exact Nat.le_succ_of_le ih

theorem lineBreaks_lineFeed (offset : Nat) (rest : List UInt8) :
    lineBreaks offset (lineFeed :: rest) =
      (offset, offset + 1) :: lineBreaks (offset + 1) rest := by
  cases rest with
  | nil => rfl
  | cons c rest => rw [lineBreaks, if_neg (by simp [lineFeed, carriageReturn]), if_pos (Or.inl rfl)]

/-- Each of some line feeds is a break of its own. -/
theorem length_lineBreaks_replicate (offset n : Nat) :
    (lineBreaks offset (List.replicate n lineFeed)).length = n := by
  induction n generalizing offset with
  | zero => rfl
  | succ n ih => rw [List.replicate_succ, lineBreaks_lineFeed, List.length_cons, ih]

namespace Lines

theorem number_eq (h : i < UInt32.size) : number i = i := Nat.mod_eq_of_lt h

theorem start?_ofBytes (content : List UInt8) (i : Nat) :
    (ofBytes content).start? i = (0 :: (lineBreaks 0 content).map Prod.snd)[i]? := by
  simp [start?, ofBytes]

theorem stop?_ofBytes (content : List UInt8) (i : Nat) :
    (ofBytes content).stop? i = ((lineBreaks 0 content).map Prod.fst ++ [content.length])[i]? := by
  simp [stop?, ofBytes]

theorem size_starts (content : List UInt8) :
    (ofBytes content).starts.size = (lineBreaks 0 content).length + 1 := by
  simp [ofBytes]

/-- There is at most one line for each byte, and the last one. -/
theorem size_starts_le (content : List UInt8) :
    (ofBytes content).starts.size ≤ content.length + 1 := by
  rw [size_starts]
  exact Nat.succ_le_succ (length_lineBreaks_le 0 content)

theorem starts_pairwise (content : List UInt8) :
    (ofBytes content).starts.toList.Pairwise (· < ·) := (splits content).starts_pairwise

/-- A line after which another one starts ends with the break between them. -/
theorem exists_isBreak (h : (ofBytes content).start? (i + 1) = some next) :
    ∃ stop, (ofBytes content).stop? i = some stop ∧
      (ofBytes content).stopWithBreakAt? i = some next ∧ IsBreak content stop next := by
  have hline := h
  rw [start?_ofBytes, List.getElem?_cons_succ, List.getElem?_map, Option.map_eq_some_iff] at hline
  obtain ⟨⟨stop, _⟩, hline, rfl⟩ := hline
  have hstop : (ofBytes content).stop? i = some stop := by
    obtain ⟨hi, heq⟩ := List.getElem?_eq_some_iff.mp hline
    simp [stop?_ofBytes, List.getElem?_append_left, hi, heq]
  refine ⟨stop, hstop, ?_, (splits content).isBreak_of_mem (List.mem_of_getElem? hline)⟩
  rw [stopWithBreakAt?, hstop, h]
  rfl

theorem isStart_iff : (ofBytes content).isStart offset ↔
    ∃ i, (ofBytes content).start? i = some offset := by
  rw [isStart, beq_iff_eq]
  constructor
  · intro h
    exact ⟨_, h⟩
  · rintro ⟨i, h⟩
    rw [partitionPoint_lt_of_getElem? (starts_pairwise content) h]
    exact h

/-- No line starts after the end of the text. -/
theorem start_le_length (h : (ofBytes content).start? i = some start) : start ≤ content.length := by
  cases i with
  | zero =>
    cases h
    exact Nat.zero_le _
  | succ i =>
    obtain ⟨stop, -, -, hbreak⟩ := exists_isBreak h
    exact hbreak.next_le_length

/-- A line starts at the beginning of the text or right after a byte that breaks a line. -/
theorem eq_zero_or_exists_isLineBreak (h : (ofBytes content).isStart offset) :
    offset = 0 ∨ ∃ i b, offset = i + 1 ∧ content[i]? = some b ∧ IsLineBreak b := by
  obtain ⟨i, hstart⟩ := isStart_iff.mp h
  cases i with
  | zero =>
    cases hstart
    exact Or.inl rfl
  | succ i =>
    obtain ⟨stop, -, -, hbreak⟩ := exists_isBreak hstart
    exact Or.inr hbreak.exists_isLineBreak

/-- An offset at which some line starts lies in this line. -/
theorem indexOf_start (h : (ofBytes content).start? i = some start) :
    (ofBytes content).indexOf start = i := by
  have hsize : min start (ofBytes content).size = start := Nat.min_eq_left (start_le_length h)
  rw [indexOf, hsize, partitionPoint_le_of_getElem? (starts_pairwise content) h, Nat.add_sub_cancel]

/-- The line before an offset at which a line starts ends at the bytes that break it. -/
theorem exists_breaksAt {n : Nat} (h : (ofBytes content).isStart offset)
    (hline : (ofBytes content).indexOf offset = n + 1) : ∃ stop,
      (ofBytes content).stop? n = some stop ∧
        (ofBytes content).stopWithBreakAt? n = some offset ∧ BreaksAt 0 content (stop, offset) := by
  obtain ⟨i, hstart⟩ := isStart_iff.mp h
  obtain rfl : i = n + 1 := (indexOf_start hstart).symm.trans hline
  obtain ⟨stop, hstop, hnext, hbreak⟩ := exists_isBreak hstart
  exact ⟨stop, hstop, hnext, hbreak.breaksAt⟩

theorem indexOf_lt (content : List UInt8) (offset : Nat) :
    (ofBytes content).indexOf offset < (ofBytes content).starts.size := by
  have hle : partitionPoint (· ≤ min offset (ofBytes content).size) (ofBytes content).starts ≤
      (ofBytes content).starts.size := partitionPoint_le
  have hpos : 0 < (ofBytes content).starts.size := by simp [size_starts]
  rw [indexOf]
  omega

/-- The line of an offset is the last one that does not start after the offset. -/
theorem indexOf_greatest (content : List UInt8) (offset : Nat) :
    (∃ start, (ofBytes content).start? ((ofBytes content).indexOf offset) = some start ∧
      start ≤ min offset content.length) ∧
    ∀ i start, (ofBytes content).start? i = some start → start ≤ min offset content.length →
      i ≤ (ofBytes content).indexOf offset := by
  have hsorted := starts_pairwise content
  have hline : (ofBytes content).indexOf offset + 1 =
      partitionPoint (· ≤ min offset content.length) (ofBytes content).starts := by
    have hzero : 0 < partitionPoint (· ≤ min offset content.length) (ofBytes content).starts :=
      (lt_partitionPoint_le_iff hsorted (by simp [ofBytes])).mpr (Nat.zero_le _)
    exact Nat.sub_add_cancel hzero
  constructor
  · have hlt := indexOf_lt content offset
    refine ⟨_, Array.getElem?_eq_getElem hlt, ?_⟩
    exact (lt_partitionPoint_le_iff hsorted hlt).mp (by omega)
  · intro i start hstart hle
    obtain ⟨hi, rfl⟩ := Array.getElem?_eq_some_iff.mp hstart
    have := (lt_partitionPoint_le_iff hsorted hi).mpr hle
    omega

/-- In a text of fewer than `2 ^ 32` bytes a line is found by its number as it is by its index. -/
theorem lookups_eq (h : content.length < UInt32.size) :
    (∀ offset, (ofBytes content).lineOf offset = (ofBytes content).indexOf offset) ∧
    ∀ i, i + 1 < (ofBytes content).starts.size →
      (ofBytes content).stopWithBreak? i = (ofBytes content).stopWithBreakAt? i := by
  have hsize := size_starts_le content
  constructor
  · intro offset
    have hlt := indexOf_lt content offset
    exact number_eq (by omega)
  · intro i hi
    rw [stopWithBreak?, stopWithBreakAt?, number_eq (by omega)]

theorem lookup_eq_none (h : (ofBytes content).starts.size ≤ i) :
    (ofBytes content).start? i = none ∧ (ofBytes content).stop? i = none ∧
      (ofBytes content).stopWithBreak? i = none := by
  rw [size_starts] at h
  have hstart : (ofBytes content).start? i = none := by
    rw [start?_ofBytes, List.getElem?_eq_none_iff]
    simpa using h
  have hstop : (ofBytes content).stop? i = none := by
    rw [stop?_ofBytes, List.getElem?_eq_none_iff]
    simpa using h
  exact ⟨hstart, hstop, by rw [stopWithBreak?, hstop]; rfl⟩

/-- The last line goes up to the end of the text, if what would be the next one has a number. -/
theorem stop?_last (h : i + 1 = (ofBytes content).starts.size) (hlt : i + 1 < UInt32.size) :
    (ofBytes content).stop? i = some content.length ∧
      (ofBytes content).stopWithBreak? i = some content.length := by
  have hstart := (lookup_eq_none (Nat.le_of_eq h.symm)).1
  rw [size_starts, Nat.add_right_cancel_iff] at h
  have hstop : (ofBytes content).stop? i = some content.length := by
    simp [stop?_ofBytes, h]
  refine ⟨hstop, ?_⟩
  rw [stopWithBreak?, number_eq hlt, hstop, hstart]
  rfl

/-- The lookups cut the content into lines. Each line starts where the one before it ends with its
break, from the beginning of the content to its end, and has no byte of a break in it. All offsets
fit in 32 bits. -/
structure Tile (lines : Lines) (content : List UInt8) : Prop where
  size_eq : lines.size = content.length
  size_lt : lines.size < UInt32.size
  count_pos : 0 < lines.count
  start_first : lines.start? 0 = some 0
  own : ∀ i < lines.count, ∃ start stop, lines.start? i = some start ∧ lines.stop? i = some stop ∧
    start ≤ stop ∧ IsUnbroken content start stop
  inner : ∀ i, i + 1 < lines.count → ∃ stop next, lines.stop? i = some stop ∧
    lines.stopWithBreak? i = some next ∧ lines.start? (i + 1) = some next ∧
    IsBreak content stop next
  last : ∀ i, i + 1 = lines.count → lines.stop? i = some content.length ∧
    lines.stopWithBreak? i = some content.length
  past : ∀ i, lines.count ≤ i →
    lines.start? i = none ∧ lines.stop? i = none ∧ lines.stopWithBreak? i = none
  lineOf_greatest : ∀ offset, (∃ start, lines.start? (lines.lineOf offset) = some start ∧
      start ≤ min offset content.length) ∧
    ∀ i start, lines.start? i = some start → start ≤ min offset content.length →
      i ≤ lines.lineOf offset
  isStart_iff : ∀ offset, lines.isStart offset ↔ ∃ i, lines.start? i = some offset

/-- Fewer than `2 ^ 32` lines are counted as they are. -/
theorem tile_of_size_lt (h : content.length < UInt32.size)
    (hlt : (ofBytes content).starts.size < UInt32.size) : (ofBytes content).Tile content := by
  have hcount : (ofBytes content).count = (ofBytes content).starts.size := number_eq hlt
  obtain ⟨hlineOf, hstopWithBreak⟩ := lookups_eq h
  constructor
  case size_eq => rfl
  case size_lt => exact h
  case count_pos => simp [hcount, size_starts]
  case start_first => rfl
  case own =>
    intro i hi
    obtain ⟨start, stop, hstart, hstop, hle, hown⟩ :=
      (splits content).exists_isUnbroken (i := i) (by rw [hcount, size_starts] at hi; omega)
    exact ⟨start, stop, by rwa [start?_ofBytes], by rwa [stop?_ofBytes], hle, hown⟩
  case inner =>
    intro i hi
    rw [hcount] at hi
    have hnext : (ofBytes content).start? (i + 1) = some (ofBytes content).starts[i + 1] :=
      Array.getElem?_eq_getElem hi
    obtain ⟨stop, hstop, hbreak, hisBreak⟩ := exists_isBreak hnext
    exact ⟨stop, _, hstop, (hstopWithBreak i hi).trans hbreak, hnext, hisBreak⟩
  case last =>
    intro i hi
    rw [hcount] at hi
    exact stop?_last hi (hi ▸ hlt)
  case past =>
    intro i hi
    exact lookup_eq_none (hcount ▸ hi)
  case lineOf_greatest =>
    intro offset
    rw [hlineOf]
    exact indexOf_greatest content offset
  case isStart_iff =>
    intro offset
    exact Lines.isStart_iff

/-- The lines of a text tile its bytes, whatever breaks are in it, exactly if there are fewer than
`2 ^ 32` of them. -/
theorem ofText_tile_iff {text : String} (h : (bytes text).length < UInt32.size) :
    (ofText text).Tile (bytes text) ↔ (ofText text).starts.size < UInt32.size := by
  refine ⟨fun htile => ?_, tile_of_size_lt h⟩
  -- If the count wrapped around, the line of this number would be there although it is past the
  -- count.
  have hlt : (ofText text).count < UInt32.size := Nat.mod_lt _ (by decide)
  apply Nat.lt_of_le_of_lt _ hlt
  apply Nat.le_of_not_lt
  intro hcount
  have hstart : (ofText text).start? (ofText text).count =
      some (ofText text).starts[(ofText text).count] :=
    Array.getElem?_eq_getElem hcount
  rw [(htile.past _ (Nat.le_refl _)).1] at hstart
  cases hstart

/-- Text with all three breaks. -/
def mixedBreaks : String := "ab\r\nc\rd\n"

/-- Each of the three breaks starts a line, and the last line is empty. -/
theorem mixedBreaks_tile : (bytes mixedBreaks).length < UInt32.size ∧
    (ofText mixedBreaks).starts = #[0, 4, 6, 8] ∧ (ofText mixedBreaks).stops = #[2, 5, 7, 8] ∧
    (ofText mixedBreaks).Tile (bytes mixedBreaks) := by
  have h : (bytes mixedBreaks).length < UInt32.size := by decide +kernel
  exact ⟨h, by decide +kernel, by decide +kernel, (ofText_tile_iff h).mpr (by decide +kernel)⟩

/-- A text of so many empty lines that end with a line feed, and of one more. -/
def lineFeeds (n : Nat) : String := String.ofList (List.replicate n '\n')

theorem bytes_lineFeeds (n : Nat) : bytes (lineFeeds n) = List.replicate n lineFeed := by
  rw [lineFeeds, bytes_ofList]
  induction n with
  | zero => rfl
  | succ n ih => rw [List.replicate_succ, List.flatMap_cons, ih, List.replicate_succ]; rfl

theorem size_starts_lineFeeds (n : Nat) : (ofText (lineFeeds n)).starts.size = n + 1 := by
  rw [ofText, size_starts, bytes_lineFeeds, length_lineBreaks_replicate]

theorem count_lineFeeds {n : Nat} (h : n + 1 = UInt32.size) : (ofText (lineFeeds n)).count = 0 := by
  rw [count, size_starts_lineFeeds, h, number, Nat.mod_self]

/-- With a line more than there are numbers the count is zero, although the text is shorter than
`2 ^ 32` bytes. -/
theorem lineFeeds_not_tile : (bytes (lineFeeds (UInt32.size - 1))).length < UInt32.size ∧
    (ofText (lineFeeds (UInt32.size - 1))).count = 0 ∧
    ¬ (ofText (lineFeeds (UInt32.size - 1))).Tile (bytes (lineFeeds (UInt32.size - 1))) := by
  have hcount : (ofText (lineFeeds (UInt32.size - 1))).count = 0 :=
    count_lineFeeds (Nat.sub_add_cancel (by decide))
  refine ⟨?_, hcount, fun htile => ?_⟩
  · rw [bytes_lineFeeds, List.length_replicate]
    exact Nat.sub_lt (by decide) Nat.one_pos
  · exact Nat.ne_of_gt htile.count_pos hcount

end Lines

end ExtractMethod.Text
