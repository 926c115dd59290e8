import ExtractMethod.Proofs.Document.Plain
import ExtractMethod.Proofs.Selection.Legal

/-! Two spans that share text with the same significant tokens select the same. What else they reach
is trivia, such as the line break at their end, and does not count. -/
namespace ExtractMethod

open Text (Range bytes)

namespace Text.Range

/-- Some byte belongs to both ranges. -/
def SharesByte (r r' : Range) : Prop := ∃ offset, r.contains offset ∧ r'.contains offset

theorem sharesByte_iff {r r' : Range} :
    r.SharesByte r' ↔ max r.start r'.start < min r.stop r'.stop := by
  simp only [SharesByte, contains, Bool.and_eq_true, decide_eq_true_eq]
  constructor
  · rintro ⟨offset, hr, hr'⟩
    omega
  · intro h
    exact ⟨max r.start r'.start, by omega, by omega⟩

instance (r r' : Range) : Decidable (r.SharesByte r') := decidable_of_iff _ sharesByte_iff.symm

end Text.Range

namespace Document

variable {d : Document} {narrow wide span : Range} {options : Options} {t i offset offset' : Nat}

/-- Every token that carries meaning has a text, which does not begin with a line break. -/
def HasSolidTokens (d : Document) : Prop :=
  ∀ t, d.hasToken t → d.isSignificant t →
    ∃ b, (bytes (d.token t).text).head? = some b ∧ ¬ Text.IsLineBreak b

instance (d : Document) : Decidable d.HasSolidTokens :=
  decidable_of_iff (∀ t < d.tokenCount, d.isSignificant t →
    (bytes (d.token t).text).head?.any fun b => !Text.IsLineBreak b)
    (by simp [HasSolidTokens, hasToken_iff, Option.any_eq_true])

/-- The second span lies in the text around the first one, and reaches no other significant
tokens. -/
structure AddsTrivia (d : Document) (narrow wide : Range) : Prop where
  covers : wide.covers narrow
  stop_le : wide.stop ≤ d.size
  only : ∀ t, d.hasToken t → d.isSignificant t → (d.token t).range.SharesByte wide →
    (d.token t).range.SharesByte narrow

instance (d : Document) (narrow wide : Range) : Decidable (d.AddsTrivia narrow wide) :=
  decidable_of_iff (wide.covers narrow ∧ wide.stop ≤ d.size ∧
    ∀ t < d.tokenCount, d.isSignificant t →
    (d.token t).range.SharesByte wide → (d.token t).range.SharesByte narrow)
    ⟨fun ⟨hcovers, hstop, honly⟩ => ⟨hcovers, hstop, fun t ht => honly t (hasToken_iff.mp ht)⟩,
      fun ⟨hcovers, hstop, honly⟩ => ⟨hcovers, hstop, fun t ht => honly t (hasToken_iff.mpr ht)⟩⟩

theorem tokenOnRight?_congr (h : ∀ t, d.hasToken t → d.isSignificant t →
    (offset < (d.token t).range.stop ↔ offset' < (d.token t).range.stop)) :
    d.tokenOnRight? offset = d.tokenOnRight? offset' := by
  apply Option.ext
  intro t
  rw [tokenOnRight?_eq_some_iff, tokenOnRight?_eq_some_iff]
  constructor
  · rintro ⟨⟨ht, hsig, hstop⟩, hfirst⟩
    exact ⟨⟨ht, hsig, (h t ht hsig).mp hstop⟩, fun u hu husig hustop =>
      hfirst u hu husig ((h u hu husig).mpr hustop)⟩
  · rintro ⟨⟨ht, hsig, hstop⟩, hfirst⟩
    exact ⟨⟨ht, hsig, (h t ht hsig).mpr hstop⟩, fun u hu husig hustop =>
      hfirst u hu husig ((h u hu husig).mp hustop)⟩

theorem tokenOnLeft?_congr (h : ∀ t, d.hasToken t → d.isSignificant t →
    ((d.token t).range.start < offset ↔ (d.token t).range.start < offset')) :
    d.tokenOnLeft? offset = d.tokenOnLeft? offset' := by
  apply Option.ext
  intro t
  rw [tokenOnLeft?_eq_some_iff, tokenOnLeft?_eq_some_iff]
  constructor
  · rintro ⟨⟨ht, hsig, hstart⟩, hlast⟩
    exact ⟨⟨ht, hsig, (h t ht hsig).mp hstart⟩, fun u hu husig hustart =>
      hlast u hu husig ((h u hu husig).mpr hustart)⟩
  · rintro ⟨⟨ht, hsig, hstart⟩, hlast⟩
    exact ⟨⟨ht, hsig, (h t ht hsig).mpr hstart⟩, fun u hu husig hustart =>
      hlast u hu husig ((h u hu husig).mp hustart)⟩

/-- In a document of fewer than `2 ^ 32` bytes a span is pulled back to the same line, whether it is
looked up by its index or by its number. -/
theorem lookups_eq (h : d.size < UInt32.size) (offset : Nat) :
    d.lines.lineOf offset = d.lines.indexOf offset ∧
      ∀ line, d.lines.indexOf offset = line + 1 →
        d.lines.stopWithBreak? line = d.lines.stopWithBreakAt? line := by
  have hlines : d.lines = .ofBytes (bytes d.text) := d.lines_eq
  rw [hlines]
  obtain ⟨hlineOf, hstopWithBreak⟩ := Text.Lines.lookups_eq h
  refine ⟨hlineOf offset, fun line hline => hstopWithBreak line ?_⟩
  rw [← hline]
  exact Text.Lines.indexOf_lt _ offset

/-- A span that is pulled back gives up nothing but line breaks. -/
structure PullsBack (d : Document) (span pulled : Range) : Prop where
  start_eq : pulled.start = span.start
  stop_le : pulled.stop ≤ span.stop
  isLineBreak : ∀ i, pulled.stop ≤ i → i < span.stop →
    ∃ b, (bytes d.text)[i]? = some b ∧ Text.IsLineBreak b

theorem PullsBack.refl (d : Document) (span : Range) : d.PullsBack span span where
  start_eq := rfl
  stop_le := Nat.le_refl _
  isLineBreak _ hle hlt := absurd hlt (Nat.not_lt_of_le hle)

theorem pullsBack_pullBack (d : Document) (span : Range) : d.PullsBack span (d.pullBack span) := by
  rw [pullBack]
  split
  · exact .refl d span
  · next hstart =>
    simp only [Bool.or_eq_true, Bool.not_eq_true', not_or, Bool.not_eq_false] at hstart
    split
    · exact .refl d span
    · next line hline =>
      have hlines : d.lines = .ofBytes (bytes d.text) := d.lines_eq
      rw [hlines] at hstart hline ⊢
      obtain ⟨stop, hstop, hbreak, hbreaks⟩ := Text.Lines.exists_breaksAt hstart.2 hline
      split
      · next pulled hpulled =>
        rw [hstop, Option.bind_some, Range.between?, Option.dite_none_right_eq_some] at hpulled
        obtain ⟨hle, heq⟩ := hpulled
        cases heq
        exact ⟨rfl, Nat.le_of_lt hbreaks.stop_lt_start,
          fun i (hle : stop ≤ i) hlt => hbreaks.isLineBreak i (by omega) (by omega)⟩
      · -- The line before ends before the span starts, so the span begins inside of its break.
        rw [hbreak, Option.bind_some, Range.between?, dif_pos span.start_le_stop]
        exact .refl d span

theorem HasSolidTokens.text_ne (hsolid : d.HasSolidTokens) (h : d.hasToken t)
    (hsig : d.isSignificant t) : (d.token t).text ≠ "" := by
  obtain ⟨b, hhead, -⟩ := hsolid t h hsig
  intro hempty
  simp [hempty, bytes] at hhead

/-- No significant token starts in what a span gives up. -/
theorem tokenOnLeft?_pullBack (hsolid : d.HasSolidTokens) :
    d.tokenOnLeft? (d.pullBack span).stop = d.tokenOnLeft? span.stop := by
  have hpull := d.pullsBack_pullBack span
  apply tokenOnLeft?_congr
  intro t ht hsig
  refine ⟨fun hstart => Nat.lt_of_lt_of_le hstart hpull.stop_le, fun hstart => ?_⟩
  apply Nat.lt_of_not_le
  intro hstop
  obtain ⟨b, hhead, hsolid⟩ := hsolid t ht hsig
  obtain ⟨rest, htext⟩ := List.head?_eq_some_iff.mp hhead
  obtain ⟨before, after, hbytes, hlength⟩ := exists_bytes_eq ht
  obtain ⟨c, hget, hbreak⟩ := hpull.isLineBreak _ hstop hstart
  rw [hbytes, htext, ← hlength, List.append_assoc] at hget
  have hc : b = c := by simpa using hget
  exact hsolid (hc ▸ hbreak)

/-- A significant token that shares no byte with the narrow span shares none with the wide one. -/
theorem AddsTrivia.not_contains (h : d.AddsTrivia narrow wide) (ht : d.hasToken t)
    (hsig : d.isSignificant t) (hout : (d.token t).range.stop ≤ narrow.start ∨
      narrow.stop ≤ (d.token t).range.start) (hoffset : (d.token t).range.contains offset) :
    ¬ wide.contains offset := by
  intro hwide
  obtain ⟨shared, ht, hnarrow⟩ := h.only t ht hsig ⟨offset, hoffset, hwide⟩
  simp only [Range.contains, Bool.and_eq_true, decide_eq_true_eq] at ht hnarrow
  omega

theorem AddsTrivia.le (h : d.AddsTrivia narrow wide) :
    wide.start ≤ narrow.start ∧ narrow.stop ≤ wide.stop := by
  simpa [Range.covers] using h.covers

/-- The wider span touches the same token first as the narrow one. -/
theorem AddsTrivia.tokenOnRight?_eq (h : d.AddsTrivia narrow wide) (hsolid : d.HasSolidTokens) :
    d.tokenOnRight? wide.start = d.tokenOnRight? narrow.start := by
  apply tokenOnRight?_congr
  intro t ht hsig
  have hlt := start_lt_stop ht (hsolid.text_ne ht hsig)
  have hle := h.le
  have hnarrow := narrow.start_le_stop
  refine ⟨fun hstop => Nat.lt_of_not_le fun hout => ?_, fun hstop => by omega⟩
  -- A token between the two starts would have its last byte in the wide span only.
  have hlast : (d.token t).range.contains ((d.token t).range.stop - 1) := by
    simp [Range.contains]
    omega
  refine h.not_contains ht hsig (Or.inl hout) hlast ?_
  simp [Range.contains]
  omega

/-- The wider span touches the same token last as the narrow one, before any of them is pulled
back. -/
theorem AddsTrivia.tokenOnLeft?_eq (h : d.AddsTrivia narrow wide) (hsolid : d.HasSolidTokens) :
    d.tokenOnLeft? wide.stop = d.tokenOnLeft? narrow.stop := by
  apply tokenOnLeft?_congr
  intro t ht hsig
  have hlt := start_lt_stop ht (hsolid.text_ne ht hsig)
  have hle := h.le
  have hnarrow := narrow.start_le_stop
  refine ⟨fun hstart => Nat.lt_of_not_le fun hout => ?_, fun hstart => by omega⟩
  -- A token between the two ends would have its first byte in the wide span only.
  have hfirst : (d.token t).range.contains (d.token t).range.start := by simp [Range.contains, hlt]
  refine h.not_contains ht hsig (Or.inr hout) hfirst ?_
  simp [Range.contains]
  omega

theorem AddsTrivia.bounds_eq (h : d.AddsTrivia narrow wide) (hsolid : d.HasSolidTokens) :
    d.bounds wide = (d.bounds narrow).map fun b => { b with span := d.pullBack wide } := by
  have hwide : ¬ d.size < wide.stop := Nat.not_lt_of_le h.stop_le
  have hnarrow : ¬ d.size < narrow.stop := Nat.not_lt_of_le (Nat.le_trans h.le.2 h.stop_le)
  simp only [bounds, if_neg hwide, if_neg hnarrow, tokenOnLeft?_pullBack hsolid,
    (d.pullsBack_pullBack wide).start_eq, (d.pullsBack_pullBack narrow).start_eq,
    h.tokenOnRight?_eq hsolid, h.tokenOnLeft?_eq hsolid]
  split
  · split <;> rfl
  · rfl

end Document

/-- The same selection, as if another span had been asked for. -/
def Selection.askedFor (s : Selection) (span : Range) : Selection :=
  { s with requestedSpan := span }

/-- If the span may be widened, the target depends on the tokens at its ends only. -/
theorem Document.target_withSpan {d : Document} {common : Nat} {scope : Scope}
    {b : Bounds} (span : Range) :
    d.target true common scope { b with span } = d.target true common scope b := rfl

theorem Document.classify_askedFor {d : Document} {narrow wide : Range} {options : Options}
    (hexpand : options.allowExpansion)
    (h : d.bounds wide = (d.bounds narrow).map fun b => { b with span := d.pullBack wide }) :
    d.classify wide options = (Selection.askedFor · wide) <$> d.classify narrow options := by
  simp only [classify, h, map_bind]
  cases d.bounds narrow with
  | error e => rfl
  | ok b =>
    change (pure _ >>= _) = (pure b >>= _)
    rw [pure_bind, pure_bind]
    simp only [hexpand, target_withSpan, map_bind, apply_ite (Functor.map _), map_pure,
      Selection.askedFor]

/-- If the span may be widened, and no significant token is empty or begins with a line break, then
two spans that share text with the same significant tokens have the same answer. Whatever the wider
one takes along besides, such as the line break at its end, blank lines or comments, changes
nothing. -/
theorem Document.classify_addsTrivia {d : Document} {narrow wide : Range} {options : Options}
    (hsolid : d.HasSolidTokens) (hexpand : options.allowExpansion) (h : d.AddsTrivia narrow wide)
    (patience : Patience) : Poll.run (d.classify wide options).run patience =
      (Poll.run (d.classify narrow options).run patience).map
        (Except.map (Selection.askedFor · wide)) := by
  rw [classify_askedFor hexpand (h.bounds_eq hsolid), ExceptT.run_map, Poll.run_map]

/-- A method with two statements and a comment at the end of the first line. -/
def Document.ofCommented : Document :=
  .ofStatements [.nameStatement "a", .token .lineComment "// c",
    .token .whitespace "\r\n", .nameStatement "b"]

/-- The first statement is found alone, and with the comment and the line break after it. -/
theorem ofCommented_classify_addsTrivia : ∃ s,
    Poll.run (Document.ofCommented.classify (.ofLength 17 2) {}).run .unlimited = .ok (.ok s) ∧
      s.region = .statements 6 6 ∧
      Poll.run (Document.ofCommented.classify (.ofLength 17 8) {}).run .unlimited =
        .ok (.ok (s.askedFor (.ofLength 17 8))) := by
  have h : (Document.ofCommented.select (.ofLength 17 2) {}).toOption.map Selection.region =
      some (.statements 6 6) := by decide +kernel
  obtain ⟨s, hs, hregion⟩ := Document.exists_of_select_map h
  have hsolid : Document.ofCommented.HasSolidTokens := by decide +kernel
  have hadds : Document.ofCommented.AddsTrivia (.ofLength 17 2) (.ofLength 17 8) := by
    decide +kernel
  refine ⟨s, hs, hregion, ?_⟩
  rw [Document.classify_addsTrivia hsolid rfl hadds, hs]
  rfl

end ExtractMethod
