import ExtractMethod.Proofs.Document.Nodes

/-! The tokens of a node are those whose parent it has at or below it, and they follow each other in
the text. -/
namespace ExtractMethod.Document

open ExtractMethod.Tree
open Text (Range)

/-- In an ordered list, what is found comes before all others that could be found. -/
theorem find?_eq_some_iff_of_pairwise {α : Type} {r : α → α → Prop} (asymm : ∀ a b, r a b → ¬ r b a)
    {xs : List α} (hsorted : xs.Pairwise r) {test : α → Bool} {a : α} :
    xs.find? test = some a ↔ a ∈ xs ∧ test a ∧ ∀ b ∈ xs, test b → b = a ∨ r a b := by
  induction xs with
  | nil => simp
  | cons x rest ih =>
    obtain ⟨hx, hrest⟩ := List.pairwise_cons.mp hsorted
    by_cases hpass : test x
    · rw [List.find?_cons_of_pos hpass, Option.some.injEq]
      constructor
      · rintro rfl
        refine ⟨List.mem_cons_self, hpass, fun b hb _ => ?_⟩
        rcases List.mem_cons.mp hb with rfl | hb
        · exact Or.inl rfl
        · exact Or.inr (hx b hb)
      · rintro ⟨ha, -, hfirst⟩
        rcases hfirst x List.mem_cons_self hpass with heq | hax
        · exact heq
        · rcases List.mem_cons.mp ha with rfl | ha
          · rfl
          · exact absurd hax (asymm x a (hx a ha))
    · rw [List.find?_cons_of_neg hpass, ih hrest]
      constructor
      · rintro ⟨ha, htest, hfirst⟩
        refine ⟨List.mem_cons_of_mem _ ha, htest, fun b hb hpassb => ?_⟩
        rcases List.mem_cons.mp hb with rfl | hb
        · exact absurd hpassb hpass
        · exact hfirst b hb hpassb
      · rintro ⟨ha, htest, hfirst⟩
        rcases List.mem_cons.mp ha with rfl | ha
        · exact absurd htest hpass
        · exact ⟨ha, htest, fun b hb => hfirst b (List.mem_cons_of_mem _ hb)⟩

section Find

variable {xs : List Nat} {test : Nat → Bool} {n : Nat}

/-- The first number that is found is the least. -/
theorem find?_eq_some_iff_le (hsorted : xs.Pairwise (· < ·)) :
    xs.find? test = some n ↔ n ∈ xs ∧ test n ∧ ∀ m ∈ xs, test m → n ≤ m := by
  rw [find?_eq_some_iff_of_pairwise (fun a b => Nat.lt_asymm) hsorted]
  simp only [Nat.le_iff_lt_or_eq, or_comm, eq_comm]

/-- The last number that is found is the greatest. -/
theorem find?_reverse_eq_some_iff_le (hsorted : xs.Pairwise (· < ·)) :
    xs.reverse.find? test = some n ↔ n ∈ xs ∧ test n ∧ ∀ m ∈ xs, test m → m ≤ n := by
  rw [find?_eq_some_iff_of_pairwise (fun a b => Nat.lt_asymm) (List.pairwise_reverse.mpr hsorted)]
  simp only [List.mem_reverse, Nat.le_iff_lt_or_eq, or_comm]

end Find

variable {d : Document} {a b n s t common first last : Nat}

theorem hasToken_iff : d.hasToken t = true ↔ t < d.tokenCount := by simp [hasToken]

theorem token_mem (h : d.hasToken t) :
    (d.token t, t) ∈ d.tokens.toList.zipIdx Place.start.token := by
  have h : t < d.tokens.size := hasToken_iff.mp h
  simp [Place.start, List.mk_mem_zipIdx_iff_getElem?, token, Array.getD, h]

theorem mem_tokensUnder :
    t ∈ d.tokensUnder n ↔ (d.node n).firstToken ≤ t ∧ t < (d.node n).tokenStop := by
  simp only [tokensUnder, List.mem_range'_1]
  omega

theorem hasNode_of_mem_tokensUnder (h : t ∈ d.tokensUnder n) : d.hasNode n := by
  apply Classical.byContradiction
  intro hn
  rw [mem_tokensUnder, node_of_not_hasNode hn] at h
  exact Nat.not_lt_zero t h.2

theorem hasToken_of_mem_tokensUnder (h : t ∈ d.tokensUnder n) : d.hasToken t := by
  obtain ⟨_, _, htoken, hd⟩ := d.wellLaid
  have hstop : (d.node n).tokenStop ≤ _ :=
    (hd.between _ (node_mem (hasNode_of_mem_tokensUnder h))).tokenStop_le
  rw [mem_tokensUnder] at h
  exact hasToken_iff.mpr (by omega)

theorem mem_tokensUnder_of_isAncestor (h : d.isAncestor a n) (ht : t ∈ d.tokensUnder n) :
    t ∈ d.tokensUnder a := by
  by_cases hne : a = n
  · rwa [hne]
  · have hn := holds_of_isAncestor h hne
    have := hn.le_firstToken
    have := hn.tokenStop_le
    rw [mem_tokensUnder] at *
    omega

theorem mem_tokensUnder_parent (h : d.hasToken t) : t ∈ d.tokensUnder (d.token t).parent := by
  obtain ⟨_, _, _, hd⟩ := d.wellLaid
  rcases hd.owners _ (token_mem h) with hp | ⟨r, hr, hp, hle, hlt⟩
  · cases hp
  · obtain ⟨-, hrow⟩ := eq_node_of_mem hr
    change (d.token t).parent = r.2 at hp
    rw [mem_tokensUnder, hp, ← hrow]
    exact ⟨hle, hlt⟩

/-- A node has a token below it exactly when it lies at or above the parent of the token. -/
theorem mem_tokensUnder_iff (h : d.hasToken t) :
    t ∈ d.tokensUnder n ↔ d.isAncestor n (d.token t).parent := by
  constructor
  · intro ht
    obtain ⟨_, _, _, hd⟩ := d.wellLaid
    obtain ⟨hle, hlt⟩ := mem_tokensUnder.mp ht
    have hn := node_mem (hasNode_of_mem_tokensUnder ht)
    have hholds := hd.innermost _ (token_mem h) _ hn hle hlt
    exact isAncestor_iff.mpr ⟨hholds.le_parent, hholds.parent_lt⟩
  · intro hn
    exact mem_tokensUnder_of_isAncestor hn (mem_tokensUnder_parent h)

/-- A node that has two tokens below it has those between them below it. -/
theorem mem_tokensUnder_of_between (hf : first ∈ d.tokensUnder n) (hl : last ∈ d.tokensUnder n)
    (hft : first ≤ t) (htl : t ≤ last) : t ∈ d.tokensUnder n := by
  rw [mem_tokensUnder] at *
  omega

/-- The lowest node around two tokens has them below it, and lies below all others that do. -/
theorem commonAncestorOfTokens?_eq_some (hf : d.hasToken first) (hl : d.hasToken last)
    (h : d.commonAncestorOfTokens? first last = some common) :
    first ∈ d.tokensUnder common ∧ last ∈ d.tokensUnder common ∧
      ∀ n, first ∈ d.tokensUnder n → last ∈ d.tokensUnder n → d.isAncestor n common := by
  have hnode := hasNode_of_mem_tokensUnder (mem_tokensUnder_parent hf)
  obtain ⟨hcf, hcl, hlowest⟩ := commonAncestor?_eq_some hnode h
  refine ⟨(mem_tokensUnder_iff hf).mpr hcf, (mem_tokensUnder_iff hl).mpr hcl, ?_⟩
  intro n hnf hnl
  exact hlowest n ((mem_tokensUnder_iff hf).mp hnf) ((mem_tokensUnder_iff hl).mp hnl)

theorem exists_commonAncestorOfTokens? (hf : first ∈ d.tokensUnder n)
    (hl : last ∈ d.tokensUnder n) : ∃ common, d.commonAncestorOfTokens? first last = some common :=
  exists_commonAncestor? ((mem_tokensUnder_iff (hasToken_of_mem_tokensUnder hf)).mp hf)
    ((mem_tokensUnder_iff (hasToken_of_mem_tokensUnder hl)).mp hl)

/-- The text of a token lies in the text of every node that it lies below. -/
theorem range_of_mem_tokensUnder (h : t ∈ d.tokensUnder n) :
    (d.fullRange n).start ≤ (d.token t).range.start ∧
      (d.token t).range.stop ≤ (d.fullRange n).stop := by
  obtain ⟨_, _, _, hd⟩ := d.wellLaid
  obtain ⟨hle, hlt⟩ := mem_tokensUnder.mp h
  have hholds := hd.innermost _ (token_mem (hasToken_of_mem_tokensUnder h)) _
    (node_mem (hasNode_of_mem_tokensUnder h)) hle hlt
  exact ⟨hholds.le_start, hholds.stop_le⟩

theorem range_stop_eq (h : d.hasToken t) :
    (d.token t).range.stop = (d.token t).range.start + (d.token t).text.utf8ByteSize := by
  obtain ⟨_, _, _, hd⟩ := d.wellLaid
  exact hd.sized _ (List.fst_mem_of_mem_zipIdx (token_mem h))

theorem start_lt_stop (h : d.hasToken t) (hne : (d.token t).text ≠ "") :
    (d.token t).range.start < (d.token t).range.stop := by
  have hpos : (d.token t).text.utf8ByteSize ≠ 0 := fun hzero =>
    hne (String.utf8ByteSize_eq_zero_iff.mp hzero)
  have := range_stop_eq h
  omega

/-- Tokens below a node that comes after another one come after its tokens. -/
theorem lt_of_mem_tokensUnder (hs : s ∈ d.tokensUnder a) (ht : t ∈ d.tokensUnder b) (hab : a < b)
    (hnot : ¬ d.isAncestor a b) : s < t := by
  rcases holds_or_precedes hab (hasNode_of_mem_tokensUnder ht) with hn | hn
  · exact absurd (isAncestor_iff.mpr ⟨Nat.le_of_lt hab, hn.lt_subtreeStop⟩) hnot
  · have := hn.tokenStop_le
    rw [mem_tokensUnder] at hs ht
    omega

theorem stop_le_start (hst : s < t) (ht : d.hasToken t) :
    (d.token s).range.stop ≤ (d.token t).range.start := by
  obtain ⟨_, _, _, hd⟩ := d.wellLaid
  have ht : t < d.tokens.size := hasToken_iff.mp ht
  have h := List.pairwise_iff_getElem.mp hd.ordered s t (by simp; omega) (by simpa using ht) hst
  simpa [token, Array.getD, ht, Nat.lt_trans hst ht] using h

theorem start_le_stop (hst : s ≤ t) (ht : d.hasToken t) :
    (d.token s).range.start ≤ (d.token t).range.stop := by
  rcases Nat.lt_or_eq_of_le hst with hlt | rfl
  · have := stop_le_start hlt ht
    have := (d.token s).range.start_le_stop
    have := (d.token t).range.start_le_stop
    omega
  · exact (d.token s).range.start_le_stop

theorem start_le_start (hst : s ≤ t) (ht : d.hasToken t) :
    (d.token s).range.start ≤ (d.token t).range.start := by
  rcases Nat.lt_or_eq_of_le hst with hlt | rfl
  · exact Nat.le_trans (d.token s).range.start_le_stop (stop_le_start hlt ht)
  · exact Nat.le_refl _

theorem stop_le_stop (hst : s ≤ t) (ht : d.hasToken t) :
    (d.token s).range.stop ≤ (d.token t).range.stop := by
  rcases Nat.lt_or_eq_of_le hst with hlt | rfl
  · exact Nat.le_trans (stop_le_start hlt ht) (d.token t).range.start_le_stop
  · exact Nat.le_refl _

theorem firstToken?_eq_some (h : d.firstToken? n = some first) :
    first ∈ d.tokensUnder n ∧ d.isSignificant first ∧
      ∀ t ∈ d.tokensUnder n, d.isSignificant t → first ≤ t :=
  (find?_eq_some_iff_le List.pairwise_lt_range').mp h

theorem lastToken?_eq_some (h : d.lastToken? n = some last) :
    last ∈ d.tokensUnder n ∧ d.isSignificant last ∧
      ∀ t ∈ d.tokensUnder n, d.isSignificant t → t ≤ last :=
  (find?_reverse_eq_some_iff_le List.pairwise_lt_range').mp h

theorem exists_firstToken? (ht : t ∈ d.tokensUnder n) (hsig : d.isSignificant t) :
    ∃ first, d.firstToken? n = some first := by
  apply Option.isSome_iff_exists.mp
  rw [firstToken?, List.find?_isSome]
  exact ⟨t, ht, hsig⟩

theorem exists_lastToken? (ht : t ∈ d.tokensUnder n) (hsig : d.isSignificant t) :
    ∃ last, d.lastToken? n = some last := by
  apply Option.isSome_iff_exists.mp
  rw [lastToken?, List.find?_isSome]
  exact ⟨t, List.mem_reverse.mpr ht, hsig⟩

/-- The span of a node goes from its first to its last significant token. -/
theorem span_eq (hfirst : d.firstToken? n = some first) (hlast : d.lastToken? n = some last) :
    (d.span n).start = (d.token first).range.start ∧
      (d.span n).stop = (d.token last).range.stop := by
  obtain ⟨hf, hsig, -⟩ := firstToken?_eq_some hfirst
  obtain ⟨hl, -, hmax⟩ := lastToken?_eq_some hlast
  have hle := start_le_stop (hmax first hf hsig) (hasToken_of_mem_tokensUnder hl)
  simp [span, hfirst, hlast, Range.between?, hle]

end ExtractMethod.Document
