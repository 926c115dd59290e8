import ExtractMethod.Proofs.Document.Plain
import ExtractMethod.Proofs.Selection.Legal

/-! The bounds of the span from one token to another, and the surroundings of the two tokens. -/
namespace ExtractMethod.Document

open Poll (Gives)

variable {d : Document} {scope : Scope} {common first last n : Nat}

/-- The span from one plain token to another is bounded by them. -/
theorem bounds_tokenSpan (hplain : d.HasPlainTokens) (h : d.TokenPair first last) :
    d.bounds (d.tokenSpan first last) = .ok ⟨d.tokenSpan first last, first, last⟩ := by
  obtain ⟨hstart, hstop⟩ := tokenSpan_eq h
  have hsize : ¬ d.size < (d.tokenSpan first last).stop := by
    have := stop_le_size h.hasToken_last
    omega
  have hpull : d.pullBack (d.tokenSpan first last) = d.tokenSpan first last := by
    have hline := not_isStart_stop hplain h.hasToken_last h.isSignificant_last
    rw [← hstop] at hline
    simp [pullBack, hline]
  have hfirst := tokenOnRight?_start h.hasToken_first h.isSignificant_first
    (hplain first h.hasToken_first h.isSignificant_first).1
  have hlast := tokenOnLeft?_stop h.hasToken_last h.isSignificant_last
    (hplain last h.hasToken_last h.isSignificant_last).1
  rw [← hstart] at hfirst
  rw [← hstop] at hlast
  have hle : ¬ last < first := Nat.not_lt_of_le h.first_le_last
  simp only [bounds, hpull, hfirst, hlast, if_neg hsize, if_neg hle]

/-- The surroundings of two tokens are found in the scope of the lowest node around them, if a type
is declared around it. -/
theorem exists_gives_surroundings_iff (hf : d.hasToken first) (hl : d.hasToken last) :
    (∃ common, Gives (d.surroundings first last) (common, scope)) ↔
      (∃ n, (d.kind n).isTypeDeclaration ∧ first ∈ d.tokensUnder n ∧ last ∈ d.tokensUnder n) ∧
      ∃ common, d.commonAncestorOfTokens? first last = some common ∧
        d.scopeOf? common = some scope := by
  constructor
  · rintro ⟨common, h⟩
    obtain ⟨-, -, hcommon, htype, hscope⟩ := gives_surroundings_iff.mp h
    obtain ⟨hcf, hcl, -⟩ := commonAncestorOfTokens?_eq_some hf hl hcommon
    obtain ⟨n, hn, hkind⟩ := List.any_eq_true.mp htype
    have hnc := isAncestor_of_mem_ancestors (hasNode_of_mem_tokensUnder hcf) hn
    exact ⟨⟨n, hkind, mem_tokensUnder_of_isAncestor hnc hcf,
      mem_tokensUnder_of_isAncestor hnc hcl⟩, common, hcommon, hscope⟩
  · rintro ⟨⟨n, hkind, hnf, hnl⟩, common, hcommon, hscope⟩
    obtain ⟨hcf, hcl, hlowest⟩ := commonAncestorOfTokens?_eq_some hf hl hcommon
    obtain ⟨hvalid, hbody⟩ := scopeOf?_valid hscope
    obtain ⟨outer, houter, -⟩ :=
      exists_scopeOf? hvalid (isAncestor_trans hbody ((mem_tokensUnder_iff hf).mp hcf))
    obtain ⟨outer', houter', -⟩ :=
      exists_scopeOf? hvalid (isAncestor_trans hbody ((mem_tokensUnder_iff hl).mp hcl))
    refine ⟨common, gives_surroundings_iff.mpr ⟨⟨outer, houter⟩, ⟨outer', houter'⟩, hcommon, ?_,
      hscope⟩⟩
    exact List.any_eq_true.mpr ⟨n, mem_ancestors_of_isAncestor (hlowest n hnf hnl), hkind⟩

end ExtractMethod.Document
