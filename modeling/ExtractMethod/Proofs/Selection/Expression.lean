import ExtractMethod.Proofs.Document.Nodes
import ExtractMethod.Proofs.Patience
import ExtractMethod.Selection.Expression

/-! The search for an expression between two tokens. -/
namespace ExtractMethod.Document

open Poll (Answers Steady)

variable {d : Document} {scope : Scope} {common first last e n : Nat}

theorem spansTokens_iff : d.spansTokens n first last = true ↔
    d.firstToken? n = some first ∧ d.lastToken? n = some last := by
  simp [spansTokens]

instance : Steady (d.expressionOver scope common first last) := by
  simp only [expressionOver]
  infer_instance

instance : Steady (d.inConstDeclaration scope e) := by
  simp only [inConstDeclaration]
  infer_instance

instance : Steady (d.checkExpression scope e).run := by
  rw [checkExpression]
  infer_instance

/-- An expression that is found lies in the scope and goes exactly from token to token. -/
theorem expressionOver_eq_some (hc : d.hasNode common)
    (h : Answers (d.expressionOver scope common first last) (some e)) :
    d.isAncestor e common ∧ d.spansTokens e first last ∧ d.isAncestor scope.body e ∧
      (d.kind e).isExpression := by
  obtain ⟨n, hn, hvisit⟩ := Poll.exists_of_search_join h
  -- The search settles on a node only after it passed all three tests.
  by_cases htokens : d.spansTokens n first last
  · by_cases hbody : d.isAncestor scope.body n
    · by_cases hkind : (d.kind n).isExpression
      · obtain rfl : n = e := by simpa [htokens, hbody, hkind] using hvisit
        exact ⟨isAncestor_of_mem_ancestors hc hn, htokens, hbody, hkind⟩
      · simp [htokens, hbody, hkind] at hvisit
    · simp [htokens, hbody] at hvisit
  · simp [htokens] at hvisit

end ExtractMethod.Document
