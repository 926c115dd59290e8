import ExtractMethod.Proofs.Selection.Legal
import ExtractMethod.Proofs.Selection.Search

/-! An expression that is selected is no part of a constant, and it is not itself passed by
reference. An operand that is passed by reference may still lie around it and have just the same
tokens. -/
namespace ExtractMethod

open ExtractMethod.Flow (Region)
open ExtractMethod.Tree (Element)
open Poll (Answers Gives Steady)
open Text (Range)

variable {d : Document} {span : Range} {options : Options} {s : Selection} {scope : Scope}
  {a b e f first last n p : Nat}

namespace Document

/-- The node is an expression that an argument passes by reference, and it goes from the first token
exactly to the last. -/
structure IsRefOperand (d : Document) (first last n : Nat) : Prop where
  isExpression : (d.kind n).isExpression
  spansTokens : d.spansTokens n first last
  argument : ∃ a, d.parent? n = some a ∧ d.kind a = .argument ∧
    (d.hasChildToken a .refKw ∨ d.hasChildToken a .outKw)

/-- The lowest declaration of fields at or around the node. -/
structure IsNearestField (d : Document) (f n : Nat) : Prop where
  isField : d.kind f = .fieldDeclaration
  around : d.isAncestor f n
  nearest : ∀ g, d.kind g = .fieldDeclaration → d.isAncestor g n → d.isAncestor g f

theorem IsRefOperand.isByRefArgument (h : d.IsRefOperand first last n) : d.isByRefArgument n := by
  obtain ⟨a, ha, hkind, htoken⟩ := h.argument
  simpa [Document.isByRefArgument, ha, hkind] using htoken

/-- Climbing ends at the lowest node that passes a test. -/
theorem find?_ancestors {test : Nat → Bool} (h : d.isAncestor a n) (ha : test a)
    (hbelow : ∀ m, d.isAncestor a m → d.isAncestor m n → a ≠ m → ¬ test m) :
    (d.ancestors n).find? test = some a := by
  rw [List.find?_eq_findSome?_guard]
  refine findSome?_ancestors h (by simp [Option.guard, ha]) fun m ham hmn hne => ?_
  simp [Option.guard, hbelow m ham hmn hne]

theorem gives_checkExpression_iff : Gives (d.checkExpression scope e) () ↔
    Answers (d.inConstDeclaration scope e) false ∧ ¬ d.isConstField scope ∧
      ¬ d.isByRefArgument e := by
  have hlast : Gives
      (if d.isByRefArgument e then throw (.failed Reason.refOrOutArgument) else pure () :
        ExceptT Verdict Poll Unit) () ↔ ¬ d.isByRefArgument e := by
    split <;> simp [*]
  simp only [checkExpression]
  simp only [Poll.gives_bind, Poll.gives_liftM, Poll.gives_check, hlast, Bool.or_eq_true, not_or]
  constructor
  · rintro ⟨inConst, hanswer, ⟨hconst, hfield⟩, hargument⟩
    rw [Bool.not_eq_true] at hconst
    exact ⟨hconst ▸ hanswer, hfield, hargument⟩
  · rintro ⟨hanswer, hfield, hargument⟩
    exact ⟨false, hanswer, ⟨Bool.false_ne_true, hfield⟩, hargument⟩

/-- Where no declaration of constants is found, there is none below the member. -/
theorem not_isConstDeclaration (h : Answers (d.inConstDeclaration scope e) false)
    (hmember : d.isAncestor scope.member n) (hne : n ≠ scope.member) (hn : d.isAncestor n e) :
    ¬ d.isConstDeclaration n := by
  intro hconst
  obtain ⟨c, hnc, hce, hc, hlowest⟩ :=
    exists_lowest (P := fun m => d.isConstDeclaration m) hn hconst
  have hbelow {m : Nat} (hcm : d.isAncestor c m) : m ≠ scope.member := by
    rintro rfl
    exact hne (isAncestor_antisymm (isAncestor_trans hnc hcm) hmember)
  obtain ⟨found, hfound, h⟩ := Poll.answers_bind.mp h
  have hsome := hfound.unique (Poll.answers_search _ _)
  rw [findSome?_ancestors hce (y := true)] at hsome
  · rw [hsome] at h
    simp at h
  · simp [hbelow (isAncestor_self (hasNode_of_isAncestor hnc).2), hc]
  · intro m hcm hme hcm_ne
    have hm : ¬ d.isConstDeclaration m := fun hm => hcm_ne (hlowest m hcm hme hm)
    simp [hbelow hcm, hm]

/-- In a scope that is no constant field, the lowest field around a node between the member and the
expression declares no constants. -/
theorem IsNearestField.not_const (hfield : d.IsNearestField f n)
    (hkind : scope.kind = .fieldInitializer) (hscope : ¬ d.isConstField scope)
    (hcheck : Answers (d.inConstDeclaration scope e) false)
    (hmember : d.isAncestor scope.member n) (hn : d.isAncestor n e) :
    ¬ d.hasChildToken f .constKw := by
  intro hconst
  rcases Nat.lt_or_ge scope.member f with hlt | hle
  · have hf := isAncestor_of_le hmember hfield.around (Nat.le_of_lt hlt)
    refine not_isConstDeclaration hcheck hf (by omega) (isAncestor_trans hfield.around hn) ?_
    simp [isConstDeclaration, hfield.isField, hconst]
  · have hf := isAncestor_of_le hfield.around hmember hle
    refine hscope ?_
    have hfound :
        (d.ancestors scope.member).find? (fun m => decide (d.kind m = .fieldDeclaration)) =
          some f := by
      refine find?_ancestors hf (by simpa using hfield.isField) fun m hfm hmm hne hm => hne ?_
      exact isAncestor_antisymm hfm
        (hfield.nearest m (by simpa using hm) (isAncestor_trans hmm hmember))
    simp [isConstField, hkind, hfound, hconst]

/-- An operand over the tokens of the innermost expression lies around it. -/
theorem IsRefOperand.isAncestor (h : d.IsRefOperand first last n)
    (he : d.IsInnermostExpression scope first last e) (hcheck : ¬ d.isByRefArgument e) :
    d.isAncestor n e ∧ n ≠ e := by
  have hne : n ≠ e := by
    rintro rfl
    exact hcheck h.isByRefArgument
  have hnt := isAncestor_of_spansTokens h.spansTokens
  have het := isAncestor_of_spansTokens he.spansTokens
  refine ⟨?_, hne⟩
  rcases Nat.le_total n e with hle | hle
  · exact isAncestor_of_le hnt het hle
  · have hen := isAncestor_of_le het hnt hle
    exact he.innermost n (isAncestor_trans he.inBody hen) h.spansTokens h.isExpression

end Document

/-- The expression is not part of a constant. An operand that is passed by reference may have just
its tokens, but lies strictly around it then, so there is none if the parent of the expression has
more tokens. -/
structure Selection.IsValue (s : Selection) (e : Nat) : Prop where
  not_constant : ∀ n, s.document.isAncestor s.scope.member n → n ≠ s.scope.member →
    s.document.isAncestor n e →
    s.document.kind n = .localDeclarationStatement ∨ s.document.kind n = .fieldDeclaration →
    ¬ s.document.hasChildToken n .constKw
  not_constant_field : s.scope.kind = .fieldInitializer → ∀ n f,
    s.document.isAncestor s.scope.member n → s.document.isAncestor n e →
    s.document.IsNearestField f n → ¬ s.document.hasChildToken f .constKw
  operand_around : ∀ n, s.document.IsRefOperand s.firstToken s.lastToken n →
    s.document.isAncestor n e ∧ n ≠ e
  no_operand : ∀ p, s.document.parent? e = some p →
    ¬ s.document.spansTokens p s.firstToken s.lastToken →
    ∀ n, ¬ s.document.IsRefOperand s.firstToken s.lastToken n

/-- The parent of a node has just its tokens if some node above it does. -/
theorem Document.parent_spansTokens (hn : d.spansTokens n first last)
    (he : d.spansTokens e first last)
    (hne : d.isAncestor n e ∧ n ≠ e) (hp : d.parent? e = some p) : d.spansTokens p first last := by
  have hnp := isAncestor_of_parent? hp hne.1 hne.2
  obtain ⟨hfirst, hlast⟩ := spansTokens_iff.mp he
  have hpe := (parent?_isAncestor hp).2
  exact spansTokens_between hn hnp
    (mem_tokensUnder_of_isAncestor hpe (firstToken?_eq_some hfirst).1)
    (mem_tokensUnder_of_isAncestor hpe (lastToken?_eq_some hlast).1)

/-- An expression that is selected is part of no constant, and it is not passed by reference
itself. -/
theorem Document.classify_isValue {patience : Patience}
    (h : Poll.run (d.classify span options).run patience = .ok (.ok s))
    (hregion : s.region = .expression e) : s.document = d ∧ s.IsValue e := by
  obtain ⟨b, common, t, own, hstages⟩ := exists_stages h
  have hb := bounds_eq_ok hstages.bounds_eq
  have hd := hstages.document_eq
  have hregion : t.region = .expression e := by rw [← hstages.region_eq, hregion]
  rcases gives_target_iff.mp hstages.gives_target with ⟨e', he, hcheck, ht⟩ | ⟨-, hgives⟩
  · obtain rfl : e' = e := by
      rw [ht] at hregion
      exact Region.expression.inj hregion
    obtain ⟨hconst, hfield, hargument⟩ := gives_checkExpression_iff.mp hcheck
    have hinnermost :=
      (answers_expressionOver_iff hb.hasToken_first hb.hasToken_last hstages.common_eq).mp he
    have hfirst : s.firstToken = b.firstToken := by rw [hstages.firstToken_eq, ht]
    have hlast : s.lastToken = b.lastToken := by rw [hstages.lastToken_eq, ht]
    have haround : ∀ n, d.IsRefOperand s.firstToken s.lastToken n → d.isAncestor n e' ∧ n ≠ e' := by
      intro n hn
      rw [hfirst, hlast] at hn
      exact hn.isAncestor hinnermost hargument
    refine ⟨hd, ?_, ?_, hd.symm ▸ haround, ?_⟩
    · intro n hmember hne hn hkind htoken
      rw [hd] at hmember hn hkind htoken
      refine not_isConstDeclaration hconst hmember hne hn ?_
      simpa [isConstDeclaration, htoken] using hkind
    · intro hkind n f hmember hn hnearest
      rw [hd] at hmember hn hnearest ⊢
      exact hnearest.not_const hkind hfield hconst hmember hn
    · intro p hp hmore n hn
      rw [hd] at hp hmore hn
      refine hmore (parent_spansTokens hn.spansTokens ?_ (haround n hn) hp)
      rw [hfirst, hlast]
      exact hinnermost.spansTokens
  · obtain ⟨run, -, hrun⟩ := gives_statementTarget hgives
    cases hrun.region.symm.trans hregion

/-- A method that passes a name by reference, which is written as a name in a name. -/
def Document.ofNestedOperand : Document := .ofStatements [.node .expressionStatement [
  .node .invocationExpression [.node .nameExpression [.token .identifier "F"],
    .node .argumentList [.token .lParen "(",
      .node .argument [.token .refKw "ref", .token .whitespace " ",
        .node .nameExpression [.node .nameExpression [.token .identifier "v"]]],
      .token .rParen ")"]],
  .token .semicolon ";"]]

theorem ofNestedOperand_isRefOperand : Document.ofNestedOperand.IsRefOperand 14 14 11 :=
  ⟨by decide +kernel, by decide +kernel, 10, by decide +kernel,
    by decide +kernel, by decide +kernel⟩

/-- The called name is selected as an expression, and what is passed by reference has other
tokens. -/
theorem ofNestedOperand_classify_isValue : ∃ s,
    Poll.run (Document.ofNestedOperand.classify (.ofLength 17 1) {}).run .unlimited = .ok (.ok s) ∧
      s.region = .expression 8 ∧
      ∀ n, ¬ Document.ofNestedOperand.IsRefOperand s.firstToken s.lastToken n := by
  have h : (Document.ofNestedOperand.select (.ofLength 17 1) {}).toOption.map
      (fun s => (s.region, s.firstToken, s.lastToken)) = some (.expression 8, 10, 10) := by
    decide +kernel
  obtain ⟨s, hs, hview⟩ := Document.exists_of_select_map h
  simp only [Prod.mk.injEq] at hview
  obtain ⟨hregion, hfirst, hlast⟩ := hview
  obtain ⟨hd, hvalue⟩ := Document.classify_isValue hs hregion
  have hnone := hvalue.no_operand 7
  rw [hd, hfirst, hlast] at hnone
  refine ⟨s, hs, hregion, ?_⟩
  rw [hfirst, hlast]
  exact hnone (by decide +kernel) (by decide +kernel)

/-- The name is selected although its tokens are just those of an operand that is passed by
reference. -/
theorem ofNestedOperand_classify_operand : ∃ s,
    Poll.run (Document.ofNestedOperand.classify (.ofLength 23 1) {}).run .unlimited = .ok (.ok s) ∧
      s.region = .expression 12 ∧
      Document.ofNestedOperand.IsRefOperand s.firstToken s.lastToken 11 ∧
      Document.ofNestedOperand.isAncestor 11 12 := by
  have h : (Document.ofNestedOperand.select (.ofLength 23 1) {}).toOption.map
      (fun s => (s.region, s.firstToken, s.lastToken)) = some (.expression 12, 14, 14) := by
    decide +kernel
  obtain ⟨s, hs, hview⟩ := Document.exists_of_select_map h
  simp only [Prod.mk.injEq] at hview
  obtain ⟨hregion, hfirst, hlast⟩ := hview
  refine ⟨s, hs, hregion, ?_, by decide +kernel⟩
  rw [hfirst, hlast]
  exact ofNestedOperand_isRefOperand

end ExtractMethod
