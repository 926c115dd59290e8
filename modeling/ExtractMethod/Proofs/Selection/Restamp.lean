import ExtractMethod.Proofs.Selection.Classify

/-! Another version of a document has the same tree, so everything is found in it at the same
places. -/
namespace ExtractMethod

open ExtractMethod.Flow (Region)
open Text (Range)

variable {d : Document} {v : Version} {span : Range} {options : Options} {s : Selection}
  {scope : Scope} {b : Bounds} {t : Target} {common first last n : Nat} {own : List Nat}
  {region : Region} {allowExpansion : Bool}

namespace Document

theorem ancestors_restamp (n : Nat) : (d.restamp v).ancestors n = d.ancestors n := by
  induction n using d.climb with
  | root n hp =>
    have hp' : (d.restamp v).parent? n = none := hp
    rw [ancestors_eq, ancestors_eq, hp, hp']
    rfl
  | step n p hp ih =>
    have hp' : (d.restamp v).parent? n = some p := hp
    rw [ancestors_of_parent? hp, ancestors_of_parent? hp', ih]

theorem visitedFrom_restamp (n stop : Nat) :
    (d.restamp v).visitedFrom n stop = d.visitedFrom n stop := by
  induction n using visitedFrom.induct d stop with
  | case1 n hlt hn ih =>
    have hn' : ((d.restamp v).kind n).isNestedFunction := hn
    rw [visitedFrom.eq_def d, visitedFrom, if_pos hlt, if_pos hlt, if_pos hn, if_pos hn']
    exact congrArg _ ih
  | case2 n hlt hn ih =>
    have hn' : ¬ ((d.restamp v).kind n).isNestedFunction := hn
    rw [visitedFrom.eq_def d, visitedFrom, if_pos hlt, if_pos hlt, if_neg hn, if_neg hn', ih]
  | case3 n hlt => rw [visitedFrom.eq_def d, visitedFrom, if_neg hlt, if_neg hlt]

theorem upToType_restamp (nodes : List Nat) :
    (d.restamp v).upToType nodes = d.upToType nodes := by
  induction nodes with
  | nil => rfl
  | cons n rest ih =>
    rw [upToType, upToType, ih]
    rfl

theorem surroundings_restamp :
    (d.restamp v).surroundings first last = d.surroundings first last := by
  simp only [surroundings, requireScope, innermostScope, links, commonAncestorOfTokens?,
    commonAncestor?, scopeAt?, kindOfScope?, declaresField, ancestors_restamp]
  rfl

theorem target_restamp : (d.restamp v).target allowExpansion common scope b =
    d.target allowExpansion common scope b := by
  simp only [target, expressionOver, checkExpression, inConstDeclaration, isConstField,
    statementTarget, smallestRun, listedAncestor, commonAncestor?, runIn?, childAbove?,
    ancestors_restamp]
  rfl

theorem ownNodes_restamp : (d.restamp v).ownNodes region = d.ownNodes region := by
  have hvisited : (d.restamp v).visited = d.visited := by
    funext n
    simp only [visited, visitedFrom_restamp]
    rfl
  simp only [ownNodes, hvisited]
  rfl

theorem factsOf_restamp : (d.restamp v).factsOf scope own = d.factsOf scope own := by
  simp only [factsOf, hasNoInstance, ancestors_restamp, upToType_restamp]
  rfl

end Document

/-- The stages in another version are the same, and find the same selection in it. -/
theorem Selection.Stages.restamp (h : s.Stages d span options b common t own) (v : Version) :
    Selection.Stages (d.restamp v) span options b common t own
      { s with document := d.restamp v } where
  bounds_eq := h.bounds_eq
  gives_surroundings := by
    rw [Document.surroundings_restamp]
    exact h.gives_surroundings
  gives_target := by
    rw [Document.target_restamp]
    exact h.gives_target
  noErrors := h.noErrors
  noCutDirectives := h.noCutDirectives
  answers_own := by
    rw [Document.ownNodes_restamp]
    exact h.answers_own
  noYield := h.noYield
  eq := by
    rw [Document.factsOf_restamp]
    rw [h.eq]
    rfl

end ExtractMethod
