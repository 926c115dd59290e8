import ExtractMethod.Proofs.Selection.Loops
import ExtractMethod.Proofs.Selection.Visited
import Mathlib.Data.List.Flatten

/-! What is noted about the code of a selection is noted about its own code, and not about a
function that is only written down in it. -/
namespace ExtractMethod

open ExtractMethod.Flow (Region)
open ExtractMethod.Tree (Element NodeKind)
open Poll (Answers)
open Text (Range)

variable {d : Document} {span : Range} {options : Options} {s : Selection} {region : Region}
  {xs : List Nat} {body c first last n root : Nat}

theorem Tree.NodeKind.isNestedFunction_iff {kind : NodeKind} :
    kind.isNestedFunction ↔ kind = .lambdaExpression ∨ kind = .localFunctionStatement := by
  unfold isNestedFunction
  split <;> simp_all

namespace Document

/-- What is not less than an element of a sorted list is in the list from there on. -/
theorem mem_dropWhile_of_le (hsorted : xs.Pairwise (· < ·)) (hfirst : first ∈ xs) (hn : n ∈ xs)
    (hle : first ≤ n) : n ∈ xs.dropWhile (· ≠ first) := by
  induction xs with
  | nil => cases hn
  | cons m rest ih =>
    obtain ⟨hm, hrest⟩ := List.pairwise_cons.mp hsorted
    by_cases hne : m = first
    · rw [List.dropWhile_cons_of_neg (by simpa using hne)]
      exact hn
    · have hfirst := List.mem_of_ne_of_mem (Ne.symm hne) hfirst
      have hlt := hm first hfirst
      rw [List.dropWhile_cons_of_pos (by simpa using hne)]
      exact ih hrest hfirst (List.mem_of_ne_of_mem (by omega) hn)

/-- What is not greater than a bound is in a sorted list before all that is. -/
theorem mem_takeWhile_of_le (hsorted : xs.Pairwise (· < ·)) (hn : n ∈ xs) (hle : n ≤ last) :
    n ∈ xs.takeWhile (· ≤ last) := by
  induction xs with
  | nil => cases hn
  | cons m rest ih =>
    obtain ⟨hm, hrest⟩ := List.pairwise_cons.mp hsorted
    rcases List.mem_cons.mp hn with rfl | hn
    · rw [List.takeWhile_cons_of_pos (by simpa using hle)]
      exact List.mem_cons_self
    · have := hm n hn
      rw [List.takeWhile_cons_of_pos (by simp; omega)]
      exact List.mem_cons_of_mem _ (ih hrest hn)

theorem roots_sublist (hc : d.parent? first = some c) :
    (d.roots (.statements first last)).Sublist (d.childNodes c) := by
  simp only [roots, hc]
  exact (List.takeWhile_sublist _).trans (List.dropWhile_sublist _)

/-- The roots of a run of statements are the children of its list from the first one through the
last. -/
theorem mem_roots_statements_iff (hc : d.parent? first = some c) :
    n ∈ d.roots (.statements first last) ↔ n ∈ d.childNodes c ∧ first ≤ n ∧ n ≤ last := by
  constructor
  · intro h
    exact ⟨(roots_sublist hc).subset h, mem_roots_statements hc h⟩
  · rintro ⟨hn, hfirst, hlast⟩
    have hsorted := d.childNodes_pairwise c
    simp only [roots, hc]
    exact mem_takeWhile_of_le (hsorted.sublist (List.dropWhile_sublist _))
      (mem_dropWhile_of_le hsorted (mem_childNodes_iff.mpr hc) hn hfirst) hlast

/-- The own nodes of a region, as the walk lists them. -/
def ownList (d : Document) (region : Region) : List Nat :=
  ((d.roots region).flatMap d.visited).filter fun n => !(d.kind n).isNestedFunction

theorem answers_ownNodes (d : Document) (region : Region) :
    Answers (d.ownNodes region) (d.ownList region) := by
  refine Poll.answers_bind.mpr ⟨_, Poll.answers_fold _ _ _, ?_⟩
  rw [Poll.answers_pure]
  exact d.reverse_foldl_keep [] _

theorem ownNodes_eq_stackWalk (hroots : ∀ n ∈ d.roots region, d.hasNode n) :
    d.ownNodes region = d.stackWalk (d.roots region) := by
  have h := fold_visited hroots []
  simp only [List.reverse_nil, List.nil_append, bind_pure] at h
  exact h

/-- The own nodes are those below the roots on whose path from the root no nested function lies. -/
theorem mem_ownList_iff : n ∈ d.ownList region ↔ ∃ root ∈ d.roots region, d.isAncestor root n ∧
    ∀ m, d.isAncestor root m → d.isAncestor m n → ¬ (d.kind m).isNestedFunction := by
  simp only [ownList, List.mem_filter, List.mem_flatMap, visited_eq_filter, mem_descendants,
    decide_eq_true_eq, Bool.not_eq_true', Bool.not_eq_true]
  constructor
  · rintro ⟨⟨root, hroot, hanc, hreached⟩, hn⟩
    refine ⟨root, hroot, hanc, ?_⟩
    intro m hrm hmn
    rcases Nat.eq_or_lt_of_le (isAncestor_iff.mp hmn).1 with rfl | hlt
    · exact hn
    · by_contra hm
      exact hreached m hlt (isAncestor_iff.mp hrm).1 (by simpa using hm) hmn
  · rintro ⟨root, hroot, hanc, hpath⟩
    refine ⟨⟨root, hroot, hanc, ?_⟩, hpath n hanc (isAncestor_self (hasNode_of_isAncestor hanc).2)⟩
    intro a _ hra ha han
    rw [hpath a (isAncestor_of_le hanc han hra) han] at ha
    cases ha

theorem hasNode_of_liesIn (h : region.LiesIn d body root) : d.hasNode root := by
  cases region with
  | expression e =>
    obtain ⟨-, hbody, rfl⟩ := h
    exact (hasNode_of_isAncestor hbody).2
  | statements first last => exact (hasNode_of_isAncestor h.inBody).2

theorem hasNode_of_mem_roots (h : region.LiesIn d body root) (hn : n ∈ d.roots region) :
    d.hasNode n := by
  cases region with
  | expression e =>
    obtain rfl : n = e := by simpa [roots] using hn
    exact (hasNode_of_isAncestor h.2.1).2
  | statements first last => exact hasNode_of_parent? (parent?_of_mem_roots h.parent_first hn)

/-- The own nodes are listed in preorder. -/
theorem ownList_sublist (h : region.LiesIn d body root) :
    (d.ownList region).Sublist (d.descendants root) := by
  refine List.filter_sublist.trans ?_
  cases region with
  | expression e =>
    obtain ⟨-, -, rfl⟩ := h
    simpa [roots] using d.visited_sublist root
  | statements first last =>
    rw [descendants_eq (hasNode_of_liesIn h)]
    refine List.Sublist.cons _ ?_
    exact (List.Sublist.flatMap_right _ fun n _ => d.visited_sublist n).trans
      ((roots_sublist h.parent_first).flatMap _)

theorem isAwait_iff : d.isAwait n ↔ d.kind n = .awaitExpression ∨ (d.kind n = .forEachStatement ∨
    d.kind n = .usingStatement ∨ d.kind n = .localDeclarationStatement) ∧
      d.hasChildToken n .awaitKw := by
  unfold isAwait
  split <;> simp_all

end Document

namespace Selection

/-- The node is the selected expression, or one of the children of the list of statements from the
first selected one through the last. -/
def IsRoot (s : Selection) (n : Nat) : Prop :=
  match s.region with
  | .expression e => n = e
  | .statements first last => n ∈ s.document.childNodes s.root ∧ first ≤ n ∧ n ≤ last

/-- The node is at or below a root, and no function stands on the path from this root down to and
including the node. -/
def IsOwn (s : Selection) (n : Nat) : Prop :=
  ∃ root, s.IsRoot root ∧ s.document.isAncestor root n ∧
    ∀ m, s.document.isAncestor root m → s.document.isAncestor m n →
      s.document.kind m ≠ .lambdaExpression ∧ s.document.kind m ≠ .localFunctionStatement

theorem mem_roots_iff_isRoot (h : s.region.LiesIn s.document body s.root) :
    n ∈ s.document.roots s.region ↔ s.IsRoot n := by
  unfold IsRoot
  cases hregion : s.region with
  | expression e => simp [Document.roots]
  | statements first last =>
    rw [hregion] at h
    exact Document.mem_roots_statements_iff h.parent_first

theorem mem_ownList_iff_isOwn (h : s.region.LiesIn s.document body s.root) :
    n ∈ s.document.ownList s.region ↔ s.IsOwn n := by
  simp only [Document.mem_ownList_iff, IsOwn, mem_roots_iff_isRoot h,
    Tree.NodeKind.isNestedFunction_iff, not_or, ne_eq]

/-- What is noted about the code of a selection is what is true of its own nodes. A walk with a
stack lists them, each once and in preorder. -/
structure NotesOwnCode (s : Selection) : Prop where
  walk_eq : s.document.ownNodes s.region = s.document.stackWalk (s.document.roots s.region)
  listed : ∃ own, Answers (s.document.stackWalk (s.document.roots s.region)) own ∧
    (∀ n, n ∈ own ↔ s.IsOwn n) ∧ own.Nodup ∧
    own.Sublist ((s.document.walk (.node 0)).filterMap Document.Visit.entered?)
  noYield : ∀ n, s.IsOwn n → s.document.kind n ≠ .yieldStatement
  awaits : s.facts.containsAwait ↔ ∃ n, s.IsOwn n ∧ (s.document.kind n = .awaitExpression ∨
    (s.document.kind n = .forEachStatement ∨ s.document.kind n = .usingStatement ∨
      s.document.kind n = .localDeclarationStatement) ∧ s.document.hasChildToken n .awaitKw)
  configures : s.facts.containsConfigureAwaitFalse ↔ ∃ n, s.IsOwn n ∧
    s.document.kind n = .invocationExpression ∧ s.document.isConfigureAwaitFalse n

end Selection

theorem Document.isConfigureAwaitFalse_kind (h : d.isConfigureAwaitFalse n) :
    d.kind n = .invocationExpression := by
  simp only [isConfigureAwaitFalse, Bool.and_eq_true, decide_eq_true_eq] at h
  exact h.1.1

/-- Whatever is selected, the walk over its roots meets just its own nodes. None of them yields, and
that it awaits or configures an await is noted exactly if one of them does. -/
theorem Document.classify_notesOwnCode {patience : Patience}
    (h : Poll.run (d.classify span options).run patience = .ok (.ok s)) :
    s.document = d ∧ s.NotesOwnCode := by
  obtain ⟨b, common, t, own, hstages⟩ := exists_stages h
  have hd := hstages.document_eq
  have hlies := (classify_legal h).2.region
  have hwalk := ownNodes_eq_stackWalk fun n hn => hasNode_of_mem_roots hlies hn
  have hown : own = s.document.ownList s.region := by
    rw [hd, hstages.region_eq]
    exact hstages.answers_own.unique (d.answers_ownNodes t.region)
  have hfacts : s.facts = s.document.factsOf s.scope own := by rw [hstages.facts_eq, hd]
  have hpreorder := (ownList_sublist hlies).trans (descendants_sublist (hasNode_of_liesIn hlies))
  refine ⟨hd, hwalk, ⟨_, hwalk ▸ answers_ownNodes _ _, ?_, ?_, ?_⟩, ?_, ?_, ?_⟩
  · intro n
    exact Selection.mem_ownList_iff_isOwn hlies
  · exact hpreorder.nodup List.nodup_range
  · rw [s.document.isNumbered.entered_eq]
    exact hpreorder
  · intro n hn hyield
    refine hstages.noYield (List.any_eq_true.mpr ⟨n, ?_, ?_⟩)
    · rw [hown]
      exact (Selection.mem_ownList_iff_isOwn hlies).mpr hn
    · rw [← hd]
      simpa [isYield] using hyield
  · rw [hfacts, factsOf, hown, List.any_eq_true]
    simp only [Selection.mem_ownList_iff_isOwn hlies, isAwait_iff]
  · rw [hfacts, factsOf, hown, List.any_eq_true]
    simp only [Selection.mem_ownList_iff_isOwn hlies]
    refine exists_congr fun n => and_congr_right fun _ => ?_
    exact ⟨fun hn => ⟨isConfigureAwaitFalse_kind hn, hn⟩, And.right⟩

/-- A method that awaits a function which yields. -/
def Document.ofNestedYield : Document := .ofStatements [.node .expressionStatement [
  .node .awaitExpression [.token .awaitKw "await", .token .whitespace " ", .node .lambdaExpression [
    .token .lParen "(", .token .rParen ")", .token .arrow "=>", .node .block [.token .lBrace "\x7b",
      .node .yieldStatement [.token .yieldKw "yield", .token .whitespace " ",
        .token .breakKw "break", .token .semicolon ";"], .token .rBrace "\x7d"]]],
  .token .semicolon ";"]]

/-- The statement is accepted, as the function in it is none of its own nodes and the await is
one. -/
theorem ofNestedYield_classify_notesOwnCode : ∃ s,
    Poll.run (Document.ofNestedYield.classify (.ofLength 17 25) {}).run .unlimited = .ok (.ok s) ∧
      s.region = .statements 6 6 ∧ s.IsOwn 7 ∧ s.facts.containsAwait ∧
      Document.ofNestedYield.kind 10 = .yieldStatement ∧ ¬ s.IsOwn 10 := by
  have h : (Document.ofNestedYield.select (.ofLength 17 25) {}).toOption.map Selection.region =
      some (.statements 6 6) := by decide +kernel
  obtain ⟨s, hs, hregion⟩ := Document.exists_of_select_map h
  obtain ⟨hd, hnotes⟩ := Document.classify_notesOwnCode hs
  have hawait : Document.ofNestedYield.kind 7 = .awaitExpression := by decide +kernel
  have hyield : Document.ofNestedYield.kind 10 = .yieldStatement := by decide +kernel
  have hown : s.IsOwn 7 := by
    rw [← Selection.mem_ownList_iff_isOwn (Document.classify_legal hs).2.region, hd, hregion]
    decide +kernel
  exact ⟨s, hs, hregion, hown, hnotes.awaits.mpr ⟨7, hown, Or.inl (hd ▸ hawait)⟩, hyield,
    fun hown => hnotes.noYield 10 hown (hd ▸ hyield)⟩

end ExtractMethod
