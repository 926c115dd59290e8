import ExtractMethod.Proofs.Document.Standing
import ExtractMethod.Proofs.Selection.SyntaxErrors

/-! Whether the header and the trailer of a loop are selected with the loop only. A run of
statements is widened to the loop around it for the sake of its two ends, if the loop is itself in a
list. -/
namespace ExtractMethod

open ExtractMethod.Tree (Element)
open ExtractMethod.Flow (Region)
open Poll (Gives)
open Text (Range)

variable {d : Document} {span : Range} {options : Options} {s : Selection} {scope : Scope}
  {b : Bounds} {t : Target} {edge loop root n common : Nat} {allowExpansion : Bool}

namespace Document

/-- The node is the header or the trailer of the loop. -/
structure IsEdgeOf (d : Document) (edge loop : Nat) : Prop where
  isEdge : d.isLoopEdge edge
  mem_children : edge ∈ d.childNodes loop
  isLoop : d.kind loop = .loopBlock

instance : Decidable (d.IsEdgeOf edge loop) :=
  decidable_of_iff (d.isLoopEdge edge ∧ edge ∈ d.childNodes loop ∧ d.kind loop = .loopBlock)
    ⟨fun ⟨hedge, hmem, hloop⟩ => ⟨hedge, hmem, hloop⟩,
      fun ⟨hedge, hmem, hloop⟩ => ⟨hedge, hmem, hloop⟩⟩

/-- The loop is in a list of statements, its headers come first in it and its trailers last. -/
structure IsOrderly (d : Document) (loop : Nat) : Prop where
  isListed : d.isInStatementList loop
  edges : ∀ edge ∈ d.childNodes loop, d.isLoopEdge edge →
    (∀ n ∈ d.childNodes loop, edge ≤ n) ∨ ∀ n ∈ d.childNodes loop, n ≤ edge

instance : Decidable (d.IsOrderly loop) :=
  decidable_of_iff (d.isInStatementList loop ∧ ∀ edge ∈ d.childNodes loop, d.isLoopEdge edge →
    (∀ n ∈ d.childNodes loop, edge ≤ n) ∨ ∀ n ∈ d.childNodes loop, n ≤ edge)
    ⟨fun ⟨hlisted, hedges⟩ => ⟨hlisted, hedges⟩, fun ⟨hlisted, hedges⟩ => ⟨hlisted, hedges⟩⟩

/-- The region is cut from the inside of the loop, as no end of it is an edge of the loop or as the
loop is in no list. -/
structure CutsFrom (d : Document) (region : Region) (root loop : Nat) : Prop where
  root_eq : root = loop
  not_widened :
    ¬ d.isInStatementList loop ∨ ¬ d.isLoopEdge region.first ∧ ¬ d.isLoopEdge region.last

theorem IsEdgeOf.parent (h : d.IsEdgeOf edge loop) : d.parent? edge = some loop :=
  mem_childNodes_iff.mp h.mem_children

end Document

/-- The node is at or below a root of the region. -/
def Selection.Holds (s : Selection) (n : Nat) : Prop :=
  ∃ root ∈ s.document.roots s.region, s.document.isAncestor root n

namespace Document

/-- The roots of a run of statements are children of its container. -/
theorem parent?_of_mem_roots {first last c : Nat} (hc : d.parent? first = some c)
    (h : root ∈ d.roots (.statements first last)) : d.parent? root = some c := by
  simp only [roots, hc] at h
  exact mem_childNodes_iff.mp
    ((List.dropWhile_sublist _).subset ((List.takeWhile_sublist _).subset h))

/-- What is not widened any more is widened already, or need not be. -/
theorem cutsFrom_of_loopContainer? {first last : Nat} (hloop : d.kind loop = .loopBlock)
    (h : d.loopContainer? ⟨loop, first, last⟩ = none) :
    d.CutsFrom (.statements first last) loop loop := by
  refine ⟨rfl, ?_⟩
  by_cases hlisted : d.isInStatementList loop
  · right
    obtain ⟨-, c, hc, hlist⟩ := isInStatementList_iff.mp hlisted
    rw [← not_or]
    intro hedge
    rw [Option.eq_none_iff_forall_ne_some] at h
    exact h c (loopContainer?_eq_some_iff.mpr ⟨hloop, hedge, hc, hlist⟩)
  · exact Or.inl hlisted

/-- The container of a run lies at or below none of its roots. -/
theorem not_isAncestor_container {first last c : Nat} (hc : d.parent? first = some c)
    (h : root ∈ d.roots (.statements first last)) : ¬ d.isAncestor root c := by
  intro hroot
  have := (isAncestor_iff.mp hroot).1
  have := (parent?_isAncestor (parent?_of_mem_roots hc h)).1
  omega

/-- What lies strictly above an edge of a loop lies at or above the loop. -/
theorem IsEdgeOf.isAncestor_loop (h : d.IsEdgeOf edge loop) (hroot : d.isAncestor root edge)
    (hne : root ≠ edge) : d.isAncestor root loop :=
  isAncestor_of_parent? h.parent hroot hne

/-- No run of statements that goes over an edge of an orderly loop is cut from it. -/
theorem IsOrderly.not_cutsFrom {first last : Nat} (h : d.IsOrderly loop)
    (hfirst : first ∈ d.childNodes loop) (hlast : last ∈ d.childNodes loop)
    (hedge : d.IsEdgeOf edge loop) (hle : first ≤ edge ∧ edge ≤ last) :
    ¬ d.CutsFrom (.statements first last) root loop := by
  rintro ⟨-, hnot | ⟨hnotFirst, hnotLast⟩⟩
  · exact hnot h.isListed
  · rcases h.edges edge hedge.mem_children hedge.isEdge with hmin | hmax
    · obtain rfl : edge = first := Nat.le_antisymm (hmin first hfirst) hle.1
      exact hnotFirst hedge.isEdge
    · obtain rfl : edge = last := Nat.le_antisymm hle.2 (hmax last hlast)
      exact hnotLast hedge.isEdge

end Document

/-- What becomes of a loop one of whose edges is selected. -/
inductive Selection.Treats (s : Selection) (loop : Nat) : Prop where
  | whole (holds : s.Holds loop)
    (not_cuts : ¬ s.document.CutsFrom s.region s.root loop) : Treats s loop
  | cut (not_holds : ¬ s.Holds loop) (cuts : s.document.CutsFrom s.region s.root loop)
      (disorderly : ¬ s.document.IsOrderly loop) : Treats s loop

/-- An expression around an edge of a loop is around the loop. -/
theorem Selection.treats_of_expression {e : Nat} (hregion : s.region = .expression e)
    (hroot : s.root = e)
    (hkind : (s.document.kind e).isExpression) (hedge : s.document.IsEdgeOf edge loop)
    (hheld : s.Holds edge) : s.Treats loop := by
  obtain ⟨root, hmem, hanc⟩ := hheld
  have hroots : s.document.roots s.region = [e] := by rw [hregion]; rfl
  obtain rfl : root = e := by simpa [hroots] using hmem
  refine .whole ⟨root, hmem, hedge.isAncestor_loop hanc ?_⟩ ?_
  · rintro rfl
    have hisEdge := hedge.isEdge
    simp only [Document.isLoopEdge, Bool.or_eq_true, decide_eq_true_eq] at hisEdge
    rcases hisEdge with h | h <;> simp [h, Tree.NodeKind.isExpression] at hkind
  · rintro ⟨rfl, -⟩
    rw [hroot, hedge.isLoop] at *
    cases hkind

/-- A run that is not widened any more is cut from a loop, or has the whole of it. -/
theorem Selection.treats_of_run {r : Run} {body : Nat} (hr : r.Valid s.document body)
    (hregion : s.region = .statements r.first r.last) (hroot : s.root = r.container)
    (hfinal : s.document.loopContainer? r = none) (hedge : s.document.IsEdgeOf edge loop)
    (hheld : s.Holds edge) : s.Treats loop := by
  obtain ⟨root, hmem, hanc⟩ := hheld
  rw [hregion] at hmem
  by_cases hne : root = edge
  · subst hne
    have hparent := Document.parent?_of_mem_roots hr.parent_first hmem
    have hloop : r.container = loop := Option.some.inj (hparent.symm.trans hedge.parent)
    have hcuts : s.document.CutsFrom s.region s.root loop := by
      rw [hregion, hroot, hloop]
      refine Document.cutsFrom_of_loopContainer? hedge.isLoop ?_
      rw [← hloop]
      exact hfinal
    refine .cut ?_ hcuts ?_
    · rintro ⟨outer, houter, hanc⟩
      rw [hregion] at houter
      exact Document.not_isAncestor_container hr.parent_first houter (hloop ▸ hanc)
    · intro horderly
      rw [hregion] at hcuts
      exact horderly.not_cutsFrom (Document.mem_childNodes_iff.mpr (hloop ▸ hr.parent_first))
        (Document.mem_childNodes_iff.mpr (hloop ▸ hr.parent_last)) hedge
        (Document.mem_roots_statements hr.parent_first hmem) hcuts
  · have hloop := hedge.isAncestor_loop hanc hne
    refine .whole ⟨root, hregion ▸ hmem, hloop⟩ ?_
    rintro ⟨heq, -⟩
    rw [← heq, hroot] at hloop
    exact Document.not_isAncestor_container hr.parent_first hmem hloop

/-- A loop one of whose edges is selected is selected as a whole, unless the statements are cut from
its inside. This does not happen to a loop in a list that begins with its header and ends with its
trailer. -/
theorem Document.classify_loops {patience : Patience}
    (h : Poll.run (d.classify span options).run patience = .ok (.ok s))
    (hedge : d.IsEdgeOf edge loop) (hheld : s.Holds edge) :
    (¬ s.Holds loop ↔ d.CutsFrom s.region s.root loop) ∧ (d.IsOrderly loop → s.Holds loop) := by
  obtain ⟨b, common, t, own, hstages⟩ := exists_stages h
  have hb := bounds_eq_ok hstages.bounds_eq
  obtain ⟨hscope, hbody⟩ := scopeOf?_valid hstages.scope_eq
  have hc := (hasNode_of_isAncestor hbody).2
  have hd := hstages.document_eq
  have htreats : s.Treats loop := by
    rw [← hd] at hedge
    rcases gives_target hstages.gives_target with ⟨e, he, ht⟩ | hgives
    · refine s.treats_of_expression (hstages.region_eq.trans ht.region)
        (hstages.root_eq.trans ht.root) ?_ hedge hheld
      rw [hd]
      exact (expressionOver_eq_some hc he).2.2.2
    · obtain ⟨r, hr, ht, hfinal⟩ := exists_run_of_statementTarget hb hscope hgives
      rw [← hd] at hr hfinal
      exact s.treats_of_run hr (hstages.region_eq.trans ht.region)
        (hstages.root_eq.trans ht.root) hfinal hedge hheld
  rw [← hd]
  cases htreats with
  | whole hholds hnot => exact ⟨iff_of_false (not_not_intro hholds) hnot, fun _ => hholds⟩
  | cut hnot hcuts hdisorderly =>
    exact ⟨iff_of_true hnot hcuts, fun horderly => absurd horderly hdisorderly⟩

/-- A loop over one statement, followed by some more elements of the loop. -/
def Tree.Element.nameLoop (more : List Element) : Element :=
  .node .loopBlock ([.node .loopHeader [.token .identifier "For"], .nameStatement "a",
    .node .loopTrailer [.token .identifier "Next"]] ++ more)

/-- A method with a loop. -/
def Document.ofWholeLoop : Document := .ofStatements [.nameLoop []]

/-- From the statement to the trailer, the whole loop is found. -/
theorem ofWholeLoop_classify_loops : ∃ s,
    Poll.run (Document.ofWholeLoop.classify (.ofLength 20 6) {}).run .unlimited = .ok (.ok s) ∧
      s.region = .statements 6 6 ∧ Document.ofWholeLoop.IsEdgeOf 10 6 ∧ s.Holds 10 ∧ s.Holds 6 := by
  have h : (Document.ofWholeLoop.select (.ofLength 20 6) {}).toOption.map Selection.region =
      some (.statements 6 6) := by decide +kernel
  obtain ⟨s, hs, hregion⟩ := Document.exists_of_select_map h
  have hedge : Document.ofWholeLoop.IsEdgeOf 10 6 := by decide +kernel
  have hheld : s.Holds 10 := by
    rw [Selection.Holds, hregion, Document.document_of_classify hs]
    decide +kernel
  exact ⟨s, hs, hregion, hedge, hheld,
    (Document.classify_loops hs hedge hheld).2 (by decide +kernel)⟩

/-- A method with a loop that has one more statement after its trailer. -/
def Document.ofTrailedLoop : Document :=
  .ofStatements [.nameLoop [.node .emptyStatement [.token .semicolon ";"]]]

/-- A method with a loop that is the only statement under a condition. -/
def Document.ofEmbeddedLoop : Document :=
  .ofStatements [.node .ifStatement [.token .ifKw "if", .token .lParen "(",
    .node .nameExpression [.token .identifier "c"], .token .rParen ")", .nameLoop []]]

/-- Without its header, the trailer is found if one more statement is selected after it. The header
of a loop under a condition is found by itself. -/
theorem classify_cuts_loops :
    (∃ s,
      Poll.run (Document.ofTrailedLoop.classify (.ofLength 20 7) {}).run .unlimited = .ok (.ok s) ∧
      ¬ s.isExpression ∧ Document.ofTrailedLoop.IsEdgeOf 10 6 ∧ s.Holds 10 ∧ ¬ s.Holds 6) ∧
    ∃ s,
      Poll.run (Document.ofEmbeddedLoop.classify (.ofLength 22 3) {}).run .unlimited = .ok (.ok s) ∧
      ¬ s.isExpression ∧ Document.ofEmbeddedLoop.IsEdgeOf 9 8 ∧ s.Holds 9 ∧ ¬ s.Holds 8 := by
  have h : (Document.ofTrailedLoop.select (.ofLength 20 7) {}).toOption.map Selection.region =
      some (.statements 8 11) := by decide +kernel
  have h' : (Document.ofEmbeddedLoop.select (.ofLength 22 3) {}).toOption.map Selection.region =
      some (.statements 9 9) := by decide +kernel
  obtain ⟨s, hs, hregion⟩ := Document.exists_of_select_map h
  obtain ⟨s', hs', hregion'⟩ := Document.exists_of_select_map h'
  refine ⟨⟨s, hs, ?_, by decide +kernel, ?_, ?_⟩, s', hs', ?_, by decide +kernel, ?_, ?_⟩
  · simp [Selection.isExpression, hregion]
  · rw [Selection.Holds, hregion, Document.document_of_classify hs]
    decide +kernel
  · rw [Selection.Holds, hregion, Document.document_of_classify hs]
    decide +kernel
  · simp [Selection.isExpression, hregion']
  · rw [Selection.Holds, hregion', Document.document_of_classify hs']
    decide +kernel
  · rw [Selection.Holds, hregion', Document.document_of_classify hs']
    decide +kernel

end ExtractMethod
