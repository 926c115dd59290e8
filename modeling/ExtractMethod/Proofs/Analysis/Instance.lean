import ExtractMethod.Proofs.Analysis.Conditions
import ExtractMethod.Proofs.Boundary.Receiver

/-! The new method has to be static because of the place of the selected code, and a member of an
instance because of what this code uses. Neither looks at the other, so both can be asked for. -/
namespace ExtractMethod

open Boundary (UsesInstance)
open ExtractMethod.Flow (DataFlow)
open ExtractMethod.Tree (Element)
open Model (Snapshot Write)
open Text (Range)

variable {d : Document} {s : Selection} {model : Snapshot} {options options' : Options}
  {facts : DataFlow} {f : Findings} {a : Analysis} {span : Range} {n m : Nat}

namespace Document

/-- No type declaration lies at or around the second node and strictly below the first one. -/
def SharesType (d : Document) (m n : Nat) : Prop :=
  ∀ t, d.isAncestor m t → d.isAncestor t n → t ≠ m → ¬ (d.kind t).isTypeDeclaration

/-- Something around the node, the node and the nearest type around it included, is static. -/
def IsStaticPlace (d : Document) (n : Nat) : Prop :=
  ∃ m, d.isAncestor m n ∧ d.SharesType m n ∧ d.hasChildToken m .staticKw

theorem sharesType_self : d.SharesType n n :=
  fun _ hnt htn hne => absurd (isAncestor_antisymm htn hnt) hne

/-- A node that is no type declaration shares its types with its parent. -/
theorem sharesType_iff_of_parent? {p : Nat} (hp : d.parent? n = some p)
    (hn : ¬ (d.kind n).isTypeDeclaration) : d.SharesType m n ↔ d.SharesType m p := by
  constructor
  · intro h t hmt htp
    exact h t hmt (isAncestor_trans htp (parent?_isAncestor hp).2)
  · intro h t hmt htn hne ht
    have htn_ne : t ≠ n := by
      rintro rfl
      exact hn ht
    exact h t hmt (isAncestor_of_parent? hp htn htn_ne) hne ht

/-- Up to and including the nearest type declaration lie the nodes that share their types with the
first. -/
theorem mem_upToType_iff (hn : d.hasNode n) :
    m ∈ d.upToType (d.ancestors n) ↔ d.isAncestor m n ∧ d.SharesType m n := by
  induction n using d.climb with
  | root n hp =>
    have hlist : d.upToType (d.ancestors n) = [n] := by
      rw [ancestors_eq, hp]
      simp [upToType]
    rw [hlist, List.mem_singleton]
    constructor
    · rintro rfl
      exact ⟨isAncestor_self hn, sharesType_self⟩
    · rintro ⟨hmn, -⟩
      by_contra hne
      obtain ⟨p, hp', -⟩ := isAncestor_parent hmn hne
      cases hp.symm.trans hp'
  | step n p hp ih =>
    have hpn := (parent?_isAncestor hp).2
    rw [ancestors_of_parent? hp, upToType]
    by_cases hmn : m = n
    · subst hmn
      refine iff_of_true ?_ ⟨isAncestor_self hn, sharesType_self⟩
      split <;> exact List.mem_cons_self
    · by_cases htype : (d.kind n).isTypeDeclaration
      · rw [if_pos htype, List.mem_singleton]
        refine iff_of_false hmn ?_
        rintro ⟨hanc, hshares⟩
        exact hshares n hanc (isAncestor_self hn) (Ne.symm hmn) htype
      · have hparent : d.isAncestor m n ↔ d.isAncestor m p :=
          ⟨fun hanc => isAncestor_of_parent? hp hanc hmn, fun hanc => isAncestor_trans hanc hpn⟩
        rw [if_neg htype, List.mem_cons, or_iff_right hmn, ih (hasNode_of_isAncestor hpn).1,
          hparent, sharesType_iff_of_parent? hp htype]

theorem hasNoInstance_iff (hn : d.hasNode n) : d.hasNoInstance n ↔ d.IsStaticPlace n := by
  rw [hasNoInstance, List.any_eq_true, IsStaticPlace]
  refine exists_congr fun m => ?_
  rw [mem_upToType_iff hn, and_assoc]

end Document

namespace Analysis.Stages

variable (h : a.Stages s model options facts f)
include h

/-- An instance is asked for exactly if the selected code uses one, or names a function that may do
so. -/
theorem instanceRequired_iff : a.signature.instanceRequired ↔
    UsesInstance s model facts ∨ model.NamesInstanceFunction s := by
  rw [(gives_infer h.signature).instanceRequired, ← Boundary.usesInstance_iff h.classification,
    ← callsInstanceFunction_iff h.references, Findings.instanceRequired, h.selection]
  simp only [Bool.or_eq_true, Bool.and_eq_true, Bool.not_eq_true', Bool.not_eq_true, or_assoc]

theorem staticRequired_iff : a.signature.staticRequired ↔
    s.facts.scopeIsStatic ∨ s.facts.inPrimaryConstructorBaseType := by
  rw [(gives_infer h.signature).staticRequired, h.selection, Bool.or_eq_true]

end Analysis.Stages

/-- What is known of the place of a selection is said of the member of its scope. -/
theorem Document.facts_of_classify {patience : Patience}
    (h : Poll.run (d.classify span options).run patience = .ok (.ok s)) :
    (s.facts.scopeIsStatic ↔ d.IsStaticPlace s.scope.member) ∧
      (s.facts.inPrimaryConstructorBaseType ↔ s.scope.kind = .primaryConstructorBaseType) := by
  obtain ⟨b, common, t, own, hstages⟩ := exists_stages h
  obtain ⟨hscope, -⟩ := scopeOf?_valid hstages.scope_eq
  have hmember := (hasNode_of_isAncestor (parent?_isAncestor hscope.parent).2).1
  rw [hstages.facts_eq]
  exact ⟨hasNoInstance_iff hmember, decide_eq_true_iff⟩

/-- Where neither the receiver nor a parameter of a primary constructor is a candidate, an instance
is asked for exactly if a function is named that is declared outside and not static. This blocks the
extraction, if it is not one of a local function. So only then the new method can be asked to be
static as well. -/
theorem Selection.analyze_static_instance {patience patience' : Patience}
    (hs : Poll.run (d.classify span options').run patience' = .ok (.ok s))
    (h : Poll.run (s.analyze model options).run patience = .ok (.ok a)) (hsucceeded : a.succeeded)
    (hplain : ∀ facts, model.dataFlowOf s.document s.region = .ok facts → ∀ id symbol raw,
      Boundary.IsListed model facts id symbol raw →
        ¬ symbol.isThis ∧ ¬ symbol.isPrimaryConstructorParameter) :
    (a.signature.instanceRequired ↔ model.NamesInstanceFunction s) ∧
      (a.signature.staticRequired ↔
        d.IsStaticPlace s.scope.member ∨ s.scope.kind = .primaryConstructorBaseType) ∧
      (a.signature.instanceRequired → options.extractLocalFunction) ∧
      (¬ options.extractLocalFunction →
        ¬ (a.signature.staticRequired ∧ a.signature.instanceRequired)) := by
  obtain ⟨facts, f, hstages⟩ := gives_analyze (Poll.gives_of_run h)
  obtain ⟨hstatic, hbase⟩ := Document.facts_of_classify hs
  have hunused : ¬ UsesInstance s model facts := by
    rintro (⟨hlisted, hthis, -⟩ | ⟨hlisted, hprimary, -, -⟩)
    · exact (hplain facts hstages.dataFlow _ _ _ hlisted).1 hthis
    · refine (hplain facts hstages.dataFlow _ _ _ hlisted).2 ?_
      rw [Model.Symbol.isPrimaryConstructorParameter, hprimary]
  have hinstance : a.signature.instanceRequired ↔ model.NamesInstanceFunction s :=
    hstages.instanceRequired_iff.trans (or_iff_right hunused)
  have hoption : a.signature.instanceRequired → options.extractLocalFunction := by
    intro hrequired
    by_contra hnot
    have hblocked :=
      (hstages.succeeded_iff (Document.isTargetNote_notes hs).succeeded).mp hsucceeded
    refine hblocked (.outerFunction hnot ?_)
    rw [hstages.selection]
    exact (hinstance.mp hrequired).namesOuterFunction
  refine ⟨hinstance, ?_, hoption, fun hnot hboth => hnot (hoption hboth.2)⟩
  rw [hstages.staticRequired_iff, hstatic, hbase]

/-- A static method with a statement that names a function. -/
def Document.ofStaticMethod : Document := .ofRoot ⟨.compilationUnit, [.node .classDeclaration [
  .token .classKw "class", .token .whitespace " ", .token .identifier "C", .token .lBrace "\x7b",
  .node .methodDeclaration [
    .token .staticKw "static", .token .whitespace " ",
    .node .typeRef [.token .voidKw "void"], .token .whitespace " ", .token .identifier "M",
    .node .parameterList [.token .lParen "(", .token .rParen ")"],
    .node .block [.token .lBrace "\x7b", .nameStatement "F", .token .rBrace "\x7d"]],
  .token .rBrace "\x7d"]]⟩ .first

/-- A host that knows a local function, which the selected code names. -/
def writesOfFunction (isStatic : Bool) : List Write := [
  .symbol ⟨0, "F", .localFunction isStatic, none, none⟩, .reference ⟨0, .ofLength 24 1, false⟩,
  .dataFlow none (.ofList [(0, .ofFacts [.readInside])]), .controlFlow none {},
  .returnTypes none {}]

/-- The host of the function knows no parameters. -/
theorem not_isThis_of_writesOfFunction {isStatic : Bool} {id : Nat} {symbol : Model.Symbol}
    (h : (Snapshot.ofWrites (writesOfFunction isStatic)).symbol? id = some symbol) :
    ¬ symbol.isThis ∧ ¬ symbol.isPrimaryConstructorParameter := by
  have hall : ∀ entry ∈ (Snapshot.ofWrites (writesOfFunction isStatic)).symbols.entries,
      ¬ entry.2.isThis ∧ ¬ entry.2.isPrimaryConstructorParameter := by
    cases isStatic <;> decide
  exact hall (id, symbol) (Keyed.get?_eq_some_iff.mp h)

/-- A static function does not ask for an instance. -/
theorem ofStaticMethod_analyze_static_instance : ∃ (s : Selection) (a : Analysis),
    Poll.run (s.analyze (.ofWrites (writesOfFunction true)) { extractLocalFunction := true }).run
      .unlimited = .ok (.ok a) ∧
    a.signature.staticRequired ∧
    ¬ (Snapshot.ofWrites (writesOfFunction true)).NamesInstanceFunction s := by
  have h : (Document.ofStaticMethod.analyzed? (.ofLength 24 2) { extractLocalFunction := true }
      (.ofWrites (writesOfFunction true))).map
        (fun r => (r.2.succeeded, r.2.signature.staticRequired, r.2.signature.instanceRequired)) =
          some (true, true, false) := by decide +kernel
  obtain ⟨s, a, hs, ha, hview⟩ := Document.exists_of_analyzed?_map h
  simp only [Prod.mk.injEq] at hview
  obtain ⟨hsucceeded, hstatic, hinstance⟩ := hview
  obtain ⟨hiff, -⟩ := Selection.analyze_static_instance hs ha hsucceeded
    fun _ _ _ _ _ hlisted => not_isThis_of_writesOfFunction hlisted.symbol_eq
  refine ⟨s, a, ha, hstatic, ?_⟩
  rw [← hiff, hinstance]
  exact Bool.false_ne_true

/-- In a static method the new method is asked to be both, if it calls a function that is not
static. -/
theorem ofStaticMethod_static_and_instance : ∃ (s : Selection) (a : Analysis),
    Poll.run (Document.ofStaticMethod.classify (.ofLength 24 2)
      { extractLocalFunction := true }).run .unlimited = .ok (.ok s) ∧
    Poll.run (s.analyze (.ofWrites (writesOfFunction false)) { extractLocalFunction := true }).run
      .unlimited = .ok (.ok a) ∧ a.succeeded ∧
    (∀ id symbol, (Snapshot.ofWrites (writesOfFunction false)).symbol? id = some symbol →
      ¬ symbol.isThis ∧ ¬ symbol.isPrimaryConstructorParameter) ∧
    a.signature.staticRequired ∧ a.signature.instanceRequired := by
  have h : (Document.ofStaticMethod.analyzed? (.ofLength 24 2) { extractLocalFunction := true }
      (.ofWrites (writesOfFunction false))).map
        (fun r => (r.2.succeeded, r.2.signature.staticRequired, r.2.signature.instanceRequired)) =
          some (true, true, true) := by decide +kernel
  obtain ⟨s, a, hs, ha, hview⟩ := Document.exists_of_analyzed?_map h
  simp only [Prod.mk.injEq] at hview
  obtain ⟨hsucceeded, hstatic, hinstance⟩ := hview
  exact ⟨s, a, hs, ha, hsucceeded, fun _ _ => not_isThis_of_writesOfFunction, hstatic, hinstance⟩

end ExtractMethod
