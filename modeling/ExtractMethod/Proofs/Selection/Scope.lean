import ExtractMethod.Proofs.Document.Nodes
import ExtractMethod.Proofs.Patience
import ExtractMethod.Selection.Scope

/-! Climbing from a node to the first body of a scope. All nodes between a body and a node that
finds it find the same scope. -/
namespace ExtractMethod

open Poll (Answers Steady)

/-- The scope is formed by a body of the document and its parent. -/
structure Scope.Valid (d : Document) (s : Scope) : Prop where
  parent : d.parent? s.body = some s.member
  kind : d.kindOfScope? s.body s.member = some s.kind

theorem Scope.Valid.hasNode {d : Document} {s : Scope} (h : s.Valid d) : d.hasNode s.body :=
  Document.hasNode_of_parent? h.parent

namespace Document

variable {d : Document} {s inner : Scope} {a b n p : Nat}

/-- The innermost scope whose body holds a node, found without asking the host. -/
def scopeOf? (d : Document) (n : Nat) : Option Scope :=
  (d.links n).findSome? fun link => d.scopeAt? link.1 link.2

theorem answers_innermostScope (d : Document) (n : Nat) :
    Answers (d.innermostScope n) (d.scopeOf? n) :=
  Poll.answers_search _ _

instance : Steady (d.innermostScope n) := (d.answers_innermostScope n).steady

theorem scopeOf?_eq_none_of_root (h : d.parent? n = none) : d.scopeOf? n = none := by
  simp [scopeOf?, links, ancestors_eq d n, h]

theorem scopeOf?_of_parent? (h : d.parent? n = some p) :
    d.scopeOf? n = (d.scopeAt? n p).or (d.scopeOf? p) := by
  have hlinks : d.links n = (n, p) :: d.links p := by
    simp only [links, ancestors_of_parent? h]
    rw [ancestors_eq d p]
    rfl
  rw [scopeOf?, hlinks, List.findSome?_cons]
  cases d.scopeAt? n p <;> rfl

theorem scopeAt?_eq_some_iff (hp : d.parent? b = some p) :
    d.scopeAt? b p = some s ↔ s.body = b ∧ s.Valid d := by
  simp only [scopeAt?, Option.map_eq_some_iff]
  constructor
  · rintro ⟨kind, hk, rfl⟩
    exact ⟨rfl, hp, hk⟩
  · rintro ⟨rfl, hs⟩
    have hm : p = s.member := Option.some.inj (hp.symm.trans hs.parent)
    subst hm
    exact ⟨s.kind, hs.kind, rfl⟩

/-- The scope that is found is valid, and its body holds the node. -/
theorem scopeOf?_valid (h : d.scopeOf? n = some s) : s.Valid d ∧ d.isAncestor s.body n := by
  induction n using d.climb with
  | root n hp =>
    rw [scopeOf?_eq_none_of_root hp] at h
    cases h
  | step n p hp ih =>
    rw [scopeOf?_of_parent? hp, Option.or_eq_some_iff] at h
    rcases h with h | ⟨-, h⟩
    · obtain ⟨rfl, hs⟩ := (scopeAt?_eq_some_iff hp).mp h
      exact ⟨hs, isAncestor_self (hasNode_of_parent? hp)⟩
    · obtain ⟨hs, hbody⟩ := ih h
      exact ⟨hs, isAncestor_trans hbody (parent?_isAncestor hp).2⟩

/-- A node between the body that another one finds and that one finds the same scope. -/
theorem scopeOf?_between (h : d.scopeOf? n = some s) (ha : d.isAncestor s.body a)
    (hn : d.isAncestor a n) : d.scopeOf? a = some s := by
  induction hn using climbTo with
  | top => exact h
  | step n p _ hap hne hp ih =>
    rw [scopeOf?_of_parent? hp, Option.or_eq_some_iff] at h
    rcases h with h | ⟨-, h⟩
    · obtain ⟨rfl, -⟩ := (scopeAt?_eq_some_iff hp).mp h
      have := (isAncestor_iff.mp ha).1
      have := (isAncestor_iff.mp hap).1
      have := (parent?_isAncestor hp).1
      omega
    · exact ih h

theorem scopeOf?_body (hs : s.Valid d) : d.scopeOf? s.body = some s := by
  rw [scopeOf?_of_parent? hs.parent, (scopeAt?_eq_some_iff hs.parent).mpr ⟨rfl, hs⟩]
  rfl

/-- No body of a scope lies strictly below that of `s` and around the node. -/
def NoneBetween (d : Document) (s : Scope) (n : Nat) : Prop :=
  ∀ t : Scope, t.Valid d → d.isAncestor s.body t.body → d.isAncestor t.body n → t.body = s.body

theorem scopeOf?_eq_some_iff (hs : s.Valid d) (hn : d.isAncestor s.body n) :
    d.scopeOf? n = some s ↔ d.NoneBetween s n := by
  constructor
  · intro h t ht hst htn
    have hbody := scopeOf?_between h hst htn
    rw [scopeOf?_body ht] at hbody
    exact congrArg Scope.body (Option.some.inj hbody)
  · intro h
    induction hn using climbTo with
    | top => exact scopeOf?_body hs
    | step n p hn hbp hne hp ih =>
      have hpn := (parent?_isAncestor hp).2
      have hlink : d.scopeAt? n p = none := by
        rw [Option.eq_none_iff_forall_ne_some]
        intro t ht
        obtain ⟨rfl, hv⟩ := (scopeAt?_eq_some_iff hp).mp ht
        exact hne (h t hv hn (isAncestor_self hv.hasNode)).symm
      rw [scopeOf?_of_parent? hp, hlink, Option.none_or]
      exact ih fun t ht hst htp => h t ht hst (isAncestor_trans htp hpn)

/-- Below a body some scope is found, perhaps one that is nested in that of the body. -/
theorem exists_scopeOf? (hs : s.Valid d) (hn : d.isAncestor s.body n) :
    ∃ inner, d.scopeOf? n = some inner ∧ d.isAncestor s.body inner.body := by
  induction hn using climbTo with
  | top => exact ⟨s, scopeOf?_body hs, isAncestor_self hs.hasNode⟩
  | step n p hn _ _ hp ih =>
    obtain ⟨inner, hinner, hbody⟩ := ih
    rw [scopeOf?_of_parent? hp]
    cases hlink : d.scopeAt? n p with
    | none => exact ⟨inner, hinner, hbody⟩
    | some t =>
      obtain ⟨rfl, -⟩ := (scopeAt?_eq_some_iff hp).mp hlink
      exact ⟨t, rfl, hn⟩

end Document

end ExtractMethod
