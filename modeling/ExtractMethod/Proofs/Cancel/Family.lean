import ExtractMethod.Cancel.Token
import Mathlib.Data.List.Induction
import Mathlib.Logic.Relation

/-! A token is cancelled exactly if some clone of it was, or something it is a clone of, through any
chain of clones. Tokens that were created apart never reach each other. -/
namespace ExtractMethod.Cancel

open Relation (EqvGen ReflTransGen)

namespace Step

/-- The token for which a step makes a checker. -/
def checked? : Step → Option Nat
  | .makeChecker t => some t
  | _ => none

/-- The step adds a token at the end of the list. -/
def adds : Step → Bool
  | .create _ | .clone _ => true
  | _ => false

/-- The step asks whether a token is cancelled. -/
def asks : Step → Bool
  | .isCancelled _ | .check _ | .checker _ | .callChecker _ => true
  | _ => false

/-- How a step that asks is told whether its token is cancelled. -/
def report (cancelled : Bool) : Step → Answer
  | .isCancelled _ => .flag cancelled
  | _ => .checked (if cancelled then .error {} else .ok ())

end Step

/-- How many tokens there are after some steps. At first there is one. -/
def tokenCount (steps : List Step) : Nat := steps.countP Step.adds + 1

/-- The tokens of the checkers that some steps made, in order. -/
def checkedTokens (steps : List Step) : List Nat := steps.filterMap Step.checked?

/-- The token that a step is about, after the steps before it. A call is about the token for which
the checker was made. -/
def Step.token? (before : List Step) : Step → Option Nat
  | .callChecker c => (checkedTokens before)[c]?
  | .create t | .clone t | .cancel t | .isCancelled t | .check t | .checker t | .makeChecker t =>
    some t

/-- Every step names a token or a checker that is there before it. -/
def NamesTokens (steps : List Step) : Prop :=
  ∀ i (h : i < steps.length),
    (steps[i].token? (steps.take i)).any fun t => t < tokenCount (steps.take i)

instance (steps : List Step) : Decidable (NamesTokens steps) :=
  inferInstanceAs (Decidable (∀ i (h : i < steps.length),
    (steps[i].token? (steps.take i)).any fun t => t < tokenCount (steps.take i)))

/-- The token is the first one or was created, and is no clone. -/
def IsNew (steps : List Step) (root : Nat) : Prop :=
  root = 0 ∨ ∃ before t after, steps = before ++ .create t :: after ∧ root = tokenCount before

def IsCloneOf (steps : List Step) (copy original : Nat) : Prop :=
  ∃ before after, steps = before ++ .clone original :: after ∧ copy = tokenCount before

/-- A clone of the other token, or a clone of a clone, and so on, or the other token itself. -/
def Descends (steps : List Step) : Nat → Nat → Prop := ReflTransGen (IsCloneOf steps)

/-- A chain of clones leads from one token to the other, in whichever direction each was cloned. -/
def Connected (steps : List Step) : Nat → Nat → Prop := EqvGen (IsCloneOf steps)

/-- Some token that is connected with this one was cancelled. -/
def IsReached (steps : List Step) (token : Nat) : Prop :=
  ∃ other, Step.cancel other ∈ steps ∧ Connected steps other token

variable {steps before more : List Step} {step : Step} {tokens last : Tokens} {answer : Answer}
  {answers : List Answer} {s t root copy original : Nat}

theorem tokenCount_concat :
    tokenCount (steps ++ [step]) =
      if step.adds then tokenCount steps + 1 else tokenCount steps := by
  by_cases h : step.adds <;> simp [tokenCount, h]

theorem checkedTokens_concat :
    checkedTokens (steps ++ [step]) = checkedTokens steps ++ step.checked?.toList := by
  cases h : step.checked? <;> simp [checkedTokens, h]

theorem namesTokens_append (h : NamesTokens (before ++ step :: more)) :
    NamesTokens before ∧ ∃ t, step.token? before = some t ∧ t < tokenCount before := by
  refine ⟨fun i hi => ?_, ?_⟩
  · have := h i (by simp; omega)
    rwa [List.getElem_append_left hi, List.take_append_of_le_length (by omega)] at this
  · have hlast := h before.length (by simp)
    rw [Option.any_eq_true] at hlast
    obtain ⟨t, ht, hlt⟩ := hlast
    exact ⟨t, by simpa using ht, by simpa using hlt⟩

theorem IsNew.append (h : IsNew steps root) (more : List Step) : IsNew (steps ++ more) root := by
  obtain rfl | ⟨before, t, after, rfl, rfl⟩ := h
  · exact Or.inl rfl
  · exact Or.inr ⟨before, t, after ++ more, by simp, rfl⟩

theorem IsCloneOf.append (h : IsCloneOf steps copy original) (more : List Step) :
    IsCloneOf (steps ++ more) copy original := by
  obtain ⟨before, after, rfl, rfl⟩ := h
  exact ⟨before, after ++ more, by simp, rfl⟩

theorem Descends.append (h : Descends steps t root) (more : List Step) :
    Descends (steps ++ more) t root :=
  ReflTransGen.mono (fun _ _ hclone => hclone.append more) _ _ h

theorem Descends.connected (h : Descends steps t root) : Connected steps t root :=
  EqvGen.reflTransGen_le_eqvGen _ _ _ h

theorem IsReached.append (h : IsReached steps t) (more : List Step) :
    IsReached (steps ++ more) t := by
  obtain ⟨other, hcancel, hconnected⟩ := h
  exact ⟨other, List.mem_append_left _ hcancel,
    EqvGen.mono (fun _ _ hclone => hclone.append more) _ _ hconnected⟩

/-- A step of a longer run is the last one, or it was there before. -/
theorem concat_eq_append_cons_iff {α : Type} {xs before after : List α} {x y : α} :
    xs ++ [x] = before ++ y :: after ↔ (xs = before ∧ x = y ∧ after = []) ∨
      ∃ rest, after = rest ++ [x] ∧ xs = before ++ y :: rest := by
  rcases List.eq_nil_or_concat after with rfl | ⟨rest, z, rfl⟩
  · simp
  · rw [List.concat_eq_append, ← List.cons_append, ← List.append_assoc, List.append_singleton_inj]
    constructor
    · rintro ⟨rfl, rfl⟩
      exact Or.inr ⟨rest, rfl, rfl⟩
    · rintro (⟨-, -, hnil⟩ | ⟨rest', heq, rfl⟩)
      · simp at hnil
      · obtain ⟨rfl, rfl⟩ := List.append_singleton_inj.mp heq
        exact ⟨rfl, rfl⟩

theorem isCloneOf_concat : IsCloneOf (steps ++ [step]) copy original ↔
    IsCloneOf steps copy original ∨ step = .clone original ∧ copy = tokenCount steps := by
  simp only [IsCloneOf, concat_eq_append_cons_iff]
  constructor
  · rintro ⟨before, after, ⟨rfl, rfl, rfl⟩ | ⟨rest, rfl, rfl⟩, rfl⟩
    · exact Or.inr ⟨rfl, rfl⟩
    · exact Or.inl ⟨before, rest, rfl, rfl⟩
  · rintro (⟨before, after, rfl, rfl⟩ | ⟨rfl, rfl⟩)
    · exact ⟨before, _, Or.inr ⟨after, rfl, rfl⟩, rfl⟩
    · exact ⟨steps, [], Or.inl ⟨rfl, rfl, rfl⟩, rfl⟩

theorem isNew_concat : IsNew (steps ++ [step]) root ↔
    IsNew steps root ∨ (∃ t, step = .create t) ∧ root = tokenCount steps := by
  simp only [IsNew, concat_eq_append_cons_iff]
  constructor
  · rintro (rfl | ⟨before, t, after, ⟨rfl, rfl, rfl⟩ | ⟨rest, rfl, rfl⟩, rfl⟩)
    · exact Or.inl (Or.inl rfl)
    · exact Or.inr ⟨⟨t, rfl⟩, rfl⟩
    · exact Or.inl (Or.inr ⟨before, t, rest, rfl, rfl⟩)
  · rintro ((rfl | ⟨before, t, after, rfl, rfl⟩) | ⟨⟨t, rfl⟩, rfl⟩)
    · exact Or.inl rfl
    · exact Or.inr ⟨before, t, _, Or.inr ⟨after, rfl, rfl⟩, rfl⟩
    · exact Or.inr ⟨steps, t, [], Or.inl ⟨rfl, rfl, rfl⟩, rfl⟩

theorem IsNew.lt_tokenCount (h : IsNew steps root) : root < tokenCount steps := by
  obtain rfl | ⟨before, t, after, rfl, rfl⟩ := h
  · exact Nat.succ_pos _
  · simp [tokenCount, Step.adds]

namespace Tokens

/-- The answer to a step whose token belongs to the family, and the tokens after it. -/
def respond (tokens : Tokens) (family : Nat) : Step → Answer × Tokens
  | .create _ => (.index tokens.families.length, tokens.create)
  | .clone _ =>
    (.index tokens.families.length, { tokens with families := tokens.families ++ [family] })
  | .cancel _ => (.done, { tokens with cancelled := family :: tokens.cancelled })
  | .makeChecker t =>
    (.index tokens.checkers.length, { tokens with checkers := tokens.checkers ++ [t] })
  | step => (step.report (tokens.cancelled.contains family), tokens)

/-- A step whose token is known is answered by the family of the token. -/
theorem step?_eq (hcheckers : tokens.checkers = checkedTokens steps)
    (ht : step.token? steps = some t) :
    tokens.step? step = tokens.families[t]?.map fun family => tokens.respond family step := by
  cases step with
  | callChecker c =>
    have hget : tokens.checkers[c]? = some t := hcheckers ▸ ht
    simp [step?, callChecker?, check?, isCancelled?, respond, Step.report, hget, Option.map_map,
      Function.comp_def]
  | _ =>
    cases ht
    simp [step?, clone?, cancel?, check?, isCancelled?, makeChecker?, respond, Step.report,
      Option.map_map, Function.comp_def]

/-- The tokens stand for the families that the steps made: those of one family descend from one new
token, and a family is cancelled if one of its tokens was. -/
structure Reflects (tokens : Tokens) (steps : List Step) : Prop where
  length_families : tokens.families.length = tokenCount steps
  lt_nextFamily : ∀ family ∈ tokens.families, family < tokens.nextFamily
  families_clone : ∀ copy original, IsCloneOf steps copy original →
    ∃ family, tokens.families[copy]? = some family ∧ tokens.families[original]? = some family
  exists_root : ∀ t < tokenCount steps, ∃ root, IsNew steps root ∧ Descends steps t root
  root_unique : ∀ root root' family, IsNew steps root → IsNew steps root' →
    tokens.families[root]? = some family → tokens.families[root']? = some family → root = root'
  families_cancel : ∀ t, .cancel t ∈ steps →
    ∃ family ∈ tokens.cancelled, tokens.families[t]? = some family
  exists_cancel : ∀ family ∈ tokens.cancelled,
    ∃ t, .cancel t ∈ steps ∧ tokens.families[t]? = some family
  checkers_eq : tokens.checkers = checkedTokens steps

theorem reflects_start : empty.create.Reflects [] where
  length_families := rfl
  lt_nextFamily := by decide
  families_clone := by
    rintro _ _ ⟨before, after, h, -⟩
    simp at h
  exists_root t ht := ⟨0, Or.inl rfl, by
    obtain rfl : t = 0 := by simpa [tokenCount] using ht
    exact .refl⟩
  root_unique root root' family h h' _ _ := by
    have := h.lt_tokenCount
    have := h'.lt_tokenCount
    simp [tokenCount] at *
    omega
  families_cancel t h := nomatch h
  exists_cancel family h := nomatch h
  checkers_eq := rfl

theorem getElem?_append_of_some {α : Type} {xs : List α} {i : Nat} {x : α} (h : xs[i]? = some x)
    (ys : List α) : (xs ++ ys)[i]? = some x := by
  rw [List.getElem?_append_left (List.getElem?_eq_some_iff.mp h).1, h]

namespace Reflects

variable {family : Nat}

/-- A token added at the end begins a family, or it is a clone and belongs to the family of its
original. The families of the other tokens stay. -/
theorem add {next : Nat} (h : tokens.Reflects steps) (hnext : tokens.nextFamily ≤ next)
    (hfamily : family < next)
    (hstep : (∃ t, step = .create t) ∧ family = tokens.nextFamily ∨
      ∃ t, step = .clone t ∧ tokens.families[t]? = some family) :
    Reflects ⟨tokens.families ++ [family], tokens.cancelled, next, tokens.checkers⟩
      (steps ++ [step]) := by
  have hadds : step.adds := by
    obtain ⟨⟨t, rfl⟩, -⟩ | ⟨t, rfl, -⟩ := hstep <;> rfl
  have hlast : (tokens.families ++ [family])[tokenCount steps]? = some family := by
    rw [← h.length_families]
    exact List.getElem?_concat_length
  refine ⟨?_, ?_, ?_, ?_, ?_, ?_, ?_, ?_⟩
  · simp [h.length_families, tokenCount_concat, hadds]
  · intro f hf
    rcases List.mem_append.mp hf with hf | hf
    · exact Nat.lt_of_lt_of_le (h.lt_nextFamily f hf) hnext
    · rwa [List.mem_singleton.mp hf]
  · intro copy original hclone
    rcases isCloneOf_concat.mp hclone with hclone | ⟨rfl, rfl⟩
    · obtain ⟨f, hcopy, horiginal⟩ := h.families_clone copy original hclone
      exact ⟨f, getElem?_append_of_some hcopy _, getElem?_append_of_some horiginal _⟩
    · obtain ⟨⟨t, heq⟩, -⟩ | ⟨t, heq, hf⟩ := hstep
      · cases heq
      · cases heq
        exact ⟨family, hlast, getElem?_append_of_some hf _⟩
  · intro t ht
    have hold (t) (ht : t < tokenCount steps) :
        ∃ root, IsNew (steps ++ [step]) root ∧ Descends (steps ++ [step]) t root := by
      obtain ⟨root, hnew, hdescends⟩ := h.exists_root t ht
      exact ⟨root, hnew.append _, hdescends.append _⟩
    by_cases hlt : t < tokenCount steps
    · exact hold t hlt
    · simp only [tokenCount_concat, hadds, if_true] at ht
      obtain rfl : t = tokenCount steps := by omega
      obtain ⟨hcreate, -⟩ | ⟨original, rfl, hf⟩ := hstep
      · exact ⟨_, isNew_concat.mpr (Or.inr ⟨hcreate, rfl⟩), .refl⟩
      · have horiginal := (List.getElem?_eq_some_iff.mp hf).1
        rw [h.length_families] at horiginal
        obtain ⟨root, hnew, hdescends⟩ := hold original horiginal
        exact ⟨root, hnew, .head (isCloneOf_concat.mpr (Or.inr ⟨rfl, rfl⟩)) hdescends⟩
  · -- A root was there before, or its family is greater than all that were there.
    have hroot {root f} (hnew : IsNew (steps ++ [step]) root)
        (hf : (tokens.families ++ [family])[root]? = some f) :
        (IsNew steps root ∧ tokens.families[root]? = some f ∧ f < tokens.nextFamily) ∨
          root = tokenCount steps ∧ f = tokens.nextFamily := by
      rcases isNew_concat.mp hnew with hnew | ⟨⟨t, rfl⟩, rfl⟩
      · rw [List.getElem?_append_left (h.length_families ▸ hnew.lt_tokenCount)] at hf
        exact Or.inl ⟨hnew, hf, h.lt_nextFamily f (List.mem_of_getElem? hf)⟩
      · obtain ⟨-, rfl⟩ | ⟨t, heq, -⟩ := hstep
        · exact Or.inr ⟨rfl, Option.some.inj (hf.symm.trans hlast)⟩
        · cases heq
    intro root root' f hnew hnew' hf hf'
    rcases hroot hnew hf with ⟨hnew, hf, hlt⟩ | ⟨rfl, rfl⟩ <;>
      rcases hroot hnew' hf' with ⟨hnew', hf', hlt'⟩ | ⟨rfl, heq⟩
    · exact h.root_unique root root' f hnew hnew' hf hf'
    · omega
    · omega
    · rfl
  · intro t ht
    have hmem : Step.cancel t ∈ steps := by
      rcases List.mem_append.mp ht with ht | ht
      · exact ht
      · rw [← List.mem_singleton.mp ht] at hadds
        cases hadds
    obtain ⟨f, hcancelled, hf⟩ := h.families_cancel t hmem
    exact ⟨f, hcancelled, getElem?_append_of_some hf _⟩
  · intro f hf
    obtain ⟨t, hcancel, ht⟩ := h.exists_cancel f hf
    exact ⟨t, List.mem_append_left _ hcancel, getElem?_append_of_some ht _⟩
  · have hnone : step.checked? = none := by cases step <;> first | rfl | cases hadds
    simp [checkedTokens_concat, hnone, h.checkers_eq]

/-- A step that adds no token leaves the families as they are. -/
theorem keep {cancelled made : List Nat} (h : tokens.Reflects steps) (hadds : step.adds = false)
    (hcancel : ∀ t, .cancel t ∈ steps ++ [step] →
      ∃ family ∈ cancelled, tokens.families[t]? = some family)
    (hcancelled : ∀ family ∈ cancelled,
      ∃ t, .cancel t ∈ steps ++ [step] ∧ tokens.families[t]? = some family)
    (hmade : made = checkedTokens (steps ++ [step])) :
    Reflects { tokens with cancelled, checkers := made } (steps ++ [step]) where
  length_families := by simp [h.length_families, tokenCount_concat, hadds]
  lt_nextFamily := h.lt_nextFamily
  families_clone copy original hclone := by
    rcases isCloneOf_concat.mp hclone with hclone | ⟨rfl, -⟩
    · exact h.families_clone copy original hclone
    · cases hadds
  exists_root t ht := by
    simp only [tokenCount_concat, hadds] at ht
    obtain ⟨root, hnew, hdescends⟩ := h.exists_root t ht
    exact ⟨root, hnew.append _, hdescends.append _⟩
  root_unique root root' family hnew hnew' := by
    have hold {root} (hnew : IsNew (steps ++ [step]) root) : IsNew steps root := by
      rcases isNew_concat.mp hnew with hnew | ⟨⟨t, rfl⟩, -⟩
      · exact hnew
      · cases hadds
    exact h.root_unique root root' family (hold hnew) (hold hnew')
  families_cancel := hcancel
  exists_cancel := hcancelled
  checkers_eq := hmade

theorem cancel (h : tokens.Reflects steps) (hfamily : tokens.families[t]? = some family) :
    Reflects { tokens with cancelled := family :: tokens.cancelled } (steps ++ [.cancel t]) := by
  refine h.keep rfl ?_ ?_ (by simp [checkedTokens_concat, Step.checked?, h.checkers_eq])
  · intro s hs
    rcases List.mem_append.mp hs with hs | hs
    · obtain ⟨f, hcancelled, hf⟩ := h.families_cancel s hs
      exact ⟨f, List.mem_cons_of_mem _ hcancelled, hf⟩
    · cases List.mem_singleton.mp hs
      exact ⟨family, List.mem_cons_self, hfamily⟩
  · intro f hf
    rcases List.mem_cons.mp hf with rfl | hf
    · exact ⟨t, by simp, hfamily⟩
    · obtain ⟨s, hcancel, hs⟩ := h.exists_cancel f hf
      exact ⟨s, List.mem_append_left _ hcancel, hs⟩

/-- A step that neither adds nor cancels a token may still make a checker. -/
theorem look {made : List Nat} (h : tokens.Reflects steps) (hadds : step.adds = false)
    (hcancel : ∀ t, step ≠ .cancel t) (hmade : made = checkedTokens (steps ++ [step])) :
    Reflects { tokens with checkers := made } (steps ++ [step]) := by
  have hnot (t) : Step.cancel t ∈ steps ++ [step] ↔ Step.cancel t ∈ steps := by
    rw [List.mem_append, List.mem_singleton, or_iff_left (hcancel t).symm]
  refine h.keep hadds ?_ ?_ hmade
  · intro t ht
    exact h.families_cancel t ((hnot t).mp ht)
  · intro f hf
    obtain ⟨t, hcancel, ht⟩ := h.exists_cancel f hf
    exact ⟨t, (hnot t).mpr hcancel, ht⟩

/-- A step that asks changes nothing. -/
theorem ask (h : tokens.Reflects steps) (hasks : step.asks) :
    tokens.Reflects (steps ++ [step]) := by
  have hnone : step.checked? = none := by cases step <;> first | rfl | cases hasks
  refine h.look (by cases step <;> first | rfl | cases hasks) ?_ ?_
  · rintro t rfl
    cases hasks
  · rw [checkedTokens_concat, hnone, h.checkers_eq]
    exact (List.append_nil _).symm

theorem respond (h : tokens.Reflects steps) (ht : step.token? steps = some t)
    (hfamily : tokens.families[t]? = some family) :
    (tokens.respond family step).2.Reflects (steps ++ [step]) := by
  cases step with
  | create u => exact h.add (Nat.le_succ _) (Nat.lt_succ_self _) (Or.inl ⟨⟨u, rfl⟩, rfl⟩)
  | clone u =>
    cases ht
    exact h.add (Nat.le_refl _) (h.lt_nextFamily family (List.mem_of_getElem? hfamily))
      (Or.inr ⟨t, rfl, hfamily⟩)
  | cancel u =>
    cases ht
    exact h.cancel hfamily
  | isCancelled u => exact h.ask rfl
  | check u => exact h.ask rfl
  | checker u => exact h.ask rfl
  | makeChecker u =>
    refine h.look rfl (fun _ => Step.noConfusion) ?_
    rw [checkedTokens_concat, h.checkers_eq]
    rfl
  | callChecker c => exact h.ask rfl

theorem families_eq_of_connected (h : tokens.Reflects steps) (hconnected : Connected steps s t) :
    tokens.families[s]? = tokens.families[t]? := by
  induction hconnected with
  | rel copy original hclone =>
    obtain ⟨f, hcopy, horiginal⟩ := h.families_clone copy original hclone
    rw [hcopy, horiginal]
  | refl => rfl
  | symm _ _ _ ih => exact ih.symm
  | trans _ _ _ _ _ ih ih' => exact ih.trans ih'

/-- Tokens of one family descend from the same new token. -/
theorem exists_common_root (h : tokens.Reflects steps) (hs : tokens.families[s]? = some family)
    (ht : tokens.families[t]? = some family) :
    ∃ root, IsNew steps root ∧ Descends steps s root ∧ Descends steps t root := by
  have hlt {t} (ht : tokens.families[t]? = some family) : t < tokenCount steps := by
    rw [← h.length_families]
    exact (List.getElem?_eq_some_iff.mp ht).1
  obtain ⟨root, hnew, hdescends⟩ := h.exists_root s (hlt hs)
  obtain ⟨root', hnew', hdescends'⟩ := h.exists_root t (hlt ht)
  obtain rfl := h.root_unique root root' family hnew hnew'
    ((h.families_eq_of_connected hdescends.connected).symm.trans hs)
    ((h.families_eq_of_connected hdescends'.connected).symm.trans ht)
  exact ⟨root, hnew, hdescends, hdescends'⟩

/-- The family of a token is cancelled exactly if a cancelled token is connected with it. -/
theorem mem_cancelled_iff (h : tokens.Reflects steps) (ht : tokens.families[t]? = some family) :
    family ∈ tokens.cancelled ↔ IsReached steps t := by
  constructor
  · intro hmem
    obtain ⟨other, hcancel, hother⟩ := h.exists_cancel family hmem
    obtain ⟨root, -, hdescends, hdescends'⟩ := h.exists_common_root hother ht
    exact ⟨other, hcancel, .trans _ _ _ hdescends.connected (.symm _ _ hdescends'.connected)⟩
  · rintro ⟨other, hcancel, hconnected⟩
    obtain ⟨f, hmem, hf⟩ := h.families_cancel other hcancel
    rw [h.families_eq_of_connected hconnected, ht] at hf
    exact Option.some.inj hf ▸ hmem

end Reflects

theorem run?_concat (tokens : Tokens) (steps : List Step) (step : Step) :
    tokens.run? (steps ++ [step]) = (tokens.run? steps).bind fun (answers, last) =>
      (last.step? step).map fun (answer, after) => (answers ++ [answer], after) := by
  induction steps generalizing tokens with
  | nil =>
    cases h : tokens.step? step <;> simp [run?, h]
  | cons first rest ih =>
    cases h : tokens.step? first with
    | none => simp [run?, h]
    | some r =>
      cases h' : r.2.run? rest with
      | none => simp [run?, h, h', ih]
      | some r' => cases h'' : r'.2.step? step <;> simp [run?, h, h', h'', ih]

/-- Every step of a run is answered by tokens that reflect the steps before it. -/
structure Answered (steps : List Step) (answers : List Answer) : Prop where
  length_eq : answers.length = steps.length
  exists_respond : ∀ before step after, steps = before ++ step :: after →
    ∃ tokens t family, Reflects tokens before ∧ step.token? before = some t ∧
      tokens.families[t]? = some family ∧
        answers[before.length]? = some (tokens.respond family step).1

theorem exists_run? (h : NamesTokens steps) : ∃ answers last,
    empty.create.run? steps = some (answers, last) ∧ last.Reflects steps ∧
      Answered steps answers := by
  induction steps using List.reverseRecOn with
  | nil => exact ⟨[], _, rfl, reflects_start, rfl, by simp⟩
  | append_singleton steps step ih =>
    obtain ⟨hsteps, t, ht, hlt⟩ := namesTokens_append h
    obtain ⟨answers, last, hrun, hreflects, hanswered⟩ := ih hsteps
    rw [← hreflects.length_families] at hlt
    obtain ⟨family, hfamily⟩ : ∃ family, last.families[t]? = some family :=
      ⟨_, List.getElem?_eq_getElem hlt⟩
    refine ⟨answers ++ [(last.respond family step).1], (last.respond family step).2, ?_,
      hreflects.respond ht hfamily, ?_, ?_⟩
    · simp only [run?_concat, hrun, Option.bind_some, step?_eq hreflects.checkers_eq ht, hfamily,
        Option.map_some]
    · simp [hanswered.length_eq]
    · intro before s after heq
      rcases concat_eq_append_cons_iff.mp heq with ⟨rfl, rfl, -⟩ | ⟨rest, -, rfl⟩
      · refine ⟨last, t, family, hreflects, ht, hfamily, ?_⟩
        rw [← hanswered.length_eq]
        exact List.getElem?_concat_length
      · obtain ⟨tokens, t, f, hbefore, ht, hf, hanswer⟩ :=
          hanswered.exists_respond before s rest rfl
        exact ⟨tokens, t, f, hbefore, ht, hf, getElem?_append_of_some hanswer _⟩

end Tokens

theorem Step.report_inj {step : Step} {a b : Bool} : step.report a = step.report b ↔ a = b := by
  cases step <;> cases a <;> cases b <;> simp [report]

theorem Tokens.respond_of_asks {family : Nat} (h : step.asks) :
    tokens.respond family step = (step.report (tokens.cancelled.contains family), tokens) := by
  cases step <;> first | rfl | cases h

theorem Tokens.respond_of_adds {family : Nat} (h : step.adds) :
    (tokens.respond family step).1 = .index tokens.families.length := by
  cases step <;> first | rfl | cases h

/-- What a run answers is decided by which tokens were cancelled, and which are clones of which. A
checker is told what its token would be told when it is called, however long ago it was made. -/
structure SharesWithinFamilies (steps : List Step) (answers : List Answer) : Prop where
  added : ∀ before step after, steps = before ++ step :: after → step.adds →
    answers[before.length]? = some (.index (tokenCount before))
  made : ∀ before t after, steps = before ++ .makeChecker t :: after →
    answers[before.length]? = some (.index (checkedTokens before).length)
  reported : ∀ before step after, steps = before ++ step :: after → step.asks →
    ∃ t cancelled, step.token? before = some t ∧
      answers[before.length]? = some (step.report cancelled) ∧
        (cancelled = true ↔ IsReached before t)
  kept : ∀ before step between later after,
    steps = before ++ step :: (between ++ later :: after) → step.asks → later.asks →
    step.token? before = later.token? (before ++ step :: between) →
    answers[before.length]? = some (step.report true) →
    answers[(before ++ step :: between).length]? = some (later.report true)
  apart : ∀ before step after t root, steps = before ++ step :: after → step.asks →
    step.token? before = some t → answers[before.length]? = some (step.report true) →
    IsNew before root → Descends before t root →
    ∃ other, .cancel other ∈ before ∧ Descends before other root

theorem Tokens.Answered.reported (h : Tokens.Answered steps answers) {after : List Step}
    (heq : steps = before ++ step :: after) (hasks : step.asks) :
    ∃ t cancelled, step.token? before = some t ∧
      answers[before.length]? = some (step.report cancelled) ∧
        (cancelled = true ↔ IsReached before t) := by
  obtain ⟨tokens, t, family, hreflects, ht, hfamily, hanswer⟩ :=
    h.exists_respond before step after heq
  rw [Tokens.respond_of_asks hasks] at hanswer
  refine ⟨t, _, ht, hanswer, ?_⟩
  rw [List.contains_iff_mem, hreflects.mem_cancelled_iff hfamily]

/-- Whatever tokens are created, cloned, cancelled and asked for, a token is told to be cancelled
exactly if a token that is connected with it was cancelled before. -/
theorem Tokens.run?_sharesWithinFamilies (h : NamesTokens steps) : ∃ answers last,
    empty.create.run? steps = some (answers, last) ∧ answers.length = steps.length ∧
      SharesWithinFamilies steps answers := by
  obtain ⟨answers, last, hrun, -, hanswered⟩ := exists_run? h
  refine ⟨answers, last, hrun, hanswered.length_eq, ?_, ?_, ?_, ?_, ?_⟩
  · intro before step after heq hadds
    obtain ⟨tokens, t, family, hreflects, -, -, hanswer⟩ :=
      hanswered.exists_respond before step after heq
    rw [hanswer, respond_of_adds hadds, hreflects.length_families]
  · intro before t after heq
    obtain ⟨tokens, -, family, hreflects, -, -, hanswer⟩ :=
      hanswered.exists_respond before _ after heq
    rw [hanswer, ← hreflects.checkers_eq]
    rfl
  · intro before step after heq hasks
    exact hanswered.reported heq hasks
  · intro before step between later after heq hasks hasks' htoken hanswer
    obtain ⟨t, cancelled, ht, hreport, hiff⟩ := hanswered.reported heq hasks
    rw [hanswer, Option.some.injEq, Step.report_inj] at hreport
    have heq' : steps = (before ++ step :: between) ++ later :: after := by simp [heq]
    obtain ⟨t', cancelled', ht', hreport', hiff'⟩ := hanswered.reported heq' hasks'
    obtain rfl : t = t' := Option.some.inj (ht.symm.trans (htoken.trans ht'))
    have hreached := (hiff.mp hreport.symm).append (step :: between)
    rw [hreport', hiff'.mpr hreached]
  · intro before step after t root heq hasks ht hanswer hnew hdescends
    obtain ⟨tokens, t', family, hreflects, ht', hfamily, hrespond⟩ :=
      hanswered.exists_respond before step after heq
    obtain rfl : t = t' := Option.some.inj (ht.symm.trans ht')
    rw [respond_of_asks hasks, hanswer, Option.some.injEq, Step.report_inj, eq_comm,
      List.contains_iff_mem] at hrespond
    obtain ⟨other, hcancel, hother⟩ := hreflects.exists_cancel family hrespond
    obtain ⟨root', hnew', hdescends', htoken⟩ := hreflects.exists_common_root hother hfamily
    have hsame := hreflects.families_eq_of_connected hdescends.connected
    have hsame' := hreflects.families_eq_of_connected htoken.connected
    obtain rfl := hreflects.root_unique root root' family hnew hnew' (hsame ▸ hfamily)
      (hsame' ▸ hfamily)
    exact ⟨other, hcancel, hdescends'⟩

/-- A clone of a clone is cancelled. Then the first token is cloned once more. -/
def cloneAfterCancel : List Step :=
  [.clone 0, .create 0, .clone 1, .makeChecker 0, .cancel 3, .clone 0, .isCancelled 4, .check 2,
    .checker 0, .callChecker 0]

/-- The late clone is cancelled from the start, and so is what the first checker looks at. The token
that was created apart is not. -/
theorem cloneAfterCancel_sharesWithinFamilies : NamesTokens cloneAfterCancel ∧
    ∃ answers last, Tokens.empty.create.run? cloneAfterCancel = some (answers, last) ∧
      answers[6]? = some (.flag true) ∧ answers[7]? = some (.checked (.ok ())) ∧
      answers[9]? = some (.checked (.error {})) ∧
      SharesWithinFamilies cloneAfterCancel answers := by
  have h : NamesTokens cloneAfterCancel := by decide
  obtain ⟨answers, last, hrun, -, hshares⟩ := Tokens.run?_sharesWithinFamilies h
  cases hrun
  exact ⟨h, _, _, rfl, rfl, rfl, rfl, hshares⟩

end ExtractMethod.Cancel
