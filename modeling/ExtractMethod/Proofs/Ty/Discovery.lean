import ExtractMethod.Proofs.Ty.Reachable
import ExtractMethod.Proofs.Ty.Traversal
import Mathlib.Data.List.Perm.Subperm

/-! Closing over constraints goes through the type parameters breadth first. The order in which it
comes to them is described round by round, without a queue. -/
namespace ExtractMethod

open Poll (Answers Gives)

variable {env decls : List ParamDecl} {roots found more order visited queue rest : List Nat}
  {id n : Nat} {decl : ParamDecl} {params : List TypeParamRef}

/-- The parameters that the constraints of a parameter mention, from left to right. One that is not
declared mentions none. -/
def usedBy (env : List ParamDecl) (id : Nat) : List Nat :=
  (env.find? fun decl => decl.id = id).elim [] fun decl =>
    (Ty.paramUsesAll decl.constraints).map TypeParamRef.id

/-- The roots and what the parameters in the list mention, each where it comes first. -/
def discovered (env : List ParamDecl) (roots found : List Nat) : List Nat :=
  (roots ++ found.flatMap (usedBy env)).eraseDups

/-- Everything that is discovered in so many rounds. A round looks at all that the one before it has
discovered. -/
def rounds (env : List ParamDecl) (roots : List Nat) : Nat → List Nat
  | 0 => []
  | n + 1 => discovered env roots (rounds env roots n)

theorem find?_id_of_mem (hkeyed : (env.map ParamDecl.id).Nodup) (hdecl : decl ∈ env) :
    env.find? (fun other => other.id = decl.id) = some decl := by
  obtain ⟨found, hfound⟩ : ∃ found, env.find? (fun other => other.id = decl.id) = some found := by
    rw [← Option.isSome_iff_exists, List.find?_isSome]
    exact ⟨decl, hdecl, by simp⟩
  have hid : found.id = decl.id := by simpa using List.find?_some hfound
  rw [hfound, List.inj_on_of_nodup_map hkeyed (List.mem_of_find?_eq_some hfound) hdecl hid]

theorem usedBy_eq_of_find? (hdecl : env.find? (fun decl => decl.id = id) = some decl) :
    usedBy env id = (Ty.paramUsesAll decl.constraints).map TypeParamRef.id := by
  rw [usedBy, hdecl]
  rfl

theorem exists_of_mem_usedBy {next : Nat} (h : next ∈ usedBy env id) : ∃ decl ∈ env, decl.id = id ∧
    ∃ ty ∈ decl.constraints, ∃ param ∈ ty.paramUses, param.id = next := by
  cases hfind : env.find? fun decl => decl.id = id with
  | none =>
    rw [usedBy, hfind] at h
    exact absurd h List.not_mem_nil
  | some decl =>
    rw [usedBy_eq_of_find? hfind] at h
    obtain ⟨param, hparam, heq⟩ := List.mem_map.mp h
    obtain ⟨ty, hty, hparam⟩ := Ty.mem_paramUsesAll.mp hparam
    exact ⟨decl, List.mem_of_find?_eq_some hfind, by simpa using List.find?_some hfind, ty, hty,
      param, hparam, heq⟩

theorem mem_usedBy {ty : Ty} {param : TypeParamRef} (hkeyed : (env.map ParamDecl.id).Nodup)
    (hdecl : decl ∈ env) (hty : ty ∈ decl.constraints) (hparam : param ∈ ty.paramUses) :
    param.id ∈ usedBy env decl.id := by
  rw [usedBy_eq_of_find? (find?_id_of_mem hkeyed hdecl)]
  exact List.mem_map_of_mem (Ty.mem_paramUsesAll.mpr ⟨ty, hty, hparam⟩)

theorem mem_discovered : id ∈ discovered env roots found ↔
    id ∈ roots ∨ ∃ other ∈ found, id ∈ usedBy env other := by
  rw [discovered, List.mem_eraseDups, List.mem_append, List.mem_flatMap]

theorem nodup_discovered : (discovered env roots found).Nodup := by
  rw [discovered, eraseDups_eq_newIds]
  exact nodup_newIds _ _

theorem discovered_append : discovered env roots (found ++ more) =
    discovered env roots found ++
      newIds (discovered env roots found) (more.flatMap (usedBy env)) := by
  simp only [discovered, eraseDups_eq_newIds]
  rw [List.flatMap_append, ← List.append_assoc, newIds_append]
  rfl

/-- Looking at more parameters keeps the order of what is discovered anyway. -/
theorem discovered_prefix (env : List ParamDecl) (roots : List Nat) (h : found <+: more) :
    discovered env roots found <+: discovered env roots more := by
  obtain ⟨later, rfl⟩ := h
  rw [discovered_append]
  exact List.prefix_append _ _

theorem rounds_prefix_succ (env : List ParamDecl) (roots : List Nat) (n : Nat) :
    rounds env roots n <+: rounds env roots (n + 1) := by
  induction n with
  | zero => exact List.nil_prefix
  | succ n ih => exact discovered_prefix env roots ih

/-- A round discovers what is one mention further away than what the round before it has
discovered. -/
theorem mem_rounds (hkeyed : (env.map ParamDecl.id).Nodup) :
    id ∈ rounds env roots n ↔ ∃ m < n, ReachableIn env roots m id := by
  induction n generalizing id with
  | zero => simp [rounds]
  | succ n ih =>
    rw [rounds, mem_discovered]
    constructor
    · rintro (hroot | ⟨other, hother, hid⟩)
      · exact ⟨0, Nat.zero_lt_succ n, .root hroot⟩
      · obtain ⟨m, hm, hreach⟩ := ih.mp hother
        obtain ⟨decl, hdecl, rfl, ty, hty, param, hparam, rfl⟩ := exists_of_mem_usedBy hid
        exact ⟨m + 1, Nat.succ_lt_succ hm, .mentioned hreach hdecl hty hparam⟩
    · rintro ⟨m, hm, hreach⟩
      cases hreach with
      | root hroot => exact Or.inl hroot
      | mentioned hreach hdecl hty hparam =>
        exact Or.inr ⟨_, ih.mpr ⟨_, Nat.lt_of_succ_lt_succ hm, hreach⟩,
          mem_usedBy hkeyed hdecl hty hparam⟩

/-- There are only so many parameters, so some round discovers nothing new. -/
theorem exists_last_round (env : List ParamDecl) (roots : List Nat) :
    ∃ n, rounds env roots (n + 1) = rounds env roots n := by
  by_contra hnone
  have hgrows (n : Nat) : n ≤ (rounds env roots n).length := by
    induction n with
    | zero => exact Nat.zero_le _
    | succ n ih =>
      have hgrown := rounds_prefix_succ env roots n
      have hne : ¬ (rounds env roots (n + 1)).length ≤ (rounds env roots n).length :=
        fun hle => hnone ⟨n, (hgrown.eq_of_length_le hle).symm⟩
      omega
  -- Whatever is discovered is a root or is mentioned in some declaration.
  let all := roots ++ env.flatMap fun decl => (Ty.paramUsesAll decl.constraints).map TypeParamRef.id
  have hsub (n : Nat) : rounds env roots n ⊆ all := by
    cases n with
    | zero => exact List.nil_subset _
    | succ n =>
      intro id hid
      rw [rounds, mem_discovered] at hid
      refine List.mem_append.mpr (hid.imp_right ?_)
      rintro ⟨other, -, hid⟩
      obtain ⟨decl, hdecl, -, ty, hty, param, hparam, rfl⟩ := exists_of_mem_usedBy hid
      exact List.mem_flatMap.mpr ⟨decl, hdecl,
        List.mem_map_of_mem (Ty.mem_paramUsesAll.mpr ⟨ty, hty, hparam⟩)⟩
  have hlength := (nodup_discovered.subperm (hsub (all.length + 1))).length_le
  have := hgrows (all.length + 1)
  rw [rounds] at this
  omega

/-- The list has everything that is reachable, in the order in which it is discovered: first the
roots, then what the first of the list mentions, what the second mentions, and so on. What is nearer
to a root comes first. -/
structure IsBreadthFirst (env : List ParamDecl) (roots order : List Nat) : Prop where
  nodup : order.Nodup
  mem_iff : ∀ id, id ∈ order ↔ Reachable env roots id
  eq_discovered : order = discovered env roots order
  nearer : order.Pairwise fun a b =>
    ∀ n, ReachableIn env roots n b → ∃ m ≤ n, ReachableIn env roots m a

/-- What stands before a member of an initial part is in that part too. -/
theorem pairwise_mem_initial {l p : List Nat} (hl : l.Nodup) (hp : p <+: l) :
    l.Pairwise fun a b => b ∈ p → a ∈ p := by
  obtain ⟨q, rfl⟩ := hp
  obtain ⟨-, -, hdisjoint⟩ := List.nodup_append.mp hl
  refine List.pairwise_append.mpr ⟨?_, ?_, ?_⟩
  · exact List.pairwise_of_forall_mem_list fun a ha _ _ _ => ha
  · exact List.pairwise_of_forall_mem_list fun _ _ b hb hbp => absurd rfl (hdisjoint b hbp b hb)
  · exact fun a ha _ _ _ => ha

theorem exists_isBreadthFirst (hkeyed : (env.map ParamDecl.id).Nodup) (roots : List Nat) :
    ∃ order, IsBreadthFirst env roots order := by
  obtain ⟨n, hlast⟩ := exists_last_round env roots
  have hlater (m : Nat) : rounds env roots m <+: rounds env roots n := by
    induction m with
    | zero => exact List.nil_prefix
    | succ m ih =>
      have := discovered_prefix env roots ih
      rwa [← rounds, ← rounds, hlast] at this
  have hnodup : (rounds env roots n).Nodup := hlast ▸ nodup_discovered
  refine ⟨rounds env roots n, hnodup, fun id => ?_, hlast.symm, ?_⟩
  · rw [reachable_iff_exists_reachableIn]
    constructor
    · intro hid
      obtain ⟨m, -, hreach⟩ := (mem_rounds hkeyed).mp hid
      exact ⟨m, hreach⟩
    · rintro ⟨m, hreach⟩
      exact (hlater (m + 1)).subset ((mem_rounds hkeyed).mpr ⟨m, Nat.lt_succ_self m, hreach⟩)
  · refine List.pairwise_iff_getElem.mpr fun i j hi hj hij m hreach => ?_
    have hpairs := List.pairwise_iff_getElem.mp (pairwise_mem_initial hnodup (hlater (m + 1)))
    have hmem := hpairs i j hi hj hij ((mem_rounds hkeyed).mpr ⟨m, Nat.lt_succ_self m, hreach⟩)
    obtain ⟨k, hk, hreach⟩ := (mem_rounds hkeyed).mp hmem
    exact ⟨k, Nat.le_of_lt_succ hk, hreach⟩

/-- A list that has the roots, and with every parameter those that it mentions, has all that is
reachable. -/
theorem Reachable.mem_of_discovered_eq (hkeyed : (env.map ParamDecl.id).Nodup)
    (h : Reachable env roots id) (hclosed : discovered env roots found = found) : id ∈ found := by
  induction h with
  | root hid =>
    rw [← hclosed]
    exact mem_discovered.mpr (Or.inl hid)
  | mentioned _ hdecl hty hparam ih =>
    rw [← hclosed]
    exact mem_discovered.mpr (Or.inr ⟨_, ih, mem_usedBy hkeyed hdecl hty hparam⟩)

/-- The declaration of a parameter, which must be there. -/
def declared (env : List ParamDecl) (id : Nat) : Except ParamError ParamDecl :=
  (env.find? fun decl => decl.id = id).elim (.error (.unknown id)) .ok

theorem newIds_mentioned (known : List Nat)
    (hdecl : env.find? (fun decl => decl.id = id) = some decl) :
    newIds known decl.mentioned = newIds known (usedBy env id) := by
  rw [ParamDecl.mentioned, Ty.collectParamsAll_eq_foldl, Ty.map_id_foldl_addParam,
    usedBy_eq_of_find? hdecl]
  exact newIds_newIds _ nofun

theorem find?_filter_not_mem (h : id ∉ visited) :
    (env.filter fun decl => decl.id ∉ visited).find? (fun decl => decl.id = id) =
      env.find? fun decl => decl.id = id := by
  rw [List.find?_filter]
  congr 1
  funext decl
  by_cases hid : decl.id = id
  · simp [hid, h]
  · simp [hid]

theorem without_filter_not_mem : without id (env.filter fun decl => decl.id ∉ visited) =
    env.filter fun decl => decl.id ∉ visited ++ [id] := by
  rw [without, List.filter_filter]
  congr 1
  funext decl
  simp [not_or, and_comm]

/-- A walk in the middle. What it has visited and the queue are what is discovered by looking at all
that it has visited, so it visits the rest of the order and looks up the declarations on its way. -/
theorem IsBreadthFirst.answers_reachableFrom (h : IsBreadthFirst env roots order)
    (hkeyed : (env.map ParamDecl.id).Nodup) (horder : order = visited ++ rest)
    (hreached : discovered env roots visited = visited ++ queue) :
    Answers (reachableFrom (env.filter fun decl => decl.id ∉ visited) (visited ++ queue) queue).run
      (rest.mapM (declared env)) := by
  induction rest generalizing visited queue with
  | nil =>
    rw [List.append_nil] at horder
    have hqueue : queue = [] := by
      rw [← horder, ← h.eq_discovered] at hreached
      exact List.self_eq_append_right.mp hreached
    rw [hqueue, reachableFrom]
    exact Poll.answers_pure.mpr rfl
  | cons id rest ih =>
    have hinitial : visited ++ queue <+: visited ++ id :: rest := by
      rw [← hreached, ← horder, h.eq_discovered]
      exact discovered_prefix env roots ⟨id :: rest, horder.symm⟩
    obtain ⟨later, hlater⟩ := (List.prefix_append_right_inj visited).mp hinitial
    have hid : id ∉ visited := by
      intro hid
      have hnodup := h.nodup
      rw [horder] at hnodup
      exact absurd rfl ((List.nodup_append.mp hnodup).2.2 id hid id List.mem_cons_self)
    cases queue with
    | nil =>
      -- Nothing is left to look at, so what was visited is all there is.
      have hmem : id ∈ order := by
        rw [horder]
        exact List.mem_append_right _ List.mem_cons_self
      rw [List.append_nil] at hreached
      exact absurd (((h.mem_iff id).mp hmem).mem_of_discovered_eq hkeyed hreached) hid
    | cons next queue =>
      obtain ⟨rfl, -⟩ := List.cons.inj hlater
      rw [reachableFrom, List.mapM_cons, declared]
      refine Poll.answers_ask_bind ?_
      split
      · next hnone =>
        rw [find?_filter_not_mem hid] at hnone
        rw [hnone]
        exact Poll.answers_pure.mpr rfl
      · next decl hdecl =>
        rw [find?_filter_not_mem hid] at hdecl
        rw [hdecl]
        refine Poll.answers_bind_pure (f := (decl :: ·)) ?_
        have hassoc (fresh : List Nat) : visited ++ next :: queue ++ fresh =
            visited ++ [next] ++ (queue ++ fresh) := by simp
        rw [without_filter_not_mem, hassoc]
        refine ih (by rw [horder, List.append_cons]) ?_
        rw [discovered_append, List.flatMap_singleton, newIds_mentioned _ hdecl, hreached, hassoc]

theorem IsBreadthFirst.answers_constraintClosure
    (h : IsBreadthFirst env (params.map TypeParamRef.id) order)
    (hkeyed : (env.map ParamDecl.id).Nodup) :
    Answers (constraintClosure env params).run
      ((order.mapM (declared env)).map fun decls =>
        decls.filter fun decl => decl.owner = .method) := by
  have hstart : discovered env (params.map TypeParamRef.id) [] =
      newIds [] (params.map TypeParamRef.id) := by
    rw [discovered, List.flatMap_nil, List.append_nil, eraseDups_eq_newIds]
  have hwalk := h.answers_reachableFrom hkeyed (List.nil_append _).symm hstart
  rw [constraintClosure]
  refine Poll.answers_bind_pure ?_
  simpa using hwalk

/-- What the list of all declarations in the given order is: complete, or cut off at the first
parameter that is not declared. -/
theorem mapM_declared (env : List ParamDecl) (ids : List Nat) :
    (∃ decls, ids.mapM (declared env) = .ok decls ∧ decls.map ParamDecl.id = ids ∧
      ∀ decl ∈ decls, decl ∈ env) ∨
    ∃ before id after, ids = before ++ id :: after ∧
      (∀ other ∈ before, other ∈ env.map ParamDecl.id) ∧
      id ∉ env.map ParamDecl.id ∧ ids.mapM (declared env) = .error (.unknown id) := by
  induction ids with
  | nil => exact Or.inl ⟨[], rfl, rfl, nofun⟩
  | cons id rest ih =>
    rw [List.mapM_cons, declared]
    cases hfind : env.find? fun decl => decl.id = id with
    | none =>
      refine Or.inr ⟨[], id, rest, rfl, nofun, ?_, rfl⟩
      intro hid
      obtain ⟨decl, hdecl, heq⟩ := List.mem_map.mp hid
      simpa [heq] using List.find?_eq_none.mp hfind decl hdecl
    | some decl =>
      have hdecl := List.mem_of_find?_eq_some hfind
      have hid : decl.id = id := by simpa using List.find?_some hfind
      rcases ih with ⟨decls, hdecls, hids, hknown⟩ |
        ⟨before, other, after, hids, hbefore, hother, herror⟩
      · refine Or.inl ⟨decl :: decls, ?_, by rw [List.map_cons, hid, hids], ?_⟩
        · rw [hdecls]
          rfl
        · exact List.forall_mem_cons.mpr ⟨hdecl, hknown⟩
      · refine Or.inr ⟨id :: before, other, after, by rw [hids, List.cons_append], ?_, hother, ?_⟩
        · exact List.forall_mem_cons.mpr ⟨hid ▸ List.mem_map_of_mem hdecl, hbefore⟩
        · rw [herror]
          rfl

/-- What closing over constraints answers when it comes to the parameters in the given order. -/
structure ClosesInOrder (env : List ParamDecl) (roots order : List Nat)
    (answer : Except ParamError (List ParamDecl)) : Prop where
  declared : DeclaresReachable env roots → ∃ decls, answer = .ok decls ∧
    (decls.map ParamDecl.id).Sublist order ∧
    ∀ decl, decl ∈ decls ↔ decl ∈ env ∧ decl.owner = .method ∧ Reachable env roots decl.id
  undeclared : ¬ DeclaresReachable env roots → ∃ before id after, answer = .error (.unknown id) ∧
    order = before ++ id :: after ∧ (∀ other ∈ before, other ∈ env.map ParamDecl.id) ∧
    id ∉ env.map ParamDecl.id

theorem IsBreadthFirst.closesInOrder (h : IsBreadthFirst env roots order)
    (hkeyed : (env.map ParamDecl.id).Nodup) : ClosesInOrder env roots order
      ((order.mapM (declared env)).map fun decls =>
        decls.filter fun decl => decl.owner = .method) := by
  rcases mapM_declared env order with ⟨decls, hdecls, hids, hknown⟩ |
    ⟨before, id, after, horder, hbefore, hid, herror⟩
  · have hmem {decl : ParamDecl} (hdecl : decl ∈ env) :
      decl ∈ decls ↔ Reachable env roots decl.id := by
      rw [← h.mem_iff, ← hids]
      constructor
      · exact List.mem_map_of_mem
      · intro hid
        obtain ⟨other, hother, heq⟩ := List.mem_map.mp hid
        exact List.inj_on_of_nodup_map hkeyed (hknown other hother) hdecl heq ▸ hother
    rw [hdecls]
    refine ⟨fun _ => ⟨_, rfl, ?_, fun decl => ?_⟩, fun hnot => absurd ?_ hnot⟩
    · rw [← hids]
      exact List.filter_sublist.map _
    · rw [List.mem_filter, decide_eq_true_eq]
      constructor
      · rintro ⟨hdecl, howner⟩
        exact ⟨hknown decl hdecl, howner, (hmem (hknown decl hdecl)).mp hdecl⟩
      · rintro ⟨hdecl, howner, hreach⟩
        exact ⟨(hmem hdecl).mpr hreach, howner⟩
    · intro id hid
      rw [← h.mem_iff, ← hids] at hid
      obtain ⟨decl, hdecl, heq⟩ := List.mem_map.mp hid
      exact ⟨decl, hknown decl hdecl, heq⟩
  · rw [herror]
    refine ⟨fun hdeclared => absurd ?_ hid, fun _ => ⟨before, id, after, rfl, horder, hbefore, hid⟩⟩
    have hreach : Reachable env roots id := by
      rw [← h.mem_iff, horder]
      exact List.mem_append_right _ List.mem_cons_self
    obtain ⟨decl, hdecl, heq⟩ := hdeclared id hreach
    exact heq ▸ List.mem_map_of_mem hdecl

/-- The closure exists exactly if everything reachable is declared. -/
theorem exists_gives_constraintClosure_iff (hkeyed : (env.map ParamDecl.id).Nodup) :
    (∃ decls, Gives (constraintClosure env params) decls) ↔
      DeclaresReachable env (params.map TypeParamRef.id) := by
  obtain ⟨order, horder⟩ := exists_isBreadthFirst hkeyed (params.map TypeParamRef.id)
  have hanswers := horder.answers_constraintClosure hkeyed
  constructor
  · rintro ⟨decls, hdecls⟩
    by_contra hnot
    obtain ⟨_, id, _, herror, -⟩ := (horder.closesInOrder hkeyed).undeclared hnot
    rw [herror] at hanswers
    cases hanswers.unique hdecls
  · intro hdeclared
    obtain ⟨decls, hdecls, -⟩ := (horder.closesInOrder hkeyed).declared hdeclared
    rw [hdecls] at hanswers
    exact ⟨decls, hanswers⟩

/-- What the closure has are the declarations of the method's own parameters that are reachable. -/
theorem gives_constraintClosure (hkeyed : (env.map ParamDecl.id).Nodup)
    (h : Gives (constraintClosure env params) decls) :
    DeclaresReachable env (params.map TypeParamRef.id) ∧ (decls.map ParamDecl.id).Nodup ∧
      ∀ decl, decl ∈ decls ↔ decl ∈ env ∧ decl.owner = .method ∧
        Reachable env (params.map TypeParamRef.id) decl.id := by
  have hdeclared := (exists_gives_constraintClosure_iff hkeyed).mp ⟨decls, h⟩
  obtain ⟨order, horder⟩ := exists_isBreadthFirst hkeyed (params.map TypeParamRef.id)
  obtain ⟨decls', hdecls, hsublist, hmem⟩ := (horder.closesInOrder hkeyed).declared hdeclared
  have hanswers := horder.answers_constraintClosure hkeyed
  rw [hdecls] at hanswers
  cases hanswers.unique h
  exact ⟨hdeclared, hsublist.nodup horder.nodup, hmem⟩

/-- Closing over constraints always ends. It comes to everything that is reachable breadth first,
and answers with the declarations of the method's own parameters among these, or with the first
parameter that is not declared. -/
theorem constraintClosure_breadthFirst (params : List TypeParamRef)
    (hkeyed : (env.map ParamDecl.id).Nodup) : ∃ order answer,
      IsBreadthFirst env (params.map TypeParamRef.id) order ∧
      ClosesInOrder env (params.map TypeParamRef.id) order answer ∧
      Poll.run (constraintClosure env params).run .unlimited = .ok answer := by
  obtain ⟨order, horder⟩ := exists_isBreadthFirst hkeyed (params.map TypeParamRef.id)
  exact ⟨order, _, horder, horder.closesInOrder hkeyed,
    Poll.answers_iff_run.mp (horder.answers_constraintClosure hkeyed)⟩

/-- The constraints of `T` and `U` mention each other. That of `U` also mentions the type's own
`TOuter`, and the constraint of that mentions `V`. -/
def paramsInCycle : List ParamDecl := [
  ⟨0, "T", .method, [.named "IFoo" [.typeParam ⟨1, "U"⟩] .interfaceType]⟩,
  ⟨1, "U", .method, [.named "IBar" [.typeParam ⟨0, "T"⟩] .interfaceType, .typeParam ⟨2, "TOuter"⟩]⟩,
  ⟨2, "TOuter", .type, [.array (.typeParam ⟨3, "V"⟩)]⟩, ⟨3, "V", .method, []⟩]

/-- From `U` the closure comes to `T`, and through `TOuter` to `V`, which it misses if nobody
declares it. -/
theorem ofCycle_constraintClosure_breadthFirst :
    (paramsInCycle.map ParamDecl.id).Nodup ∧ ((without 3 paramsInCycle).map ParamDecl.id).Nodup ∧
      (∃ order decls, IsBreadthFirst paramsInCycle [1] order ∧
        ClosesInOrder paramsInCycle [1] order (.ok decls) ∧ decls.map ParamDecl.id = [1, 0, 3]) ∧
      ∃ order, IsBreadthFirst (without 3 paramsInCycle) [1] order ∧
        ClosesInOrder (without 3 paramsInCycle) [1] order (.error (.unknown 3)) := by
  have hkeyed : (paramsInCycle.map ParamDecl.id).Nodup := by decide
  have hkeyed' : ((without 3 paramsInCycle).map ParamDecl.id).Nodup := by decide
  refine ⟨hkeyed, hkeyed', ?_, ?_⟩
  · obtain ⟨order, answer, horder, hcloses, hrun⟩ :=
      constraintClosure_breadthFirst [⟨1, "U"⟩] hkeyed
    have hview : (Poll.run (constraintClosure paramsInCycle [⟨1, "U"⟩]).run .unlimited).map
        (Except.map (List.map ParamDecl.id)) = .ok (.ok [1, 0, 3]) := by decide +kernel
    rw [hrun] at hview
    cases answer with
    | error e => cases hview
    | ok decls => exact ⟨order, decls, horder, hcloses, by simpa [Except.map] using hview⟩
  · obtain ⟨order, answer, horder, hcloses, hrun⟩ :=
      constraintClosure_breadthFirst [⟨1, "U"⟩] hkeyed'
    have hview :
      (Poll.run (constraintClosure (without 3 paramsInCycle) [⟨1, "U"⟩]).run .unlimited).map
        (Except.map (List.map ParamDecl.id)) = .ok (.error (.unknown 3)) := by decide +kernel
    rw [hrun] at hview
    cases answer with
    | ok decls => cases hview
    | error e =>
      cases hview
      exact ⟨order, horder, hcloses⟩

end ExtractMethod
