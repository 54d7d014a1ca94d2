import NewApi.Lib.JsonPath

/-!
# Values that only grow

A value has grown if all that was in it is still there: whatever is no container is the same, and
every container still has its fields and items.  Writing at a path that leads nowhere makes a value
grow by just what is written, where the path leaves an object, or an array behind its last item, and
makes up no nulls on the way.
-/

namespace NewApi.Lib.JsonTree

universe u

variable {N : Type u}

/-- The same value, or the same kind of container. -/
def SameKind (x y : JsonTree N) : Prop :=
  match x with
  | arr _ _ => ∃ n item, y = arr n item
  | obj _ _ => ∃ keys value, y = obj keys value
  | x => y = x

/-- All that was there is still there. -/
def Grows (t t' : JsonTree N) : Prop :=
  ∀ path x, t.get path = some x → ∃ y, t'.get path = some y ∧ SameKind x y

/-- Whatever is new lies on the path, or below it. -/
def OnlyAlong (path : List String) (t t' : JsonTree N) : Prop :=
  ∀ other, t.get other = none → (t'.get other).isSome = true → ¬ Apart path other

/-- No nulls are made up for these parts. -/
def NoPadding (parts : List String) : Prop :=
  ∀ part ∈ parts, part ≠ "-1" ∧ ∀ i, index part = some i → i = 0

/-- A container that can grow by this part alone. -/
def Roomy (t : JsonTree N) (part : String) : Prop :=
  match t with
  | obj _ _ => True
  | arr n _ => part = n.repr
  | _ => False

/-- The path leads out of an object, or out of an array behind its last item. -/
def Addable : JsonTree N → List String → Prop
  | _, [] => False
  | t, part :: rest =>
      match t.child part with
      | some c => c.Addable rest
      | none => t.Roomy part ∧ NoPadding rest

section

variable {t t' c v x y : JsonTree N} {part : String} {parts rest path : List String}

theorem SameKind.refl (x : JsonTree N) : SameKind x x := by
  cases x with
  | arr n item => exact ⟨n, item, rfl⟩
  | obj keys value => exact ⟨keys, value, rfl⟩
  | _ => rfl

theorem Grows.refl (t : JsonTree N) : Grows t t :=
  fun _ x hget => ⟨x, hget, .refl x⟩

/-- A value that is no container is the same. -/
theorem Grows.root (hgrows : Grows t t') : SameKind t t' := by
  obtain ⟨y, hy, hkind⟩ := hgrows [] t rfl
  cases hy
  exact hkind

theorem Grows.child {c' : JsonTree N} (hgrows : Grows t t') (hchild : t.child part = some c)
    (hchild' : t'.child part = some c') : Grows c c' := by
  intro path x hget
  obtain ⟨y, hy, hkind⟩ := hgrows (part :: path) x (by rw [get_cons, hchild]; exact hget)
  rw [get_cons, hchild'] at hy
  exact ⟨y, hy, hkind⟩

/-- A value grows with its fields and items. -/
theorem Grows.of_children (hkind : SameKind t t')
    (hchildren : ∀ part c, t.child part = some c → ∃ c', t'.child part = some c' ∧ Grows c c') :
    Grows t t' := by
  intro path x hget
  cases path with
  | nil =>
      cases hget
      exact ⟨t', rfl, hkind⟩
  | cons part rest =>
      obtain ⟨c, hc, hx⟩ := Option.bind_eq_some_iff.1 hget
      obtain ⟨c', hc', hgrows⟩ := hchildren part c hc
      obtain ⟨y, hy, hsame⟩ := hgrows rest x hx
      exact ⟨y, by rw [get_cons, hc']; exact hy, hsame⟩

theorem Grows.at {c' : JsonTree N} (hgrows : Grows t t') (hget : t.get path = some c)
    (hget' : t'.get path = some c') : Grows c c' := by
  intro rest x hx
  obtain ⟨y, hy, hkind⟩ := hgrows (path ++ rest) x (by rw [get_append, hget]; exact hx)
  rw [get_append, hget'] at hy
  exact ⟨y, hy, hkind⟩

/-- A container stays one when something is put into it. -/
theorem sameKind_put (hput : t.put part c = some t')
    (hroomy : t.Roomy part ∨ (t.child part).isSome) : SameKind t t' := by
  cases t with
  | arr n item =>
      obtain ⟨m, item', rfl, -⟩ := put_arr hput
      exact ⟨m, item', rfl⟩
  | obj keys value =>
      cases hput
      exact ⟨_, _, rfl⟩
  | _ => rcases hroomy with hroomy | hroomy <;> cases hroomy

/-- A value grows when a field or an item of it is replaced by what has grown. -/
theorem Grows.put {c' : JsonTree N} (hgrows : Grows c c') (hc : t.child part = some c)
    (hput : t.put part c' = some t') : Grows t t' := by
  refine .of_children (sameKind_put hput (.inr (by rw [hc]; rfl))) fun other d hd => ?_
  by_cases heq : other = part
  · subst heq
    obtain rfl := Option.some.inj (hc.symm.trans hd)
    exact ⟨c', child_put_self hput (not_appends_of_child hc), hgrows⟩
  · exact ⟨d, child_put_other hput heq hd, .refl d⟩

/-- A value grows when something in it is replaced by what has grown. -/
theorem grows_replace (hget : t.get path = some c) (hset : t.set path v = some t')
    (hgrows : Grows c v) : Grows t t' := by
  induction path generalizing t t' with
  | nil =>
      cases hget
      cases hset
      exact hgrows
  | cons part rest ih =>
      obtain ⟨d, hd, hget⟩ := Option.bind_eq_some_iff.1 hget
      obtain ⟨c', hput, hnew⟩ := set_cons hset
      rcases hnew with ⟨e, he, hset'⟩ | ⟨hnone, -⟩
      · obtain rfl := Option.some.inj (he.symm.trans hd)
        exact (ih hget hset').put hd hput
      · rw [hnone] at hd
        cases hd

/-- Numbers that change are not the same. -/
theorem grows_map_iff {f : N → N} : Grows t (t.map f) ↔ t.map f = t := by
  constructor
  · intro hgrows
    induction t with
    | num n => exact hgrows.root
    | arr n item ih =>
        exact congrArg (arr n) (funext fun i => ih i
          (hgrows.child (child_arr_of_lt i.2) (child_arr_of_lt i.2)))
    | obj keys value ih =>
        exact congrArg (obj keys) (funext fun key => ih key
          (hgrows.child (child_obj_of_mem key.2) (child_obj_of_mem key.2)))
    | _ => rfl
  · intro heq
    rw [heq]
    exact .refl t

/-! ## What is made up for a path -/

theorem build_cons_noPadding (hpad : NoPadding (part :: rest)) (v : JsonTree N) :
    build (part :: rest) v = grow part (build rest v) :=
  if_neg (hpad part List.mem_cons_self).1

theorem onlyAlong_build (hpad : NoPadding parts) {other : List String}
    (hsome : ((build parts v).get other).isSome = true) : ¬ Apart parts other := by
  induction parts generalizing other with
  | nil => exact not_apart_nil other
  | cons part rest ih =>
      rw [build_cons_noPadding hpad] at hsome
      cases other with
      | nil => exact fun hapart => not_apart_nil _ ((apart_comm _ _).1 hapart)
      | cons key other =>
          obtain ⟨y, hy⟩ := Option.isSome_iff_exists.1 hsome
          obtain ⟨c, hc, hrest⟩ := Option.bind_eq_some_iff.1 hy
          have hkey : key = part := by
            unfold grow at hc
            cases hindex : index part with
            | some i =>
                rw [hindex] at hc
                obtain ⟨j, hj, rfl, -⟩ := child_arr_eq_some.1 hc
                obtain rfl := (hpad part List.mem_cons_self).2 i hindex
                obtain rfl : j = 0 := by omega
                exact (index_eq_some.1 hindex).symm
            | none =>
                rw [hindex] at hc
                obtain ⟨hmem, -⟩ := child_obj_eq_some.1 hc
                exact Finset.mem_singleton.1 hmem
          subst hkey
          rw [child_grow_self] at hc
          cases hc
          rw [apart_cons, not_or]
          exact ⟨not_not.2 rfl, ih (fun p hp => hpad p (List.mem_cons_of_mem _ hp))
            (Option.isSome_iff_exists.2 ⟨y, hrest⟩)⟩

/-- Nulls that are made up lie beside the path. -/
theorem noPadding_of_build (hlast : "-1" ∉ parts)
    (honly : ∀ other, ((build parts v).get other).isSome = true → ¬ Apart parts other) :
    NoPadding parts := by
  induction parts with
  | nil => exact fun _ hp => nomatch hp
  | cons part rest ih =>
      rw [List.mem_cons, not_or] at hlast
      have hbuild : build (part :: rest) v = grow part (build rest v) :=
        if_neg (Ne.symm hlast.1)
      rw [hbuild] at honly
      have hfirst : ∀ i, index part = some i → i = 0 := by
        intro i hindex
        by_contra hi
        obtain rfl := index_eq_some.1 hindex
        refine honly [(0 : ℕ).repr] ?_ (apart_cons.2 (.inl fun heq => hi (eq_of_repr heq)))
        unfold grow
        rw [index_repr, get_cons]
        dsimp only
        rw [child_arr_of_lt (Nat.succ_pos i)]
        rfl
      have hrest := ih hlast.2 fun other hsome hapart => by
        refine honly (part :: other) ?_ (apart_cons.2 (.inr hapart))
        rw [get_cons, child_grow_self]
        exact hsome
      intro p hp
      rcases List.mem_cons.1 hp with rfl | hp
      · exact ⟨Ne.symm hlast.1, hfirst⟩
      · exact hrest p hp

/-! ## Writing where nothing is -/

theorem readable_of_addable (haddable : t.Addable path) : t.Readable path := by
  induction path generalizing t with
  | nil => trivial
  | cons part rest ih =>
      rw [Addable] at haddable
      cases hchild : t.child part with
      | some c =>
          rw [hchild] at haddable
          refine ⟨not_appends_of_child hchild, ?_⟩
          rw [hchild]
          exact ih haddable
      | none =>
          rw [hchild] at haddable
          obtain ⟨hroomy, hpad⟩ := haddable
          refine ⟨?_, ?_⟩
          · rintro ⟨⟨n, item, rfl⟩, hindex⟩
            have hpart : part = n.repr := hroomy
            rw [hpart, index_repr] at hindex
            cases hindex
          · rw [hchild]
            exact fun hmem => (hpad "-1" hmem).1 rfl

/-- Nothing comes up beside an item that follows the last one. -/
theorem child_put_roomy {other : String} (hroomy : t.Roomy part) (hput : t.put part c = some t')
    (hne : other ≠ part) (hnone : t.child other = none) : t'.child other = none := by
  cases t with
  | arr n item =>
      have hpart : part = n.repr := hroomy
      subst hpart
      rw [put_arr_index] at hput
      cases hput
      cases hindex : index other with
      | none => exact child_arr_of_none hindex
      | some j =>
          obtain rfl := index_eq_some.1 hindex
          have hjn : j ≠ n := fun heq => hne (congrArg Nat.repr heq)
          refine child_arr_of_le ?_
          by_contra hlt
          rw [child_arr_of_lt (by omega)] at hnone
          cases hnone
  | obj keys value =>
      cases hput
      refine child_obj_of_not_mem fun hmem => ?_
      rw [child_obj_of_mem (Finset.mem_of_mem_insert_of_ne hmem hne)] at hnone
      cases hnone
  | _ => cases hroomy

/-- What is new in a field or an item, where the others stay. -/
theorem onlyAlong_cons (hothers : ∀ key, key ≠ part → t'.child key = t.child key)
    (hinner : ∀ other, t.get (part :: other) = none → (t'.get (part :: other)).isSome = true →
      ¬ Apart rest other) : OnlyAlong (part :: rest) t t' := by
  intro other hother hsome
  cases other with
  | nil => cases hother
  | cons key other =>
      by_cases heq : key = part
      · subst heq
        rw [apart_cons, not_or]
        exact ⟨not_not.2 rfl, hinner other hother hsome⟩
      · rw [get_cons] at hother hsome
        rw [hothers key heq, hother] at hsome
        cases hsome

/-- Writing at such a path adds what is written, and nothing else. -/
theorem grows_of_addable (haddable : t.Addable path) (hset : t.set path v = some t') :
    Grows t t' ∧ OnlyAlong path t t' := by
  induction path generalizing t t' with
  | nil => exact haddable.elim
  | cons part rest ih =>
      obtain ⟨c', hput, hnew⟩ := set_cons hset
      have hreadable := readable_of_addable haddable
      have hself := child_put_self hput hreadable.1
      rw [Addable] at haddable
      rcases hnew with ⟨c, hc, hset'⟩ | ⟨hnone, rfl⟩
      · rw [hc] at haddable
        obtain ⟨hgrows, honly⟩ := ih haddable hset'
        refine ⟨hgrows.put hc hput,
          onlyAlong_cons (fun key hne => child_replace hc hput hne) fun other hother hsome => ?_⟩
        rw [get_cons, hc] at hother
        rw [get_cons, hself] at hsome
        exact honly other hother hsome
      · rw [hnone] at haddable
        obtain ⟨hroomy, hpad⟩ := haddable
        have hothers : ∀ key, key ≠ part → t'.child key = t.child key := by
          intro key hne
          cases hchild : t.child key with
          | some d => exact child_put_other hput hne hchild
          | none => exact child_put_roomy hroomy hput hne hchild
        constructor
        · refine .of_children (sameKind_put hput (.inl hroomy)) fun other d hd => ?_
          have hne : other ≠ part := by
            rintro rfl
            rw [hnone] at hd
            cases hd
          exact ⟨d, child_put_other hput hne hd, .refl d⟩
        · refine onlyAlong_cons hothers fun other _ hsome => ?_
          rw [get_cons, hself] at hsome
          exact onlyAlong_build hpad hsome

/-- A value that grows by what is written alone has had room for it. -/
theorem addable_of_grows (hmissing : t.get path = none) (hset : t.set path v = some t')
    (hgrows : Grows t t') (hwritten : t'.get path = some v) (honly : OnlyAlong path t t') :
    t.Addable path := by
  induction path generalizing t t' with
  | nil => cases hmissing
  | cons part rest ih =>
      obtain ⟨c', hput, hnew⟩ := set_cons hset
      have happends : ¬ t.Appends part := fun happends => by
        rw [get_cons, child_put_appends hput happends] at hwritten
        cases hwritten
      have hself := child_put_self hput happends
      rw [get_cons, hself] at hwritten
      rw [Addable]
      rcases hnew with ⟨c, hc, hset'⟩ | ⟨hnone, rfl⟩
      · rw [hc]
        rw [get_cons, hc] at hmissing
        refine ih hmissing hset' (hgrows.child hc hself) hwritten fun other hother hsome hapart => ?_
        refine honly (part :: other) ?_ ?_ (apart_cons.2 (.inr hapart))
        · rw [get_cons, hc]
          exact hother
        · rw [get_cons, hself]
          exact hsome
      · rw [hnone]
        have hbelow : ∀ other, ((build rest v).get other).isSome = true → ¬ Apart rest other := by
          intro other hsome hapart
          refine honly (part :: other) ?_ ?_ (apart_cons.2 (.inr hapart))
          · rw [get_cons, hnone]
            rfl
          · rw [get_cons, hself]
            exact hsome
        have hlast : "-1" ∉ rest := fun hmem => by
          rw [Option.bind_some, get_build_append hmem] at hwritten
          cases hwritten
        refine ⟨?_, noPadding_of_build hlast hbelow⟩
        cases t with
        | arr n item =>
            cases hindex : index part with
            | none => exact absurd ⟨⟨n, item, rfl⟩, hindex⟩ happends
            | some i =>
                obtain rfl := index_eq_some.1 hindex
                have hle : n ≤ i := by
                  by_contra hlt
                  rw [child_arr_of_lt (by omega)] at hnone
                  cases hnone
                by_contra hne
                have hni : n ≠ i := fun heq => hne (congrArg Nat.repr heq.symm)
                rw [put_arr_index] at hput
                cases hput
                refine honly [n.repr] ?_ ?_ (apart_cons.2 (.inl fun heq => hni (eq_of_repr heq).symm))
                · rw [get_cons, child_arr_of_le (Nat.le_refl n)]
                  rfl
                · rw [get_cons, child_arr_of_lt (by omega)]
                  rfl
        | obj keys value => trivial
        | null =>
            have hroot : t' = null := hgrows.root
            rw [hroot] at hself
            cases hself
        | bool b =>
            have hroot : t' = bool b := hgrows.root
            rw [hroot] at hself
            cases hself
        | num n =>
            have hroot : t' = num n := hgrows.root
            rw [hroot] at hself
            cases hself
        | str s =>
            have hroot : t' = str s := hgrows.root
            rw [hroot] at hself
            cases hself

end

end NewApi.Lib.JsonTree
