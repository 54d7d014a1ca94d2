import NewApi.Lib.JsonTree

/-!
# Paths into the value of a JSON text

A path goes from a value to one of its fields or items, and on from there.  A value can be written
at a path that leads nowhere yet, and what is missing on the way is made up; a value that is there
can be deleted.
-/

namespace NewApi.Lib.JsonTree

universe u v

variable {N : Type u} {M : Type v}

/-- The value that a path leads to. -/
def get : JsonTree N → List String → Option (JsonTree N)
  | t, [] => some t
  | t, part :: rest => (t.child part).bind fun c => c.get rest

/-- New containers around a value. -/
def build : List String → JsonTree N → JsonTree N
  | [], v => v
  | part :: rest, v =>
      if part = "-1" then arr 1 fun _ => build rest v else grow part (build rest v)

/-- The value with another one written at a path; an array has no fields. -/
def set : JsonTree N → List String → JsonTree N → Option (JsonTree N)
  | _, [], v => some v
  | t, part :: rest, v =>
      match t.child part with
      | some c => (c.set rest v).bind fun c' => t.put part c'
      | none => t.put part (build rest v)

/-- The value without what the path leads to, where `-1` leads to the last item of an array. -/
def delete : JsonTree N → List String → JsonTree N
  | t, [] => t
  | t, part :: rest =>
      match t.child (t.lastItem part) with
      | some c =>
          if rest = [] then t.remove (t.lastItem part)
          else (t.put (t.lastItem part) (c.delete rest)).getD t
      | none => t

/-- Neither of the paths goes on where the other one ends. -/
def Apart (p q : List String) : Prop :=
  ¬ p <+: q ∧ ¬ q <+: p

/-- What is written at the path is found there: no item is appended on the way. -/
def Readable : JsonTree N → List String → Prop
  | _, [] => True
  | t, part :: rest =>
      ¬ t.Appends part ∧
        match t.child part with
        | some c => c.Readable rest
        | none => "-1" ∉ rest

/-- The path leads to something that can be deleted. -/
def Deletes : JsonTree N → List String → Prop
  | _, [] => False
  | t, part :: rest => ∃ c, t.child (t.lastItem part) = some c ∧ (rest = [] ∨ c.Deletes rest)

section

variable {t t' c v x : JsonTree N} {part last : String} {p q rest parent : List String}

@[simp] theorem get_cons (t : JsonTree N) (part : String) (rest : List String) :
    t.get (part :: rest) = (t.child part).bind fun c => c.get rest := rfl

theorem get_append (t : JsonTree N) (p q : List String) :
    t.get (p ++ q) = (t.get p).bind fun c => c.get q := by
  induction p generalizing t with
  | nil => rfl
  | cons part rest ih =>
      rw [List.cons_append, get_cons, get_cons, Option.bind_assoc]
      exact congrArg _ (funext ih)

theorem get_map (f : N → M) (t : JsonTree N) (p : List String) :
    (t.map f).get p = (t.get p).map (map f) := by
  induction p generalizing t with
  | nil => rfl
  | cons part rest ih =>
      rw [get_cons, get_cons, child_map]
      cases t.child part with
      | none => rfl
      | some c => exact ih c

theorem not_apart_nil (q : List String) : ¬ Apart [] q :=
  fun hapart => hapart.1 List.nil_prefix

theorem apart_comm (p q : List String) : Apart p q ↔ Apart q p :=
  and_comm

theorem apart_cons {a b : String} :
    Apart (a :: p) (b :: q) ↔ a ≠ b ∨ Apart p q := by
  unfold Apart
  rw [List.cons_prefix_cons, List.cons_prefix_cons]
  by_cases heq : a = b
  · subst heq
    simp
  · simp [heq, Ne.symm heq]

theorem apart_append (p q rest : List String) : Apart (p ++ q) (p ++ rest) ↔ Apart q rest := by
  unfold Apart
  rw [List.prefix_append_right_inj, List.prefix_append_right_inj]

theorem apart_concat {a b : String} (p : List String) (hne : a ≠ b) :
    Apart (p ++ [a]) (p ++ [b]) :=
  (apart_append p _ _).2 (apart_cons.2 (.inl hne))

/-- A path goes on apart from the other one. -/
theorem Apart.append (hapart : Apart p q) (rest : List String) : Apart (p ++ rest) q := by
  refine ⟨fun hprefix => hapart.1 ((List.prefix_append p rest).trans hprefix), fun hprefix => ?_⟩
  rcases List.prefix_or_prefix_of_prefix hprefix (List.prefix_append p rest) with h | h
  · exact hapart.2 h
  · exact hapart.1 h

/-! ## Writing -/

/-- How a value comes to be written below the first part of a path. -/
theorem set_cons (hset : t.set (part :: rest) v = some t') :
    ∃ c', t.put part c' = some t' ∧
      ((∃ c, t.child part = some c ∧ c.set rest v = some c') ∨
        (t.child part = none ∧ c' = build rest v)) := by
  unfold set at hset
  cases hchild : t.child part with
  | some c =>
      rw [hchild] at hset
      obtain ⟨c', hc', hput⟩ := Option.bind_eq_some_iff.1 hset
      exact ⟨c', hput, .inl ⟨c, rfl, hc'⟩⟩
  | none =>
      rw [hchild] at hset
      exact ⟨_, hset, .inr ⟨rfl, rfl⟩⟩

theorem not_appends_of_child (hchild : t.child part = some c) : ¬ t.Appends part := by
  rintro ⟨⟨n, item, rfl⟩, hindex⟩
  rw [child_arr_of_none hindex] at hchild
  cases hchild

/-- What is written below something that is there is written into it. -/
theorem set_at (hset : t.set (p ++ rest) v = some t') (hget : t.get p = some c) :
    ∃ c', c.set rest v = some c' ∧ t'.get p = some c' := by
  induction p generalizing t t' with
  | nil =>
      cases hget
      exact ⟨t', hset, rfl⟩
  | cons part p ih =>
      obtain ⟨d, hd, hget⟩ := Option.bind_eq_some_iff.1 hget
      obtain ⟨d', hput, hnew⟩ := set_cons hset
      rcases hnew with ⟨e, he, hset'⟩ | ⟨hnone, -⟩
      · obtain rfl := Option.some.inj (he.symm.trans hd)
        obtain ⟨c', hc', hget'⟩ := ih hset' hget
        refine ⟨c', hc', ?_⟩
        rw [get_cons, child_put_self hput (not_appends_of_child hd)]
        exact hget'
      · rw [hnone] at hd
        cases hd

theorem get_build (hlast : "-1" ∉ p) : (build p v).get p = some v := by
  induction p with
  | nil => rfl
  | cons part rest ih =>
      rw [List.mem_cons, not_or] at hlast
      rw [build, if_neg (Ne.symm hlast.1), get_cons, child_grow_self]
      exact ih hlast.2

theorem get_build_append (hlast : "-1" ∈ p) : (build p v).get p = none := by
  induction p with
  | nil => cases hlast
  | cons part rest ih =>
      rw [build]
      split
      case isTrue heq =>
        rw [heq, get_cons, child_arr_of_none index_append]
        rfl
      case isFalse hne =>
        rw [get_cons, child_grow_self]
        exact ih ((List.mem_cons.1 hlast).resolve_left (Ne.symm hne))

theorem get_set_self (hset : t.set p v = some t') (hreadable : t.Readable p) :
    t'.get p = some v := by
  induction p generalizing t t' with
  | nil =>
      cases hset
      rfl
  | cons part rest ih =>
      obtain ⟨c', hput, hnew⟩ := set_cons hset
      obtain ⟨happends, hrest⟩ := hreadable
      rw [get_cons, child_put_self hput happends]
      rcases hnew with ⟨c, hc, hset'⟩ | ⟨hnone, rfl⟩
      · rw [hc] at hrest
        exact ih hset' hrest
      · rw [hnone] at hrest
        exact get_build hrest

/-- What is appended on the way is not found again. -/
theorem get_set_unreadable (hset : t.set p v = some t') (hreadable : ¬ t.Readable p) :
    t'.get p = none := by
  induction p generalizing t t' with
  | nil => exact absurd trivial hreadable
  | cons part rest ih =>
      obtain ⟨c', hput, hnew⟩ := set_cons hset
      rw [get_cons]
      by_cases happends : t.Appends part
      · rw [child_put_appends hput happends]
        rfl
      · rw [child_put_self hput happends]
        rcases hnew with ⟨c, hc, hset'⟩ | ⟨hnone, rfl⟩
        · refine ih hset' fun hrest => hreadable ⟨happends, ?_⟩
          rw [hc]
          exact hrest
        · refine get_build_append (not_not.1 fun hrest => hreadable ⟨happends, ?_⟩)
          rw [hnone]
          exact hrest

theorem readable_of_get (hget : t.get p = some x) : t.Readable p := by
  induction p generalizing t with
  | nil => trivial
  | cons part rest ih =>
      obtain ⟨c, hc, hrest⟩ := Option.bind_eq_some_iff.1 hget
      refine ⟨not_appends_of_child hc, ?_⟩
      rw [hc]
      exact ih hrest

/-- Values elsewhere stay. -/
theorem get_set_apart (hset : t.set p v = some t') (hapart : Apart p q) (hget : t.get q = some x) :
    t'.get q = some x := by
  induction p generalizing t t' q with
  | nil => exact absurd hapart (not_apart_nil q)
  | cons part rest ih =>
      cases q with
      | nil => exact absurd ((apart_comm _ _).1 hapart) (not_apart_nil _)
      | cons other q =>
          obtain ⟨c', hput, hnew⟩ := set_cons hset
          obtain ⟨d, hd, hq⟩ := Option.bind_eq_some_iff.1 hget
          rw [get_cons]
          by_cases heq : part = other
          · subst heq
            rcases hnew with ⟨c, hc, hset'⟩ | ⟨hnone, -⟩
            · obtain rfl := Option.some.inj (hc.symm.trans hd)
              rw [child_put_self hput (not_appends_of_child hd)]
              exact ih hset' ((apart_cons.1 hapart).resolve_left (not_not.2 rfl)) hq
            · rw [hnone] at hd
              cases hd
          · rw [child_put_other hput (Ne.symm heq) hd]
            exact hq

/-! ## Deleting -/

/-- Where something is, something else can be put. -/
theorem put_of_child (hchild : t.child part = some c) (c' : JsonTree N) :
    ∃ t', t.put part c' = some t' := by
  cases t with
  | arr n item =>
      obtain ⟨i, hlt, rfl, -⟩ := child_arr_eq_some.1 hchild
      exact ⟨_, put_arr_index item i c'⟩
  | obj keys value => exact ⟨_, rfl⟩
  | _ => cases hchild

/-- Nothing comes up where only another value has been replaced. -/
theorem child_replace {c' : JsonTree N} {other : String} (hchild : t.child part = some c)
    (hput : t.put part c' = some t') (hne : other ≠ part) : t'.child other = t.child other := by
  cases hother : t.child other with
  | some x => exact child_put_other hput hne hother
  | none =>
      cases t with
      | arr n item =>
          obtain ⟨m, item', rfl, -, hsame, -⟩ := put_arr hput
          obtain rfl := hsame (Option.isSome_iff_exists.2 ⟨c, hchild⟩)
          cases hindex : index other with
          | none => exact child_arr_of_none hindex
          | some j =>
              obtain rfl := index_eq_some.1 hindex
              refine child_arr_of_le (Nat.le_of_not_lt fun hlt => ?_)
              rw [child_arr_of_lt hlt] at hother
              cases hother
      | obj keys value =>
          cases hput
          refine child_obj_of_not_mem fun hmem => ?_
          rw [child_obj_of_mem (Finset.mem_of_mem_insert_of_ne hmem hne)] at hother
          cases hother
      | _ => cases hchild

/-- What is deleted below something that is there is deleted in it. -/
theorem delete_cons (hchild : t.child part = some c) (hrest : rest ≠ []) :
    ∃ t', t.put part (c.delete rest) = some t' ∧ t.delete (part :: rest) = t' := by
  obtain ⟨t', hput⟩ := put_of_child hchild (c.delete rest)
  refine ⟨t', hput, ?_⟩
  rw [delete, lastItem_of_child hchild, hchild]
  dsimp only
  rw [if_neg hrest, hput]
  rfl

theorem delete_single (hchild : t.child part = some c) : t.delete [part] = t.remove part := by
  rw [delete, lastItem_of_child hchild, hchild]
  exact if_pos rfl

theorem delete_at (hget : t.get p = some c) (hrest : rest ≠ []) :
    (t.delete (p ++ rest)).get p = some (c.delete rest) := by
  induction p generalizing t with
  | nil =>
      cases hget
      rfl
  | cons part p ih =>
      obtain ⟨d, hd, hget⟩ := Option.bind_eq_some_iff.1 hget
      obtain ⟨t', hput, hdelete⟩ := delete_cons hd (List.append_ne_nil_of_right_ne_nil p hrest)
      rw [List.cons_append, hdelete, get_cons, child_put_self hput (not_appends_of_child hd)]
      exact ih hget

/-- The field of an object, or the last item of an array: nothing moves up when it goes. -/
def Loose (c : JsonTree N) (last : String) : Prop :=
  ∀ other, (c.remove last).child other = if other = last then none else c.child other

theorem loose_obj (keys : Finset String) (value : {key // key ∈ keys} → JsonTree N)
    (last : String) : (obj keys value).Loose last :=
  child_remove_obj keys value last

theorem loose_arr_iff {n i : ℕ} {item : Fin n → JsonTree N} (hlt : i < n) :
    (arr n item).Loose i.repr ↔ i + 1 = n := by
  constructor
  · intro hloose
    have hgone := hloose i.repr
    rw [if_pos rfl, child_remove_arr item hlt, if_neg (Nat.lt_irrefl i)] at hgone
    by_contra hne
    rw [child_arr_of_lt (by omega)] at hgone
    cases hgone
  · intro hlast other
    cases hindex : index other with
    | none =>
        rw [remove_arr item hlt, child_arr_of_none hindex, child_arr_of_none hindex, ite_self]
    | some j =>
        obtain rfl := index_eq_some.1 hindex
        rw [child_remove_arr item hlt]
        by_cases hji : j < i
        · rw [if_pos hji, if_neg fun heq => absurd (eq_of_repr heq) (by omega)]
        · rw [if_neg hji, child_arr_of_le (by omega)]
          split
          case isTrue => rfl
          case isFalse hne =>
            have hij : j ≠ i := fun heq => hne (congrArg Nat.repr heq)
            rw [child_arr_of_le (by omega)]

/-- Where nothing moves up, other values stay, and nothing else comes up. -/
theorem get_delete_apart {container : JsonTree N} (hparent : t.get parent = some container)
    (hchild : container.child last = some c) (hloose : container.Loose last)
    (hapart : Apart (parent ++ [last]) q) : (t.delete (parent ++ [last])).get q = t.get q := by
  induction parent generalizing t q with
  | nil =>
      cases hparent
      cases q with
      | nil => exact absurd ((apart_comm _ _).1 hapart) (not_apart_nil _)
      | cons other q =>
          have hne : last ≠ other :=
            (apart_cons.1 hapart).resolve_right (not_apart_nil q)
          rw [List.nil_append, delete_single hchild, get_cons, get_cons, hloose other,
            if_neg (Ne.symm hne)]
  | cons part parent ih =>
      obtain ⟨d, hd, hparent⟩ := Option.bind_eq_some_iff.1 hparent
      obtain ⟨t', hput, hdelete⟩ :=
        delete_cons hd (List.append_ne_nil_of_right_ne_nil parent (List.cons_ne_nil last []))
      rw [List.cons_append, hdelete]
      cases q with
      | nil => exact absurd ((apart_comm _ _).1 hapart) (not_apart_nil _)
      | cons other q =>
          rw [get_cons, get_cons]
          by_cases heq : part = other
          · subst heq
            rw [child_put_self hput (not_appends_of_child hd), hd]
            exact ih hparent ((apart_cons.1 hapart).resolve_left (not_not.2 rfl))
          · rw [child_replace hd hput (Ne.symm heq)]

/-- What has been deleted is gone, where nothing moves up. -/
theorem get_delete_self {container : JsonTree N} (hparent : t.get parent = some container)
    (hchild : container.child last = some c) :
    (t.delete (parent ++ [last])).get (parent ++ [last]) = (container.remove last).child last := by
  rw [get_append, delete_at hparent (List.cons_ne_nil last []), delete_single hchild]
  show ((container.remove last).child last).bind some = _
  exact Option.bind_fun_some _

theorem delete_of_not_deletes (hdeletes : ¬ t.Deletes p) : t.delete p = t := by
  induction p generalizing t with
  | nil => rfl
  | cons part rest ih =>
      rw [delete]
      cases hchild : t.child (t.lastItem part) with
      | none => rfl
      | some c =>
          dsimp only
          have hrest : ¬ (rest = [] ∨ c.Deletes rest) := fun hrest =>
            hdeletes ⟨c, hchild, hrest⟩
          rw [not_or] at hrest
          rw [if_neg hrest.1, ih hrest.2, put_child hchild]
          rfl

/-- Something is missing when something has been deleted. -/
theorem Deletes.exists_gone (hdeletes : t.Deletes p) :
    ∃ q, (t.get q).isSome = true ∧ (t.delete p).get q = none := by
  induction p generalizing t with
  | nil => exact hdeletes.elim
  | cons part rest ih =>
      obtain ⟨c, hchild, hrest⟩ := hdeletes
      rw [delete, hchild]
      dsimp only
      by_cases hnil : rest = []
      · rw [if_pos hnil]
        cases t with
        | arr n item =>
            obtain ⟨i, hlt, hpart, -⟩ := child_arr_eq_some.1 hchild
            refine ⟨[(n - 1).repr], ?_, ?_⟩
            · rw [get_cons, child_arr_of_lt (by omega)]
              rfl
            · rw [hpart, get_cons, remove_arr item hlt, child_arr_of_le (Nat.le_refl _)]
              rfl
        | obj keys value =>
            refine ⟨[(obj keys value).lastItem part], ?_, ?_⟩
            · rw [get_cons, hchild]
              rfl
            · rw [get_cons, child_remove_obj, if_pos rfl]
              rfl
        | _ => cases hchild
      · rw [if_neg hnil]
        obtain ⟨t', hput⟩ := put_of_child hchild (c.delete rest)
        obtain ⟨q, hq, hgone⟩ := ih (hrest.resolve_left hnil)
        refine ⟨t.lastItem part :: q, ?_, ?_⟩
        · rw [get_cons, hchild]
          exact hq
        · rw [hput, Option.getD_some, get_cons, child_put_self hput (not_appends_of_child hchild)]
          exact hgone

/-- Nothing comes up elsewhere when something that is there is replaced. -/
theorem get_replace_apart (hget : t.get p = some c) (hset : t.set p v = some t')
    (hapart : Apart p q) : t'.get q = t.get q := by
  induction p generalizing t t' q with
  | nil => exact absurd hapart (not_apart_nil q)
  | cons part rest ih =>
      obtain ⟨d, hd, hget⟩ := Option.bind_eq_some_iff.1 hget
      obtain ⟨c', hput, hnew⟩ := set_cons hset
      cases q with
      | nil => exact absurd ((apart_comm _ _).1 hapart) (not_apart_nil _)
      | cons other q =>
          rw [get_cons, get_cons]
          by_cases heq : part = other
          · subst heq
            rcases hnew with ⟨e, he, hset'⟩ | ⟨hnone, -⟩
            · obtain rfl := Option.some.inj (he.symm.trans hd)
              rw [child_put_self hput (not_appends_of_child hd), hd]
              exact ih hget hset' ((apart_cons.1 hapart).resolve_left (not_not.2 rfl))
            · rw [hnone] at hd
              cases hd
          · rw [child_replace hd hput (Ne.symm heq)]

theorem get_concat (t : JsonTree N) (parent : List String) (last : String) :
    t.get (parent ++ [last]) = (t.get parent).bind fun container => container.child last := by
  rw [get_append]
  cases t.get parent with
  | none => rfl
  | some container => exact Option.bind_fun_some _

/-- What is there can be deleted. -/
theorem deletes_of_get (hget : t.get p = some x) (hp : p ≠ []) : t.Deletes p := by
  induction p generalizing t with
  | nil => exact absurd rfl hp
  | cons part rest ih =>
      obtain ⟨c, hc, hrest⟩ := Option.bind_eq_some_iff.1 hget
      refine ⟨c, (lastItem_of_child hc).symm ▸ hc, ?_⟩
      by_cases hnil : rest = []
      · exact .inl hnil
      · exact .inr (ih hrest hnil)

theorem deletes_append_iff (hget : t.get p = some c) (hrest : rest ≠ []) :
    t.Deletes (p ++ rest) ↔ c.Deletes rest := by
  induction p generalizing t with
  | nil =>
      cases hget
      rfl
  | cons part p ih =>
      obtain ⟨d, hd, hget⟩ := Option.bind_eq_some_iff.1 hget
      rw [← ih hget, List.cons_append]
      constructor
      · rintro ⟨e, he, hnil | hdeletes⟩
        · exact absurd hnil (List.append_ne_nil_of_right_ne_nil p hrest)
        · rw [lastItem_of_child hd] at he
          obtain rfl := Option.some.inj (he.symm.trans hd)
          exact hdeletes
      · exact fun hdeletes => ⟨d, (lastItem_of_child hd).symm ▸ hd, .inr hdeletes⟩

/-- What becomes of a container above or beside what is written: an object stays one, and an array
grows exactly where something is written behind its items. -/
theorem set_container {container : JsonTree N} (hset : t.set p v = some t')
    (hparent : t.get parent = some container) (habove : ¬ p <+: parent) :
    ∃ container', t'.get parent = some container' ∧
      (∀ keys value, container = obj keys value →
        ∃ keys' value', container' = obj keys' value') ∧
      (∀ n item, container = arr n item → ∃ m item', container' = arr m item' ∧ n ≤ m ∧
        (m = n ↔ ∀ part rest, p = parent ++ part :: rest → (container.child part).isSome = true)) := by
  by_cases hbelow : parent <+: p
  · obtain ⟨below, rfl⟩ := hbelow
    cases below with
    | nil =>
        rw [List.append_nil] at habove
        exact absurd List.prefix_rfl habove
    | cons part rest =>
        obtain ⟨container', hcontainer', hget⟩ := set_at hset hparent
        obtain ⟨c', hput, -⟩ := set_cons hcontainer'
        refine ⟨container', hget, ?_, ?_⟩
        · rintro keys value rfl
          cases hput
          exact ⟨_, _, rfl⟩
        · rintro n item rfl
          obtain ⟨m, item', rfl, hle, hsame, hlonger⟩ := put_arr hput
          refine ⟨m, item', rfl, hle, ?_, ?_⟩
          · rintro rfl other more hpath
            obtain ⟨rfl, rfl⟩ := List.cons.inj (List.append_cancel_left hpath)
            cases hchild : (arr m item).child part with
            | some c => rfl
            | none => exact absurd (hlonger hchild) (Nat.lt_irrefl m)
          · exact fun hall => hsame (hall part rest rfl)
  · refine ⟨container, get_set_apart hset ⟨habove, hbelow⟩ hparent, fun keys value h => ⟨_, _, h⟩, ?_⟩
    intro n item h
    refine ⟨n, item, h, Nat.le_refl n, fun _ part rest hpath => ?_, fun _ => rfl⟩
    exact absurd (hpath ▸ List.prefix_append parent _) hbelow

end

end NewApi.Lib.JsonTree
