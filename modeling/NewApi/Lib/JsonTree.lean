import Mathlib.Data.Fintype.Basic

/-!
# Values of JSON texts

A value is a tree over the numbers of the text.  An array is a family of items and an object one of
fields, so that two values are equal exactly when they have the same items and fields: the order
in which an object writes its fields is no part of it.  A part of a path is the key of a field,
or the number of an item.
-/

namespace NewApi.Lib

universe u v

inductive JsonTree (N : Type u) : Type u where
  | null
  | bool (b : Bool)
  | num (n : N)
  | str (s : String)
  | arr (length : ℕ) (item : Fin length → JsonTree N)
  | obj (keys : Finset String) (value : {key : String // key ∈ keys} → JsonTree N)

namespace JsonTree

variable {N : Type u} {M : Type v}

/-- The number that a part of a path is. -/
def index (part : String) : Option ℕ :=
  let n := Nat.ofDigitChars 10 part.toList 0
  if n.repr = part then some n else none

theorem index_eq_some {part : String} {n : ℕ} : index part = some n ↔ part = n.repr := by
  unfold index
  dsimp only
  constructor
  · intro hindex
    split at hindex
    case isTrue hrepr =>
      cases hindex
      exact hrepr.symm
    case isFalse => cases hindex
  · rintro rfl
    simp [Nat.toList_repr]

@[simp] theorem index_repr (n : ℕ) : index n.repr = some n :=
  index_eq_some.2 rfl

theorem eq_of_repr {m n : ℕ} (hrepr : m.repr = n.repr) : m = n :=
  Option.some.inj ((index_repr m).symm.trans (index_eq_some.2 hrepr))

theorem index_append : index "-1" = none := by
  decide

/-! ## One level -/

/-- The field or the item that a part of a path names. -/
def child : JsonTree N → String → Option (JsonTree N)
  | arr n item, part =>
      (index part).bind fun i => if h : i < n then some (item ⟨i, h⟩) else none
  | obj keys value, key => if h : key ∈ keys then some (value ⟨key, h⟩) else none
  | _, _ => none

/-- A new container with one field, or with an item behind nulls. -/
def grow (part : String) (c : JsonTree N) : JsonTree N :=
  match index part with
  | some i => arr (i + 1) fun j => if j.1 = i then c else null
  | none => obj {part} fun _ => c

/-- The container with this field or item, which may be new: what lies between it and the old items
is null, and `-1` is behind the last one.  An array has no other items, and anything but a
container gives way to a new one. -/
def put : JsonTree N → String → JsonTree N → Option (JsonTree N)
  | arr n item, part, c =>
      match index part with
      | some i =>
          some (arr (max n (i + 1)) fun j =>
            if j.1 = i then c else if h : j.1 < n then item ⟨j.1, h⟩ else null)
      | none =>
          if part = "-1" then some (arr (n + 1) fun j => if h : j.1 < n then item ⟨j.1, h⟩ else c)
          else none
  | obj keys value, part, c =>
      some (obj (insert part keys) fun key =>
        if h : key.1 = part then c else value ⟨key.1, Finset.mem_of_mem_insert_of_ne key.2 h⟩)
  | _, part, c => some (grow part c)

/-- The container without this field or item; the items behind it move up. -/
def remove : JsonTree N → String → JsonTree N
  | arr n item, part =>
      match index part with
      | some i =>
          if i < n then
            arr (n - 1) fun j =>
              if j.1 < i then item ⟨j.1, by omega⟩ else item ⟨j.1 + 1, by omega⟩
          else arr n item
      | none => arr n item
  | obj keys value, part =>
      obj (keys.erase part) fun key => value ⟨key.1, Finset.mem_of_mem_erase key.2⟩
  | t, _ => t

/-- The part by which the last item is named when it is deleted as `-1`. -/
def lastItem : JsonTree N → String → String
  | arr n _, part => if part = "-1" ∧ 0 < n then (n - 1).repr else part
  | _, part => part

/-- The parts of an array that are no numbers of items. -/
def Appends (t : JsonTree N) (part : String) : Prop :=
  (∃ n item, t = arr n item) ∧ index part = none

/-- How many items an array has. -/
def arrayLength : JsonTree N → Option ℕ
  | arr n _ => some n
  | _ => none

section

variable {t t' c x : JsonTree N} {part other key : String} {n i : ℕ}
  {item : Fin n → JsonTree N} {keys : Finset String} {value : {key // key ∈ keys} → JsonTree N}

@[simp] theorem child_null (part : String) : (null : JsonTree N).child part = none := rfl

theorem child_arr_of_lt (hlt : i < n) : (arr n item).child i.repr = some (item ⟨i, hlt⟩) := by
  simp [child, hlt]

theorem child_arr_of_le (hle : n ≤ i) : (arr n item).child i.repr = none := by
  simp [child, Nat.not_lt.2 hle]

theorem child_arr_of_none (hnone : index part = none) : (arr n item).child part = none := by
  simp [child, hnone]

theorem child_arr_eq_some :
    (arr n item).child part = some c ↔ ∃ i, ∃ hlt : i < n, part = i.repr ∧ item ⟨i, hlt⟩ = c := by
  constructor
  · intro hchild
    obtain ⟨i, hindex, hitem⟩ := Option.bind_eq_some_iff.1 hchild
    split at hitem
    case isTrue hlt => exact ⟨i, hlt, index_eq_some.1 hindex, Option.some.inj hitem⟩
    case isFalse => cases hitem
  · rintro ⟨i, hlt, rfl, rfl⟩
    exact child_arr_of_lt hlt

theorem child_obj_of_mem (hmem : key ∈ keys) :
    (obj keys value).child key = some (value ⟨key, hmem⟩) := by
  simp [child, hmem]

theorem child_obj_of_not_mem (hmem : key ∉ keys) : (obj keys value).child key = none := by
  simp [child, hmem]

theorem child_obj_eq_some :
    (obj keys value).child key = some c ↔ ∃ hmem : key ∈ keys, value ⟨key, hmem⟩ = c := by
  by_cases hmem : key ∈ keys
  · simp [child_obj_of_mem hmem, hmem]
  · simp [child_obj_of_not_mem hmem, hmem]

/-- Arrays with the same items. -/
theorem arr_congr {m : ℕ} {item' : Fin m → JsonTree N} (hlength : n = m)
    (hitem : ∀ i (hlt : i < n) (hlt' : i < m), item ⟨i, hlt⟩ = item' ⟨i, hlt'⟩) :
    arr n item = arr m item' := by
  subst hlength
  congr 1
  funext i
  exact hitem i.1 i.2 i.2

/-- Objects with the same fields. -/
theorem obj_congr {keys' : Finset String} {value' : {key // key ∈ keys'} → JsonTree N}
    (hkeys : keys = keys')
    (hvalue : ∀ key (hmem : key ∈ keys) (hmem' : key ∈ keys'),
      value ⟨key, hmem⟩ = value' ⟨key, hmem'⟩) :
    obj keys value = obj keys' value' := by
  subst hkeys
  congr 1
  funext key
  exact hvalue key.1 key.2 key.2

/-! ### Putting -/

theorem put_arr_index (item : Fin n → JsonTree N) (i : ℕ) (c : JsonTree N) :
    (arr n item).put i.repr c =
      some (arr (max n (i + 1)) fun j =>
        if j.1 = i then c else if h : j.1 < n then item ⟨j.1, h⟩ else null) := by
  unfold put
  simp only [index_repr]

/-- All that can be put into an array: an item at an index, or one behind the last. -/
theorem put_arr_cases (hput : (arr n item).put part c = some t') :
    (∃ i : ℕ, part = i.repr ∧ t' = arr (max n (i + 1)) fun j =>
        if j.1 = i then c else if h : j.1 < n then item ⟨j.1, h⟩ else null) ∨
      index part = none ∧ t' = arr (n + 1) fun j => if h : j.1 < n then item ⟨j.1, h⟩ else c := by
  cases hindex : index part with
  | some i =>
      obtain rfl := index_eq_some.1 hindex
      rw [put_arr_index] at hput
      exact .inl ⟨i, rfl, (Option.some.inj hput).symm⟩
  | none =>
      unfold put at hput
      simp only [hindex] at hput
      split at hput
      case isTrue => exact .inr ⟨rfl, (Option.some.inj hput).symm⟩
      case isFalse => cases hput

/-- What comes of an array: it is not shorter than it was, and longer if the item was not there. -/
theorem put_arr (hput : (arr n item).put part c = some t') :
    ∃ m item', t' = arr m item' ∧ n ≤ m ∧
      (((arr n item).child part).isSome = true → m = n) ∧
      ((arr n item).child part = none → n < m) := by
  rcases put_arr_cases hput with ⟨i, rfl, rfl⟩ | ⟨hindex, rfl⟩
  · refine ⟨_, _, rfl, Nat.le_max_left _ _, ?_, ?_⟩
    · intro hsome
      obtain ⟨c, hc⟩ := Option.isSome_iff_exists.1 hsome
      obtain ⟨j, hlt, hrepr, -⟩ := child_arr_eq_some.1 hc
      obtain rfl := eq_of_repr hrepr
      omega
    · intro hnone
      by_contra hlength
      rw [child_arr_of_lt (by omega)] at hnone
      cases hnone
  · refine ⟨_, _, rfl, Nat.le_succ n, ?_, fun _ => Nat.lt_succ_self n⟩
    rw [child_arr_of_none hindex]
    exact fun hsome => nomatch hsome

theorem child_grow_self (part : String) (c : JsonTree N) : (grow part c).child part = some c := by
  unfold grow
  cases hindex : index part with
  | some i =>
      obtain rfl := index_eq_some.1 hindex
      simp [child]
  | none => simp [child]

theorem child_put_self (hput : t.put part c = some t') (hitem : ¬ t.Appends part) :
    t'.child part = some c := by
  cases t with
  | arr n item =>
      cases hindex : index part with
      | none => exact absurd ⟨⟨n, item, rfl⟩, hindex⟩ hitem
      | some i =>
          obtain rfl := index_eq_some.1 hindex
          rw [put_arr_index] at hput
          cases hput
          rw [child_arr_of_lt (by omega)]
          simp
  | obj keys value =>
      cases hput
      rw [child_obj_of_mem (Finset.mem_insert_self _ _)]
      simp
  | null =>
      cases hput
      exact child_grow_self part c
  | bool b =>
      cases hput
      exact child_grow_self part c
  | num m =>
      cases hput
      exact child_grow_self part c
  | str s =>
      cases hput
      exact child_grow_self part c

/-- An item that has been appended is not found under the name it was appended with. -/
theorem child_put_appends (hput : t.put part c = some t') (happends : t.Appends part) :
    t'.child part = none := by
  obtain ⟨⟨n, item, rfl⟩, hindex⟩ := happends
  obtain ⟨m, item', rfl, -⟩ := put_arr hput
  exact child_arr_of_none hindex

/-- The other fields and items stay. -/
theorem child_put_other (hput : t.put part c = some t') (hne : other ≠ part)
    (hother : t.child other = some x) : t'.child other = some x := by
  cases t with
  | arr n item =>
      obtain ⟨j, hlt, rfl, rfl⟩ := child_arr_eq_some.1 hother
      rcases put_arr_cases hput with ⟨i, rfl, rfl⟩ | ⟨-, rfl⟩
      · have hji : j ≠ i := fun heq => hne (congrArg Nat.repr heq)
        rw [child_arr_of_lt (by omega)]
        simp [hji, hlt]
      · rw [child_arr_of_lt (by omega)]
        simp [hlt]
  | obj keys value =>
      cases hput
      obtain ⟨hmem, rfl⟩ := child_obj_eq_some.1 hother
      rw [child_obj_of_mem (Finset.mem_insert_of_mem hmem)]
      simp [hne]
  | null => cases hother
  | bool b => cases hother
  | num m => cases hother
  | str s => cases hother

/-- Putting back what is there changes nothing. -/
theorem put_child (hchild : t.child part = some c) : t.put part c = some t := by
  cases t with
  | arr n item =>
      obtain ⟨i, hlt, rfl, rfl⟩ := child_arr_eq_some.1 hchild
      rw [put_arr_index]
      refine congrArg some (arr_congr (by omega) fun j hj hj' => ?_)
      by_cases hji : j = i
      · subst hji
        simp
      · simp [hji, hj']
  | obj keys value =>
      obtain ⟨hmem, rfl⟩ := child_obj_eq_some.1 hchild
      refine congrArg some (obj_congr (Finset.insert_eq_of_mem hmem) fun key hkey hkey' => ?_)
      by_cases heq : key = part
      · subst heq
        simp
      · simp [heq]
  | null => cases hchild
  | bool b => cases hchild
  | num m => cases hchild
  | str s => cases hchild

/-! ### Removing -/

/-- A field that has been removed is gone, and the others stay. -/
theorem child_remove_obj (keys : Finset String) (value : {key // key ∈ keys} → JsonTree N)
    (part other : String) :
    ((obj keys value).remove part).child other =
      if other = part then none else (obj keys value).child other := by
  unfold remove
  by_cases heq : other = part
  · rw [if_pos heq, heq]
    exact child_obj_of_not_mem (Finset.notMem_erase part keys)
  · rw [if_neg heq]
    by_cases hmem : other ∈ keys
    · rw [child_obj_of_mem hmem, child_obj_of_mem (Finset.mem_erase.2 ⟨heq, hmem⟩)]
    · rw [child_obj_of_not_mem hmem,
        child_obj_of_not_mem fun herase => hmem (Finset.mem_of_mem_erase herase)]

theorem remove_arr (item : Fin n → JsonTree N) (hlt : i < n) :
    (arr n item).remove i.repr =
      arr (n - 1) fun j => if j.1 < i then item ⟨j.1, by omega⟩ else item ⟨j.1 + 1, by omega⟩ := by
  unfold remove
  simp only [index_repr]
  rw [if_pos hlt]

/-- The items before the removed one stay, and those behind it move up. -/
theorem child_remove_arr (item : Fin n → JsonTree N) (hlt : i < n) (j : ℕ) :
    ((arr n item).remove i.repr).child j.repr =
      (arr n item).child (if j < i then j else j + 1).repr := by
  rw [remove_arr item hlt]
  by_cases hj : j < n - 1
  · rw [child_arr_of_lt hj, child_arr_of_lt (by split <;> omega)]
    split <;> rfl
  · rw [child_arr_of_le (by omega), child_arr_of_le (by split <;> omega)]

theorem lastItem_of_child (hchild : t.child part = some c) : t.lastItem part = part := by
  cases t with
  | arr n item =>
      refine if_neg ?_
      rintro ⟨rfl, -⟩
      rw [child_arr_of_none index_append] at hchild
      cases hchild
  | _ => rfl

end

/-! ## Numbers -/

/-- The value with its numbers replaced. -/
def map (f : N → M) : JsonTree N → JsonTree M
  | null => null
  | bool b => bool b
  | num n => num (f n)
  | str s => str s
  | arr n item => arr n fun i => (item i).map f
  | obj keys value => obj keys fun key => (value key).map f

/-- All numbers of the value have a property. -/
def AllNum (P : N → Prop) : JsonTree N → Prop
  | num n => P n
  | arr _ item => ∀ i, (item i).AllNum P
  | obj _ value => ∀ key, (value key).AllNum P
  | _ => True

instance decidableAllNum (P : N → Prop) [DecidablePred P] : (t : JsonTree N) → Decidable (t.AllNum P)
  | null => isTrue trivial
  | bool _ => isTrue trivial
  | num n => inferInstanceAs (Decidable (P n))
  | str _ => isTrue trivial
  | arr _ item =>
      have := fun i => decidableAllNum P (item i)
      inferInstanceAs (Decidable (∀ i, (item i).AllNum P))
  | obj _ value =>
      have := fun key => decidableAllNum P (value key)
      inferInstanceAs (Decidable (∀ key, (value key).AllNum P))

section

variable {t c : JsonTree N} {part : String} {f : N → M} {P Q : N → Prop}

theorem child_map (f : N → M) (t : JsonTree N) (part : String) :
    (t.map f).child part = (t.child part).map (map f) := by
  cases t with
  | arr n item =>
      show (arr n fun i => (item i).map f).child part = _
      cases hindex : index part with
      | none => rw [child_arr_of_none hindex, child_arr_of_none hindex, Option.map_none]
      | some i =>
          obtain rfl := index_eq_some.1 hindex
          by_cases hlt : i < n
          · rw [child_arr_of_lt hlt, child_arr_of_lt hlt, Option.map_some]
          · have hle := Nat.le_of_not_lt hlt
            rw [child_arr_of_le hle, child_arr_of_le hle, Option.map_none]
  | obj keys value =>
      show (obj keys fun key => (value key).map f).child part = _
      by_cases hmem : part ∈ keys
      · rw [child_obj_of_mem hmem, child_obj_of_mem hmem, Option.map_some]
      · rw [child_obj_of_not_mem hmem, child_obj_of_not_mem hmem, Option.map_none]
  | _ => rfl

theorem map_map {L : Type*} (f : N → M) (g : M → L) (t : JsonTree N) :
    (t.map f).map g = t.map (g ∘ f) := by
  induction t with
  | arr n item ih => exact congrArg (arr n) (funext ih)
  | obj keys value ih => exact congrArg (obj keys) (funext ih)
  | _ => rfl

/-- Only numbers that change make a difference. -/
theorem map_eq_self {f : N → N} : t.map f = t ↔ t.AllNum fun n => f n = n := by
  induction t with
  | num n => simp [map, AllNum]
  | arr n item ih =>
      simp only [map, AllNum, arr.injEq, heq_eq_eq, true_and, funext_iff]
      exact forall_congr' ih
  | obj keys value ih =>
      simp only [map, AllNum, obj.injEq, heq_eq_eq, true_and, funext_iff]
      exact forall_congr' ih
  | _ => simp [map, AllNum]

theorem AllNum.child (hall : t.AllNum P) (hchild : t.child part = some c) : c.AllNum P := by
  cases t with
  | arr n item =>
      obtain ⟨i, hlt, -, rfl⟩ := child_arr_eq_some.1 hchild
      exact hall _
  | obj keys value =>
      obtain ⟨hmem, rfl⟩ := child_obj_eq_some.1 hchild
      exact hall _
  | _ => cases hchild

theorem AllNum.of_forall (hall : ∀ n, P n) (t : JsonTree N) : t.AllNum P := by
  induction t with
  | num n => exact hall n
  | arr n item ih => exact ih
  | obj keys value ih => exact ih
  | _ => trivial

@[simp] theorem map_id (t : JsonTree N) : t.map id = t :=
  map_eq_self.2 (.of_forall (fun _ => rfl) t)

theorem AllNum.imp (hall : t.AllNum P) (himp : ∀ n, P n → Q n) : t.AllNum Q := by
  induction t with
  | num n => exact himp n hall
  | arr n item ih => exact fun i => ih i (hall i)
  | obj keys value ih => exact fun key => ih key (hall key)
  | _ => trivial

theorem allNum_and : (t.AllNum fun n => P n ∧ Q n) ↔ t.AllNum P ∧ t.AllNum Q := by
  constructor
  · exact fun hall => ⟨hall.imp fun _ h => h.1, hall.imp fun _ h => h.2⟩
  · intro hboth
    obtain ⟨hP, hQ⟩ := hboth
    induction t with
    | num n => exact ⟨hP, hQ⟩
    | arr n item ih => exact fun i => ih i (hP i) (hQ i)
    | obj keys value ih => exact fun key => ih key (hP key) (hQ key)
    | _ => trivial

theorem allNum_map {P : M → Prop} : (t.map f).AllNum P ↔ t.AllNum fun n => P (f n) := by
  induction t with
  | arr n item ih => exact forall_congr' ih
  | obj keys value ih => exact forall_congr' ih
  | _ => rfl

/-- An object without some fields. -/
theorem exists_foldl_remove (fields : List String) (keys : Finset String)
    (value : {key // key ∈ keys} → JsonTree N) :
    ∃ keys' value', fields.foldl remove (obj keys value) = obj keys' value' ∧
      ∀ key, (obj keys' value').child key =
        if key ∈ fields then none else (obj keys value).child key := by
  induction fields generalizing keys value with
  | nil => exact ⟨keys, value, rfl, fun key => rfl⟩
  | cons field fields ih =>
      obtain ⟨keys', value', hremove, hchild⟩ :=
        ih (keys.erase field) fun key => value ⟨key.1, Finset.mem_of_mem_erase key.2⟩
      refine ⟨keys', value', hremove, fun key => (hchild key).trans ?_⟩
      have hfirst := child_remove_obj keys value field key
      unfold remove at hfirst
      rw [hfirst]
      by_cases hkey : key = field
      · simp [hkey]
      · simp [hkey]

theorem allNum_obj_iff {keys : Finset String} {value : {key // key ∈ keys} → JsonTree N} :
    (obj keys value).AllNum P ↔ ∀ key c, (obj keys value).child key = some c → c.AllNum P := by
  constructor
  · exact fun hall key c hchild => hall.child hchild
  · exact fun hall key => hall key.1 _ (child_obj_of_mem key.2)

end

end JsonTree

end NewApi.Lib
