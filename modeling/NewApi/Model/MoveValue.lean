import NewApi.Model.ParamOverride

/-!
# Moving a value

`moveValue` writes the decoded value at its new place and then deletes the old one.  The old place
may lie above, in or beside the new one, and items behind it move up when it goes.
-/

namespace NewApi.Model

open NewApi.Lib NewApi.Lib.JsonTree

namespace JsonText

/-- The source is the field of an object. -/
def IsField {N : Type} (t : JsonTree N) (fromPath : List String) : Prop :=
  ∃ parent key keys value, fromPath = parent ++ [key] ∧ t.get parent = some (.obj keys value)

/-- The source is the last item of an array, behind which nothing is written. -/
def IsLastItem {N : Type} (t : JsonTree N) (fromPath toPath : List String) : Prop :=
  ∃ parent i item, fromPath = parent ++ [i.repr] ∧ t.get parent = some (.arr (i + 1) item) ∧
    ∀ part rest, toPath = parent ++ part :: rest → ((JsonTree.arr (i + 1) item).child part).isSome = true

/-- The value has gone from the one path to the other, and everything else has stayed. -/
def Relocated {N : Type} (t t' : JsonTree N) (fromPath toPath : List String) (source : JsonTree N) : Prop :=
  t'.get toPath = some source ∧
    (¬ fromPath <+: toPath → t'.get fromPath = none) ∧
    ∀ other value, Apart fromPath other → Apart toPath other → t.get other = some value →
      t'.get other = some value

/-- The paths between which a value can be moved: the target is not the source or a place in it, and
no item that is appended; and either the source lies in the target and nothing lies at that place in
the value that is moved, or neither lies in the other and nothing moves up when the source goes. -/
def CanMove {D N F : Type} (lib : JsonText D N F) (t : JsonTree N) (fromPath toPath : List String)
    (source : JsonTree N) : Prop :=
  ¬ fromPath <+: toPath ∧ lib.Survives source ∧ t.Readable toPath ∧
    ((∃ rest, fromPath = toPath ++ rest ∧ ¬ source.Deletes rest) ∨
      (¬ toPath <+: fromPath ∧ (IsField t fromPath ∨ IsLastItem t fromPath toPath)))

section

variable {D N F : Type} {lib : JsonText D N F} {t t₁ source value : JsonTree N}
  {fromPath toPath parent rest : List String} {last : String}

/-- A value that is written into the source goes with it, or is not all that changes. -/
theorem not_relocated_into (hget : t.get (parent ++ [last]) = some source)
    (hset : t.set ((parent ++ [last]) ++ rest) value = some t₁) :
    ¬ Relocated t (t₁.delete (parent ++ [last])) (parent ++ [last]) ((parent ++ [last]) ++ rest)
      source := by
  rintro ⟨hto, -, hframe⟩
  rw [get_concat] at hget
  obtain ⟨container, hparent, hlast⟩ := Option.bind_eq_some_iff.1 hget
  have hbelow := hset
  rw [List.append_assoc] at hbelow
  obtain ⟨container', hcontainer', hparent'⟩ := set_at hbelow hparent
  obtain ⟨c', hput, -⟩ := set_cons hcontainer'
  have hlast' := child_put_self hput (not_appends_of_child hlast)
  rw [get_append, get_delete_self hparent' hlast'] at hto
  cases container with
  | obj keys fields =>
      cases hput
      rw [child_remove_obj, if_pos rfl] at hto
      cases hto
  | arr n item =>
      obtain ⟨m, item', rfl, -, hsame, -⟩ := put_arr hput
      obtain rfl := hsame (Option.isSome_iff_exists.2 ⟨source, hlast⟩)
      obtain ⟨i, hlt, rfl, -⟩ := child_arr_eq_some.1 hlast
      by_cases hi : i + 1 = m
      · rw [child_remove_arr item' hlt, if_neg (Nat.lt_irrefl i), child_arr_of_le (by omega)] at hto
        cases hto
      · -- The last item is gone, as the items have moved up.
        have hapart : Apart (parent ++ [i.repr]) (parent ++ [(m - 1).repr]) :=
          apart_concat parent fun heq => absurd (eq_of_repr heq) (by omega)
        have hgone := hframe (parent ++ [(m - 1).repr]) (item ⟨m - 1, by omega⟩) hapart
          (hapart.append rest) (by rw [get_concat, hparent, Option.bind_some, child_arr_of_lt (by omega)])
        rw [get_concat, delete_at hparent' (List.cons_ne_nil _ _), Option.bind_some,
          delete_single hlast', child_remove_arr item' hlt, if_neg (by omega),
          child_arr_of_le (by omega)] at hgone
        cases hgone
  | _ => cases hlast

/-- A source that lies in the target is still there, and deleted, if the value has something at that
place. -/
theorem relocated_out_iff (hget : t.get (toPath ++ rest) = some source) (hrest : rest ≠ [])
    (hset : t.set toPath (source.map lib.rewrite) = some t₁) :
    Relocated t (t₁.delete (toPath ++ rest)) (toPath ++ rest) toPath source ↔
      lib.Survives source ∧ ¬ source.Deletes rest := by
  have hreadable : t.Readable toPath := by
    rw [get_append] at hget
    obtain ⟨c, hc, -⟩ := Option.bind_eq_some_iff.1 hget
    exact readable_of_get hc
  have hwritten := get_set_self hset hreadable
  constructor
  · rintro ⟨hto, -, -⟩
    rw [delete_at hwritten hrest, Option.some.injEq] at hto
    have hdeletes : ¬ (source.map lib.rewrite).Deletes rest := fun hdeletes => by
      obtain ⟨other, hthere, hgone⟩ := hdeletes.exists_gone
      rw [hto] at hgone
      rw [get_map, hgone] at hthere
      cases hthere
    rw [delete_of_not_deletes hdeletes] at hto
    rw [hto] at hdeletes
    exact ⟨map_rewrite_eq_self.1 hto, hdeletes⟩
  · rintro ⟨hsurvives, hdeletes⟩
    rw [map_rewrite_eq_self.2 hsurvives] at hwritten
    have hsame : t₁.delete (toPath ++ rest) = t₁ :=
      delete_of_not_deletes fun h => hdeletes ((deletes_append_iff hwritten hrest).1 h)
    rw [hsame]
    refine ⟨hwritten, fun _ => ?_, fun other value _ hapart hother => get_set_apart hset hapart hother⟩
    rw [get_append, hwritten, Option.bind_some]
    cases hfound : source.get rest with
    | none => rfl
    | some found => exact absurd (deletes_of_get hfound hrest) hdeletes

/-- Beside the target, nothing moves up in the container of the source exactly where it is an object
or the source is its last item still. -/
theorem loose_iff {container container' : JsonTree N} (hparent : t.get parent = some container)
    (hlast : container.child last = some source)
    (hset : t.set toPath (source.map lib.rewrite) = some t₁)
    (hparent' : t₁.get parent = some container') (habove : ¬ toPath <+: parent)
    (hlast' : container'.child last = some source) :
    container'.Loose last ↔
      IsField t (parent ++ [last]) ∨ IsLastItem t (parent ++ [last]) toPath := by
  obtain ⟨container'', hcontainer, hobj, harr⟩ := set_container hset hparent habove
  obtain rfl := Option.some.inj (hparent'.symm.trans hcontainer)
  cases container with
  | obj keys fields =>
      obtain ⟨keys', fields', rfl⟩ := hobj keys fields rfl
      exact iff_of_true (loose_obj keys' fields' last) (.inl ⟨parent, last, keys, fields, rfl, hparent⟩)
  | arr n item =>
      obtain ⟨m, item', rfl, hle, hsame⟩ := harr n item rfl
      obtain ⟨i, hlt, rfl, -⟩ := child_arr_eq_some.1 hlast
      rw [loose_arr_iff (Nat.lt_of_lt_of_le hlt hle)]
      constructor
      · intro hm
        obtain rfl : n = i + 1 := by omega
        exact .inr ⟨parent, i, item, rfl, hparent, hsame.1 (by omega)⟩
      · rintro (⟨parent', key, keys, fields, hpath, hget⟩ | ⟨parent', j, item', hpath, hget, hall⟩)
        · obtain ⟨rfl, -⟩ := List.append_inj' hpath rfl
          cases hparent.symm.trans hget
        · obtain ⟨rfl, hj⟩ := List.append_inj' hpath rfl
          obtain rfl := eq_of_repr (List.cons.inj hj).1
          cases hparent.symm.trans hget
          exact (hsame.2 hall).symm
  | _ => cases hlast

theorem relocated_beside_iff (hget : t.get (parent ++ [last]) = some source)
    (hset : t.set toPath (source.map lib.rewrite) = some t₁)
    (hapart : Apart (parent ++ [last]) toPath) :
    Relocated t (t₁.delete (parent ++ [last])) (parent ++ [last]) toPath source ↔
      lib.Survives source ∧ t.Readable toPath ∧
        (IsField t (parent ++ [last]) ∨ IsLastItem t (parent ++ [last]) toPath) := by
  have hget₁ := get_set_apart hset ((apart_comm _ _).1 hapart) hget
  have hboth := hget
  rw [get_concat] at hboth hget₁
  obtain ⟨container, hparent, hlast⟩ := Option.bind_eq_some_iff.1 hboth
  obtain ⟨container', hparent', hlast'⟩ := Option.bind_eq_some_iff.1 hget₁
  have habove : ¬ toPath <+: parent := fun habove' =>
    hapart.2 (habove'.trans (List.prefix_append parent [last]))
  have hloose := loose_iff hparent hlast hset hparent' habove hlast'
  have hgone := get_delete_self hparent' hlast'
  constructor
  · rintro ⟨hto, hfrom, -⟩
    have hnone := hfrom hapart.1
    rw [hgone] at hnone
    have hL : container'.Loose last := by
      cases container' with
      | obj keys fields => exact loose_obj keys fields last
      | arr n item =>
          obtain ⟨i, hlt, rfl, -⟩ := child_arr_eq_some.1 hlast'
          rw [loose_arr_iff hlt]
          by_contra hne
          rw [child_remove_arr item hlt, if_neg (Nat.lt_irrefl i), child_arr_of_lt (by omega)] at hnone
          cases hnone
      | _ => cases hlast'
    rw [get_delete_apart hparent' hlast' hL hapart] at hto
    by_cases hreadable : t.Readable toPath
    · rw [get_set_self hset hreadable, Option.some.injEq] at hto
      exact ⟨map_rewrite_eq_self.1 hto, hreadable, hloose.1 hL⟩
    · rw [get_set_unreadable hset hreadable] at hto
      cases hto
  · rintro ⟨hsurvives, hreadable, hplace⟩
    have hL := hloose.2 hplace
    refine ⟨?_, fun _ => ?_, fun other value hfrom hto hother => ?_⟩
    · rw [get_delete_apart hparent' hlast' hL hapart, get_set_self hset hreadable,
        map_rewrite_eq_self.2 hsurvives]
    · rw [hgone, hL last, if_pos rfl]
    · rw [get_delete_apart hparent' hlast' hL hfrom]
      exact get_set_apart hset hto hother

theorem relocated_iff (hget : t.get fromPath = some source) (hfrom : fromPath ≠ [])
    (hset : t.set toPath (source.map lib.rewrite) = some t₁) :
    Relocated t (t₁.delete fromPath) fromPath toPath source ↔
      CanMove lib t fromPath toPath source := by
  obtain ⟨parent, last, rfl⟩ := (List.eq_nil_or_concat' fromPath).resolve_left hfrom
  by_cases hinto : (parent ++ [last]) <+: toPath
  · obtain ⟨rest, rfl⟩ := hinto
    exact iff_of_false (not_relocated_into hget hset) fun hmove =>
      hmove.1 (List.prefix_append _ rest)
  · by_cases hout : toPath <+: parent ++ [last]
    · obtain ⟨rest, hrest⟩ := hout
      have hne : rest ≠ [] := by
        rintro rfl
        rw [List.append_nil] at hrest
        exact hinto (hrest ▸ List.prefix_rfl)
      rw [← hrest] at hget ⊢ hinto
      rw [relocated_out_iff hget hne hset]
      constructor
      · rintro ⟨hsurvives, hdeletes⟩
        rw [get_append] at hget
        obtain ⟨c, hc, -⟩ := Option.bind_eq_some_iff.1 hget
        exact ⟨hinto, hsurvives, readable_of_get hc, .inl ⟨rest, rfl, hdeletes⟩⟩
      · rintro ⟨-, hsurvives, -, ⟨rest', hrest', hdeletes⟩ | ⟨hnot, -⟩⟩
        · rw [List.append_cancel_left hrest']
          exact ⟨hsurvives, hdeletes⟩
        · exact absurd (List.prefix_append toPath rest) hnot
    · rw [relocated_beside_iff hget hset ⟨hinto, hout⟩]
      constructor
      · rintro ⟨hsurvives, hreadable, hplace⟩
        exact ⟨hinto, hsurvives, hreadable, .inr ⟨hout, hplace⟩⟩
      · rintro ⟨-, hsurvives, hreadable, ⟨rest, hrest, -⟩ | ⟨-, hplace⟩⟩
        · exact absurd (hrest ▸ List.prefix_append toPath rest) hout
        · exact ⟨hsurvives, hreadable, hplace⟩

/-! ## The edit of the text -/

variable {d d' : D}

/-- What a move that succeeds has done. -/
theorem moveValue_eq_ok (hlib : lib.Documented) (hfrom : PlainPath fromPath)
    (hto : PlainPath toPath) (hsource : (lib.tree d).get fromPath = some source)
    (hmove : lib.moveValue d (dotted fromPath) (dotted toPath) = .ok d') :
    ∃ t₁, (lib.tree d).set toPath (source.map lib.rewrite) = some t₁ ∧
      lib.tree d' = t₁.delete fromPath := by
  obtain ⟨found, hfound, rfl⟩ := hlib.get_some hfrom hsource
  unfold moveValue at hmove
  rw [hfound] at hmove
  dsimp only at hmove
  cases hset : lib.set d (dotted toPath) (lib.value found) with
  | error err =>
      rw [hset] at hmove
      cases hmove
  | ok d₁ =>
      rw [hset] at hmove
      obtain ⟨raw, hraw, hset₁⟩ := hlib.set_eq_ok hto hset
      obtain rfl := written_eq_some hraw
      rw [hlib.value, map_print_map_parse] at hset₁
      exact ⟨lib.tree d₁, hset₁, hlib.delete_eq_ok hfrom hmove⟩

/-- A move that succeeds relocates the value exactly between these paths. -/
theorem moveValue_relocates_iff (hlib : lib.Documented) (hfrom : PlainPath fromPath)
    (hto : PlainPath toPath) (hsource : (lib.tree d).get fromPath = some source)
    (hmove : lib.moveValue d (dotted fromPath) (dotted toPath) = .ok d') :
    Relocated (lib.tree d) (lib.tree d') fromPath toPath source ↔
      CanMove lib (lib.tree d) fromPath toPath source := by
  obtain ⟨t₁, hset, hdelete⟩ := moveValue_eq_ok hlib hfrom hto hsource hmove
  rw [hdelete]
  exact relocated_iff hsource hfrom.1 hset

/-- A field that is renamed. -/
theorem moveValue_relocates_field :
    ∃ d', ofTrees.moveValue (.obj {"model"} fun _ => .str "gpt-4") "model" "alias" = .ok d' ∧
      Relocated (.obj {"model"} fun _ => .str "gpt-4") d' ["model"] ["alias"] (.str "gpt-4") := by
  refine ⟨_, rfl, (moveValue_relocates_iff documented_ofTrees (by decide) (by decide) rfl rfl).2 ?_⟩
  refine ⟨by decide, trivial, ⟨fun happends => ?_, List.not_mem_nil⟩,
    .inr ⟨by decide, .inl ?_⟩⟩
  · obtain ⟨⟨n, item, harr⟩, -⟩ := happends
    cases harr
  · exact ⟨[], "model", _, _, rfl, rfl⟩

/-- A value that is moved to its own place is gone, and the item behind a moved one takes its
place. -/
theorem moved_value_lost :
    (∃ d', ofTrees.moveValue (.obj {"a"} fun _ => .num 1) "a" "a" = .ok d' ∧
      d'.get ["a"] = none) ∧
    ∃ d', ofTrees.moveValue (.obj {"a"} fun _ => .arr 2 fun i => .num i.1) "a.0" "b" = .ok d' ∧
      d'.get ["b"] = some (.num 0) ∧ d'.get ["a", "0"] = some (.num 1) :=
  ⟨⟨_, rfl, rfl⟩, _, rfl, rfl, rfl⟩

end

end JsonText

end NewApi.Model
