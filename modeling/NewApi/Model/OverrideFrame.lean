import NewApi.Model.ParamOverride

/-!
# What overrides leave alone

The merge of an override and the removal of disabled fields decode the whole body and encode it
again; copying and appending do so with a part of it.  Every number on the way becomes a float and
is printed again.
-/

namespace NewApi.Model

open NewApi.Lib NewApi.Lib.JsonTree

/-- The settings of a channel that name fields of the request. -/
structure ChannelOtherSettings where
  allowServiceTier : Bool
  disableStore : Bool
  allowSafetyIdentifier : Bool

/-- The fields that are removed. -/
def ChannelOtherSettings.disabledFields (settings : ChannelOtherSettings) : List String :=
  (if settings.allowServiceTier then [] else ["service_tier"]) ++
    (if settings.disableStore then ["store"] else []) ++
    (if settings.allowSafetyIdentifier then [] else ["safety_identifier"])

namespace JsonText

variable {D N F : Type}

/-- What cannot be decoded or encoded is passed on as it is. -/
def removeDisabledFields (lib : JsonText D N F) (jsonData : D) (settings : ChannelOtherSettings) :
    Except String D :=
  match lib.unmarshalMap jsonData with
  | .error _ => .ok jsonData
  | .ok data =>
      match lib.marshal (settings.disabledFields.foldl JsonTree.remove data) with
      | .error _ => .ok jsonData
      | .ok jsonDataAfter => .ok jsonDataAfter

section

variable {lib : JsonText D N F} {d d' : D} {v data override : JsonTree F} {t : JsonTree N}
  {key : String}

theorem Documented.marshal_eq_ok (hlib : lib.Documented) (hmarshal : lib.marshal v = .ok d) :
    lib.Finite v ∧ lib.tree d = v.map lib.print := by
  by_cases hfinite : lib.Finite v
  · obtain ⟨d₁, hd₁, htree⟩ := hlib.marshal_ok v hfinite
    cases hmarshal.symm.trans hd₁
    exact ⟨hfinite, htree⟩
  · obtain ⟨err, herr⟩ := hlib.marshal_error v hfinite
    cases hmarshal.symm.trans herr

theorem Documented.unmarshal_eq_ok (hlib : lib.Documented) {keys : Finset String}
    {value : {key // key ∈ keys} → JsonTree N} (hobj : lib.tree d = .obj keys value)
    (hunmarshal : lib.unmarshalMap d = .ok data) :
    lib.Decodes (lib.tree d) ∧ data = (lib.tree d).map lib.parse := by
  by_cases hdecodes : lib.Decodes (lib.tree d)
  · cases hunmarshal.symm.trans (hlib.unmarshal_ok d keys value hobj hdecodes)
    exact ⟨hdecodes, rfl⟩
  · obtain ⟨err, herr⟩ := hlib.unmarshal_error d hdecodes
    cases hunmarshal.symm.trans herr

/-- A field is decoded and encoded without loss exactly if its numbers survive. -/
theorem map_child_eq_iff (lib : JsonText D N F) (found : Option (JsonTree N)) :
    found.map (JsonTree.map lib.rewrite) = found ↔ ∀ c, found = some c → lib.Survives c := by
  cases found with
  | none => simp
  | some c => simp [map_rewrite_eq_self]

theorem child_overridden {keys keys' : Finset String} {value : {key // key ∈ keys} → JsonTree F}
    {value' : {key // key ∈ keys'} → JsonTree F} (key : String) :
    (overridden (.obj keys value) (.obj keys' value')).child key =
      ((JsonTree.obj keys' value').child key).or ((JsonTree.obj keys value).child key) := by
  unfold overridden keysOf
  dsimp only
  by_cases hnew : key ∈ keys'
  · rw [child_obj_of_mem (Finset.mem_union_right keys hnew), child_obj_of_mem hnew]
    rfl
  · by_cases hold : key ∈ keys
    · rw [child_obj_of_mem (Finset.mem_union_left keys' hold), child_obj_of_not_mem hnew,
        Option.none_or, anyEntry, child_obj_of_mem hold]
      rfl
    · rw [child_obj_of_not_mem hnew, child_obj_of_not_mem hold, child_obj_of_not_mem]
      · rfl
      · rw [Finset.mem_union, not_or]
        exact ⟨hold, hnew⟩

/-! ## The merge -/

/-- Every field of the body after the merge. -/
theorem legacy_child (hlib : lib.Documented) {keys keys' : Finset String}
    {value : {key // key ∈ keys} → JsonTree N} {value' : {key // key ∈ keys'} → JsonTree F}
    (hobj : lib.tree d = .obj keys value)
    (hmerge : lib.applyOperationsLegacy d (.obj keys' value') = some (.ok d')) (key : String) :
    (lib.tree d').child key =
      (((JsonTree.obj keys' value').child key).map (JsonTree.map lib.print)).or
        (((lib.tree d).child key).map (JsonTree.map lib.rewrite)) := by
  unfold applyOperationsLegacy at hmerge
  cases hunmarshal : lib.unmarshalMap d with
  | error err =>
      rw [hunmarshal] at hmerge
      cases hmerge
  | ok data =>
      obtain ⟨-, hdata⟩ := hlib.unmarshal_eq_ok hobj hunmarshal
      rw [hobj] at hdata
      rw [hunmarshal, hdata] at hmerge
      obtain ⟨-, htree⟩ := hlib.marshal_eq_ok (Option.some.inj hmerge)
      rw [htree, child_map, child_overridden, hobj]
      have hdecoded : (JsonTree.obj keys fun key => (value key).map lib.parse).child key =
          ((JsonTree.obj keys value).child key).map (JsonTree.map lib.parse) :=
        child_map lib.parse (.obj keys value) key
      rw [hdecoded]
      cases (JsonTree.obj keys' value').child key with
      | some v => rfl
      | none =>
          rw [Option.none_or, Option.map_map, Option.map_none, Option.none_or]
          congr 1
          funext c
          exact map_print_map_parse lib c

/-! ## The removal of fields -/

/-- Every field of the body after the removal. -/
theorem removed_child (hlib : lib.Documented) (settings : ChannelOtherSettings)
    {keys : Finset String} {value : {key // key ∈ keys} → JsonTree N}
    (hobj : lib.tree d = .obj keys value)
    (hremove : lib.removeDisabledFields d settings = .ok d') (key : String) :
    (lib.tree d').child key =
      if lib.Decodes (lib.tree d) then
        if key ∈ settings.disabledFields then none
        else ((lib.tree d).child key).map (JsonTree.map lib.rewrite)
      else (lib.tree d).child key := by
  unfold removeDisabledFields at hremove
  by_cases hdecodes : lib.Decodes (lib.tree d)
  · rw [if_pos hdecodes]
    rw [hlib.unmarshal_ok d keys value hobj hdecodes, hobj] at hremove
    obtain ⟨keys', value', hfold, hchild⟩ :=
      exists_foldl_remove settings.disabledFields keys fun key => (value key).map lib.parse
    have hdecoded : ∀ key, (JsonTree.obj keys fun key => (value key).map lib.parse).child key =
        ((JsonTree.obj keys value).child key).map (JsonTree.map lib.parse) :=
      child_map lib.parse (.obj keys value)
    have hfinite : lib.Finite (.obj keys' value') := by
      refine allNum_obj_iff.2 fun key c hc => ?_
      rw [hchild key, hdecoded key] at hc
      split at hc
      · cases hc
      · obtain ⟨c₀, hc₀, rfl⟩ := Option.map_eq_some_iff.1 hc
        rw [hobj] at hdecodes
        exact allNum_map.2 (hdecodes.child hc₀)
    obtain ⟨d₁, hd₁, htree⟩ := hlib.marshal_ok _ hfinite
    have hremove' : (match lib.marshal (settings.disabledFields.foldl JsonTree.remove
        (.obj keys fun key => (value key).map lib.parse)) with
      | .error _ => Except.ok d
      | .ok jsonDataAfter => .ok jsonDataAfter) = Except.ok d' := hremove
    rw [hfold, hd₁] at hremove'
    cases hremove'
    rw [htree, child_map, hchild key, hdecoded key, hobj]
    split
    · rfl
    · rw [Option.map_map]
      congr 1
      funext c
      exact map_print_map_parse lib c
  · rw [if_neg hdecodes]
    obtain ⟨err, herr⟩ := hlib.unmarshal_error d hdecodes
    rw [herr] at hremove
    cases hremove
    rfl

/-! ## Copying and appending -/

variable {fromPath toPath path : List String} {source : JsonTree N}

/-- What a copy that succeeds has done. -/
theorem copyValue_eq_ok (hlib : lib.Documented) (hfrom : PlainPath fromPath)
    (hto : PlainPath toPath) (hcopy : lib.copyValue d (dotted fromPath) (dotted toPath) = .ok d') :
    ∃ source, (lib.tree d).get fromPath = some source ∧
      (lib.tree d).set toPath (source.map lib.rewrite) = some (lib.tree d') := by
  unfold copyValue at hcopy
  cases hfound : lib.get d (dotted fromPath) with
  | none =>
      rw [hfound] at hcopy
      cases hcopy
  | some found =>
      rw [hfound] at hcopy
      obtain ⟨raw, hraw, hset⟩ := hlib.set_eq_ok hto hcopy
      obtain rfl := written_eq_some hraw
      rw [hlib.value, map_print_map_parse] at hset
      refine ⟨lib.tree found, ?_, hset⟩
      rw [← hlib.get d fromPath hfrom, hfound, Option.map_some]

/-- The copy is the source exactly if its numbers survive and no item is appended on the way. -/
theorem copied_iff {t' : JsonTree N} (hsource : t.get fromPath = some source)
    (hset : t.set toPath (source.map lib.rewrite) = some t') :
    t'.get toPath = t.get fromPath ↔ lib.Survives source ∧ t.Readable toPath := by
  rw [hsource]
  by_cases hreadable : t.Readable toPath
  · rw [get_set_self hset hreadable, Option.some.injEq, map_rewrite_eq_self]
    exact (and_iff_left hreadable).symm
  · rw [get_set_unreadable hset hreadable]
    exact iff_of_false (fun h => nomatch h) fun h => hreadable h.2

/-- The items of a list of the program, as they are written. -/
def printedItems (lib : JsonText D N F) (items : List (JsonTree F)) : List (JsonTree N) :=
  items.map (JsonTree.map lib.print)

/-- The items before and after the ones that are there. -/
def extended {α : Type} (old added : List α) (isPrepend : Bool) : List α :=
  if isPrepend then added ++ old else old ++ added

theorem modifyArray_eq_ok (hlib : lib.Documented) (hpath : PlainPath path) {n : ℕ}
    {item : Fin n → JsonTree N} (harr : (lib.tree d).get path = some (.arr n item))
    {isPrepend : Bool} (hmodify : lib.modifyArray d (dotted path) v isPrepend = .ok d') :
    (lib.tree d).set path ((arrayOf (extended ((List.ofFn item).map (JsonTree.map lib.parse))
      (addedValues v) isPrepend)).map lib.print) = some (lib.tree d') := by
  obtain ⟨found, hfound, htree⟩ := hlib.get_some hpath harr
  have hitems : lib.decodedItems found = (List.ofFn item).map (JsonTree.map lib.parse) := by
    unfold decodedItems
    rw [hlib.value, htree, List.map_ofFn]
    rfl
  unfold modifyArray at hmodify
  rw [hfound, Option.map_some, Option.getD_some, hitems] at hmodify
  obtain ⟨raw, hraw, hset⟩ := hlib.set_eq_ok hpath hmodify
  obtain rfl := written_eq_some hraw
  exact hset

/-- The array has the old items and the added ones exactly if the numbers of the old ones survive,
and there are any. -/
theorem extended_iff {t' : JsonTree N} {n : ℕ} {item : Fin n → JsonTree N}
    (harr : t.get path = some (.arr n item)) {added : List (JsonTree F)} {isPrepend : Bool}
    (hset : t.set path ((arrayOf (extended ((List.ofFn item).map (JsonTree.map lib.parse)) added
      isPrepend)).map lib.print) = some t') :
    (∃ m item', t'.get path = some (.arr m item') ∧
        List.ofFn item' = extended (List.ofFn item) (lib.printedItems added) isPrepend) ↔
      (∀ i, lib.Survives (item i)) ∧ (n = 0 → added ≠ []) := by
  rw [get_set_self hset (readable_of_get harr)]
  have hold : (∀ i, lib.Survives (item i)) ↔
      (List.ofFn item).map (JsonTree.map lib.rewrite) = List.ofFn item := by
    rw [List.map_ofFn, List.ofFn_inj, funext_iff]
    exact forall_congr' fun i => map_rewrite_eq_self.symm
  have hlist : (extended ((List.ofFn item).map (JsonTree.map lib.parse)) added isPrepend).map
        (JsonTree.map lib.print) =
      extended ((List.ofFn item).map (JsonTree.map lib.rewrite)) (lib.printedItems added)
        isPrepend := by
    have hcomp : JsonTree.map lib.print ∘ JsonTree.map lib.parse = JsonTree.map lib.rewrite :=
      funext (map_print_map_parse lib)
    unfold extended printedItems
    cases isPrepend <;> simp only [if_true, Bool.false_eq_true, if_false, List.map_append,
      List.map_map, hcomp]
  by_cases hempty : extended ((List.ofFn item).map (JsonTree.map lib.parse)) added isPrepend = []
  · unfold arrayOf
    rw [if_pos hempty]
    refine iff_of_false ?_ ?_
    · rintro ⟨m, item', harray, -⟩
      cases harray
    · rintro ⟨-, hadded⟩
      unfold extended at hempty
      split at hempty
      · obtain ⟨hnil, hitems⟩ := List.append_eq_nil_iff.1 hempty
        exact hadded (List.ofFn_eq_nil_iff.1 (List.map_eq_nil_iff.1 hitems)) hnil
      · obtain ⟨hitems, hnil⟩ := List.append_eq_nil_iff.1 hempty
        exact hadded (List.ofFn_eq_nil_iff.1 (List.map_eq_nil_iff.1 hitems)) hnil
  · have hsome : n = 0 → added ≠ [] := by
      rintro rfl rfl
      refine hempty ?_
      unfold extended
      cases isPrepend <;> rfl
    rw [hold, and_iff_left hsome]
    have hwritten : (arrayOf (extended ((List.ofFn item).map (JsonTree.map lib.parse)) added
        isPrepend)).map lib.print = .arr _ (fun i => ((extended ((List.ofFn item).map
          (JsonTree.map lib.parse)) added isPrepend).get i).map lib.print) := by
      unfold arrayOf
      rw [if_neg hempty]
      rfl
    have hofFn : List.ofFn (fun i => ((extended ((List.ofFn item).map
          (JsonTree.map lib.parse)) added isPrepend).get i).map lib.print) =
        extended ((List.ofFn item).map (JsonTree.map lib.rewrite)) (lib.printedItems added)
          isPrepend := by
      rw [← hlist]
      exact List.ofFn_getElem_eq_map _ (JsonTree.map lib.print)
    constructor
    · rintro ⟨m, item', harray, hitems⟩
      rw [hwritten] at harray
      cases harray
      rw [hofFn] at hitems
      unfold extended at hitems
      split at hitems
      · exact List.append_cancel_left hitems
      · exact List.append_cancel_right hitems
    · intro hsurvive
      refine ⟨_, _, congrArg some hwritten, ?_⟩
      rw [hofFn, hsurvive]

end

/-! ## All of them -/

/-- The edits that ought to leave alone what they do not name. -/
inductive FramedEdit (F : Type)
  | merge (keys : Finset String) (value : {key // key ∈ keys} → JsonTree F)
  | removeDisabled (settings : ChannelOtherSettings)
  | copy (fromPath toPath : List String)
  | extend (path : List String) (value : JsonTree F) (keepOrigin isPrepend : Bool)

namespace FramedEdit

/-- What an edit makes of a body. -/
def run (lib : JsonText D N F) (fns : TextFunctions F) (d : D) :
    FramedEdit F → Option (Except String D)
  | merge keys value => lib.applyOperationsLegacy d (.obj keys value)
  | removeDisabled settings => some (lib.removeDisabledFields d settings)
  | copy fromPath toPath => some (lib.copyValue d (dotted fromPath) (dotted toPath))
  | extend path value keepOrigin isPrepend =>
      some (lib.modifyValue fns d (dotted path) value keepOrigin isPrepend)

/-- The paths are plain, and what is appended to is an array. -/
def Applies (t : JsonTree N) : FramedEdit F → Prop
  | copy fromPath toPath => PlainPath fromPath ∧ PlainPath toPath
  | extend path _ _ _ => PlainPath path ∧ ∃ n item, t.get path = some (.arr n item)
  | _ => True

/-- Everywhere apart from the path the value stays. -/
def StaysApart (t t' : JsonTree N) (path : List String) : Prop :=
  ∀ other value, Apart path other → t.get other = some value → t'.get other = some value

/-- What is not named stays, and what is named is as it should be. -/
def Framed (lib : JsonText D N F) (t t' : JsonTree N) : FramedEdit F → Prop
  | merge keys _ => ∀ key, key ∉ keys → t'.child key = t.child key
  | removeDisabled settings => ∀ key, key ∉ settings.disabledFields → t'.child key = t.child key
  | copy fromPath toPath => t'.get toPath = t.get fromPath ∧ StaysApart t t' toPath
  | extend path value _ isPrepend =>
      (∀ n item, t.get path = some (.arr n item) → ∃ m item', t'.get path = some (.arr m item') ∧
        List.ofFn item' =
          extended (List.ofFn item) (lib.printedItems (addedValues value)) isPrepend) ∧
      StaysApart t t' path

/-- Every number that is decoded and encoded again survives; nothing is copied behind the last item
of an array as `-1`, and no empty list is appended to an empty array. -/
def Keeps (lib : JsonText D N F) (t : JsonTree N) : FramedEdit F → Prop
  | merge keys _ => ∀ key c, key ∉ keys → t.child key = some c → lib.Survives c
  | removeDisabled settings =>
      lib.Decodes t → ∀ key c, key ∉ settings.disabledFields → t.child key = some c → lib.Survives c
  | copy fromPath toPath =>
      t.Readable toPath ∧ ∀ source, t.get fromPath = some source → lib.Survives source
  | extend path value _ _ =>
      ∀ n item, t.get path = some (.arr n item) →
        (∀ i, lib.Survives (item i)) ∧ (n = 0 → addedValues value ≠ [])

end FramedEdit

section

open FramedEdit

variable {lib : JsonText D N F} {fns : TextFunctions F} {d d' : D} {edit : FramedEdit F}
  {keys : Finset String} {value : {key // key ∈ keys} → JsonTree N}

theorem modifyValue_arr (hlib : lib.Documented) {path : List String} (hpath : PlainPath path) {n : ℕ}
    {item : Fin n → JsonTree N} (harr : (lib.tree d).get path = some (.arr n item))
    (v : JsonTree F) (keepOrigin isPrepend : Bool) :
    lib.modifyValue fns d (dotted path) v keepOrigin isPrepend =
      lib.modifyArray d (dotted path) v isPrepend := by
  unfold modifyValue
  rw [hlib.get d path hpath, harr]

theorem framed_merge_iff (hlib : lib.Documented) (hobj : lib.tree d = .obj keys value)
    {keys' : Finset String} {value' : {key // key ∈ keys'} → JsonTree F}
    (hrun : (merge keys' value').run lib fns d = some (.ok d')) :
    (merge keys' value').Framed lib (lib.tree d) (lib.tree d') ↔
      (merge keys' value').Keeps lib (lib.tree d) := by
  refine forall_congr' fun key => ?_
  rw [forall_comm]
  refine forall_congr' fun hkey => ?_
  rw [legacy_child hlib hobj hrun key, child_obj_of_not_mem hkey, Option.map_none, Option.none_or]
  exact map_child_eq_iff lib _

theorem framed_removeDisabled_iff (hlib : lib.Documented) (hobj : lib.tree d = .obj keys value)
    {settings : ChannelOtherSettings}
    (hrun : lib.removeDisabledFields d settings = .ok d') :
    (removeDisabled settings : FramedEdit F).Framed lib (lib.tree d) (lib.tree d') ↔
      (removeDisabled settings : FramedEdit F).Keeps lib (lib.tree d) := by
  have hchild := removed_child hlib settings hobj hrun
  by_cases hdecodes : lib.Decodes (lib.tree d)
  · rw [Framed, Keeps, imp_iff_right hdecodes]
    refine forall_congr' fun key => ?_
    rw [forall_comm]
    refine forall_congr' fun hkey => ?_
    rw [hchild key, if_pos hdecodes, if_neg hkey]
    exact map_child_eq_iff lib _
  · refine iff_of_true (fun key _ => ?_) fun h => absurd h hdecodes
    rw [hchild key, if_neg hdecodes]

theorem framed_copy_iff (hlib : lib.Documented) {fromPath toPath : List String}
    (hfrom : PlainPath fromPath) (hto : PlainPath toPath)
    (hrun : lib.copyValue d (dotted fromPath) (dotted toPath) = .ok d') :
    (copy fromPath toPath : FramedEdit F).Framed lib (lib.tree d) (lib.tree d') ↔
      (copy fromPath toPath : FramedEdit F).Keeps lib (lib.tree d) := by
  obtain ⟨source, hsource, hset⟩ := copyValue_eq_ok hlib hfrom hto hrun
  have hstays : StaysApart (lib.tree d) (lib.tree d') toPath := fun other value hapart hother =>
    get_set_apart hset hapart hother
  rw [Framed, Keeps, and_iff_left hstays, copied_iff hsource hset, and_comm]
  refine and_congr_right fun _ => ⟨fun hsurvives other hother => ?_, fun hall => hall source hsource⟩
  obtain rfl := Option.some.inj (hsource.symm.trans hother)
  exact hsurvives

theorem framed_extend_iff (hlib : lib.Documented) {path : List String} (hpath : PlainPath path)
    {n : ℕ} {item : Fin n → JsonTree N} (harr : (lib.tree d).get path = some (.arr n item))
    {v : JsonTree F} {keepOrigin isPrepend : Bool}
    (hrun : lib.modifyValue fns d (dotted path) v keepOrigin isPrepend = .ok d') :
    (extend path v keepOrigin isPrepend).Framed lib (lib.tree d) (lib.tree d') ↔
      (extend path v keepOrigin isPrepend).Keeps lib (lib.tree d) := by
  rw [modifyValue_arr hlib hpath harr] at hrun
  have hset := modifyArray_eq_ok hlib hpath harr hrun
  have hstays : StaysApart (lib.tree d) (lib.tree d') path := fun other value hapart hother =>
    get_set_apart hset hapart hother
  have hiff := extended_iff harr hset
  rw [Framed, Keeps, and_iff_left hstays]
  constructor
  · intro hframed m other hother
    cases harr.symm.trans hother
    exact hiff.1 (hframed n item harr)
  · intro hkeeps m other hother
    cases harr.symm.trans hother
    exact hiff.2 (hkeeps n item harr)

/-- An edit of a body that is an object leaves alone what it does not name exactly if the numbers
that are decoded on the way survive. -/
theorem edit_framed_iff (hlib : lib.Documented) (fns : TextFunctions F)
    (hobj : lib.tree d = .obj keys value) (happlies : edit.Applies (lib.tree d))
    (hrun : edit.run lib fns d = some (.ok d')) :
    edit.Framed lib (lib.tree d) (lib.tree d') ↔ edit.Keeps lib (lib.tree d) := by
  cases edit with
  | merge keys' value' => exact framed_merge_iff hlib hobj hrun
  | removeDisabled settings => exact framed_removeDisabled_iff hlib hobj (Option.some.inj hrun)
  | copy fromPath toPath =>
      exact framed_copy_iff hlib happlies.1 happlies.2 (Option.some.inj hrun)
  | extend path v keepOrigin isPrepend =>
      obtain ⟨hpath, n, item, harr⟩ := happlies
      exact framed_extend_iff hlib hpath harr (Option.some.inj hrun)

/-- A small seed stays when another field is overridden. -/
theorem edit_framed_iff_seed :
    ∃ d', (merge {"temperature"} fun _ => .num 0 : FramedEdit ℤ).run ofTrees intFunctions
        (.obj {"seed"} fun _ => .num 7) = some (.ok d') ∧
      ∀ key, key ∉ ({"temperature"} : Finset String) →
        d'.child key = (JsonTree.obj {"seed"} fun _ => .num 7 : JsonTree ℤ).child key := by
  have hrun : (merge {"temperature"} fun _ => .num 0 : FramedEdit ℤ).run ofTrees intFunctions
      (.obj {"seed"} fun _ => .num 7) = some (.ok _) := rfl
  have happlies : (merge {"temperature"} fun _ => .num 0 : FramedEdit ℤ).Applies
      (.obj {"seed"} fun _ => .num 7 : JsonTree ℤ) := trivial
  refine ⟨_, hrun, (edit_framed_iff documented_ofTrees intFunctions rfl happlies hrun).2 ?_⟩
  intro key c _ hchild
  obtain ⟨_, rfl⟩ := child_obj_eq_some.1 hchild
  exact (by decide : nearestFloat 7 = 7)

/-- A large seed is rounded when another field is overridden. -/
theorem overridden_body_rounds_seed :
    ∃ d', ofTrees.applyOperationsLegacy (.obj {"seed"} fun _ => .num 9007199254740993)
        (.obj {"temperature"} fun _ => .num 0) = some (.ok d') ∧
      d'.child "seed" = some (.num 9007199254740992) :=
  ⟨_, rfl, rfl⟩

end

end JsonText

end NewApi.Model
