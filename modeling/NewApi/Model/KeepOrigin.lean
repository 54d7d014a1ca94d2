import NewApi.Lib.JsonGrowth
import NewApi.Model.OverrideFrame

/-!
# Operations that keep the origin

With `keep_origin` an operation is meant to add what is missing and to change nothing that is there.
`set` looks the path up; the merge of objects decodes the object and asks for entries that are nil,
which a null is as well as a missing key.
-/

namespace NewApi.Model

open NewApi.Lib NewApi.Lib.JsonTree

namespace JsonText

variable {D N F : Type}

/-- An operation of which an operation with `keep_origin` should keep everything: `set`, or a merge
into an object. -/
structure KeepOriginAt (lib : JsonText D N F) (d : D) (op : ParamOperation F)
    (path : List String) : Prop where
  keepOrigin : op.keepOrigin = true
  plain : PlainPath path
  opPath : lib.processNegativeIndex d op.path = dotted path
  mode : op.mode = "set" ∨ ((op.mode = "append" ∨ op.mode = "prepend") ∧
    ∃ keys value, (lib.tree d).get path = some (.obj keys value))

/-- `set` adds the value where nothing is, and nothing else. -/
def SetAdds (t t' : JsonTree N) (path : List String) (value : JsonTree N) : Prop :=
  (∀ found, t.get path = some found → t' = t) ∧
    (t.get path = none → t'.get path = some value ∧ OnlyAlong path t t')

/-- The merge adds the entries whose keys are missing, and nothing else. -/
def MergeAdds (lib : JsonText D N F) (t t' : JsonTree N) (path : List String)
    (newMap : JsonTree F) : Prop :=
  (∀ key, t.get (path ++ [key]) = none →
      t'.get (path ++ [key]) = (newMap.child key).map (JsonTree.map lib.print)) ∧
    ∀ other, t.get other = none → (t'.get other).isSome = true → path <+: other

/-- All that was there is there, and just what was missing has been added. -/
def KeepsOrigin (lib : JsonText D N F) (t t' : JsonTree N) (op : ParamOperation F)
    (path : List String) : Prop :=
  Grows t t' ∧
    if op.mode = "set" then SetAdds t t' path (op.value.map lib.print)
    else ∀ newMap, lib.newEntries op.value = .ok newMap → lib.MergeAdds t t' path newMap

/-- What is set is there, or there is room for it; and in an object that is merged into all numbers
survive, and nulls have no other new value than null. -/
def HasRoom (lib : JsonText D N F) (t : JsonTree N) (op : ParamOperation F) (path : List String) :
    Prop :=
  if op.mode = "set" then t.get path = none → t.Addable path
  else ∀ c newMap, t.get path = some c → lib.newEntries op.value = .ok newMap →
    lib.Survives c ∧
      ∀ key v, c.child key = some .null → newMap.child key = some v → v = .null

section

variable {lib : JsonText D N F} {fns : TextFunctions F} {d d' : D} {op : ParamOperation F}
  {path : List String} {t t' : JsonTree N} {currentMap newMap v : JsonTree F} {key : String}

/-! ## Setting -/

theorem set_keepsOrigin_iff {value : JsonTree N}
    (hstep : (∃ found, t.get path = some found ∧ t' = t) ∨
      (t.get path = none ∧ t.set path value = some t')) :
    Grows t t' ∧ SetAdds t t' path value ↔ (t.get path = none → t.Addable path) := by
  rcases hstep with ⟨found, hfound, rfl⟩ | ⟨hmissing, hset⟩
  · refine iff_of_true ⟨.refl t', fun _ _ => rfl, fun hnone => ?_⟩ fun hnone => ?_
    · cases hfound.symm.trans hnone
    · cases hfound.symm.trans hnone
  · rw [imp_iff_right hmissing]
    constructor
    · rintro ⟨hgrows, -, hadds⟩
      obtain ⟨hwritten, honly⟩ := hadds hmissing
      exact addable_of_grows hmissing hset hgrows hwritten honly
    · intro haddable
      obtain ⟨hgrows, honly⟩ := grows_of_addable haddable hset
      refine ⟨hgrows, fun found hfound => ?_, fun _ =>
        ⟨get_set_self hset (readable_of_addable haddable), honly⟩⟩
      cases hfound.symm.trans hmissing

/-- What `set` does when it keeps the origin. -/
theorem edit_set (hlib : lib.Documented) (hop : lib.KeepOriginAt d op path) (hmode : op.mode = "set")
    (hedit : lib.edit fns d op = .ok d') :
    (∃ found, (lib.tree d).get path = some found ∧ lib.tree d' = lib.tree d) ∨
      ((lib.tree d).get path = none ∧
        (lib.tree d).set path (op.value.map lib.print) = some (lib.tree d')) := by
  unfold edit at hedit
  rw [hmode, hop.opPath] at hedit
  have hset : (if op.keepOrigin = true ∧ (lib.get d (dotted path)).isSome = true then Except.ok d
      else lib.set d (dotted path) op.value) = Except.ok d' := hedit
  cases hfound : (lib.tree d).get path with
  | some found =>
      obtain ⟨result, hresult, -⟩ := hlib.get_some hop.plain hfound
      rw [hresult, if_pos ⟨hop.keepOrigin, rfl⟩] at hset
      cases hset
      exact .inl ⟨found, rfl, rfl⟩
  | none =>
      rw [hlib.get_none hop.plain hfound, if_neg fun hand => nomatch hand.2] at hset
      obtain ⟨raw, hraw, hset⟩ := hlib.set_eq_ok hop.plain hset
      obtain rfl := written_eq_some hraw
      exact .inr ⟨rfl, hset⟩

/-! ## Merging -/

/-- A map of the program, which may be nil. -/
def IsMap (v : JsonTree F) : Prop :=
  v = .null ∨ ∃ keys value, v = .obj keys value

theorem mem_keysOf (hmap : IsMap v) : key ∈ keysOf v ↔ ∃ c, v.child key = some c := by
  rcases hmap with rfl | ⟨keys, value, rfl⟩
  · simp [keysOf]
  · constructor
    · exact fun hmem => ⟨_, child_obj_of_mem hmem⟩
    · rintro ⟨c, hc⟩
      exact (child_obj_eq_some.1 hc).1

theorem isMap_newEntries (hlib : lib.Documented) (hnew : lib.newEntries v = .ok newMap) :
    IsMap newMap := by
  unfold newEntries at hnew
  split at hnew
  · cases hnew
    exact .inr ⟨_, _, rfl⟩
  · split at hnew
    · exact hlib.unmarshal_map _ _ hnew
    · cases hnew

/-- The entry of a key in the merged map. -/
def mergedEntry (currentMap newMap : JsonTree F) (key : String) : Option (JsonTree F) :=
  match currentMap.child key with
  | none => newMap.child key
  | some .null => some ((newMap.child key).getD .null)
  | some old => some old

theorem child_mergeEntries (hcurrent : IsMap currentMap) (hnew : IsMap newMap) (key : String) :
    (mergeEntries currentMap newMap true).child key = mergedEntry currentMap newMap key := by
  unfold mergeEntries mergedEntry
  by_cases hmem : key ∈ keysOf currentMap ∪ keysOf newMap
  · rw [child_obj_of_mem hmem]
    cases hold : currentMap.child key with
    | none =>
        rw [Finset.mem_union, mem_keysOf hcurrent, hold] at hmem
        obtain ⟨c, hc⟩ := (mem_keysOf hnew).1 (hmem.resolve_left fun h => nomatch h)
        simp [hc]
    | some old =>
        cases hentry : newMap.child key with
        | none => cases old <;> simp [anyEntry, hold]
        | some v => cases old <;> simp
  · rw [child_obj_of_not_mem hmem]
    rw [Finset.mem_union, not_or, mem_keysOf hcurrent, mem_keysOf hnew] at hmem
    have hnone : currentMap.child key = none := by
      cases hold : currentMap.child key with
      | none => rfl
      | some old => exact absurd ⟨old, hold⟩ hmem.1
    rw [hnone]
    cases hentry : newMap.child key with
    | none => rfl
    | some v => exact absurd ⟨v, hentry⟩ hmem.2

theorem map_eq_null {M : Type} {f : F → M} : v.map f = .null ↔ v = .null := by
  cases v <;> simp [JsonTree.map]

/-- The merged object as it is written. -/
theorem merged_child (lib : JsonText D N F) {keys : Finset String}
    {value : {key // key ∈ keys} → JsonTree N} (hnew : IsMap newMap) (key : String) :
    ((mergeEntries ((JsonTree.obj keys value).map lib.parse) newMap true).map lib.print).child key =
      match (JsonTree.obj keys value).child key with
      | none => (newMap.child key).map (JsonTree.map lib.print)
      | some .null => some (((newMap.child key).getD .null).map lib.print)
      | some old => some (old.map lib.rewrite) := by
  have hcurrent : IsMap ((JsonTree.obj keys value).map lib.parse) := .inr ⟨keys, _, rfl⟩
  rw [child_map, child_mergeEntries hcurrent hnew, mergedEntry, child_map]
  cases hold : (JsonTree.obj keys value).child key with
  | none => rfl
  | some old =>
      have hprinted := map_print_map_parse lib old
      cases old with
      | null => rfl
      | _ => exact congrArg some hprinted

/-- An object grows by a merge exactly if its numbers survive and no null is replaced. -/
theorem grows_merged_iff {keys : Finset String} {value : {key // key ∈ keys} → JsonTree N}
    (hnew : IsMap newMap) :
    Grows (.obj keys value)
        ((mergeEntries ((JsonTree.obj keys value).map lib.parse) newMap true).map lib.print) ↔
      lib.Survives (.obj keys value) ∧
        ∀ key v, (JsonTree.obj keys value).child key = some .null → newMap.child key = some v →
          v = .null := by
  have hchild := @merged_child _ _ _ newMap lib keys value hnew
  constructor
  · intro hgrows
    refine ⟨allNum_obj_iff.2 fun key c hc => ?_, fun key v hnull hv => ?_⟩
    · have hmerged := hchild key
      rw [hc] at hmerged
      cases c with
      | null => trivial
      | _ => exact map_rewrite_eq_self.1 (grows_map_iff.1 (hgrows.child hc hmerged))
    · have hmerged := hchild key
      rw [hnull, hv] at hmerged
      exact map_eq_null.1 (hgrows.child hnull hmerged).root
  · rintro ⟨hsurvives, hnulls⟩
    refine .of_children ⟨_, _, rfl⟩ fun key c hc => ⟨c, ?_, .refl c⟩
    have hmerged := hchild key
    rw [hc] at hmerged
    rw [hmerged]
    have hsame := map_rewrite_eq_self.2 (hsurvives.child hc)
    cases c with
    | null =>
        cases hv : newMap.child key with
        | none => rfl
        | some v =>
            rw [hnulls key v hc hv]
            rfl
    | _ => exact congrArg some hsame

/-- The merge adds missing entries alone, whatever it does to the others. -/
theorem mergeAdds_merged {keys : Finset String} {value : {key // key ∈ keys} → JsonTree N}
    (hobj : t.get path = some (.obj keys value)) (hnew : IsMap newMap)
    (hset : t.set path
      ((mergeEntries ((JsonTree.obj keys value).map lib.parse) newMap true).map lib.print) =
        some t') : lib.MergeAdds t t' path newMap := by
  constructor
  · intro key hmissing
    rw [get_concat, hobj, Option.bind_some] at hmissing
    rw [get_concat, get_set_self hset (readable_of_get hobj), Option.bind_some, merged_child lib hnew,
      hmissing]
  · intro other hother hsome
    by_contra hbelow
    by_cases habove : other <+: path
    · obtain ⟨rest, rfl⟩ := habove
      rw [get_append, hother] at hobj
      cases hobj
    · rw [get_replace_apart hobj hset ⟨hbelow, habove⟩, hother] at hsome
      cases hsome

/-- What a merge does when it keeps the origin. -/
theorem edit_merge (hlib : lib.Documented) (hop : lib.KeepOriginAt d op path)
    (hmode : op.mode = "append" ∨ op.mode = "prepend") {keys : Finset String}
    {value : {key // key ∈ keys} → JsonTree N} (hobj : (lib.tree d).get path = some (.obj keys value))
    (hedit : lib.edit fns d op = .ok d') :
    ∃ newMap, lib.newEntries op.value = .ok newMap ∧ IsMap newMap ∧
      (lib.tree d).set path ((mergeEntries ((JsonTree.obj keys value).map lib.parse) newMap
        true).map lib.print) = some (lib.tree d') := by
  have hmodify : ∃ isPrepend,
      lib.modifyValue fns d (dotted path) op.value op.keepOrigin isPrepend = .ok d' := by
    unfold edit at hedit
    rcases hmode with hmode | hmode
    · rw [hmode, hop.opPath] at hedit
      exact ⟨false, hedit⟩
    · rw [hmode, hop.opPath] at hedit
      exact ⟨true, hedit⟩
  obtain ⟨isPrepend, hmodify⟩ := hmodify
  obtain ⟨current, hcurrent, htree⟩ := hlib.get_some hop.plain hobj
  unfold modifyValue mergeObjects at hmodify
  rw [hop.keepOrigin, hcurrent, Option.map_some, htree] at hmodify
  dsimp only at hmodify
  cases hunmarshal : lib.unmarshalMap current with
  | error err =>
      rw [hunmarshal] at hmodify
      cases hmodify
  | ok currentMap =>
      obtain ⟨-, hcurrentMap⟩ := hlib.unmarshal_eq_ok htree hunmarshal
      rw [htree] at hcurrentMap
      rw [hunmarshal, hcurrentMap] at hmodify
      cases hentries : lib.newEntries op.value with
      | error err =>
          rw [hentries] at hmodify
          cases hmodify
      | ok newMap =>
          rw [hentries] at hmodify
          obtain ⟨raw, hraw, hset⟩ := hlib.set_eq_ok hop.plain hmodify
          obtain rfl := written_eq_some hraw
          exact ⟨newMap, rfl, isMap_newEntries hlib hentries, hset⟩

/-- An operation that keeps the origin does so exactly where it has room. -/
theorem edit_keepsOrigin_iff (hlib : lib.Documented) (hop : lib.KeepOriginAt d op path)
    (hedit : lib.edit fns d op = .ok d') :
    lib.KeepsOrigin (lib.tree d) (lib.tree d') op path ↔ lib.HasRoom (lib.tree d) op path := by
  unfold KeepsOrigin HasRoom
  by_cases hset : op.mode = "set"
  · rw [if_pos hset, if_pos hset]
    exact set_keepsOrigin_iff (edit_set hlib hop hset hedit)
  · obtain ⟨hmode, keys, value, hobj⟩ := hop.mode.resolve_left hset
    obtain ⟨newMap, hnewMap, hmap, hwritten⟩ := edit_merge hlib hop hmode hobj hedit
    rw [if_neg hset, if_neg hset]
    have hadds : ∀ newMap, lib.newEntries op.value = .ok newMap →
        lib.MergeAdds (lib.tree d) (lib.tree d') path newMap := by
      intro other hother
      cases hnewMap.symm.trans hother
      exact mergeAdds_merged hobj hmap hwritten
    rw [and_iff_left hadds]
    have hself := get_set_self hwritten (readable_of_get hobj)
    have hgrows : Grows (lib.tree d) (lib.tree d') ↔ lib.Survives (.obj keys value) ∧
        ∀ key v, (JsonTree.obj keys value).child key = some .null → newMap.child key = some v →
          v = .null :=
      (Iff.intro (fun hgrows => hgrows.at hobj hself) (grows_replace hobj hwritten)).trans
        (grows_merged_iff hmap)
    rw [hgrows]
    constructor
    · rintro hroom c other hc hother
      cases hobj.symm.trans hc
      cases hnewMap.symm.trans hother
      exact hroom
    · exact fun hroom => hroom _ newMap hobj hnewMap

end

/-! ## Over a run -/

section

variable {lib : JsonText D N F} {fns : TextFunctions F} {contextJSON : Option D}

/-- What an operation of the run does: it keeps the origin, or is skipped. -/
def StepKeeps (lib : JsonText D N F) (fns : TextFunctions F) (contextJSON : Option D) (d : D)
    (op : ParamOperation F) (d' : D) : Prop :=
  (lib.Runs fns contextJSON d op → ∀ path, lib.KeepOriginAt d op path →
      lib.KeepsOrigin (lib.tree d) (lib.tree d') op path) ∧
    (¬ lib.Runs fns contextJSON d op → d' = d)

/-- An operation of the run that is carried out has room. -/
def StepHasRoom (lib : JsonText D N F) (fns : TextFunctions F) (contextJSON : Option D) (d : D)
    (op : ParamOperation F) (_d' : D) : Prop :=
  lib.Runs fns contextJSON d op → ∀ path, lib.KeepOriginAt d op path →
    lib.HasRoom (lib.tree d) op path

/-- Every operation of a run keeps the origin exactly if every one that is carried out has room. -/
theorem run_keepsOrigin_iff (hlib : lib.Documented) (fns : TextFunctions F)
    (contextJSON : Option D) (jsonStr : D) (operations : List (ParamOperation F))
    (hops : lib.Along fns contextJSON
      (fun d op _ => lib.Runs fns contextJSON d op → ∃ path, lib.KeepOriginAt d op path) jsonStr
      operations) :
    lib.Along fns contextJSON (lib.StepKeeps fns contextJSON) jsonStr operations ↔
      lib.Along fns contextJSON (lib.StepHasRoom fns contextJSON) jsonStr operations := by
  refine along_congr (fun d op d' hstep _ => ?_) hops
  unfold StepKeeps StepHasRoom
  rcases applyOperation_eq_ok hstep with ⟨hruns, hedit⟩ | ⟨hskipped, heq⟩
  · rw [imp_iff_right hruns, imp_iff_right hruns, and_iff_left fun hnot => absurd hruns hnot]
    exact forall_congr' fun path => forall_congr' fun hop => edit_keepsOrigin_iff hlib hop hedit
  · exact iff_of_true ⟨fun hruns => absurd hruns hskipped, fun _ => heq⟩
      fun hruns => absurd hruns hskipped

/-- A set value that is kept, and one that is added. -/
def setKeepingOrigin (path : String) (value : JsonTree F) : ParamOperation F where
  path := path
  mode := "set"
  value := value
  keepOrigin := true
  fromPath := ""
  toPath := ""
  conditions := []
  logic := "OR"

theorem run_keepsOrigin_iff_set :
    ofTrees.Along intFunctions none (ofTrees.StepKeeps intFunctions none)
      (.obj {"model"} fun _ => .str "gpt-4") [setKeepingOrigin "model" (.str "o3")] := by
  refine (run_keepsOrigin_iff documented_ofTrees intFunctions none _ _ ?_).2 ?_
  · exact fun d' _ => ⟨fun _ => ⟨["model"], rfl, by decide, by decide, .inl rfl⟩, trivial⟩
  · refine fun d' _ => ⟨fun _ path hop => ?_, trivial⟩
    have hpath : path = ["model"] := by
      rw [← split_dotted hop.plain, ← hop.opPath]
      decide
    subst hpath
    refine (if_pos (rfl : (setKeepingOrigin "model" (JsonTree.str "o3" : JsonTree ℤ)).mode = "set")).mpr
      fun hmissing => ?_
    cases hmissing

/-- A null is replaced by a merge that keeps the origin, and a number by a value below it. -/
theorem kept_origin_replaced :
    (∃ d', ofTrees.applyOperations intFunctions
        (.obj {"m"} fun _ => .obj {"k"} fun _ => .null)
        [{ (setKeepingOrigin "m" (.obj {"k"} fun _ => .num 1) : ParamOperation ℤ) with
          mode := "append" }] .null = .ok d' ∧ d'.get ["m", "k"] = some (.num 1)) ∧
    ∃ d', ofTrees.applyOperations intFunctions (.obj {"a"} fun _ => .num 1)
        [setKeepingOrigin "a.b" (.num 2)] .null = .ok d' ∧ d'.get ["a", "b"] = some (.num 2) :=
  ⟨⟨_, rfl, rfl⟩, _, rfl, rfl⟩

end

end JsonText

end NewApi.Model
