import NewApi.Lib.JsonGrowth
import NewApi.Model.ParamOverride

/-!
# The two formats of an override

An override with well-formed operations is carried out and never becomes part of the body; a map
that is not well formed is merged into the body with all its keys.
-/

namespace NewApi.Model

open NewApi.Lib NewApi.Lib.JsonTree

/-! ## Operations that are well formed -/

section

variable {F : Type} {op : JsonTree F}

/-- An element of the list that is taken for an operation: a map with a mode. -/
def WellFormed (op : JsonTree F) : Prop :=
  (∃ keys value, op = .obj keys value) ∧ ∃ mode, op.child "mode" = some (.str mode)

theorem parseOperation_of_wellFormed (hop : WellFormed op) :
    ∃ operation, parseOperation op = some operation := by
  obtain ⟨⟨keys, value, rfl⟩, mode, hmode⟩ := hop
  unfold parseOperation stringEntry
  rw [hmode]
  exact ⟨_, rfl⟩

theorem mapM_eq_some {α β : Type} {f : α → Option β} {xs : List α}
    (hsome : ∀ x ∈ xs, ∃ y, f x = some y) : ∃ ys, xs.mapM f = some ys := by
  induction xs with
  | nil => exact ⟨[], rfl⟩
  | cons x xs ih =>
      rw [List.forall_mem_cons] at hsome
      obtain ⟨y, hy⟩ := hsome.1
      obtain ⟨ys, hys⟩ := ih hsome.2
      refine ⟨y :: ys, ?_⟩
      rw [List.mapM_cons, hy, hys]
      rfl

theorem tryParseOperations_of_wellFormed {paramOverride : JsonTree F} {n : ℕ}
    {op : Fin n → JsonTree F} (hops : paramOverride.child "operations" = some (.arr n op))
    (hop : ∀ i, WellFormed (op i)) :
    ∃ operations, tryParseOperations paramOverride = some operations := by
  unfold tryParseOperations
  rw [hops]
  refine mapM_eq_some fun element hmem => ?_
  obtain ⟨i, rfl⟩ := List.mem_ofFn.1 hmem
  exact parseOperation_of_wellFormed (hop i)

end

namespace JsonText

variable {D N F : Type}

/-! ## What an operation writes -/

/-- The path that an operation writes: some edits want a value there already. -/
def writtenPath (lib : JsonText D N F) (d : D) (op : ParamOperation F) : Option String :=
  if op.mode = "delete" then none
  else if op.mode = "move" ∨ op.mode = "copy" then some (lib.processNegativeIndex d op.toPath)
  else if op.mode = "set" ∨ (lib.get d (lib.processNegativeIndex d op.path)).isSome then
    some (lib.processNegativeIndex d op.path)
  else none

/-- The first key that a path names; no other field of the document comes up when something is
written there, and none when something is deleted. -/
structure NamesKeys (lib : JsonText D N F) (firstKey : String → String) : Prop where
  set : ∀ d path v d', (∃ keys value, lib.tree d = .obj keys value) → lib.set d path v = .ok d' →
    (∃ keys value, lib.tree d' = .obj keys value) ∧
      ∀ key, key ≠ firstKey path → (lib.tree d).child key = none → (lib.tree d').child key = none
  delete : ∀ d path d', (∃ keys value, lib.tree d = .obj keys value) → lib.delete d path = .ok d' →
    (∃ keys value, lib.tree d' = .obj keys value) ∧
      ∀ key, (lib.tree d).child key = none → (lib.tree d').child key = none

/-- How an edit changes a text. -/
inductive Edited (lib : JsonText D N F) (d : D) (written : Option String) : D → Prop
  | unchanged : Edited lib d written d
  | deleted {path : String} {d' : D} (hdelete : lib.delete d path = .ok d') :
      Edited lib d written d'
  | set {path : String} {v : JsonTree F} {d' : D} (hpath : written = some path)
      (hset : lib.set d path v = .ok d') : Edited lib d written d'
  | moved {path fromPath : String} {v : JsonTree F} {d₁ d' : D} (hpath : written = some path)
      (hset : lib.set d path v = .ok d₁) (hdelete : lib.delete d₁ fromPath = .ok d') :
      Edited lib d written d'

section

variable {lib : JsonText D N F} {fns : TextFunctions F} {d d' : D} {op : ParamOperation F}
  {path : String}

/-- An edit of a string writes where the string is. -/
theorem editString_edited {edit : String → Except String (Option String)}
    (hedit : lib.editString d path edit = .ok d') :
    (lib.get d path).isSome = true ∧ (d' = d ∨ ∃ s, lib.set d path (.str s) = .ok d') := by
  unfold editString at hedit
  cases hget : lib.get d path with
  | none =>
      rw [hget] at hedit
      cases hedit
  | some found =>
      refine ⟨rfl, ?_⟩
      rw [hget] at hedit
      cases hcurrent : lib.stringAt (some found) with
      | none =>
          rw [hcurrent] at hedit
          cases hedit
      | some current =>
          rw [hcurrent] at hedit
          dsimp only at hedit
          cases hresult : edit current with
          | error err =>
              rw [hresult] at hedit
              cases hedit
          | ok result =>
              rw [hresult] at hedit
              cases result with
              | none =>
                  cases hedit
                  exact .inl rfl
              | some newStr => exact .inr ⟨newStr, hedit⟩

theorem modifyValue_edited {v : JsonTree F} {keepOrigin isPrepend : Bool}
    (hmodify : lib.modifyValue fns d path v keepOrigin isPrepend = .ok d') :
    (lib.get d path).isSome = true ∧ ∃ value, lib.set d path value = .ok d' := by
  unfold modifyValue at hmodify
  cases hget : lib.get d path with
  | none =>
      rw [hget] at hmodify
      cases hmodify
  | some found =>
      refine ⟨rfl, ?_⟩
      rw [hget] at hmodify
      split at hmodify
      · exact ⟨_, hmodify⟩
      · exact ⟨_, hmodify⟩
      · unfold mergeObjects at hmodify
        rw [hget] at hmodify
        dsimp only at hmodify
        cases hcurrent : lib.unmarshalMap found with
        | error err =>
            rw [hcurrent] at hmodify
            cases hmodify
        | ok currentMap =>
            rw [hcurrent] at hmodify
            cases hnew : lib.newEntries v with
            | error err =>
                rw [hnew] at hmodify
                cases hmodify
            | ok newMap =>
                rw [hnew] at hmodify
                exact ⟨_, hmodify⟩
      · cases hmodify

/-- The modes that write where a value is. -/
theorem writtenPath_found (hmode : op.mode ∉ ["delete", "move", "copy"])
    (hfound : (lib.get d (lib.processNegativeIndex d op.path)).isSome = true) :
    lib.writtenPath d op = some (lib.processNegativeIndex d op.path) := by
  rw [List.mem_cons, List.mem_cons, List.mem_singleton, not_or, not_or] at hmode
  unfold writtenPath
  rw [if_neg hmode.1, if_neg fun hor => hor.elim hmode.2.1 hmode.2.2, if_pos (.inr hfound)]

theorem modifyValue_edits {v : JsonTree F} {keepOrigin isPrepend : Bool}
    (hmode : op.mode ∉ ["delete", "move", "copy"])
    (hmodify : lib.modifyValue fns d (lib.processNegativeIndex d op.path) v keepOrigin isPrepend =
      .ok d') : lib.Edited d (lib.writtenPath d op) d' := by
  obtain ⟨hfound, value, hset⟩ := modifyValue_edited hmodify
  exact .set (writtenPath_found hmode hfound) hset

theorem editString_edits {edit : String → Except String (Option String)}
    (hmode : op.mode ∉ ["delete", "move", "copy"])
    (hedit : lib.editString d (lib.processNegativeIndex d op.path) edit = .ok d') :
    lib.Edited d (lib.writtenPath d op) d' := by
  obtain ⟨hfound, rfl | ⟨s, hset⟩⟩ := editString_edited hedit
  · exact .unchanged
  · exact .set (writtenPath_found hmode hfound) hset

/-- What an operation does to the text. -/
theorem edit_edited (hedit : lib.edit fns d op = .ok d') :
    lib.Edited d (lib.writtenPath d op) d' := by
  unfold edit at hedit
  dsimp only at hedit
  split at hedit
  case h_1 hmode => exact .deleted hedit
  case h_2 hmode =>
    split at hedit
    · cases hedit
      exact .unchanged
    · refine .set ?_ hedit
      unfold writtenPath
      rw [hmode, if_neg (by decide), if_neg (by decide), if_pos (.inl rfl)]
  case h_3 hmode =>
    have hpath : lib.writtenPath d op = some (lib.processNegativeIndex d op.toPath) := by
      unfold writtenPath
      rw [hmode, if_neg (by decide), if_pos (.inl rfl)]
    unfold moveValue at hedit
    split at hedit
    · cases hedit
    · cases hset : lib.set d (lib.processNegativeIndex d op.toPath) (lib.value _) with
      | error err =>
          rw [hset] at hedit
          cases hedit
      | ok d₁ =>
          rw [hset] at hedit
          exact .moved hpath hset hedit
  case h_4 hmode =>
    have hpath : lib.writtenPath d op = some (lib.processNegativeIndex d op.toPath) := by
      unfold writtenPath
      rw [hmode, if_neg (by decide), if_pos (.inr rfl)]
    unfold copyValue at hedit
    split at hedit
    · cases hedit
    · exact .set hpath hedit
  case h_5 hmode => exact modifyValue_edits (by rw [hmode]; decide) hedit
  case h_6 hmode => exact modifyValue_edits (by rw [hmode]; decide) hedit
  case h_16 => cases hedit
  all_goals
    rename_i hmode
    exact editString_edits (by rw [hmode]; decide) hedit

/-! ## Whether the operations become part of the body -/

variable {firstKey : String → String} {contextJSON : Option D}

/-- The body is an object without operations. -/
def NoOperations (lib : JsonText D N F) (d : D) : Prop :=
  (∃ keys value, lib.tree d = .obj keys value) ∧ (lib.tree d).child "operations" = none

/-- The operation does not write to `operations`. -/
def WritesElsewhere (lib : JsonText D N F) (fns : TextFunctions F) (firstKey : String → String)
    (contextJSON : Option D) (d : D) (op : ParamOperation F) (_d' : D) : Prop :=
  lib.Runs fns contextJSON d op → ∀ path, lib.writtenPath d op = some path →
    firstKey path ≠ "operations"

theorem noOperations_edited (hkeys : lib.NamesKeys firstKey) {written : Option String}
    (hwritten : ∀ path, written = some path → firstKey path ≠ "operations")
    (hedited : lib.Edited d written d') (hnone : lib.NoOperations d) : lib.NoOperations d' := by
  obtain ⟨hobj, hmissing⟩ := hnone
  cases hedited with
  | unchanged => exact ⟨hobj, hmissing⟩
  | deleted hdelete =>
      obtain ⟨hobj', hstill⟩ := hkeys.delete _ _ _ hobj hdelete
      exact ⟨hobj', hstill _ hmissing⟩
  | set hpath hset =>
      obtain ⟨hobj', hstill⟩ := hkeys.set _ _ _ _ hobj hset
      exact ⟨hobj', hstill _ (Ne.symm (hwritten _ hpath)) hmissing⟩
  | moved hpath hset hdelete =>
      obtain ⟨hobj₁, hstill₁⟩ := hkeys.set _ _ _ _ hobj hset
      obtain ⟨hobj', hstill⟩ := hkeys.delete _ _ _ hobj₁ hdelete
      exact ⟨hobj', hstill _ (hstill₁ _ (Ne.symm (hwritten _ hpath)) hmissing)⟩

/-- One operation keeps them out. -/
theorem noOperations_step (hkeys : lib.NamesKeys firstKey)
    (hstep : lib.applyOperation fns contextJSON d op = .ok d')
    (helsewhere : lib.WritesElsewhere fns firstKey contextJSON d op d')
    (hnone : lib.NoOperations d) : lib.NoOperations d' := by
  rcases applyOperation_eq_ok hstep with ⟨hruns, hedit⟩ | ⟨-, rfl⟩
  · exact noOperations_edited hkeys (helsewhere hruns) (edit_edited hedit) hnone
  · exact hnone

/-- Operations that are well formed are carried out, and no body gets them as data unless one of
them writes to that field. -/
theorem operations_not_sent (hkeys : lib.NamesKeys firstKey) (fns : TextFunctions F)
    (paramOverride conditionContext : JsonTree F) {n : ℕ} {op : Fin n → JsonTree F}
    (hops : paramOverride.child "operations" = some (.arr n op)) (hop : ∀ i, WellFormed (op i))
    (hbody : lib.NoOperations d)
    (hrun : ∀ operations contextJSON, tryParseOperations paramOverride = some operations →
      lib.contextText conditionContext = .ok contextJSON →
        lib.Along fns contextJSON (lib.WritesElsewhere fns firstKey contextJSON) d operations) :
    ∃ result, lib.applyParamOverride fns d paramOverride conditionContext = some result ∧
      ∀ d', result = .ok d' → lib.NoOperations d' := by
  obtain ⟨operations, hparse⟩ := tryParseOperations_of_wellFormed hops hop
  have hkeysOf : keysOf paramOverride ≠ ∅ := by
    cases paramOverride with
    | obj keys value =>
        obtain ⟨hmem, -⟩ := child_obj_eq_some.1 hops
        exact Finset.ne_empty_of_mem hmem
    | arr m item =>
        rw [child_arr_of_none (by decide)] at hops
        cases hops
    | _ => cases hops
  refine ⟨lib.applyOperations fns d operations conditionContext, ?_, fun d' hresult => ?_⟩
  · unfold applyParamOverride
    rw [if_neg hkeysOf, hparse]
  · unfold applyOperations at hresult
    cases hcontext : lib.contextText conditionContext with
    | error err =>
        rw [hcontext] at hresult
        cases hresult
    | ok contextJSON =>
        rw [hcontext] at hresult
        exact along_invariant (fun _ _ _ hstep => noOperations_step hkeys hstep)
          (hrun operations contextJSON hparse hcontext) hbody hresult

/-- The first part of a path of trees. -/
theorem namesKeys_ofTrees : ofTrees.NamesKeys fun path => (Strings.split path '.').headD "" where
  set d path v d' hobj hset := by
    obtain ⟨first, rest, hsplit⟩ := exists_split path
    dsimp only [ofTrees] at hset
    rw [hsplit] at hset ⊢
    cases hbind : (writeInts v).bind (d.set (first :: rest)) with
    | none =>
        rw [hbind] at hset
        cases hset
    | some t =>
        rw [hbind] at hset
        cases hset
        obtain ⟨raw, -, htree⟩ := Option.bind_eq_some_iff.1 hbind
        obtain ⟨c', hput, -⟩ := set_cons htree
        obtain ⟨keys, value, rfl⟩ : ∃ keys value, d = .obj keys value := hobj
        have hroomy : (JsonTree.obj keys value).Roomy first := trivial
        refine ⟨?_, fun key hne hnone => child_put_roomy hroomy hput hne hnone⟩
        cases hput
        exact ⟨_, _, rfl⟩
  delete d path d' hobj hdelete := by
    obtain ⟨first, rest, hsplit⟩ := exists_split path
    have hdeleted : Except.ok (d.delete (Strings.split path '.')) = Except.ok (ε := String) d' := hdelete
    rw [hsplit] at hdeleted
    cases hdeleted
    obtain ⟨keys, value, rfl⟩ : ∃ keys value, d = .obj keys value := hobj
    cases hchild : (JsonTree.obj keys value).child first with
    | none =>
        have hsame : (JsonTree.obj keys value).delete (first :: rest) = .obj keys value := by
          refine delete_of_not_deletes ?_
          rintro ⟨c, hc, -⟩
          cases hchild.symm.trans hc
        rw [hsame]
        exact ⟨⟨_, _, rfl⟩, fun _ hnone => hnone⟩
    | some c =>
        have hother : ∀ key, (JsonTree.obj keys value).child key = none → key ≠ first := by
          rintro key hnone rfl
          cases hchild.symm.trans hnone
        by_cases hrest : rest = []
        · subst hrest
          rw [delete_single hchild]
          refine ⟨⟨_, _, rfl⟩, fun key hnone => ?_⟩
          have hgone : ((JsonTree.obj keys value).remove first).child key = none := by
            rw [child_remove_obj, if_neg (hother key hnone)]
            exact hnone
          exact hgone
        · obtain ⟨t', hput, hdelete'⟩ := delete_cons hchild hrest
          rw [hdelete']
          refine ⟨?_, fun key hnone => (child_replace hchild hput (hother key hnone)).trans hnone⟩
          cases hput
          exact ⟨_, _, rfl⟩

/-- An override that sets the temperature. -/
theorem operations_not_sent_set :
    ∃ result, ofTrees.applyParamOverride intFunctions (.obj {"model"} fun _ => .str "gpt-4")
        (.obj {"operations"} fun _ => .arr 1 fun _ => .obj {"mode", "path"} fun key =>
          .str (if key.1 = "mode" then "set" else "temperature")) .null = some result ∧
      ∀ d', result = .ok d' → ofTrees.NoOperations d' := by
  refine operations_not_sent namesKeys_ofTrees intFunctions _ _ rfl
    (fun _ => ⟨⟨_, _, rfl⟩, "set", rfl⟩) ⟨⟨_, _, rfl⟩, rfl⟩ fun operations contextJSON hparse _ => ?_
  cases hparse
  refine fun d' _ => ⟨fun _ path hpath => ?_, trivial⟩
  cases hpath
  decide

/-- An operation without a mode is sent as a part of the body, and so is what an operation sets
there. -/
theorem malformed_operations_sent :
    (∃ d' sent, ofTrees.applyParamOverride intFunctions (.obj {"model"} fun _ => .str "gpt-4")
        (.obj {"operations"} fun _ => .arr 1 fun _ => .obj {"path"} fun _ => .str "temperature")
        .null = some (.ok d') ∧ d'.child "operations" = some sent) ∧
    ∃ d' sent, ofTrees.applyParamOverride intFunctions (.obj {"model"} fun _ => .str "gpt-4")
        (.obj {"operations"} fun _ => .arr 1 fun _ => .obj {"mode", "path"} fun key =>
          .str (if key.1 = "mode" then "set" else "operations"))
        .null = some (.ok d') ∧ d'.child "operations" = some sent :=
  ⟨⟨_, _, rfl, rfl⟩, _, _, rfl, rfl⟩

end

end JsonText

end NewApi.Model
