import NewApi.Lib.FirstSeen
import NewApi.Model.OpenAIMessage

/-!
# The table of a stream's tool calls

A stream that numbers its tool calls in the order in which their ids occur first, and repeats the id
in every fragment, is put together as a table: for each id the names and the arguments that its
fragments carry.
-/

namespace NewApi.Model

open NewApi.Lib NewApi.Lib.Strings

/-- The call with what one more fragment tells of it. -/
def ToolCall.join (call : ToolCall) (fragment : ToolCallResponse) : ToolCall where
  id := if call.id = "" then fragment.id else call.id
  name := call.name ++ fragment.name
  arguments := call.arguments ++ fragment.arguments

/-- A fragment is joined to the call of its index, or begins a new one. -/
def joinFragment : List (Option ℤ × ToolCall) → ToolCallResponse → List (Option ℤ × ToolCall)
  | [], fragment => [(fragment.index, ⟨fragment.id, fragment.name, fragment.arguments⟩)]
  | (index, call) :: calls, fragment =>
      if index = fragment.index then (index, call.join fragment) :: calls
      else (index, call) :: joinFragment calls fragment

/-- The tool calls of a stream, each under its index. -/
def joinFragments (fragments : List ToolCallResponse) : List (Option ℤ × ToolCall) :=
  fragments.foldl joinFragment []

/-- Calls under the indices from `n` on. -/
def numberCalls (n : ℕ) (calls : List ToolCall) : List (Option ℤ × ToolCall) :=
  (calls.zipIdx n).map fun entry => (some (entry.2 : ℤ), entry.1)

/-- The name that the fragments of an id carry. -/
def nameIn (fragments : List ToolCallResponse) (id : String) : String :=
  concat ((fragments.filter fun fragment => fragment.id = id).map ToolCallResponse.name)

def argumentsIn (fragments : List ToolCallResponse) (id : String) : String :=
  concat ((fragments.filter fun fragment => fragment.id = id).map ToolCallResponse.arguments)

/-- What the fragments tell of an id. -/
def callIn (fragments : List ToolCallResponse) (id : String) : ToolCall :=
  ⟨id, nameIn fragments id, argumentsIn fragments id⟩

section

variable {fragments rest : List ToolCallResponse} {fragment : ToolCallResponse}
  {calls : List ToolCall} {call : ToolCall} {ids : List String} {id : String} {n : ℕ}

theorem numberCalls_cons : numberCalls n (call :: calls) =
    (some (n : ℤ), call) :: numberCalls (n + 1) calls := by
  rw [numberCalls, List.zipIdx_cons, List.map_cons]
  rfl

theorem numberCalls_eq_nil_iff : numberCalls n calls = [] ↔ calls = [] := by
  cases calls with
  | nil => exact iff_of_true rfl rfl
  | cons call calls =>
      rw [numberCalls_cons]
      exact iff_of_false (List.cons_ne_nil _ _) (List.cons_ne_nil _ _)

theorem numberCalls_inj {others : List ToolCall} :
    numberCalls n calls = numberCalls n others ↔ calls = others := by
  refine ⟨fun h => ?_, fun h => congrArg (numberCalls n) h⟩
  have hcalls : ∀ xs : List ToolCall, (numberCalls n xs).map Prod.snd = xs := by
    intro xs
    rw [numberCalls, List.map_map]
    exact List.zipIdx_map_fst n xs
  rw [← hcalls calls, ← hcalls others, h]

theorem nameIn_append :
    nameIn (fragments ++ rest) id = nameIn fragments id ++ nameIn rest id := by
  rw [nameIn, List.filter_append, List.map_append, concat_append]
  rfl

theorem argumentsIn_append :
    argumentsIn (fragments ++ rest) id = argumentsIn fragments id ++ argumentsIn rest id := by
  rw [argumentsIn, List.filter_append, List.map_append, concat_append]
  rfl

theorem nameIn_singleton :
    nameIn [fragment] id = if fragment.id = id then fragment.name else "" := by
  rw [nameIn]
  split
  case isTrue hid => simp [hid]
  case isFalse hid => simp [hid]

theorem argumentsIn_singleton :
    argumentsIn [fragment] id = if fragment.id = id then fragment.arguments else "" := by
  rw [argumentsIn]
  split
  case isTrue hid => simp [hid]
  case isFalse hid => simp [hid]

/-- A fragment tells nothing of another id. -/
theorem callIn_concat_of_ne (hid : id ≠ fragment.id) :
    callIn (fragments ++ [fragment]) id = callIn fragments id := by
  rw [callIn, nameIn_append, argumentsIn_append, nameIn_singleton, argumentsIn_singleton,
    if_neg hid.symm, if_neg hid.symm, String.append_empty, String.append_empty]
  rfl

theorem callIn_concat_self :
    callIn (fragments ++ [fragment]) fragment.id =
      (callIn fragments fragment.id).join fragment := by
  rw [callIn, nameIn_append, argumentsIn_append, nameIn_singleton, argumentsIn_singleton, if_pos rfl,
    if_pos rfl, ToolCall.join]
  show (⟨fragment.id, _, _⟩ : ToolCall) = ⟨if fragment.id = "" then _ else fragment.id, _, _⟩
  rw [ite_self]
  rfl

/-- A fragment with the next index begins a call. -/
theorem joinFragment_next (hindex : fragment.index = some ((n + calls.length : ℕ) : ℤ)) :
    joinFragment (numberCalls n calls) fragment =
      numberCalls n (calls ++ [⟨fragment.id, fragment.name, fragment.arguments⟩]) := by
  induction calls generalizing n with
  | nil =>
      rw [List.nil_append, numberCalls_cons]
      show [(fragment.index, _)] = _
      rw [hindex]
      rfl
  | cons call calls ih =>
      have hother : some (n : ℤ) ≠ fragment.index := by
        rw [hindex, List.length_cons]
        intro heq
        have hsame := Option.some.inj heq
        omega
      have hrest : fragment.index = some ((n + 1 + calls.length : ℕ) : ℤ) := by
        rw [hindex, List.length_cons, Nat.add_assoc, Nat.add_comm 1]
      rw [List.cons_append, numberCalls_cons, numberCalls_cons, joinFragment, if_neg hother, ih hrest]

/-- A fragment with the index of an id is joined to the call of that id. -/
theorem joinFragment_old {table : String → ToolCall} (hnodup : ids.Nodup) (hid : id ∈ ids)
    (hindex : fragment.index = some ((n + ids.idxOf id : ℕ) : ℤ)) :
    joinFragment (numberCalls n (ids.map table)) fragment =
      numberCalls n (ids.map fun other =>
        if other = id then (table other).join fragment else table other) := by
  induction ids generalizing n with
  | nil => cases hid
  | cons other ids ih =>
      obtain ⟨hfresh, hnodup'⟩ := List.nodup_cons.1 hnodup
      rw [List.map_cons, List.map_cons, numberCalls_cons, numberCalls_cons, joinFragment]
      by_cases hsame : other = id
      · have hfound : some (n : ℤ) = fragment.index := by
          rw [hindex, hsame, List.idxOf_cons_self]
          rfl
        rw [if_pos hfound, if_pos hsame]
        refine congrArg (fun calls => _ :: numberCalls (n + 1) calls) (List.map_congr_left ?_)
        intro later hlater
        have hlaterNe : later ≠ id := by
          intro hagain
          rw [hsame, ← hagain] at hfresh
          exact hfresh hlater
        rw [if_neg hlaterNe]
      · have hidxOf : (other :: ids).idxOf id = ids.idxOf id + 1 := List.idxOf_cons_ne ids hsame
        have hother : some (n : ℤ) ≠ fragment.index := by
          rw [hindex, hidxOf]
          intro heq
          have heq' := Option.some.inj heq
          omega
        have hrest : fragment.index = some ((n + 1 + ids.idxOf id : ℕ) : ℤ) := by
          rw [hindex, hidxOf, Nat.add_assoc, Nat.add_comm 1]
        rw [if_neg hother, if_neg hsame]
        exact congrArg _ (ih hnodup' ((List.mem_cons.1 hid).resolve_left (Ne.symm hsame)) hrest)

theorem joinFragment_ne_nil (table : List (Option ℤ × ToolCall)) (fragment : ToolCallResponse) :
    joinFragment table fragment ≠ [] := by
  cases table with
  | nil => exact List.cons_ne_nil _ _
  | cons entry table =>
      rw [joinFragment]
      split
      · exact List.cons_ne_nil _ _
      · exact List.cons_ne_nil _ _

theorem joinFragments_eq_nil_iff : joinFragments fragments = [] ↔ fragments = [] := by
  rcases List.eq_nil_or_concat fragments with rfl | ⟨before, last, rfl⟩
  · exact iff_of_true rfl rfl
  · rw [joinFragments, List.concat_eq_append, List.foldl_append]
    exact iff_of_false (joinFragment_ne_nil _ last) (by simp)

/-- The fragments are numbered by these ids. -/
structure Numbered (ids : List String) (fragments : List ToolCallResponse) : Prop where
  order : ids = (fragments.map ToolCallResponse.id).eraseDups
  table : joinFragments fragments = numberCalls 0 (ids.map (callIn fragments))

theorem numbered_nil : Numbered [] [] := ⟨rfl, rfl⟩

theorem Numbered.mem_iff (hnumbered : Numbered ids fragments) :
    id ∈ ids ↔ id ∈ fragments.map ToolCallResponse.id := by
  rw [hnumbered.order, List.mem_eraseDups]

/-- An id that the fragments do not have has nothing told of it. -/
theorem callIn_of_notMem (hid : id ∉ fragments.map ToolCallResponse.id) :
    callIn fragments id = ⟨id, "", ""⟩ := by
  have hnone : (fragments.filter fun fragment => fragment.id = id) = [] := by
    rw [List.filter_eq_nil_iff]
    intro fragment hfragment hsame
    exact hid (List.mem_map.2 ⟨fragment, hfragment, of_decide_eq_true hsame⟩)
  rw [callIn, nameIn, argumentsIn, hnone]
  rfl

/-- One more fragment, under the index of its id. -/
theorem Numbered.concat (hnumbered : Numbered ids fragments)
    (hindex : fragment.index = some (((if fragment.id ∈ ids then ids
      else ids ++ [fragment.id]).idxOf fragment.id : ℕ) : ℤ)) :
    Numbered (if fragment.id ∈ ids then ids else ids ++ [fragment.id])
    (fragments ++ [fragment]) where
  order := by
    rw [List.map_append, List.map_singleton, eraseDups_concat, ← hnumbered.order]
    exact if_congr hnumbered.mem_iff rfl rfl
  table := by
    have hjoin : joinFragments (fragments ++ [fragment]) =
        joinFragment (numberCalls 0 (ids.map (callIn fragments))) fragment := by
      rw [joinFragments, List.foldl_append, ← hnumbered.table]
      rfl
    have hnodup : ids.Nodup := by
      rw [hnumbered.order]
      exact nodup_eraseDups _
    rw [hjoin]
    by_cases hold : fragment.id ∈ ids
    · rw [if_pos hold] at hindex ⊢
      rw [joinFragment_old hnodup hold (by rw [hindex, Nat.zero_add])]
      refine congrArg (numberCalls 0) (List.map_congr_left fun other hother => ?_)
      split
      case isTrue hsame => rw [hsame, callIn_concat_self]
      case isFalse hsame => rw [callIn_concat_of_ne hsame]
    · rw [if_neg hold] at hindex ⊢
      have hlast : (ids ++ [fragment.id]).idxOf fragment.id = ids.length := by
        rw [List.idxOf_append_of_notMem hold, List.idxOf_cons_self, Nat.add_zero]
      have hnext : fragment.index = some ((0 + (ids.map (callIn fragments)).length : ℕ) : ℤ) := by
        rw [hindex, hlast, List.length_map, Nat.zero_add]
      rw [joinFragment_next hnext, List.map_append, List.map_singleton]
      have hbefore : ids.map (callIn (fragments ++ [fragment])) = ids.map (callIn fragments) :=
        List.map_congr_left fun other hother =>
          callIn_concat_of_ne fun hsame => hold (hsame ▸ hother)
      have hfresh : callIn (fragments ++ [fragment]) fragment.id =
          ⟨fragment.id, fragment.name, fragment.arguments⟩ := by
        rw [callIn_concat_self, callIn_of_notMem (mt hnumbered.mem_iff.2 hold), ToolCall.join,
          ite_self, String.empty_append, String.empty_append]
      rw [hbefore, hfresh]

end

end NewApi.Model
