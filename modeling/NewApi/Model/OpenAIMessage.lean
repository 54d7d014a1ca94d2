import Mathlib.Data.List.Nodup
import Mathlib.Data.List.Perm.Subperm
import NewApi.Model.Settlement

/-!
# Messages in the OpenAI format

The answer to a chat completion, as a whole and as the chunks of a stream, with what a client
puts together from the tool-call fragments of a stream.
-/

namespace NewApi.Model

open NewApi.Lib NewApi.Lib.Strings

/-- `dto.ToolCallResponse` with its function; the index is there in the chunks of a stream. -/
structure ToolCallResponse where
  index : Option ℤ
  id : String
  name : String
  arguments : String
deriving DecidableEq

/-- `dto.ChatCompletionsStreamResponseChoiceDelta`; a nil slice of tool calls is not the same
as an empty one. -/
structure ChoiceDelta where
  content : Option String
  reasoningContent : Option String
  reasoning : Option String
  role : String
  toolCalls : Option (List ToolCallResponse)
deriving DecidableEq

namespace ChoiceDelta

/-- The zero value. -/
def empty : ChoiceDelta where
  content := none
  reasoningContent := none
  reasoning := none
  role := ""
  toolCalls := none

def getContentString (delta : ChoiceDelta) : String :=
  delta.content.getD ""

def getReasoningContent (delta : ChoiceDelta) : String :=
  (delta.reasoningContent.or delta.reasoning).getD ""

/-- The elements of the slice, whether it is nil or not. -/
def fragments (delta : ChoiceDelta) : List ToolCallResponse :=
  delta.toolCalls.getD []

end ChoiceDelta

/-- `dto.ChatCompletionsStreamResponseChoice`. -/
structure StreamChoice where
  index : ℤ
  delta : ChoiceDelta
  finishReason : Option String
deriving DecidableEq

/-- `dto.ChatCompletionsStreamResponse`. -/
structure ChatCompletionsStreamResponse (F : Type) where
  id : String
  model : String
  choices : List StreamChoice
  usage : Option (Usage F)

/-- The tool call of a whole message. -/
structure ToolCall where
  id : String
  name : String
  arguments : String
deriving DecidableEq

/-- `dto.Message`, with the text of its content and its parsed tool calls. -/
structure Message where
  content : String
  reasoningContent : String
  toolCalls : List ToolCall
deriving DecidableEq

/-- `dto.OpenAITextResponseChoice`. -/
structure TextResponseChoice where
  index : ℤ
  message : Message
  finishReason : String
deriving DecidableEq

/-- `dto.OpenAITextResponse`. -/
structure OpenAITextResponse (F : Type) where
  id : String
  model : String
  choices : List TextResponseChoice
  usage : Usage F

/-! ## What a client puts together -/

/-- The fragments of the tool calls in the chunks. -/
def fragmentsOf {F : Type} (chunks : List (ChatCompletionsStreamResponse F)) :
    List ToolCallResponse :=
  chunks.flatMap fun chunk => chunk.choices.flatMap fun choice => choice.delta.fragments

/-- A fragment goes on with the call of its index, or begins a new one. -/
def addFragment : List (Option ℤ × ToolCall) → ToolCallResponse → List (Option ℤ × ToolCall)
  | [], fragment => [(fragment.index, ⟨fragment.id, fragment.name, fragment.arguments⟩)]
  | (index, call) :: calls, fragment =>
      if index = fragment.index then
        (index, { call with arguments := call.arguments ++ fragment.arguments }) :: calls
      else (index, call) :: addFragment calls fragment

/-- The tool calls of a stream, each under its index. -/
def reassemble (fragments : List ToolCallResponse) : List (Option ℤ × ToolCall) :=
  fragments.foldl addFragment []

/-- The text of a stream. -/
def contentOf {F : Type} (chunks : List (ChatCompletionsStreamResponse F)) : String :=
  concat (chunks.flatMap fun chunk => chunk.choices.map fun choice => choice.delta.getContentString)

def reasoningOf {F : Type} (chunks : List (ChatCompletionsStreamResponse F)) : String :=
  concat (chunks.flatMap fun chunk =>
    chunk.choices.map fun choice => choice.delta.getReasoningContent)

/-- The last finish reason of a stream. -/
def finishReasonOf {F : Type} (chunks : List (ChatCompletionsStreamResponse F)) : Option String :=
  (chunks.flatMap fun chunk => chunk.choices.filterMap StreamChoice.finishReason).getLast?

section Choices

variable {F : Type} {chunks : List (ChatCompletionsStreamResponse F)}

theorem fragmentsOf_eq :
    fragmentsOf chunks = (chunks.flatMap ChatCompletionsStreamResponse.choices).flatMap
      fun choice => choice.delta.fragments := by
  rw [fragmentsOf, List.flatMap_assoc]

theorem contentOf_eq :
    contentOf chunks = concat ((chunks.flatMap ChatCompletionsStreamResponse.choices).map
      fun choice => choice.delta.getContentString) := by
  rw [contentOf, List.map_flatMap]

theorem reasoningOf_eq :
    reasoningOf chunks = concat ((chunks.flatMap ChatCompletionsStreamResponse.choices).map
      fun choice => choice.delta.getReasoningContent) := by
  rw [reasoningOf, List.map_flatMap]

theorem finishReasonOf_eq :
    finishReasonOf chunks = ((chunks.flatMap ChatCompletionsStreamResponse.choices).filterMap
      StreamChoice.finishReason).getLast? := by
  rw [finishReasonOf, List.filterMap_flatMap]

variable {rest : List (ChatCompletionsStreamResponse F)}

theorem fragmentsOf_append :
    fragmentsOf (chunks ++ rest) = fragmentsOf chunks ++ fragmentsOf rest := by
  rw [fragmentsOf, List.flatMap_append]
  rfl

theorem contentOf_append : contentOf (chunks ++ rest) = contentOf chunks ++ contentOf rest := by
  rw [contentOf, List.flatMap_append, concat_append]
  rfl

/-- The later reason counts. -/
theorem finishReasonOf_append :
    finishReasonOf (chunks ++ rest) = (finishReasonOf rest).or (finishReasonOf chunks) := by
  rw [finishReasonOf, List.flatMap_append, List.getLast?_append]
  rfl

end Choices

section Reassemble

variable {calls : List (Option ℤ × ToolCall)} {fragment : ToolCallResponse}
  {fragments : List ToolCallResponse} {index : Option ℤ} {call : ToolCall}

/-- A fragment adds its index unless it is there. -/
theorem map_fst_addFragment :
    (addFragment calls fragment).map Prod.fst =
      if fragment.index ∈ calls.map Prod.fst then calls.map Prod.fst
      else calls.map Prod.fst ++ [fragment.index] := by
  induction calls with
  | nil => rfl
  | cons entry calls ih =>
      obtain ⟨index, call⟩ := entry
      rw [addFragment, List.map_cons]
      by_cases hsame : index = fragment.index
      · rw [if_pos hsame, if_pos (by rw [hsame]; exact List.mem_cons_self ..), List.map_cons]
      · rw [if_neg hsame, List.map_cons, ih]
        simp only [List.mem_cons, Ne.symm hsame, false_or]
        split <;> rfl

/-- The calls never share an index. -/
theorem reassemble_nodup : ((reassemble fragments).map Prod.fst).Nodup := by
  have hstep : ∀ calls : List (Option ℤ × ToolCall), (calls.map Prod.fst).Nodup →
      ((fragments.foldl addFragment calls).map Prod.fst).Nodup := by
    induction fragments with
    | nil => exact fun calls hnodup => hnodup
    | cons fragment fragments ih =>
        intro calls hnodup
        refine ih _ ?_
        rw [map_fst_addFragment]
        split
        case isTrue => exact hnodup
        case isFalse hnew =>
          rw [List.nodup_append]
          exact ⟨hnodup, List.nodup_singleton _, fun a ha b hb hab => hnew (by
            rw [← List.mem_singleton.1 hb, ← hab]
            exact ha)⟩
  exact hstep [] List.nodup_nil

theorem mem_reassemble : index ∈ (reassemble fragments).map Prod.fst ↔
    index ∈ fragments.map ToolCallResponse.index := by
  have hstep : ∀ calls : List (Option ℤ × ToolCall),
      index ∈ (fragments.foldl addFragment calls).map Prod.fst ↔
        index ∈ calls.map Prod.fst ∨ index ∈ fragments.map ToolCallResponse.index := by
    induction fragments with
    | nil => simp
    | cons fragment fragments ih =>
        intro calls
        rw [List.foldl_cons, ih, map_fst_addFragment, List.map_cons, List.mem_cons]
        split
        case isTrue hold =>
          constructor
          · exact fun hmem => hmem.imp_right .inr
          · rintro (hmem | rfl | hmem)
            · exact .inl hmem
            · exact .inl hold
            · exact .inr hmem
        case isFalse => rw [List.mem_append, List.mem_singleton, or_assoc]
  rw [reassemble, hstep]
  simp

theorem reassemble_nil_iff : reassemble fragments = [] ↔ fragments = [] := by
  constructor
  · intro hnone
    rw [List.eq_nil_iff_forall_not_mem]
    intro fragment hmem
    have hindex := mem_reassemble.2 (List.mem_map.2 ⟨fragment, hmem, rfl⟩)
    rw [hnone] at hindex
    cases hindex
  · rintro rfl
    rfl

theorem addFragment_new (hnew : fragment.index ∉ calls.map Prod.fst) :
    addFragment calls fragment =
      calls ++ [(fragment.index, ⟨fragment.id, fragment.name, fragment.arguments⟩)] := by
  induction calls with
  | nil => rfl
  | cons entry calls ih =>
      obtain ⟨index, call⟩ := entry
      rw [List.map_cons, List.mem_cons, not_or] at hnew
      rw [addFragment, if_neg (Ne.symm hnew.1), ih hnew.2]
      rfl

theorem addFragment_last (hnew : index ∉ calls.map Prod.fst) (hindex : fragment.index = index) :
    addFragment (calls ++ [(index, call)]) fragment =
      calls ++ [(index, { call with arguments := call.arguments ++ fragment.arguments })] := by
  induction calls with
  | nil => rw [List.nil_append, List.nil_append, addFragment, if_pos hindex.symm]
  | cons entry calls ih =>
      obtain ⟨other, otherCall⟩ := entry
      rw [List.map_cons, List.mem_cons, not_or] at hnew
      rw [List.cons_append, addFragment, if_neg (by rw [hindex]; exact Ne.symm hnew.1), ih hnew.2]
      rfl

/-- Fragments with an index each are as many calls. -/
theorem reassemble_of_nodup (hnodup : (fragments.map ToolCallResponse.index).Nodup) :
    reassemble fragments = fragments.map fun fragment =>
      (fragment.index, ⟨fragment.id, fragment.name, fragment.arguments⟩) := by
  have hstep : ∀ before : List (Option ℤ × ToolCall),
      (∀ fragment ∈ fragments, fragment.index ∉ before.map Prod.fst) →
        fragments.foldl addFragment before = before ++ fragments.map fun fragment =>
          (fragment.index, ⟨fragment.id, fragment.name, fragment.arguments⟩) := by
    induction fragments with
    | nil => simp
    | cons fragment fragments ih =>
        intro before hbefore
        -- The fragment has an index of its own, so that it begins a call.
        rw [List.map_cons, List.nodup_cons] at hnodup
        rw [List.foldl_cons, addFragment_new (hbefore fragment (List.mem_cons_self ..)),
          ih hnodup.2, List.map_cons, List.append_assoc, List.singleton_append]
        intro other hother
        rw [List.map_append, List.mem_append, not_or]
        refine ⟨hbefore other (List.mem_cons_of_mem fragment hother), fun hsame => hnodup.1 ?_⟩
        rw [List.map_singleton, List.mem_singleton] at hsame
        exact List.mem_map.2 ⟨other, hother, hsame⟩
  rw [reassemble, hstep [] (by simp), List.nil_append]

/-- Indices that cover the calls, and are no more, are distinct. -/
theorem nodup_of_covers {indices : List (Option ℤ)}
    (hcovers : (reassemble fragments).map Prod.fst ⊆ indices)
    (hlength : (reassemble fragments).length = indices.length) : indices.Nodup := by
  have hperm := (List.subperm_of_subset reassemble_nodup hcovers).perm_of_length_le (by
    rw [List.length_map, hlength])
  exact hperm.nodup_iff.1 reassemble_nodup

/-- Fragments that share an index are fewer calls. -/
theorem nodup_of_length_reassemble (hlength : (reassemble fragments).length = fragments.length) :
    (fragments.map ToolCallResponse.index).Nodup :=
  nodup_of_covers (fun _ => mem_reassemble.1) (by rw [hlength, List.length_map])

end Reassemble

/-- A tool call as a stream carries it: the name and the id come first, the arguments in
pieces. -/
structure SplitCall where
  index : Option ℤ
  id : String
  name : String
  pieces : List String

namespace SplitCall

def fragments (call : SplitCall) : List ToolCallResponse :=
  ⟨call.index, call.id, call.name, ""⟩ :: call.pieces.map fun piece => ⟨call.index, "", "", piece⟩

def call (call : SplitCall) : ToolCall :=
  ⟨call.id, call.name, concat call.pieces⟩

variable {calls : List SplitCall}

theorem foldl_pieces {before : List (Option ℤ × ToolCall)} {index : Option ℤ} {call : ToolCall}
    (hnew : index ∉ before.map Prod.fst) (pieces : List String) :
    (pieces.map fun piece => (⟨index, "", "", piece⟩ : ToolCallResponse)).foldl addFragment
        (before ++ [(index, call)]) =
      before ++ [(index, { call with arguments := call.arguments ++ concat pieces })] := by
  induction pieces generalizing call with
  | nil => simp
  | cons piece pieces ih =>
      rw [List.map_cons, List.foldl_cons, addFragment_last hnew rfl, ih, concat_cons,
        String.append_assoc]

theorem index_of_mem_fragments {call : SplitCall} {fragment : ToolCallResponse}
    (hmem : fragment ∈ call.fragments) : fragment.index = call.index := by
  rcases List.mem_cons.1 hmem with rfl | hmem
  · rfl
  · obtain ⟨piece, -, rfl⟩ := List.mem_map.1 hmem
    rfl

/-- Calls with an index each are put together as they were. -/
theorem reassemble_eq (hnodup : (calls.map index).Nodup) :
    reassemble (calls.flatMap fragments) = calls.map fun call => (call.index, call.call) := by
  have hstep : ∀ before : List (Option ℤ × ToolCall),
      (∀ call ∈ calls, call.index ∉ before.map Prod.fst) →
        (calls.flatMap fragments).foldl addFragment before =
          before ++ calls.map fun call => (call.index, call.call) := by
    induction calls with
    | nil => simp
    | cons call calls ih =>
        intro before hbefore
        rw [List.map_cons, List.nodup_cons] at hnodup
        have hcall := hbefore call (List.mem_cons_self ..)
        rw [List.flatMap_cons, List.foldl_append, fragments, List.foldl_cons,
          addFragment_new hcall, foldl_pieces hcall, ih hnodup.2, List.map_cons,
          List.append_assoc, String.empty_append]
        · rfl
        · intro other hother
          rw [List.map_append, List.mem_append, not_or]
          refine ⟨hbefore other (List.mem_cons_of_mem call hother), fun hsame => hnodup.1 ?_⟩
          rw [List.map_singleton, List.mem_singleton] at hsame
          exact List.mem_map.2 ⟨other, hother, hsame⟩
  rw [reassemble, hstep [] (by simp), List.nil_append]

/-- Calls that share an index are put together as fewer. -/
theorem nodup_of_length (hlength : (reassemble (calls.flatMap fragments)).length = calls.length) :
    (calls.map index).Nodup := by
  have hsubset : (reassemble (calls.flatMap fragments)).map Prod.fst ⊆ calls.map index := by
    intro index hindex
    obtain ⟨fragment, hfragment, rfl⟩ := List.mem_map.1 (mem_reassemble.1 hindex)
    obtain ⟨call, hcall, hmem⟩ := List.mem_flatMap.1 hfragment
    exact List.mem_map.2 ⟨call, hcall, (index_of_mem_fragments hmem).symm⟩
  exact nodup_of_covers hsubset (by rw [hlength, List.length_map])

end SplitCall

end NewApi.Model
