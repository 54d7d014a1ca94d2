import NewApi.Model.ClaudeMessage
import NewApi.Model.OpenAIMessage

/-!
# From Claude to OpenAI

The gateway answers an OpenAI client from a Claude upstream: `streamResponseClaude2OpenAI`
turns every event of a stream into a chunk, without a state of its own, and
`responseClaude2OpenAI` turns a whole message into one response.
-/

namespace NewApi.Model

open NewApi.Lib NewApi.Lib.Strings

variable {F : Type}

/-! ## The chunks of a stream -/

/-- The index of a tool call: the index of its block less one, but not below zero. -/
def fcIdx (index : ℤ) : ℤ :=
  if index - 1 < 0 then 0 else index - 1

/-- A chunk with one choice. -/
def chunkOf (delta : ChoiceDelta) (finishReason : Option String) :
    ChatCompletionsStreamResponse F where
  id := ""
  model := ""
  choices := [{ index := 0, delta := delta, finishReason := finishReason }]
  usage := none

def streamResponseClaude2OpenAI : ClaudeEvent → Option (ChatCompletionsStreamResponse F)
  | .messageStart id model _ =>
      some { chunkOf { ChoiceDelta.empty with content := some "", role := "assistant" } none with
        id := id
        model := model }
  | .contentBlockStart index block =>
      match block with
      | .text text => some (chunkOf { ChoiceDelta.empty with content := some text } none)
      | .thinking _ => some (chunkOf ChoiceDelta.empty none)
      | .toolUse id name _ =>
          some (chunkOf { ChoiceDelta.empty with
            toolCalls := some [⟨some (fcIdx index), id, name, ""⟩] } none)
  | .contentBlockDelta index delta =>
      match delta with
      | .textDelta text => some (chunkOf { ChoiceDelta.empty with content := some text } none)
      | .thinkingDelta thinking =>
          some (chunkOf { ChoiceDelta.empty with reasoningContent := some thinking } none)
      | .signatureDelta => some (chunkOf { ChoiceDelta.empty with reasoningContent := some "\n" } none)
      | .inputJsonDelta partialJson =>
          some (chunkOf { ChoiceDelta.empty with
            toolCalls := some [⟨some (fcIdx index), "", "", partialJson⟩] } none)
  | .messageDelta stopReason _ =>
      some (chunkOf ChoiceDelta.empty (stopReason.bind fun stopReason =>
        let finishReason := claudeStopReasonToOpenAIFinishReason stopReason
        if finishReason ≠ "null" then some finishReason else none))
  | .contentBlockStop _ | .messageStop | .error _ | .other _ => none

structure ClaudeResponseInfo (F : Type) where
  responseId : String
  model : String
  responseText : String
  usage : Usage F
  done : Bool

/-- What `ClaudeStreamHandler` begins with. -/
def ClaudeResponseInfo.initial (responseId model : String) : ClaudeResponseInfo F where
  responseId := responseId
  model := model
  responseText := ""
  usage := Usage.empty
  done := false

/-- Record an event; `false` when the event has no chunk. -/
def formatClaudeResponseInfo (info : ClaudeResponseInfo F) :
    ClaudeEvent → Bool × ClaudeResponseInfo F
  | .messageStart id model usage =>
      (true, { info with
        responseId := id
        model := model
        usage :=
          { info.usage with
            promptTokens := usage.inputTokens
            cachedTokens := usage.cacheReadInputTokens
            cachedCreationTokens := usage.cacheCreationInputTokens
            claudeCacheCreation5mTokens := usage.getCacheCreation5mTokens
            claudeCacheCreation1hTokens := usage.getCacheCreation1hTokens
            completionTokens := usage.outputTokens } })
  | .contentBlockDelta _ delta =>
      match delta with
      | .textDelta text => (true, { info with responseText := info.responseText ++ text })
      | .thinkingDelta thinking =>
          (true, { info with responseText := info.responseText ++ thinking })
      | .inputJsonDelta _ | .signatureDelta => (true, info)
  | .messageDelta _ usage =>
      let promptTokens :=
        if 0 < usage.inputTokens then usage.inputTokens else info.usage.promptTokens
      (true, { info with
        usage :=
          { info.usage with
            promptTokens := promptTokens
            completionTokens := usage.outputTokens
            totalTokens := promptTokens + usage.outputTokens }
        done := true })
  | .contentBlockStart _ _ => (true, info)
  | .contentBlockStop _ | .messageStop | .error _ | .other _ => (false, info)

/-- `WithClaudeError`. -/
def NewAPIError.withClaudeError (claudeError : ClaudeError) (statusCode : ℤ) : NewAPIError :=
  let type := if claudeError.type = "" then "upstream_error" else claudeError.type
  { err := some claudeError.message
    relayError := .claude { claudeError with type := type }
    skipRetry := false
    recordErrorLog := none
    errorType := ErrorTypeClaudeError
    errorCode := type
    statusCode := statusCode
    metadata := "" }

/-- `HandleStreamResponseData` for an OpenAI client: the chunk that is sent, if any. -/
def handleStreamResponseData (info : ClaudeResponseInfo F) (event : ClaudeEvent) :
    Except NewAPIError (Option (ChatCompletionsStreamResponse F) × ClaudeResponseInfo F) :=
  let handled :=
    let (known, info) := formatClaudeResponseInfo info event
    if known then
      ((streamResponseClaude2OpenAI event).map fun response =>
        { response with id := info.responseId, model := info.model }, info)
    else (none, info)
  match event with
  | .error claudeError =>
      if claudeError.type ≠ "" then .error (.withClaudeError claudeError 500) else .ok handled
  | _ => .ok handled

/-- The chunks of a stream and what is recorded of it. -/
def handleStream : ClaudeResponseInfo F → List ClaudeEvent →
    Except NewAPIError (List (ChatCompletionsStreamResponse F) × ClaudeResponseInfo F)
  | info, [] => .ok ([], info)
  | info, event :: events =>
      match handleStreamResponseData info event with
      | .error err => .error err
      | .ok (chunk, info) =>
          match handleStream info events with
          | .error err => .error err
          | .ok (chunks, info) => .ok (chunk.toList ++ chunks, info)

/-! ## The whole message -/

/-- `GetText` of a content block. -/
def ContentBlock.getText : ContentBlock → String
  | .text content => content
  | .thinking _ | .toolUse _ _ _ => ""

/-- What the loop over the content has put together. -/
structure ClaudeContent where
  responseText : String
  thinkingContent : String
  tools : List ToolCall

/-- The loop over the content. -/
def ClaudeContent.add (content : ClaudeContent) : ContentBlock → ClaudeContent
  | .toolUse id name input => { content with tools := content.tools ++ [⟨id, name, input⟩] }
  | .thinking thinking => { content with thinkingContent := thinking }
  | .text text => { content with responseText := text }

/-- The response in the OpenAI format; its usage is filled in by the caller.  The thinking of
the first block is read too, but overwritten. -/
def responseClaude2OpenAI (message : ClaudeMessage) : OpenAITextResponse F :=
  let content := message.content.foldl ClaudeContent.add
    { responseText := (message.content.head?.map ContentBlock.getText).getD ""
      thinkingContent := ""
      tools := [] }
  { id := message.id
    model := message.model
    choices :=
      [{ index := 0
         message :=
           { content := content.responseText
             reasoningContent := content.thinkingContent
             toolCalls := content.tools }
         finishReason := claudeStopReasonToOpenAIFinishReason message.stopReason }]
    usage := Usage.empty }

/-! ## The chunks of a well-formed stream -/

/-- The choices of the chunk of an event; most events have one, some have no chunk. -/
def eventChoices (F : Type) (event : ClaudeEvent) : List StreamChoice :=
  (streamResponseClaude2OpenAI event : Option (ChatCompletionsStreamResponse F)).toList.flatMap
    ChatCompletionsStreamResponse.choices

/-- What is recorded of a stream. -/
def recordEvents (info : ClaudeResponseInfo F) (events : List ClaudeEvent) :
    ClaudeResponseInfo F :=
  events.foldl (fun info event => (formatClaudeResponseInfo info event).2) info

section Stream

variable (info : ClaudeResponseInfo F) {event : ClaudeEvent} {events : List ClaudeEvent}
  {message : ClaudeMessage} {pieces : List StreamedBlock}
  {chunks : List (ChatCompletionsStreamResponse F)}

theorem handleStreamResponseData_eq (herror : ∀ err, event ≠ .error err) :
    ∃ chunk, handleStreamResponseData info event =
        .ok (chunk, (formatClaudeResponseInfo info event).2) ∧
      chunk.toList.flatMap ChatCompletionsStreamResponse.choices = eventChoices F event := by
  cases event with
  | messageStart id model usage => exact ⟨_, rfl, rfl⟩
  | contentBlockStart index block => cases block <;> exact ⟨_, rfl, rfl⟩
  | contentBlockDelta index delta => cases delta <;> exact ⟨_, rfl, rfl⟩
  | contentBlockStop index => exact ⟨_, rfl, rfl⟩
  | messageDelta stopReason usage => exact ⟨_, rfl, rfl⟩
  | messageStop => exact ⟨_, rfl, rfl⟩
  | error err => exact absurd rfl (herror err)
  | other type => exact ⟨_, rfl, rfl⟩

/-- A stream without an error is handled to its end. -/
theorem handleStream_eq (herror : ∀ event ∈ events, ∀ err, event ≠ .error err) :
    ∃ chunks, handleStream info events = .ok (chunks, recordEvents info events) ∧
      chunks.flatMap ChatCompletionsStreamResponse.choices = events.flatMap (eventChoices F) := by
  induction events generalizing info with
  | nil => exact ⟨[], rfl, rfl⟩
  | cons event events ih =>
      rw [List.forall_mem_cons] at herror
      obtain ⟨chunk, hchunk, hchoices⟩ := handleStreamResponseData_eq info herror.1
      obtain ⟨chunks, hrest, hrestChoices⟩ :=
        ih (formatClaudeResponseInfo info event).2 herror.2
      refine ⟨chunk.toList ++ chunks, ?_, ?_⟩
      · rw [handleStream, hchunk]
        simp only
        rw [hrest]
        rfl
      · rw [List.flatMap_append, List.flatMap_cons, hchoices, hrestChoices]

/-- The events that tell nothing have no chunk. -/
theorem flatMap_eventChoices_filter : (events.filter fun event => event.Tells).flatMap
    (eventChoices F) = events.flatMap (eventChoices F) := by
  induction events with
  | nil => rfl
  | cons event events ih =>
      rcases event.tells_or_other with htells | ⟨type, rfl⟩
      · rw [filter_tells_cons htells, List.flatMap_cons, List.flatMap_cons, ih]
      · rw [filter_tells_other, List.flatMap_cons, ih]
        rfl

namespace Streams

variable (hstreams : Streams events message pieces)

include hstreams

theorem not_error (hmem : event ∈ events) (err : ClaudeError) : event ≠ .error err := by
  rintro rfl
  obtain ⟨usage, usage', heq⟩ := hstreams.events
  have htells : ClaudeEvent.error err ∈ events.filter fun event => event.Tells :=
    List.mem_filter.2 ⟨hmem, decide_eq_true trivial⟩
  rw [heq, List.cons_append, List.mem_cons, List.mem_append] at htells
  rcases htells with hfirst | hblock | hlast
  · cases hfirst
  · obtain ⟨i, ⟨block, hevent⟩ | ⟨delta, hevent⟩ | hevent⟩ := mem_blockEvents hblock <;> cases hevent
  · simp at hlast

/-- The choices of the chunks: one that opens the message, those of the blocks, and one with
the finish reason. -/
theorem handleStream_eq : ∃ chunks, handleStream info events =
      .ok (chunks, recordEvents info events) ∧
    chunks.flatMap ChatCompletionsStreamResponse.choices =
      ⟨0, { ChoiceDelta.empty with content := some "", role := "assistant" }, none⟩ ::
        (blockEvents 0 pieces).flatMap (eventChoices F) ++
      eventChoices F (.messageDelta (some message.stopReason) ⟨0, 0, 0, 0, none⟩) := by
  obtain ⟨chunks, hchunks, hchoices⟩ :=
    Model.handleStream_eq info fun event hmem => hstreams.not_error hmem
  obtain ⟨usage, usage', heq⟩ := hstreams.events
  refine ⟨chunks, hchunks, ?_⟩
  rw [hchoices, ← flatMap_eventChoices_filter, heq, List.cons_append, List.flatMap_cons,
    List.flatMap_append]
  rfl

end Streams

end Stream

/-! ## Tool calls -/

/-- The fragment of the input that a delta carries. -/
def ContentDelta.fragment : ContentDelta → Option String
  | .inputJsonDelta partialJson => some partialJson
  | _ => none

def ContentBlock.toolCall : ContentBlock → Option ToolCall
  | .toolUse id name input => some ⟨id, name, input⟩
  | .text _ | .thinking _ => none

/-- The call of a tool-use block as the chunks carry it. -/
def StreamedBlock.splitCall (streamed : StreamedBlock) (index : ℤ) : Option SplitCall :=
  streamed.block.toolCall.map fun call =>
    ⟨some (fcIdx index), call.id, call.name, streamed.deltas.filterMap ContentDelta.fragment⟩

/-- The calls of blocks at consecutive indices. -/
def splitCalls : ℕ → List StreamedBlock → List SplitCall
  | _, [] => []
  | index, streamed :: rest => (streamed.splitCall index).toList ++ splitCalls (index + 1) rest

namespace ClaudeMessage

/-- The tool-use blocks as the tool calls of an OpenAI message. -/
def toolCalls (message : ClaudeMessage) : List ToolCall :=
  message.content.filterMap ContentBlock.toolCall

end ClaudeMessage

/-- The places at which the tool-use blocks stand, counted from `index` on. -/
def toolPositions : ℕ → List ContentBlock → List ℕ
  | _, [] => []
  | index, block :: rest =>
      (if block.toolCall.isSome then [index] else []) ++ toolPositions (index + 1) rest

section ToolCalls

variable (info : ClaudeResponseInfo F) {events : List ClaudeEvent} {message : ClaudeMessage}
  {pieces : List StreamedBlock}

theorem filterMap_fragment (fragments : List String) :
    (fragments.map ContentDelta.inputJsonDelta).filterMap ContentDelta.fragment = fragments := by
  induction fragments with
  | nil => rfl
  | cons fragment fragments ih =>
      rw [List.map_cons, List.filterMap_cons, ContentDelta.fragment, ih]

/-- Only a tool-use block has fragments. -/
theorem StreamedBlock.filterMap_fragment_eq_nil {streamed : StreamedBlock}
    (hblock : streamed.block.toolCall = none) :
    streamed.deltas.filterMap ContentDelta.fragment = [] := by
  obtain ⟨block, deltas, carried⟩ := streamed
  rw [List.filterMap_eq_nil_iff]
  show ∀ delta ∈ deltas, delta.fragment = none
  intro delta hdelta
  cases block with
  | text content =>
      obtain ⟨pieces, rfl, -⟩ := carried
      obtain ⟨piece, -, rfl⟩ := List.mem_map.1 hdelta
      rfl
  | thinking content =>
      obtain ⟨pieces, hpieces, -⟩ := carried
      cases delta with
      | inputJsonDelta partialJson =>
          have hmem : ContentDelta.inputJsonDelta partialJson ∈
              deltas.filter fun delta => delta ≠ ContentDelta.signatureDelta :=
            List.mem_filter.2 ⟨hdelta, decide_eq_true ContentDelta.noConfusion⟩
          rw [hpieces] at hmem
          obtain ⟨piece, -, heq⟩ := List.mem_map.1 hmem
          cases heq
      | _ => rfl
  | toolUse id name input => cases hblock

theorem fragments_of_opening (block : ContentBlock) (index : ℤ) :
    (eventChoices F (.contentBlockStart index block.opening)).flatMap
        (fun choice => choice.delta.fragments) =
      (block.toolCall.map fun call => ⟨some (fcIdx index), call.id, call.name, ""⟩).toList := by
  cases block <;> rfl

theorem fragments_of_deltas (deltas : List ContentDelta) (index : ℤ) :
    ((deltas.map (ClaudeEvent.contentBlockDelta index)).flatMap (eventChoices F)).flatMap
        (fun choice => choice.delta.fragments) =
      (deltas.filterMap ContentDelta.fragment).map fun piece =>
        ⟨some (fcIdx index), "", "", piece⟩ := by
  induction deltas with
  | nil => rfl
  | cons delta deltas ih =>
      rw [List.map_cons, List.flatMap_cons, List.flatMap_append, ih, List.filterMap_cons]
      cases delta <;> rfl

/-- The fragments in the chunks of a block are those of its call. -/
theorem fragments_of_block (streamed : StreamedBlock) (index : ℤ) :
    ((streamed.events index).flatMap (eventChoices F)).flatMap
        (fun choice => choice.delta.fragments) =
      (streamed.splitCall index).toList.flatMap SplitCall.fragments := by
  rw [StreamedBlock.events, List.cons_append, List.flatMap_cons, List.flatMap_append,
    List.flatMap_append, List.flatMap_append, fragments_of_opening, fragments_of_deltas,
    StreamedBlock.splitCall]
  cases hcall : streamed.block.toolCall with
  | none =>
      rw [StreamedBlock.filterMap_fragment_eq_nil hcall]
      rfl
  | some call =>
      simp only [Option.map_some, Option.toList_some, List.flatMap_singleton, SplitCall.fragments,
        List.singleton_append, List.cons.injEq, true_and]
      exact List.append_nil _

theorem fragments_of_blocks (pieces : List StreamedBlock) (index : ℕ) :
    ((blockEvents index pieces).flatMap (eventChoices F)).flatMap
        (fun choice => choice.delta.fragments) =
      (splitCalls index pieces).flatMap SplitCall.fragments := by
  induction pieces generalizing index with
  | nil => rfl
  | cons streamed rest ih =>
      rw [blockEvents, splitCalls, List.flatMap_append, List.flatMap_append, List.flatMap_append,
        fragments_of_block, ih]

/-- The chunks carry the fragments of the calls, in the order of the blocks. -/
theorem Streams.fragmentsOf_eq (hstreams : Streams events message pieces) :
    ∃ chunks, handleStream info events = .ok (chunks, recordEvents info events) ∧
      fragmentsOf chunks = (splitCalls 0 pieces).flatMap SplitCall.fragments := by
  obtain ⟨chunks, hchunks, hchoices⟩ := hstreams.handleStream_eq info
  refine ⟨chunks, hchunks, ?_⟩
  rw [fragmentsOf, ← List.flatMap_assoc, hchoices, List.cons_append, List.flatMap_cons,
    List.flatMap_append, fragments_of_blocks]
  exact List.append_nil _

theorem splitCall_call {streamed : StreamedBlock} (index : ℤ) :
    (streamed.splitCall index).map SplitCall.call = streamed.block.toolCall := by
  obtain ⟨block, deltas, carried⟩ := streamed
  cases block with
  | text content => rfl
  | thinking content => rfl
  | toolUse id name input =>
      obtain ⟨fragments, rfl, hconcat⟩ := carried
      simp only [StreamedBlock.splitCall, ContentBlock.toolCall, Option.map_some, SplitCall.call,
        filterMap_fragment, hconcat]

theorem map_call_splitCalls (pieces : List StreamedBlock) (index : ℕ) :
    (splitCalls index pieces).map SplitCall.call =
      (pieces.map StreamedBlock.block).filterMap ContentBlock.toolCall := by
  induction pieces generalizing index with
  | nil => rfl
  | cons streamed rest ih =>
      rw [splitCalls, List.map_append, ih, List.map_cons, List.filterMap_cons,
        ← splitCall_call index]
      cases streamed.splitCall index <;> rfl

theorem map_index_splitCalls (pieces : List StreamedBlock) (index : ℕ) :
    (splitCalls index pieces).map SplitCall.index =
      (toolPositions index (pieces.map StreamedBlock.block)).map fun position : ℕ =>
        some (fcIdx position) := by
  induction pieces generalizing index with
  | nil => rfl
  | cons streamed rest ih =>
      rw [splitCalls, List.map_append, ih, List.map_cons, toolPositions, List.map_append,
        StreamedBlock.splitCall]
      cases streamed.block.toolCall <;> rfl

theorem fcIdx_natCast (position : ℕ) : fcIdx position = ((position - 1 : ℕ) : ℤ) := by
  unfold fcIdx
  split <;> omega

theorem map_snd_zipIdx {α : Type} (xs : List α) :
    xs.zipIdx.map Prod.snd = List.range xs.length := by
  rw [List.zipIdx_map_snd, List.range_eq_range']

/-- A client puts the tool calls together as the message has them exactly when the `n`-th
tool-use block is the block `n + 1` of the message, or the first of them the block 0. -/
theorem tool_calls_reassembled_iff (hstreams : Streams events message pieces) :
    (∃ chunks info', handleStream info events = .ok (chunks, info') ∧
        reassemble (fragmentsOf chunks) =
          message.toolCalls.zipIdx.map fun (call, number) => (some (number : ℤ), call)) ↔
      (toolPositions 0 message.content).map Nat.pred =
        List.range (toolPositions 0 message.content).length := by
  obtain ⟨chunks, hchunks, hfragments⟩ := hstreams.fragmentsOf_eq info
  have hcalls : (splitCalls 0 pieces).map SplitCall.call = message.toolCalls := by
    rw [map_call_splitCalls, hstreams.content, ClaudeMessage.toolCalls]
  have hindices : (splitCalls 0 pieces).map SplitCall.index =
      ((toolPositions 0 message.content).map Nat.pred).map fun number : ℕ => some (number : ℤ) := by
    rw [map_index_splitCalls, hstreams.content, List.map_map]
    exact List.map_congr_left fun position _ => congrArg some (fcIdx_natCast position)
  have hlength : (toolPositions 0 message.content).length = message.toolCalls.length := by
    rw [← hcalls, List.length_map, ← List.length_map (f := SplitCall.index), hindices,
      List.length_map, List.length_map]
  have hfst : (message.toolCalls.zipIdx.map fun (call, number) => (some (number : ℤ), call)).map
      Prod.fst = (List.range message.toolCalls.length).map fun number : ℕ => some (number : ℤ) := by
    rw [← map_snd_zipIdx]
    simp only [List.map_map, Function.comp_def]
  constructor
  · rintro ⟨other, info', hother, hreassemble⟩
    obtain ⟨rfl, rfl⟩ : chunks = other ∧ recordEvents info events = info' := by
      simpa only [Except.ok.injEq, Prod.mk.injEq] using hchunks.symm.trans hother
    rw [hfragments] at hreassemble
    -- As many calls as blocks come out, so no two blocks share an index.
    have hnodup : ((splitCalls 0 pieces).map SplitCall.index).Nodup :=
      SplitCall.nodup_of_length (by
        rw [hreassemble, List.length_map, List.length_zipIdx, ← hcalls, List.length_map])
    rw [SplitCall.reassemble_eq hnodup] at hreassemble
    have hsame := congrArg (List.map Prod.fst) hreassemble
    rw [hfst, List.map_map] at hsame
    have hnumbers : ((toolPositions 0 message.content).map Nat.pred).map
        (fun number : ℕ => some (number : ℤ)) =
        (List.range message.toolCalls.length).map fun number : ℕ => some (number : ℤ) := by
      rw [← hindices, ← hsame]
      rfl
    rw [hlength]
    exact List.map_injective_iff.2 (fun a b hab => Int.ofNat.inj (Option.some.inj hab)) hnumbers
  · intro hplaces
    refine ⟨chunks, _, hchunks, ?_⟩
    rw [hplaces, hlength] at hindices
    have hnodup : ((splitCalls 0 pieces).map SplitCall.index).Nodup := by
      rw [hindices]
      exact List.nodup_range.map fun a b hab => Int.ofNat.inj (Option.some.inj hab)
    rw [hfragments, SplitCall.reassemble_eq hnodup]
    calc (splitCalls 0 pieces).map (fun call => (call.index, call.call))
        = ((splitCalls 0 pieces).map SplitCall.index).zip
            ((splitCalls 0 pieces).map SplitCall.call) := (List.zip_map' ..).symm
      _ = List.zip ((message.toolCalls.zipIdx.map Prod.snd).map fun number : ℕ =>
            some (number : ℤ)) (message.toolCalls.zipIdx.map Prod.fst) := by
          rw [hindices, hcalls, map_snd_zipIdx, List.zipIdx_map_fst]
      _ = message.toolCalls.zipIdx.map fun (call, number) => (some (number : ℤ), call) := by
          rw [List.map_map, List.zip_map']
          rfl

/-- Two tool-use blocks after a text block. -/
def samplePieces : List StreamedBlock :=
  [⟨.text "Let me look.", [.textDelta "Let me ", .textDelta "look."],
      ["Let me ", "look."], rfl, rfl⟩,
    ⟨.toolUse "toolu_1" "weather" "[\"Oslo\"]", [.inputJsonDelta "[\"Os", .inputJsonDelta "lo\"]"],
      ["[\"Os", "lo\"]"], rfl, rfl⟩,
    ⟨.toolUse "toolu_2" "clock" "[]", [.inputJsonDelta "[]"], ["[]"], rfl, rfl⟩]

/-- The message of the pieces, from a model that wants to use a tool. -/
def sampleMessage (pieces : List StreamedBlock) : ClaudeMessage where
  id := "msg_1"
  model := "claude"
  content := pieces.map StreamedBlock.block
  stopReason := "tool_use"
  usage := ⟨10, 0, 0, 5, none⟩

def sampleStream (pieces : List StreamedBlock) : List ClaudeEvent :=
  streamOf (sampleMessage pieces) pieces ⟨10, 0, 0, 1, none⟩ ⟨0, 0, 0, 5, none⟩

def sampleInfo : ClaudeResponseInfo ℕ :=
  .initial "chatcmpl-1" "claude"

theorem tool_calls_reassembled_sample : ∃ chunks info',
    handleStream sampleInfo (sampleStream samplePieces) = .ok (chunks, info') ∧
      reassemble (fragmentsOf chunks) =
        [(some 0, ⟨"toolu_1", "weather", "[\"Oslo\"]"⟩), (some 1, ⟨"toolu_2", "clock", "[]"⟩)] :=
  (tool_calls_reassembled_iff sampleInfo (streams_streamOf rfl _ _)).2 rfl

/-- Two calls at the blocks 0 and 1 are merged into one. -/
theorem parallel_calls_merge :
    let pieces := samplePieces.tail
    Streams (sampleStream pieces) (sampleMessage pieces) pieces ∧
      ∃ chunks info', handleStream sampleInfo (sampleStream pieces) = .ok (chunks, info') ∧
        reassemble (fragmentsOf chunks) =
          [(some 0, ⟨"toolu_1", "weather", "[\"Oslo\"][]"⟩)] ∧
        reassemble (fragmentsOf chunks) ≠
          (sampleMessage pieces).toolCalls.zipIdx.map fun (call, number) =>
            (some (number : ℤ), call) := by
  have hmerged : reassemble (fragmentsOf ((handleStream sampleInfo
      (sampleStream samplePieces.tail)).toOption.elim [] Prod.fst)) =
        [(some 0, ⟨"toolu_1", "weather", "[\"Oslo\"][]"⟩)] := by decide
  refine ⟨streams_streamOf rfl _ _, _, _, rfl, hmerged, ?_⟩
  decide

end ToolCalls

/-! ## Text and reasoning -/

namespace ContentBlock

def textContent : ContentBlock → Option String
  | .text content => some content
  | .thinking _ | .toolUse _ _ _ => none

def thinkingContent : ContentBlock → Option String
  | .thinking content => some content
  | .text _ | .toolUse _ _ _ => none

end ContentBlock

namespace ContentDelta

/-- What a delta adds to the text. -/
def getText : ContentDelta → String
  | .textDelta text => text
  | .thinkingDelta _ | .signatureDelta | .inputJsonDelta _ => ""

/-- What a delta adds to the reasoning; a signature adds a new line. -/
def getThinking : ContentDelta → String
  | .thinkingDelta thinking => thinking
  | .signatureDelta => "\n"
  | .textDelta _ | .inputJsonDelta _ => ""

end ContentDelta

namespace ClaudeMessage

def texts (message : ClaudeMessage) : List String :=
  message.content.filterMap ContentBlock.textContent

def thinkings (message : ClaudeMessage) : List String :=
  message.content.filterMap ContentBlock.thinkingContent

end ClaudeMessage

section Text

variable (info : ClaudeResponseInfo F) {events : List ClaudeEvent} {message : ClaudeMessage}
  {pieces : List StreamedBlock}

/-- The loop over the content keeps the last text, the last thinking and all tool calls. -/
theorem foldl_add (content : List ContentBlock) (start : ClaudeContent) :
    content.foldl ClaudeContent.add start =
      { responseText :=
          (content.filterMap ContentBlock.textContent).getLast?.getD start.responseText
        thinkingContent :=
          (content.filterMap ContentBlock.thinkingContent).getLast?.getD start.thinkingContent
        tools := start.tools ++ content.filterMap ContentBlock.toolCall } := by
  induction content generalizing start with
  | nil => simp
  | cons block content ih =>
      rw [List.foldl_cons, ih]
      cases block with
      | text text =>
          simp [ClaudeContent.add, ContentBlock.textContent, ContentBlock.thinkingContent,
            ContentBlock.toolCall, List.filterMap_cons, List.getLast?_cons]
      | thinking thinking =>
          simp [ClaudeContent.add, ContentBlock.textContent, ContentBlock.thinkingContent,
            ContentBlock.toolCall, List.filterMap_cons, List.getLast?_cons]
      | toolUse id name input =>
          simp [ClaudeContent.add, ContentBlock.textContent, ContentBlock.thinkingContent,
            ContentBlock.toolCall]

/-- Without a text block the first block has no text either. -/
theorem getLast_texts_getD (content : List ContentBlock) :
    (content.filterMap ContentBlock.textContent).getLast?.getD
        ((content.head?.map ContentBlock.getText).getD "") =
      (content.filterMap ContentBlock.textContent).getLast?.getD "" := by
  cases content with
  | nil => rfl
  | cons block content =>
      cases block with
      | text text => simp [ContentBlock.textContent, List.getLast?_cons]
      | thinking thinking => rfl
      | toolUse id name input => rfl

/-- The whole message has its last text, its last thinking and all its tool calls. -/
theorem responseClaude2OpenAI_choices :
    (responseClaude2OpenAI message : OpenAITextResponse F).choices =
      [⟨0, ⟨message.texts.getLast?.getD "", message.thinkings.getLast?.getD "", message.toolCalls⟩,
        claudeStopReasonToOpenAIFinishReason message.stopReason⟩] := by
  rw [responseClaude2OpenAI, foldl_add, getLast_texts_getD]
  rfl

namespace StreamedBlock

variable {streamed : StreamedBlock}

/-- The deltas of a block without a signature are all of one kind. -/
theorem deltas_cases (hunsigned : ContentDelta.signatureDelta ∉ streamed.deltas) :
    ∃ fragments : List String,
      (streamed.block = .text (concat fragments) ∧
          streamed.deltas = fragments.map ContentDelta.textDelta) ∨
        (streamed.block = .thinking (concat fragments) ∧
          streamed.deltas = fragments.map ContentDelta.thinkingDelta) ∨
        (∃ id name, streamed.block = .toolUse id name (concat fragments) ∧
          streamed.deltas = fragments.map ContentDelta.inputJsonDelta) := by
  obtain ⟨block, deltas, carried⟩ := streamed
  cases block with
  | text content =>
      obtain ⟨fragments, rfl, rfl⟩ := carried
      exact ⟨fragments, .inl ⟨rfl, rfl⟩⟩
  | thinking content =>
      obtain ⟨fragments, hfragments, rfl⟩ := carried
      have hall : deltas.filter (fun delta => delta ≠ ContentDelta.signatureDelta) = deltas := by
        refine List.filter_eq_self.2 fun delta hmem => decide_eq_true ?_
        rintro rfl
        exact hunsigned hmem
      exact ⟨fragments, .inr (.inl ⟨rfl, hall.symm.trans hfragments⟩)⟩
  | toolUse id name input =>
      obtain ⟨fragments, rfl, rfl⟩ := carried
      exact ⟨fragments, .inr (.inr ⟨id, name, rfl, rfl⟩)⟩

/-- A block with its deltas read off one by one. -/
theorem concat_events {value : StreamChoice → String} {deltaValue : ContentDelta → String}
    {index : ℤ}
    (hopening : ∀ block : ContentBlock,
      (eventChoices F (.contentBlockStart index block.opening)).map value = [""])
    (hdelta : ∀ delta, (eventChoices F (.contentBlockDelta index delta)).map value =
      [deltaValue delta]) :
    concat (((streamed.events index).flatMap (eventChoices F)).map value) =
      concat (streamed.deltas.map deltaValue) := by
  have hdeltas : ∀ deltas : List ContentDelta,
      ((deltas.map (ClaudeEvent.contentBlockDelta index)).flatMap (eventChoices F)).map value =
        deltas.map deltaValue := by
    intro deltas
    induction deltas with
    | nil => rfl
    | cons delta deltas ih =>
        rw [List.map_cons, List.flatMap_cons, List.map_append, ih, hdelta]
        rfl
  rw [events, List.cons_append, List.flatMap_cons, List.flatMap_append, List.map_append,
    List.map_append, hopening, hdeltas, List.singleton_append, concat_cons, String.empty_append]
  exact congrArg concat (List.append_nil _)

/-- A block adds its own text to the text. -/
theorem content_eq (hunsigned : ContentDelta.signatureDelta ∉ streamed.deltas) (index : ℤ) :
    concat (((streamed.events index).flatMap (eventChoices F)).map
        fun choice => choice.delta.getContentString) = streamed.block.textContent.getD "" := by
  rw [concat_events (fun block => by cases block <;> rfl)
    (fun delta => (by cases delta <;> rfl : _ = [delta.getText]))]
  obtain ⟨fragments, ⟨hblock, hdeltas⟩ | ⟨hblock, hdeltas⟩ | ⟨id, name, hblock, hdeltas⟩⟩ :=
    deltas_cases hunsigned
  · rw [hblock, hdeltas, List.map_map]
    exact congrArg concat (List.map_id _)
  · rw [hblock, hdeltas, List.map_map]
    exact concat_map_eq_empty.2 fun _ _ => rfl
  · rw [hblock, hdeltas, List.map_map]
    exact concat_map_eq_empty.2 fun _ _ => rfl

/-- A block adds its own thinking to the reasoning. -/
theorem reasoning_eq (hunsigned : ContentDelta.signatureDelta ∉ streamed.deltas) (index : ℤ) :
    concat (((streamed.events index).flatMap (eventChoices F)).map
        fun choice => choice.delta.getReasoningContent) =
      streamed.block.thinkingContent.getD "" := by
  rw [concat_events (fun block => by cases block <;> rfl)
    (fun delta => (by cases delta <;> rfl : _ = [delta.getThinking]))]
  obtain ⟨fragments, ⟨hblock, hdeltas⟩ | ⟨hblock, hdeltas⟩ | ⟨id, name, hblock, hdeltas⟩⟩ :=
    deltas_cases hunsigned
  · rw [hblock, hdeltas, List.map_map]
    exact concat_map_eq_empty.2 fun _ _ => rfl
  · rw [hblock, hdeltas, List.map_map]
    exact congrArg concat (List.map_id _)
  · rw [hblock, hdeltas, List.map_map]
    exact concat_map_eq_empty.2 fun _ _ => rfl

/-- No block has a finish reason. -/
theorem finishReason_eq (index : ℤ) :
    ((streamed.events index).flatMap (eventChoices F)).filterMap StreamChoice.finishReason =
      [] := by
  rw [List.filterMap_eq_nil_iff]
  intro choice hchoice
  obtain ⟨event, hevent, hchoice⟩ := List.mem_flatMap.1 hchoice
  rw [events, List.mem_append, List.mem_cons, List.mem_map, List.mem_singleton] at hevent
  rcases hevent with (rfl | ⟨delta, -, rfl⟩) | rfl
  · cases hblock : streamed.block <;> rw [hblock] at hchoice <;>
      rw [List.mem_singleton.1 hchoice]
  · cases delta <;> rw [List.mem_singleton.1 hchoice]
  · cases hchoice

end StreamedBlock

/-- What all blocks add together. -/
theorem concat_blockEvents {value : StreamChoice → String}
    (kept : ContentBlock → Option String)
    (hblock : ∀ streamed ∈ pieces, ∀ index : ℤ,
      concat (((streamed.events index).flatMap (eventChoices F)).map value) =
        (kept streamed.block).getD "") (index : ℕ) :
    concat (((blockEvents index pieces).flatMap (eventChoices F)).map value) =
      concat ((pieces.map StreamedBlock.block).filterMap kept) := by
  induction pieces generalizing index with
  | nil => rfl
  | cons streamed rest ih =>
      rw [List.forall_mem_cons] at hblock
      rw [blockEvents, List.flatMap_append, List.map_append, concat_append, hblock.1,
        ih hblock.2, List.map_cons, List.filterMap_cons]
      cases kept streamed.block with
      | none => exact String.empty_append
      | some content => rfl

theorem finishReason_of_blocks (pieces : List StreamedBlock) (index : ℕ) :
    ((blockEvents index pieces).flatMap (eventChoices F)).filterMap StreamChoice.finishReason =
      [] := by
  induction pieces generalizing index with
  | nil => rfl
  | cons streamed rest ih =>
      rw [blockEvents, List.flatMap_append, List.filterMap_append,
        StreamedBlock.finishReason_eq, ih, List.append_nil]

/-- A client puts all texts and all thinking together; a finish reason of `"null"` is left
out. -/
theorem Streams.contents_eq (hstreams : Streams events message pieces)
    (hunsigned : ∀ streamed ∈ pieces, ContentDelta.signatureDelta ∉ streamed.deltas) :
    ∃ chunks, handleStream info events = .ok (chunks, recordEvents info events) ∧
      contentOf chunks = concat message.texts ∧ reasoningOf chunks = concat message.thinkings ∧
      finishReasonOf chunks =
        if claudeStopReasonToOpenAIFinishReason message.stopReason ≠ "null" then
          some (claudeStopReasonToOpenAIFinishReason message.stopReason)
        else none := by
  obtain ⟨chunks, hchunks, hchoices⟩ := hstreams.handleStream_eq info
  refine ⟨chunks, hchunks, ?_, ?_, ?_⟩
  · rw [contentOf_eq, hchoices, List.cons_append, List.map_cons, concat_cons, List.map_append,
      concat_append, concat_blockEvents ContentBlock.textContent fun streamed hmem =>
        StreamedBlock.content_eq (hunsigned streamed hmem), hstreams.content]
    show "" ++ (concat message.texts ++ "") = concat message.texts
    rw [String.empty_append, String.append_empty]
  · rw [reasoningOf_eq, hchoices, List.cons_append, List.map_cons, concat_cons, List.map_append,
      concat_append, concat_blockEvents ContentBlock.thinkingContent fun streamed hmem =>
        StreamedBlock.reasoning_eq (hunsigned streamed hmem), hstreams.content]
    show "" ++ (concat message.thinkings ++ "") = concat message.thinkings
    rw [String.empty_append, String.append_empty]
  · have hlast : ∀ reason : Option String,
        (([⟨0, ChoiceDelta.empty, reason⟩] : List StreamChoice).filterMap
          StreamChoice.finishReason).getLast? = reason := by
      rintro (_ | reason) <;> rfl
    rw [finishReasonOf_eq, hchoices, List.cons_append, List.filterMap_cons, List.filterMap_append,
      finishReason_of_blocks]
    exact hlast _

/-- Only the stop reason `"null"` becomes the finish reason `"null"`. -/
theorem finishReason_eq_null {stopReason : String} :
    claudeStopReasonToOpenAIFinishReason stopReason = "null" ↔ stopReason = "null" := by
  unfold claudeStopReasonToOpenAIFinishReason
  split
  case h_6 => exact Iff.rfl
  all_goals
    rename_i hlower
    refine iff_of_false (by decide) ?_
    rintro rfl
    revert hlower
    decide

/-- The chunks of a stream say what the whole message says exactly when no text and no thinking
stands before the last one of its kind, and the message has a stop reason to tell. -/
theorem stream_says_the_same_iff (hstreams : Streams events message pieces)
    (hunsigned : ∀ streamed ∈ pieces, ContentDelta.signatureDelta ∉ streamed.deltas) :
    (∃ chunks info' choice, handleStream info events = .ok (chunks, info') ∧
        (responseClaude2OpenAI message : OpenAITextResponse F).choices = [choice] ∧
        contentOf chunks = choice.message.content ∧
        reasoningOf chunks = choice.message.reasoningContent ∧
        finishReasonOf chunks = some choice.finishReason) ↔
      (∀ text ∈ message.texts.dropLast, text = "") ∧
        (∀ thinking ∈ message.thinkings.dropLast, thinking = "") ∧
        message.stopReason ≠ "null" := by
  obtain ⟨chunks, hchunks, hcontent, hreasoning, hfinish⟩ :=
    hstreams.contents_eq info hunsigned
  rw [← concat_eq_getLast_iff, ← concat_eq_getLast_iff, ne_eq, ← finishReason_eq_null]
  constructor
  · rintro ⟨other, info', choice, hother, hchoice, htext, hthinking, hreason⟩
    obtain ⟨rfl, rfl⟩ : chunks = other ∧ recordEvents info events = info' := by
      simpa only [Except.ok.injEq, Prod.mk.injEq] using hchunks.symm.trans hother
    rw [responseClaude2OpenAI_choices, List.singleton_inj] at hchoice
    rw [← hchoice] at htext hthinking hreason
    refine ⟨hcontent.symm.trans htext, hreasoning.symm.trans hthinking, fun hnull => ?_⟩
    rw [hfinish, hnull] at hreason
    cases hreason
  · rintro ⟨htext, hthinking, hreason⟩
    refine ⟨chunks, _, _, hchunks, responseClaude2OpenAI_choices, hcontent.trans htext,
      hreasoning.trans hthinking, ?_⟩
    rw [hfinish, if_pos hreason]

/-- Thinking, a text and a call of a tool. -/
def thoughtfulPieces : List StreamedBlock :=
  [⟨.thinking "Where?", [.thinkingDelta "Whe", .thinkingDelta "re?"], ["Whe", "re?"], rfl, rfl⟩,
    ⟨.text "Let me look.", [.textDelta "Let me ", .textDelta "look."],
      ["Let me ", "look."], rfl, rfl⟩,
    ⟨.toolUse "toolu_1" "weather" "[]", [.inputJsonDelta "[]"], ["[]"], rfl, rfl⟩]

theorem stream_says_the_same_sample : ∃ chunks info' choice,
    handleStream sampleInfo (sampleStream thoughtfulPieces) = .ok (chunks, info') ∧
      (responseClaude2OpenAI (sampleMessage thoughtfulPieces) : OpenAITextResponse ℕ).choices =
        [choice] ∧
      contentOf chunks = choice.message.content ∧
      reasoningOf chunks = choice.message.reasoningContent ∧
      finishReasonOf chunks = some choice.finishReason :=
  (stream_says_the_same_iff sampleInfo (streams_streamOf rfl _ _) (by decide)).2
    ⟨by decide, by decide, by decide⟩

/-- Two texts around a call. -/
def interruptedPieces : List StreamedBlock :=
  [⟨.text "First.", [.textDelta "First."], ["First."], rfl, rfl⟩,
    ⟨.toolUse "toolu_1" "weather" "[]", [.inputJsonDelta "[]"], ["[]"], rfl, rfl⟩,
    ⟨.text "Then.", [.textDelta "Then."], ["Then."], rfl, rfl⟩]

/-- The whole message has lost the first text, the stream has not. -/
theorem first_text_is_lost :
    Streams (sampleStream interruptedPieces) (sampleMessage interruptedPieces)
        interruptedPieces ∧
      (∀ streamed ∈ interruptedPieces, ContentDelta.signatureDelta ∉ streamed.deltas) ∧
      ∃ chunks info' choice,
        handleStream sampleInfo (sampleStream interruptedPieces) = .ok (chunks, info') ∧
        (responseClaude2OpenAI (sampleMessage interruptedPieces) : OpenAITextResponse ℕ).choices =
          [choice] ∧
        contentOf chunks = "First.Then." ∧ choice.message.content = "Then." :=
  ⟨streams_streamOf rfl _ _, by decide, _, _, _, rfl, rfl, by decide, by decide⟩

end Text

end NewApi.Model
