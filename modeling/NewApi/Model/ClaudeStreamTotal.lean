import NewApi.Lib.PartialLoop
import NewApi.Model.ClaudeToOpenAI

/-!
# Claude streams with missing fields

Whatever fields an event of an upstream stream lacks, it is decoded into the one struct with its
optional parts left nil.  The handlers look at the type of the event and then read the parts that an
event of that type should have, most of them without asking whether they are there.  Here a nil
dereference is `none`, which ends the process: the goroutine that calls the handlers recovers from
nothing.
-/

namespace NewApi.Model

open NewApi.Lib

/-- `dto.ClaudeMediaMessage` with what the handlers of a stream read of it. -/
structure ClaudeStreamPart where
  type : String
  text : Option String
  model : String
  usage : Option ClaudeUsage
  stopReason : Option String
  partialJson : Option String
  thinking : Option String
  id : String
  name : String
deriving DecidableEq

/-- What the dynamic error field can hold: nothing, an object with its string members, a string, or
another JSON value with its text. -/
inductive ClaudeErrorField
  | null
  | object (type message : Option String)
  | string (message : String)
  | value (text : String)
deriving DecidableEq

/-- `dto.ClaudeResponse` with what the handlers of a stream read of it. -/
structure ClaudeStreamResponse where
  type : String
  completion : String
  stopReason : String
  model : String
  error : ClaudeErrorField
  usage : Option ClaudeUsage
  index : Option ℤ
  contentBlock : Option ClaudeStreamPart
  delta : Option ClaudeStreamPart
  message : Option ClaudeStreamPart
deriving DecidableEq

/-- The zero value. -/
def ClaudeStreamResponse.empty : ClaudeStreamResponse where
  type := ""
  completion := ""
  stopReason := ""
  model := ""
  error := .null
  usage := none
  index := none
  contentBlock := none
  delta := none
  message := none

inductive RequestMode
  | completion
  | message
deriving DecidableEq

/-- The formats of a client, as far as `HandleStreamResponseData` tells them apart. -/
inductive StreamFormat
  | openAI
  | claude
  | other
deriving DecidableEq

/-- `GetClaudeError`. -/
def ClaudeStreamResponse.getClaudeError (response : ClaudeStreamResponse) : Option ClaudeError :=
  match response.error with
  | .null => none
  | .object type message => some ⟨type.getD "", message.getD ""⟩
  | .string message => some ⟨"upstream_error", message⟩
  | .value text => some ⟨"unknown_upstream_error", "unknown_error: " ++ text⟩

section Handlers

variable {F : Type}

/-- `FormatClaudeResponseInfo` without its copy into the chunk. -/
def formatStreamResponse (requestMode : RequestMode) (response : ClaudeStreamResponse)
    (info : ClaudeResponseInfo F) : Option (Bool × ClaudeResponseInfo F) :=
  match requestMode with
  | .completion =>
      some (true, { info with responseText := info.responseText ++ response.completion })
  | .message =>
      if response.type = "message_start" then
        response.message.bind fun message => message.usage.map fun usage =>
          (true, { info with
            responseId := message.id
            model := message.model
            usage :=
              { info.usage with
                promptTokens := usage.inputTokens
                cachedTokens := usage.cacheReadInputTokens
                cachedCreationTokens := usage.cacheCreationInputTokens
                claudeCacheCreation5mTokens := usage.getCacheCreation5mTokens
                claudeCacheCreation1hTokens := usage.getCacheCreation1hTokens
                completionTokens := usage.outputTokens } })
      else if response.type = "content_block_delta" then
        response.delta.map fun delta =>
          (true, { info with
            responseText := info.responseText ++ delta.text.getD "" ++ delta.thinking.getD "" })
      else if response.type = "message_delta" then
        response.usage.map fun usage =>
          let promptTokens :=
            if 0 < usage.inputTokens then usage.inputTokens else info.usage.promptTokens
          (true, { info with
            usage :=
              { info.usage with
                promptTokens := promptTokens
                completionTokens := usage.outputTokens
                totalTokens := promptTokens + usage.outputTokens }
            done := true })
      else if response.type = "content_block_start" then some (true, info)
      else some (false, info)

/-- The reason unless it is the text `null`. -/
def knownFinishReason (stopReason : String) : Option String :=
  let finishReason := claudeStopReasonToOpenAIFinishReason stopReason
  if finishReason ≠ "null" then some finishReason else none

/-- The chunk of one choice; tool calls replace its content. -/
def streamChunk (response : ClaudeStreamResponse) (delta : ChoiceDelta)
    (tools : List ToolCallResponse) (finishReason : Option String) :
    ChatCompletionsStreamResponse F :=
  let delta := if tools = [] then delta else { delta with content := none, toolCalls := some tools }
  { (chunkOf delta finishReason : ChatCompletionsStreamResponse F) with model := response.model }

/-- The delta of a `content_block_delta` that has one; the arguments of a tool call are read through
the pointer. -/
def contentDelta (fcIdx : ℤ) (delta : ClaudeStreamPart) :
    Option (ChoiceDelta × List ToolCallResponse) :=
  let choice := { ChoiceDelta.empty with content := delta.text }
  if delta.type = "input_json_delta" then
    delta.partialJson.map fun partialJson => (choice, [⟨some fcIdx, "", "", partialJson⟩])
  else if delta.type = "signature_delta" then
    some ({ choice with reasoningContent := some "\n" }, [])
  else if delta.type = "thinking_delta" then
    some ({ choice with reasoningContent := delta.thinking }, [])
  else some (choice, [])

/-- The delta of a `content_block_start` that has a block. -/
def contentStart (fcIdx : ℤ) (block : ClaudeStreamPart) : ChoiceDelta × List ToolCallResponse :=
  ({ ChoiceDelta.empty with content := if block.type = "text" then block.text else none },
    if block.type = "tool_use" then [⟨some fcIdx, block.id, block.name, ""⟩] else [])

/-- `StreamResponseClaude2OpenAI`; the inner `none` is a nil chunk. -/
def streamResponse (requestMode : RequestMode) (response : ClaudeStreamResponse) :
    Option (Option (ChatCompletionsStreamResponse F)) :=
  let idx := (response.index.map fcIdx).getD 0
  match requestMode with
  | .completion =>
      some (some (streamChunk response
        { ChoiceDelta.empty with content := some response.completion } []
        (knownFinishReason response.stopReason)))
  | .message =>
      if response.type = "message_start" then
        response.message.map fun message =>
          some { (streamChunk response
              { ChoiceDelta.empty with content := some "", role := "assistant" } [] none :
                ChatCompletionsStreamResponse F) with
            id := message.id
            model := message.model }
      else if response.type = "content_block_start" then
        some (response.contentBlock.map fun block =>
          streamChunk response (contentStart idx block).1 (contentStart idx block).2 none)
      else if response.type = "content_block_delta" then
        match response.delta with
        | none => some (some (streamChunk response ChoiceDelta.empty [] none))
        | some delta => (contentDelta idx delta).map fun (choice, tools) =>
            some (streamChunk response choice tools none)
      else if response.type = "message_delta" then
        some (some (streamChunk response ChoiceDelta.empty []
          ((response.delta.bind ClaudeStreamPart.stopReason).bind knownFinishReason)))
      else some none

/-- What a client is sent: the data as it came, or a chunk; a nil chunk is sent as `null`. -/
inductive StreamSent (F : Type)
  | data (response : ClaudeStreamResponse)
  | chunk (chunk : Option (ChatCompletionsStreamResponse F))

/-- What the handler of a stream goes on with. -/
structure StreamState (F : Type) where
  upstreamModelName : String
  info : ClaudeResponseInfo F
  sent : List (StreamSent F)

/-- `HandleStreamResponseData` on an event that was decoded. -/
def handleStreamResponse (format : StreamFormat) (requestMode : RequestMode) (s : StreamState F)
    (response : ClaudeStreamResponse) : Option (Except NewAPIError (StreamState F)) :=
  match response.getClaudeError.filter fun claudeError => claudeError.type ≠ "" with
  | some claudeError => some (.error (.withClaudeError claudeError 500))
  | none =>
      match format with
      | .claude =>
          (formatStreamResponse requestMode response s.info).bind fun formatted =>
            let s := { s with info := formatted.2, sent := s.sent ++ [.data response] }
            if requestMode = .message ∧ response.type = "message_start" then
              response.message.map fun message => .ok { s with upstreamModelName := message.model }
            else some (.ok s)
      | .openAI =>
          (streamResponse requestMode response).bind fun chunk =>
            (formatStreamResponse requestMode response s.info).map fun formatted =>
              let info := formatted.2
              if formatted.1 then
                let chunk := chunk.map fun chunk =>
                  { chunk with id := info.responseId, model := info.model }
                .ok { s with info := info, sent := s.sent ++ [.chunk chunk] }
              else .ok { s with info := info }
      | .other => some (.ok s)

/-- The handler on the events of a stream, up to the first that is an error. -/
def handleStreamResponses (format : StreamFormat) (requestMode : RequestMode) :
    StreamState F → List ClaudeStreamResponse → Option (Except NewAPIError (StreamState F))
  | s, [] => some (.ok s)
  | s, response :: responses =>
      match handleStreamResponse format requestMode s response with
      | none => none
      | some (.error err) => some (.error err)
      | some (.ok s) => handleStreamResponses format requestMode s responses

end Handlers

/-! ## Which events are handled -/

namespace ClaudeStreamResponse

variable (response : ClaudeStreamResponse)

/-- The event is an error, which is returned before anything else is read. -/
def IsError : Prop :=
  ∃ claudeError, response.getClaudeError = some claudeError ∧ claudeError.type ≠ ""

/-- The parts that `FormatClaudeResponseInfo` reads are there. -/
structure Recordable : Prop where
  start : response.type = "message_start" →
    ∃ message, response.message = some message ∧ ∃ usage, message.usage = some usage
  delta : response.type = "content_block_delta" → ∃ delta, response.delta = some delta
  usage : response.type = "message_delta" → ∃ usage, response.usage = some usage

/-- The parts that `StreamResponseClaude2OpenAI` reads are there. -/
structure Convertible : Prop where
  start : response.type = "message_start" → ∃ message, response.message = some message
  arguments : response.type = "content_block_delta" → ∀ delta, response.delta = some delta →
    delta.type = "input_json_delta" → ∃ partialJson, delta.partialJson = some partialJson

/-- The event is an error, or the parts that are read for the client's format are there. -/
def Handled (format : StreamFormat) (requestMode : RequestMode) : Prop :=
  response.IsError ∨ requestMode = .completion ∨
    match format with
    | .claude => response.Recordable
    | .openAI => response.Convertible ∧ response.Recordable
    | .other => True

/-- Every event up to the first that is an error is handled. -/
def AllHandled (format : StreamFormat) (requestMode : RequestMode) :
    List ClaudeStreamResponse → Prop
  | [] => True
  | response :: responses =>
      response.Handled format requestMode ∧
        (response.IsError ∨ AllHandled format requestMode responses)

end ClaudeStreamResponse

section

variable {F : Type} {format : StreamFormat} {requestMode : RequestMode} {s : StreamState F}
  {info : ClaudeResponseInfo F} {response : ClaudeStreamResponse}
  {responses : List ClaudeStreamResponse}

theorem formatStreamResponse_iff (requestMode : RequestMode) (response : ClaudeStreamResponse)
    (info : ClaudeResponseInfo F) :
    (∃ result, formatStreamResponse requestMode response info = some result) ↔
      requestMode = .completion ∨ response.Recordable := by
  cases requestMode with
  | completion => exact iff_of_true ⟨_, rfl⟩ (.inl rfl)
  | message =>
      rw [or_iff_right (by decide)]
      unfold formatStreamResponse
      dsimp only
      by_cases hstart : response.type = "message_start"
      · rw [if_pos hstart]
        constructor
        · intro hsome
          obtain ⟨result, hresult⟩ := hsome
          obtain ⟨message, hmessage, hrest⟩ := Option.bind_eq_some_iff.1 hresult
          obtain ⟨usage, husage, -⟩ := Option.map_eq_some_iff.1 hrest
          refine ⟨fun _ => ⟨message, hmessage, usage, husage⟩, fun hdelta => ?_, fun husage => ?_⟩
          · exact absurd (hstart.symm.trans hdelta) (by decide)
          · exact absurd (hstart.symm.trans husage) (by decide)
        · intro hrecordable
          obtain ⟨message, hmessage, usage, husage⟩ := hrecordable.start hstart
          rw [hmessage, Option.bind_some, husage]
          exact ⟨_, rfl⟩
      · rw [if_neg hstart]
        by_cases hdelta : response.type = "content_block_delta"
        · rw [if_pos hdelta]
          constructor
          · intro hsome
            obtain ⟨result, hresult⟩ := hsome
            obtain ⟨delta, hpart, -⟩ := Option.map_eq_some_iff.1 hresult
            refine ⟨fun hother => absurd hother hstart, fun _ => ⟨delta, hpart⟩, fun husage => ?_⟩
            exact absurd (hdelta.symm.trans husage) (by decide)
          · intro hrecordable
            obtain ⟨delta, hpart⟩ := hrecordable.delta hdelta
            rw [hpart]
            exact ⟨_, rfl⟩
        · rw [if_neg hdelta]
          by_cases husage : response.type = "message_delta"
          · rw [if_pos husage]
            constructor
            · intro hsome
              obtain ⟨result, hresult⟩ := hsome
              obtain ⟨usage, hpart, -⟩ := Option.map_eq_some_iff.1 hresult
              exact ⟨fun hother => absurd hother hstart, fun hother => absurd hother hdelta,
                fun _ => ⟨usage, hpart⟩⟩
            · intro hrecordable
              obtain ⟨usage, hpart⟩ := hrecordable.usage husage
              rw [hpart]
              exact ⟨_, rfl⟩
          · rw [if_neg husage]
            refine iff_of_true ?_ ⟨fun hother => absurd hother hstart,
              fun hother => absurd hother hdelta, fun hother => absurd hother husage⟩
            split
            · exact ⟨_, rfl⟩
            · exact ⟨_, rfl⟩

theorem contentDelta_iff {fcIdx : ℤ} {delta : ClaudeStreamPart} :
    (∃ result, contentDelta fcIdx delta = some result) ↔
      (delta.type = "input_json_delta" → ∃ partialJson, delta.partialJson = some partialJson) := by
  unfold contentDelta
  dsimp only
  by_cases hjson : delta.type = "input_json_delta"
  · rw [if_pos hjson, forall_prop_of_true hjson]
    cases delta.partialJson with
    | none => simp
    | some partialJson => simp
  · rw [if_neg hjson]
    refine iff_of_true ?_ fun hother => absurd hother hjson
    split_ifs
    · exact ⟨_, rfl⟩
    · exact ⟨_, rfl⟩
    · exact ⟨_, rfl⟩

theorem streamResponse_iff (F : Type) (requestMode : RequestMode)
    (response : ClaudeStreamResponse) :
    (∃ chunk, (streamResponse requestMode response :
        Option (Option (ChatCompletionsStreamResponse F))) = some chunk) ↔
      requestMode = .completion ∨ response.Convertible := by
  cases requestMode with
  | completion => exact iff_of_true ⟨_, rfl⟩ (.inl rfl)
  | message =>
      rw [or_iff_right (by decide)]
      unfold streamResponse
      dsimp only
      by_cases hstart : response.type = "message_start"
      · rw [if_pos hstart]
        constructor
        · intro hsome
          obtain ⟨chunk, hchunk⟩ := hsome
          obtain ⟨message, hmessage, -⟩ := Option.map_eq_some_iff.1 hchunk
          refine ⟨fun _ => ⟨message, hmessage⟩, fun hdelta => ?_⟩
          exact absurd (hstart.symm.trans hdelta) (by decide)
        · intro hconvertible
          obtain ⟨message, hmessage⟩ := hconvertible.start hstart
          rw [hmessage]
          exact ⟨_, rfl⟩
      · rw [if_neg hstart]
        by_cases hdelta : response.type = "content_block_delta"
        · have hblock : response.type ≠ "content_block_start" := by
            rw [hdelta]
            decide
          rw [if_neg hblock, if_pos hdelta]
          cases hpart : response.delta with
          | none =>
              refine iff_of_true ⟨_, rfl⟩
                ⟨fun hother => absurd hother hstart, fun _ delta hsome => ?_⟩
              rw [hpart] at hsome
              cases hsome
          | some delta =>
              dsimp only
              constructor
              · intro hsome
                obtain ⟨chunk, hchunk⟩ := hsome
                obtain ⟨result, hresult, -⟩ := Option.map_eq_some_iff.1 hchunk
                refine ⟨fun hother => absurd hother hstart, fun _ other hother => ?_⟩
                obtain rfl := Option.some.inj (hpart.symm.trans hother)
                exact contentDelta_iff.1 ⟨result, hresult⟩
              · intro hconvertible
                obtain ⟨result, hresult⟩ :=
                  contentDelta_iff.2 (hconvertible.arguments hdelta delta hpart)
                rw [hresult]
                exact ⟨_, rfl⟩
        · refine iff_of_true ?_
            ⟨fun hother => absurd hother hstart, fun hother => absurd hother hdelta⟩
          rw [if_neg hdelta]
          split_ifs
          · exact ⟨_, rfl⟩
          · exact ⟨_, rfl⟩
          · exact ⟨_, rfl⟩

/-- An error is returned at once. -/
theorem handleStreamResponse_error (format : StreamFormat) (requestMode : RequestMode)
    (s : StreamState F) (herror : response.IsError) :
    ∃ err, handleStreamResponse format requestMode s response = some (.error err) := by
  obtain ⟨claudeError, hclaudeError, htype⟩ := herror
  unfold handleStreamResponse
  have hfilter : (response.getClaudeError.filter fun claudeError => claudeError.type ≠ "") =
      some claudeError := by
    rw [hclaudeError, Option.filter_some, if_pos (decide_eq_true htype)]
  rw [hfilter]
  exact ⟨_, rfl⟩

theorem filter_getClaudeError (herror : ¬ response.IsError) :
    (response.getClaudeError.filter fun claudeError => claudeError.type ≠ "") = none := by
  rw [Option.filter_eq_none_iff]
  intro claudeError hclaudeError htype
  exact herror ⟨claudeError, hclaudeError, of_decide_eq_true htype⟩

/-- Any other event goes on with the stream, if the parts that are read are there. -/
theorem handleStreamResponse_defined (format : StreamFormat) (requestMode : RequestMode)
    (s : StreamState F) (herror : ¬ response.IsError) :
    DefinedIff (response.Handled format requestMode)
      (handleStreamResponse format requestMode s response) fun result => ∃ s', result = .ok s' := by
  have hformat := formatStreamResponse_iff requestMode response s.info
  unfold ClaudeStreamResponse.Handled handleStreamResponse
  rw [filter_getClaudeError herror, or_iff_right herror]
  cases format with
  | other => exact ⟨fun _ => ⟨_, rfl, s, rfl⟩, fun hnot => (hnot (.inr trivial)).elim⟩
  | claude =>
      dsimp only
      rw [← hformat]
      constructor
      · intro hsome
        obtain ⟨formatted, hformatted⟩ := hsome
        rw [hformatted, Option.bind_some]
        dsimp only
        split
        case isTrue hstart =>
          -- the message has been read before
          have hrecordable : response.Recordable :=
            (hformat.1 ⟨formatted, hformatted⟩).resolve_left (by rw [hstart.1]; decide)
          obtain ⟨message, hmessage, -⟩ := hrecordable.start hstart.2
          rw [hmessage]
          exact ⟨_, rfl, _, rfl⟩
        case isFalse => exact ⟨_, rfl, _, rfl⟩
      · intro hnone
        rw [Option.eq_none_iff_forall_ne_some.2 fun formatted hformatted =>
          hnone ⟨formatted, hformatted⟩]
        rfl
  | openAI =>
      dsimp only
      rw [or_and_left, ← hformat, ← streamResponse_iff F]
      constructor
      · intro hsome
        obtain ⟨⟨chunk, hchunk⟩, formatted, hformatted⟩ := hsome
        rw [hchunk, Option.bind_some, hformatted, Option.map_some]
        refine ⟨_, rfl, ?_⟩
        split
        case isTrue => exact ⟨_, rfl⟩
        case isFalse => exact ⟨_, rfl⟩
      · intro hnone
        rw [not_and_or] at hnone
        rcases hnone with hchunk | hformatted
        · rw [Option.eq_none_iff_forall_ne_some.2 fun chunk hsome => hchunk ⟨chunk, hsome⟩]
          rfl
        · have hnone := Option.eq_none_iff_forall_ne_some.2 fun formatted hsome =>
            hformatted ⟨formatted, hsome⟩
          rw [hnone]
          cases (streamResponse requestMode response :
            Option (Option (ChatCompletionsStreamResponse F))) with
          | none => rfl
          | some chunk => rfl

/-- Step lemma: the handler returns from an event exactly if the event is handled. -/
theorem handleStreamResponse_iff :
    (∃ result, handleStreamResponse format requestMode s response = some result) ↔
      response.Handled format requestMode := by
  by_cases herror : response.IsError
  · obtain ⟨err, herr⟩ := handleStreamResponse_error format requestMode s herror
    exact iff_of_true ⟨_, herr⟩ (.inl herror)
  · exact (handleStreamResponse_defined format requestMode s herror).exists_iff

/-- Run lemma. -/
theorem handleStreamResponses_iff (s : StreamState F) (responses : List ClaudeStreamResponse) :
    (∃ result, handleStreamResponses format requestMode s responses = some result) ↔
      ClaudeStreamResponse.AllHandled format requestMode responses := by
  induction responses generalizing s with
  | nil => exact iff_of_true ⟨_, rfl⟩ trivial
  | cons response responses ih =>
      rw [handleStreamResponses, ClaudeStreamResponse.AllHandled]
      by_cases herror : response.IsError
      · obtain ⟨err, herr⟩ := handleStreamResponse_error format requestMode s herror
        rw [herr]
        exact iff_of_true ⟨_, rfl⟩ ⟨.inl herror, .inl herror⟩
      · rw [or_iff_right herror]
        have hdefined := handleStreamResponse_defined format requestMode s herror
        by_cases hhandled : response.Handled format requestMode
        · obtain ⟨result, hresult, s', rfl⟩ := hdefined.1 hhandled
          rw [hresult, and_iff_right hhandled]
          exact ih s'
        · rw [hdefined.2 hhandled]
          refine iff_of_false (fun hsome => ?_) fun hall => hhandled hall.1
          obtain ⟨result, hresult⟩ := hsome
          cases hresult

/-- The handlers return from an event, and from a stream of events, exactly if the parts that they
read of it are there. -/
theorem claude_stream_total_iff (format : StreamFormat) (requestMode : RequestMode)
    (s : StreamState F) (responses : List ClaudeStreamResponse) :
    (∀ response ∈ responses,
      ((∃ result, formatStreamResponse requestMode response s.info = some result) ↔
        requestMode = .completion ∨ response.Recordable) ∧
      ((∃ chunk, (streamResponse requestMode response :
          Option (Option (ChatCompletionsStreamResponse F))) = some chunk) ↔
        requestMode = .completion ∨ response.Convertible) ∧
      ((∃ result, handleStreamResponse format requestMode s response = some result) ↔
        response.Handled format requestMode)) ∧
    ((∃ result, handleStreamResponses format requestMode s responses = some result) ↔
      ClaudeStreamResponse.AllHandled format requestMode responses) :=
  ⟨fun response _ => ⟨formatStreamResponse_iff requestMode response s.info,
      streamResponse_iff F requestMode response, handleStreamResponse_iff⟩,
    handleStreamResponses_iff s responses⟩

end

/-- A `content_block_delta` without its delta. -/
def emptyDeltaEvent : ClaudeStreamResponse :=
  { ClaudeStreamResponse.empty with type := "content_block_delta", index := some 0 }

/-- No delta is there to read the text of. -/
theorem empty_delta_panics :
    ¬ ∀ (format : StreamFormat) (requestMode : RequestMode) (s : StreamState Unit)
      (responses : List ClaudeStreamResponse),
      ∃ result, handleStreamResponses format requestMode s responses = some result := by
  intro hclaim
  have hhandled := (handleStreamResponses_iff _ _).1
    (hclaim .claude .message ⟨"claude", .initial "" "", []⟩ [emptyDeltaEvent])
  rcases hhandled.1 with herror | hmode | hrecordable
  · obtain ⟨claudeError, hclaudeError, -⟩ := herror
    cases hclaudeError
  · cases hmode
  · obtain ⟨delta, hdelta⟩ := ClaudeStreamResponse.Recordable.delta hrecordable rfl
    cases hdelta

end NewApi.Model
