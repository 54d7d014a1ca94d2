import NewApi.Model.ClaudeToOpenAI

/-!
# Chat over the Responses API

A chat completion that the gateway asks the Responses API of its upstream for.
`responsesResponseToChatCompletionsResponse` converts the final object of an answer, and
`oaiResponsesToChatStreamHandler` converts the events of a stream while they arrive.
-/

namespace NewApi.Model

open NewApi.Lib NewApi.Lib.Strings

/-- `dto.ResponsesOutputContent`. -/
structure ResponsesOutputContent where
  type : String
  text : String
deriving DecidableEq

/-- `dto.ResponsesOutput`. -/
structure ResponsesOutput where
  type : String
  id : String
  role : String
  content : List ResponsesOutputContent
  callId : String
  name : String
  arguments : String
deriving DecidableEq

/-- The usage of a Responses object: the fields that are converted, and the cached, image and audio
tokens of its input details. -/
structure ResponsesUsage where
  inputTokens : ℤ
  outputTokens : ℤ
  totalTokens : ℤ
  inputTokensDetails : Option (ℤ × ℤ × ℤ)

/-- `dto.OpenAIResponsesResponse`; `error` is what `GetOpenAIError` makes of the field. -/
structure OpenAIResponsesResponse where
  model : String
  output : List ResponsesOutput
  usage : Option ResponsesUsage
  error : Option OpenAIError

/-- `dto.ResponsesStreamResponse`, by its type. -/
inductive ResponsesStreamEvent where
  | created (response : Option OpenAIResponsesResponse)
  | outputTextDelta (delta : String)
  | outputItemAdded (item : Option ResponsesOutput)
  | outputItemDone (item : Option ResponsesOutput)
  | functionCallArgumentsDelta (itemId delta : String)
  | functionCallArgumentsDone
  | completed (response : Option OpenAIResponsesResponse)
  | failed (type : String) (response : Option OpenAIResponsesResponse)
  | other (type : String)

section

variable {F : Type}

/-- The usage in the chat format, where the Responses object has one. -/
def Usage.ofResponses (usage : Usage F) : Option ResponsesUsage → Usage F
  | none => usage
  | some told =>
      let usage :=
        if told.inputTokens ≠ 0 then { usage with promptTokens := told.inputTokens } else usage
      let usage :=
        if told.outputTokens ≠ 0 then
          { usage with completionTokens := told.outputTokens } else usage
      let usage :=
        if told.totalTokens ≠ 0 then { usage with totalTokens := told.totalTokens }
        else { usage with totalTokens := usage.promptTokens + usage.completionTokens }
      match told.inputTokensDetails with
      | none => usage
      | some (cachedTokens, imageTokens, audioTokens) =>
          { usage with
            cachedTokens := cachedTokens
            promptImageTokens := imageTokens
            promptAudioTokens := audioTokens }

/-! ## The final object -/

/-- The texts of the assistant's messages, or of everything when these are empty. -/
def extractOutputTextFromResponses (resp : OpenAIResponsesResponse) : String :=
  let sb := concat (resp.output.flatMap fun out =>
    if out.type ≠ "message" then []
    else if out.role ≠ "" ∧ out.role ≠ "assistant" then []
    else (out.content.filter fun c => c.type = "output_text").map ResponsesOutputContent.text)
  if sb ≠ "" then sb
  else concat (resp.output.flatMap fun out => out.content.map ResponsesOutputContent.text)

/-- The call id of an item, or its own id. -/
def ResponsesOutput.toolCallID (out : ResponsesOutput) : String :=
  let callId := trimSpace out.callId
  if callId = "" then trimSpace out.id else callId

/-- The tool call of an item that is a named function call. -/
def ResponsesOutput.toolCall (out : ResponsesOutput) : Option ToolCall :=
  if out.type ≠ "function_call" then none
  else
    let name := trimSpace out.name
    if name = "" then none else some ⟨out.toolCallID, name, out.arguments⟩

def responsesResponseToChatCompletionsResponse (resp : OpenAIResponsesResponse) (id : String) :
    OpenAITextResponse F :=
  let text := extractOutputTextFromResponses resp
  let toolCalls := if text = "" then resp.output.filterMap ResponsesOutput.toolCall else []
  { id := id
    model := resp.model
    choices :=
      [{ index := 0
         message :=
           { content := if toolCalls = [] then text else ""
             reasoningContent := ""
             toolCalls := toolCalls }
         finishReason := if toolCalls = [] then "stop" else "tool_calls" }]
    usage := Usage.empty.ofResponses resp.usage }

/-! ## The stream -/

/-- What the handler knows of the calls, by their ids.  The ids themselves stand in the order
of their indices. -/
structure ToolCallMaps where
  indexByID : List String
  nameByID : String → String
  argsByID : String → String
  nameSent : String → Bool
  canonicalIDByItemID : String → String

namespace ToolCallMaps

def empty : ToolCallMaps where
  indexByID := []
  nameByID _ := ""
  argsByID _ := ""
  nameSent _ := false
  canonicalIDByItemID _ := ""

/-- The part of `sendToolCallDelta` that the maps carry: the fragment of a chunk. -/
def send (maps : ToolCallMaps) (callID name argsDelta : String) : ToolCallMaps × ToolCallResponse :=
  let indexByID :=
    if callID ∈ maps.indexByID then maps.indexByID else maps.indexByID ++ [callID]
  let nameByID :=
    if name ≠ "" then Function.update maps.nameByID callID name else maps.nameByID
  let name := if nameByID callID ≠ "" then nameByID callID else name
  let sendsName := name ≠ "" && !maps.nameSent callID
  ({ maps with
     indexByID := indexByID
     nameByID := nameByID
     nameSent := if sendsName then Function.update maps.nameSent callID true else maps.nameSent },
   { index := some (indexByID.idxOf callID)
     id := callID
     name := if sendsName then name else ""
     arguments := argsDelta })

/-- An output item that is a function call, `added` or `done`: its call id, its name and the
arguments that are new. -/
def item (maps : ToolCallMaps) (out : ResponsesOutput) :
    ToolCallMaps × String × String × String :=
  let itemID := trimSpace out.id
  let callID := out.toolCallID
  let canonicalIDByItemID :=
    if itemID ≠ "" ∧ callID ≠ "" then Function.update maps.canonicalIDByItemID itemID callID
    else maps.canonicalIDByItemID
  let name := trimSpace out.name
  let nameByID :=
    if name ≠ "" then Function.update maps.nameByID callID name else maps.nameByID
  let newArgs := out.arguments
  let prevArgs := maps.argsByID callID
  let argsDelta :=
    if newArgs = "" then ""
    else if hasPrefix newArgs prevArgs then
      String.ofList (newArgs.toList.drop prevArgs.toList.length)
    else newArgs
  let argsByID :=
    if newArgs = "" then maps.argsByID else Function.update maps.argsByID callID newArgs
  ({ maps with
     canonicalIDByItemID := canonicalIDByItemID
     nameByID := nameByID
     argsByID := argsByID },
   callID, name, argsDelta)

/-- The call that an arguments event belongs to. -/
def callOfItem (maps : ToolCallMaps) (itemId : String) : String :=
  let itemID := trimSpace itemId
  let callID := maps.canonicalIDByItemID itemID
  if callID = "" then itemID else callID

end ToolCallMaps

/-- The state of the handler, with the chunks sent so far. -/
structure ResponsesChatState (F : Type) where
  model : String
  usage : Usage F
  outputText : String
  usageText : String
  sentStart : Bool
  sentStop : Bool
  sawToolCall : Bool
  maps : ToolCallMaps
  chunks : List (ChatCompletionsStreamResponse F)

/-- What the handler reads of its context: the id of the response, the model that was asked for,
whether the client wants a usage, and `ResponseText2Usage`. -/
structure ResponsesChatContext (F : Type) where
  responseId : String
  upstreamModelName : String
  shouldIncludeUsage : Bool
  responseText2Usage : String → Usage F

namespace ResponsesChatState

variable (ctx : ResponsesChatContext F)

def start : ResponsesChatState F where
  model := ctx.upstreamModelName
  usage := Usage.empty
  outputText := ""
  usageText := ""
  sentStart := false
  sentStop := false
  sawToolCall := false
  maps := .empty
  chunks := []

/-- Send a chunk of one choice. -/
def sendChunk (s : ResponsesChatState F) (delta : ChoiceDelta) (finishReason : Option String) :
    ResponsesChatState F :=
  { s with
    chunks := s.chunks ++
      [{ chunkOf delta finishReason with id := ctx.responseId, model := s.model }] }

def sendStartIfNeeded (s : ResponsesChatState F) : ResponsesChatState F :=
  if s.sentStart then s
  else
    { s.sendChunk ctx { ChoiceDelta.empty with content := some "", role := "assistant" } none with
      sentStart := true }

/-- Once there is text, no tool call is sent any more. -/
def sendToolCallDelta (s : ResponsesChatState F) (callID name argsDelta : String) :
    ResponsesChatState F :=
  if callID = "" then s
  else if s.outputText ≠ "" then s
  else
    let s := s.sendStartIfNeeded ctx
    let (maps, tool) := s.maps.send callID name argsDelta
    { s.sendChunk ctx { ChoiceDelta.empty with toolCalls := some [tool] } none with
      maps := maps
      sawToolCall := true
      usageText := s.usageText ++ tool.name ++ argsDelta }

/-- `response.output_item.added` and `response.output_item.done`. -/
def outputItem (s : ResponsesChatState F) : Option ResponsesOutput → ResponsesChatState F
  | none => s
  | some item =>
      if item.type ≠ "function_call" then s
      else
        let (maps, callID, name, argsDelta) := s.maps.item item
        { s with maps := maps }.sendToolCallDelta ctx callID name argsDelta

/-- The stop chunk, unless it has been sent. -/
def sendStop (s : ResponsesChatState F) : ResponsesChatState F :=
  if s.sentStop then s
  else
    let finishReason := if s.sawToolCall && s.outputText = "" then "tool_calls" else "stop"
    { s.sendChunk ctx ChoiceDelta.empty (some finishReason) with sentStop := true }

/-- The model of a Responses object that names one. -/
def setModel (s : ResponsesChatState F) : Option OpenAIResponsesResponse → ResponsesChatState F
  | none => s
  | some response => if response.model ≠ "" then { s with model := response.model } else s

def step (s : ResponsesChatState F) :
    ResponsesStreamEvent → Except NewAPIError (ResponsesChatState F)
  | .created response => .ok (s.setModel response)
  | .outputTextDelta delta =>
      let s := s.sendStartIfNeeded ctx
      if delta ≠ "" then
        .ok ({ s with outputText := s.outputText ++ delta, usageText := s.usageText ++ delta }.sendChunk
          ctx { ChoiceDelta.empty with content := some delta } none)
      else .ok s
  | .outputItemAdded item => .ok (s.outputItem ctx item)
  | .outputItemDone item => .ok (s.outputItem ctx item)
  | .functionCallArgumentsDelta itemId delta =>
      let callID := s.maps.callOfItem itemId
      if callID = "" then .ok s
      else
        let maps :=
          { s.maps with
            argsByID := Function.update s.maps.argsByID callID (s.maps.argsByID callID ++ delta) }
        .ok ({ s with maps := maps }.sendToolCallDelta ctx callID "" delta)
  | .functionCallArgumentsDone => .ok s
  | .completed response =>
      let s := s.setModel response
      let s := { s with usage := s.usage.ofResponses (response.bind OpenAIResponsesResponse.usage) }
      .ok ((s.sendStartIfNeeded ctx).sendStop ctx)
  | .failed type response =>
      match response.bind OpenAIResponsesResponse.error with
      | some oaiErr =>
          if oaiErr.type ≠ "" then .error (.withOpenAIError oaiErr 500)
          else
            .error (.withOpenAIError
              ⟨"responses stream error: " ++ type, "bad_response", "", some "bad_response", ""⟩ 500)
      | none =>
          .error (.withOpenAIError
            ⟨"responses stream error: " ++ type, "bad_response", "", some "bad_response", ""⟩ 500)
  | .other _ => .ok s

/-- What is still to be sent when the stream has ended. -/
def finish (s : ResponsesChatState F) : ResponsesChatState F :=
  let usage :=
    if s.usage.totalTokens = 0 then ctx.responseText2Usage s.usageText else s.usage
  let s := ({ s with usage := usage }.sendStartIfNeeded ctx).sendStop ctx
  if ctx.shouldIncludeUsage then
    { s with
      chunks := s.chunks ++
        [{ id := ctx.responseId, model := s.model, choices := [], usage := some usage }] }
  else s

end ResponsesChatState

/-- The chunks that the client is sent for a stream. -/
def oaiResponsesToChatStreamHandler (ctx : ResponsesChatContext F)
    (events : List ResponsesStreamEvent) :
    Except NewAPIError (List (ChatCompletionsStreamResponse F)) := do
  let s ← events.foldlM (ResponsesChatState.step ctx) (.start ctx)
  .ok (s.finish ctx).chunks

end

end NewApi.Model
