import NewApi.Model.ClaudeToOpenAI

/-!
# From OpenAI to Claude

The gateway answers a Claude client from an OpenAI upstream: `streamResponseOpenAI2Claude` turns
every chunk of a stream into events, with a state that is shared by all chunks, and
`responseOpenAI2Claude` turns a whole response into one message.
-/

namespace NewApi.Model

open NewApi.Lib NewApi.Lib.Strings

variable {F : Type}

/-- The kind of the last content, `relaycommon.LastMessageType...`. -/
inductive LastMessageType
  | none
  | text
  | tools
  | thinking
deriving DecidableEq

/-- `relaycommon.RelayInfo` with its `ClaudeConvertInfo`, as far as the conversion of a stream
reads them. -/
structure ClaudeConvertInfo (F : Type) where
  sendResponseCount : ℕ
  estimatePromptTokens : ℤ
  lastMessagesType : LastMessageType
  index : ℤ
  usage : Option (Usage F)
  finishReason : String
  done : Bool

/-- The info before the stream. -/
def ClaudeConvertInfo.initial (estimatePromptTokens : ℤ) : ClaudeConvertInfo F where
  sendResponseCount := 0
  estimatePromptTokens := estimatePromptTokens
  lastMessagesType := .none
  index := 0
  usage := none
  finishReason := ""
  done := false

def generateStopBlock (index : ℤ) : ClaudeEvent :=
  .contentBlockStop index

/-- The stop block, the usage when there is one, and the end. -/
def stopEvents (index : ℤ) (finishReason : String) (oaiUsage : Option (Usage F)) :
    List ClaudeEvent :=
  generateStopBlock index ::
    (match oaiUsage with
      | some usage =>
          [.messageDelta (some (openAIFinishReasonToClaudeStopReason finishReason))
            { inputTokens := usage.promptTokens
              outputTokens := usage.completionTokens
              cacheCreationInputTokens := usage.cachedCreationTokens
              cacheReadInputTokens := usage.cachedTokens
              cacheCreation := none }]
      | none => []) ++
    [.messageStop]

/-- The first tool call of the first chunk; the others are left out. -/
def firstToolEvents (index : ℤ) : List ToolCallResponse → List ClaudeEvent
  | [] => []
  | toolCall :: _ =>
      .contentBlockStart 0 (.toolUse toolCall.id toolCall.name "") ::
        if toolCall.arguments ≠ "" then
          [.contentBlockDelta index (.inputJsonDelta toolCall.arguments)]
        else []

/-- The events of the content of the first chunk, and the kind of it. -/
def firstContent (delta : ChoiceDelta) (last : LastMessageType) (index : ℤ) :
    List ClaudeEvent × LastMessageType :=
  let tools := firstToolEvents index delta.fragments
  let reasoning := delta.getReasoningContent
  let content := delta.getContentString
  -- The index is not moved on after a tool call.
  if reasoning ≠ "" then
    (tools ++ [.contentBlockStart index (.thinking ""),
      .contentBlockDelta index (.thinkingDelta reasoning)], .thinking)
  else if content ≠ "" then
    (tools ++ [.contentBlockStart index (.text ""),
      .contentBlockDelta index (.textDelta content)], .text)
  else (tools, if delta.fragments ≠ [] then .tools else last)

/-- The events of the first chunk of a stream. -/
def firstResponse (chunk : ChatCompletionsStreamResponse F) (info : ClaudeConvertInfo F) :
    List ClaudeEvent × ClaudeConvertInfo F :=
  let start : ClaudeEvent := .messageStart chunk.id chunk.model
    { inputTokens := info.estimatePromptTokens
      outputTokens := 0
      cacheCreationInputTokens := 0
      cacheReadInputTokens := 0
      cacheCreation := none }
  match chunk.choices with
  | [] => ([start], info)
  | choice :: _ =>
      let (events, last) := firstContent choice.delta info.lastMessagesType info.index
      let info := { info with lastMessagesType := last }
      let finishReason := choice.finishReason.getD ""
      if finishReason ≠ "" then
        (start :: events ++ stopEvents info.index finishReason (chunk.usage.or info.usage),
          { info with finishReason := finishReason, done := true })
      else (start :: events, info)

/-- The loop over the tool calls of a chunk: the events, and the index of the last one.  A call
without an index gets the one of the block, or the next ones when there are several calls. -/
def toolCallEvents (count : ℕ) : ℕ → ℤ → List ToolCallResponse → List ClaudeEvent × ℤ
  | _, index, [] => ([], index)
  | i, index, toolCall :: toolCalls =>
      let blockIndex :=
        match toolCall.index with
        | some toolIndex => toolIndex
        | none => if 1 < count then index + i else index
      let start : List ClaudeEvent :=
        if toolCall.name ≠ "" then
          [.contentBlockStart blockIndex (.toolUse toolCall.id toolCall.name "")]
        else []
      let delta : List ClaudeEvent :=
        if toolCall.arguments ≠ "" then
          [.contentBlockDelta blockIndex (.inputJsonDelta toolCall.arguments)]
        else []
      let (events, last) := toolCallEvents count (i + 1) blockIndex toolCalls
      (start ++ delta ++ events, last)

/-- The events of the content of a chunk that is not the first, the kind of it and the index of
its block. -/
def contentResponse (delta : ChoiceDelta) (last : LastMessageType) (index : ℤ) :
    List ClaudeEvent × LastMessageType × ℤ :=
  let toolCalls := delta.fragments
  let reasoning := delta.getReasoningContent
  let textContent := delta.getContentString
  if toolCalls ≠ [] then
    let stop := if last ≠ .tools then [generateStopBlock index] else []
    let index := if last ≠ .tools then index + 1 else index
    let (events, index) := toolCallEvents toolCalls.length 0 index toolCalls
    (stop ++ events, .tools, index)
  else if reasoning ≠ "" then
    -- An open block of another kind is not closed before thinking.
    let start : List ClaudeEvent :=
      if last ≠ .thinking then [.contentBlockStart index (.thinking "")] else []
    (start ++ [.contentBlockDelta index (.thinkingDelta reasoning)], .thinking, index)
  else if textContent ≠ "" then
    let next := last = .thinking ∨ last = .tools
    let stop := if next then [generateStopBlock index] else []
    let index := if next then index + 1 else index
    let start : List ClaudeEvent :=
      if last ≠ .text then stop ++ [.contentBlockStart index (.text "")] else []
    (start ++ [.contentBlockDelta index (.textDelta textContent)], .text, index)
  else ([], last, index)

def streamResponseOpenAI2Claude (chunk : ChatCompletionsStreamResponse F)
    (info : ClaudeConvertInfo F) : List ClaudeEvent × ClaudeConvertInfo F :=
  -- After the end nothing is sent any more, not even a usage.
  if info.done then ([], info)
  else if info.sendResponseCount = 1 then firstResponse chunk info
  else
    match chunk.choices with
    | [] => (if info.done then stopEvents info.index info.finishReason info.usage else [], info)
    | choice :: _ =>
        let doneChunk := choice.finishReason.getD "" ≠ ""
        let finishReason := if doneChunk then choice.finishReason.getD "" else info.finishReason
        let (events, last, index) :=
          contentResponse choice.delta info.lastMessagesType info.index
        let info :=
          { info with lastMessagesType := last, index := index, finishReason := finishReason }
        if doneChunk ∨ info.done then
          (events ++ stopEvents index finishReason (chunk.usage.or info.usage),
            { info with done := true })
        else (events, info)

/-- `HandleStreamFormat` with `handleClaudeFormat`. -/
def handleStreamFormat (info : ClaudeConvertInfo F) (chunk : ChatCompletionsStreamResponse F) :
    List ClaudeEvent × ClaudeConvertInfo F :=
  let info := { info with sendResponseCount := info.sendResponseCount + 1 }
  let info := if chunk.usage.isSome then { info with usage := chunk.usage } else info
  streamResponseOpenAI2Claude chunk info

/-- `HandleFinalResponse` for a Claude client; the usage is there in any case. -/
def handleFinalResponse (info : ClaudeConvertInfo F) (lastChunk : ChatCompletionsStreamResponse F)
    (usage : Usage F) : List ClaudeEvent × ClaudeConvertInfo F :=
  -- The last chunk is not counted.
  let (events, info) := streamResponseOpenAI2Claude lastChunk { info with usage := some usage }
  (events, { info with done := true })

/-- `OaiStreamHandler`: a chunk is handled when the next one has come, the last one at the end
of the stream with the usage that is billed. -/
def oaiStreamHandler (usage : Usage F) (info : ClaudeConvertInfo F) :
    List (ChatCompletionsStreamResponse F) → List ClaudeEvent
  | [] => []
  | [lastChunk] => (handleFinalResponse info lastChunk usage).1
  | chunk :: chunks =>
      let (events, info) := handleStreamFormat info chunk
      events ++ oaiStreamHandler usage info chunks

/-! ## Whole messages -/

/-- The input of a tool use: the JSON object of the arguments, or their text when they are not
one. -/
inductive ToolInput (J : Type)
  | object (params : J)
  | text (arguments : String)

/-- `dto.ClaudeMediaMessage` in the content of a message. -/
inductive ClaudeMediaMessage (J : Type)
  | text (text : String)
  | toolUse (id name : String) (input : ToolInput J)

/-- `dto.ClaudeResponse` for a message. -/
structure ClaudeResponse (J : Type) where
  id : String
  model : String
  content : List (ClaudeMediaMessage J)
  stopReason : String
  usage : ClaudeUsage

section Whole

variable {J : Type} (unmarshal : String → Option J)

def toolInput (arguments : String) : ToolInput J :=
  match unmarshal arguments with
  | some mapParams => .object mapParams
  | none => .text arguments

/-- The content of one choice: the tool calls or the text, as the finish reason says. -/
def choiceContent (choice : TextResponseChoice) : List (ClaudeMediaMessage J) :=
  if choice.finishReason = "tool_calls" then
    choice.message.toolCalls.map fun toolUse =>
      .toolUse toolUse.id toolUse.name (toolInput unmarshal toolUse.arguments)
  else [.text choice.message.content]

def responseOpenAI2Claude (openAIResponse : OpenAITextResponse F) : ClaudeResponse J where
  id := openAIResponse.id
  model := openAIResponse.model
  content := openAIResponse.choices.flatMap (choiceContent unmarshal)
  stopReason := (openAIResponse.choices.getLast?.map fun choice =>
    openAIFinishReasonToClaudeStopReason choice.finishReason).getD ""
  usage :=
    { inputTokens := openAIResponse.usage.promptTokens
      outputTokens := openAIResponse.usage.completionTokens
      cacheCreationInputTokens := 0
      cacheReadInputTokens := 0
      cacheCreation := none }

end Whole

end NewApi.Model
