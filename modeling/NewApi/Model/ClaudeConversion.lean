import NewApi.Lib.Outcome
import NewApi.Model.AttemptRecords
import NewApi.Model.ChatRequest

/-!
# The conversion of a chat request to Claude's format

`RequestOpenAI2ClaudeMessage` goes over the messages twice. The first loop joins neighbours with the
same role whose contents are strings; the second one builds the messages and the system texts.
-/

namespace NewApi.Model.ChatToClaude

open NewApi.Lib NewApi.Lib.Strings

/-! ## The request that is built -/

/-- `dto.ClaudeWebSearchUserLocation`. -/
structure ClaudeWebSearchUserLocation where
  type : String
  timezone : String
  country : String
  region : String
  city : String

/-- The elements of `tools`: a `dto.Tool`, or a `dto.ClaudeWebSearchTool`. -/
inductive ClaudeTool (F : Type)
  | tool (name description : String) (inputSchema : JsonTree F)
  | webSearch (type name : String) (maxUses : ℤ)
      (userLocation : Option ClaudeWebSearchUserLocation)

/-- The `dto.ClaudeMediaMessage`s that are built, by their type. -/
inductive ClaudeBlock (F : Type)
  | text (text : String)
  | image (mediaType data : String)
  | toolUse (id name : String) (input : JsonTree F)
  | toolResult (toolUseId : String) (content : JsonTree F)

/-- The block as it is sent; the source of an image is of the type `base64`. -/
def ClaudeBlock.media {F : Type} : ClaudeBlock F → Dto.ClaudeMediaMessage F
  | .text t => { type := "text", text := some t }
  | .image mediaType data =>
      { type := "image", source := some ⟨"base64", mediaType, .str data, ""⟩ }
  | .toolUse id name input => { type := "tool_use", id := id, name := name, input := input }
  | .toolResult toolUseId content =>
      { type := "tool_result", toolUseId := toolUseId, content := content }

/-- Different blocks are sent as different values. -/
theorem ClaudeBlock.media_injective {F : Type} : Function.Injective (media (F := F)) := by
  intro block other hsame
  cases block <;> cases other <;> simp_all [media]

/-- The content of a message: a string, or a slice of `dto.ClaudeMediaMessage`. -/
inductive ClaudeContent (F : Type)
  | string (content : String)
  | media (content : List (ClaudeBlock F))

/-- `dto.ClaudeMessage`. -/
abbrev ClaudeMessage (F : Type) :=
  Dto.ClaudeMessage (ClaudeContent F)

/-- `dto.ClaudeToolChoice`. -/
structure ClaudeToolChoice where
  type : String
  name : String
  disableParallelToolUse : Bool

/-- `dto.ClaudeRequest`. -/
structure ClaudeRequest (F : Type) where
  model : String
  system : Option (List (ClaudeBlock F))
  messages : List (ClaudeMessage F)
  maxTokens : ℕ
  stopSequences : Option (List String)
  temperature : Option F
  topP : F
  topK : ℤ
  stream : Bool
  tools : List (ClaudeTool F)
  toolChoice : Option ClaudeToolChoice
  thinking : Option Dto.Thinking

/-! ## What the conversion calls -/

/-- `model_setting.ClaudeSettings`, and the global list of models that keep their suffix.  The
budget is the product of the tokens and a percentage. -/
structure ClaudeSettings where
  defaultMaxTokens : List (String × ℤ)
  thinkingAdapterEnabled : Bool
  budgetTokens : ℕ → ℤ
  thinkingModelBlacklist : List String

namespace ClaudeSettings

def getDefaultMaxTokens (settings : ClaudeSettings) (model : String) : ℤ :=
  (settings.defaultMaxTokens.lookup model).getD
    ((settings.defaultMaxTokens.lookup "default").getD 8192)

def shouldPreserveThinkingSuffix (settings : ClaudeSettings) (modelName : String) : Bool :=
  let target := trimSpace modelName
  target ≠ "" && settings.thinkingModelBlacklist.any fun entry => trimSpace entry = target

end ClaudeSettings

/-- What reads the files and images of a request. -/
structure FileReader where
  /-- The MIME type and the data, or the error. -/
  getFileBase64FromUrl : String → Except String (String × String)
  /-- `base64.StdEncoding.DecodeString`, and the format of an image. -/
  decodeString : String → Except String (List UInt8)
  getImageConfig : List UInt8 → Except String String

/-- The format of the image, and its data without the prefix of an address. -/
def FileReader.decodeBase64ImageData (files : FileReader) (base64String : String) :
    Except String (String × String) :=
  let base64String :=
    if ',' ∈ base64String.toList then
      String.ofList ((base64String.toList.dropWhile (· ≠ ',')).drop 1)
    else base64String
  if base64String = "" then .error "base64 string is empty"
  else
    match files.decodeString base64String with
    | .error err => .error ("failed to decode base64 string: " ++ err)
    | .ok decodedData =>
        match files.getImageConfig decodedData with
        | .error err => .error err
        | .ok format => .ok (format, base64String)

/-- What the arguments of a tool call are decoded with: the value of a text that is JSON, over the
numbers `N` of the text and the floats `F` of the program. -/
structure ArgumentsDecoder (N F : Type) where
  tree : String → Option (JsonTree N)
  parse : N → F
  print : F → N
  finite : F → Bool

/-- `json.Unmarshal` into a map. -/
def ArgumentsDecoder.unmarshal {N F : Type} (json : ArgumentsDecoder N F) (arguments : String) :
    Option (JsonTree F) :=
  match json.tree arguments with
  | some (.obj keys value) =>
      if (JsonTree.obj keys value).AllNum fun n => json.finite (json.parse n) = true then
        some ((JsonTree.obj keys value).map json.parse)
      else none
  | some .null => some .null
  | _ => none

section

variable {N F : Type}

/-! ## The tools -/

/-- The schema of a tool, with its properties and what it requires even where they are missing. -/
def inputSchema (params : JsonTree F) (keys : Finset String) (hasType : Bool) : JsonTree F :=
  .obj (insert "properties" (insert "required" (if hasType then keys else keys.erase "type")))
    fun key => (params.child key.1).getD .null

/-- A tool whose parameters are no map is left out. -/
def convertTool (tool : Dto.ToolCallRequest F) : Outcome (Option (ClaudeTool F)) :=
  match tool.function.parameters with
  | .obj keys value =>
      let params := JsonTree.obj keys value
      match params.child "type" with
      | none | some .null =>
          pure (some (.tool tool.function.name tool.function.description
            (inputSchema params keys false)))
      | some (.str _) =>
          pure (some (.tool tool.function.name tool.function.description
            (inputSchema params keys true)))
      | some _ => .panicked
  | _ => pure none

def webSearchMaxUses (searchContextSize : String) : ℤ :=
  if searchContextSize = "low" then 1
  else if searchContextSize = "medium" then 5
  else if searchContextSize = "high" then 10
  else 0

def convertUserLocation (userLocation : Except String (JsonTree F)) :
    ClaudeWebSearchUserLocation :=
  match userLocation with
  | .error _ => ⟨"approximate", "", "", "", ""⟩
  | .ok userLocationMap =>
      let field := fun key =>
        ((userLocationMap.child "approximate").bind fun data => Dto.stringAt data key).getD ""
      ⟨"approximate", field "timezone", field "country", field "region", field "city"⟩

def webSearchTool (options : Dto.WebSearchOptions F) : ClaudeTool F :=
  .webSearch "web_search_20250305" "web_search" (webSearchMaxUses options.searchContextSize)
    (options.userLocation.map convertUserLocation)

def convertTools (textRequest : Dto.GeneralOpenAIRequest F) : Outcome (List (ClaudeTool F)) := do
  let claudeTools ← (textRequest.tools.getD []).mapM convertTool
  pure (claudeTools.reduceOption ++ (textRequest.webSearchOptions.map webSearchTool).toList)

def mapToolChoice (toolChoice : JsonTree F) (parallelToolCalls : Option Bool) :
    Option ClaudeToolChoice :=
  let claudeToolChoice : Option ClaudeToolChoice :=
    match toolChoice with
    | .str choice =>
        if choice = "auto" then some ⟨"auto", "", false⟩
        else if choice = "required" then some ⟨"any", "", false⟩
        else if choice = "none" then some ⟨"none", "", false⟩
        else none
    | .obj keys value =>
        match (JsonTree.obj keys value).child "function" with
        | some (.obj keys value) =>
            (Dto.stringAt (.obj keys value) "name").map fun toolName => ⟨"tool", toolName, false⟩
        | _ => none
    | _ => none
  match parallelToolCalls with
  | none => claudeToolChoice
  | some allowed =>
      let choice := claudeToolChoice.getD ⟨"auto", "", false⟩
      some (if choice.type ≠ "none" then { choice with disableParallelToolUse := !allowed }
        else choice)

/-! ## The other fields -/

/-- The request with the thinking of a model that ends in `-thinking`. -/
def adaptThinking [Zero F] [One F] (settings : ClaudeSettings)
    (textRequest : Dto.GeneralOpenAIRequest F) (claudeRequest : ClaudeRequest F) : ClaudeRequest F :=
  if settings.thinkingAdapterEnabled && hasSuffix textRequest.model "-thinking" then
    let maxTokens := if claudeRequest.maxTokens < 1280 then 1280 else claudeRequest.maxTokens
    { claudeRequest with
      maxTokens := maxTokens
      thinking := some ⟨"enabled", some (settings.budgetTokens maxTokens)⟩
      topP := 0
      temperature := some 1
      model :=
        if settings.shouldPreserveThinkingSuffix textRequest.model then claudeRequest.model
        else trimSuffix textRequest.model "-thinking" }
  else claudeRequest

def effortThinking (reasoningEffort : String) (thinking : Option Dto.Thinking) :
    Option Dto.Thinking :=
  if reasoningEffort = "low" then some ⟨"enabled", some 1280⟩
  else if reasoningEffort = "medium" then some ⟨"enabled", some 2048⟩
  else if reasoningEffort = "high" then some ⟨"enabled", some 4096⟩
  else thinking

def reasoningThinking (reasoning : Option (Except String Dto.RequestReasoning))
    (thinking : Option Dto.Thinking) : Outcome (Option Dto.Thinking) :=
  match reasoning with
  | none => pure thinking
  | some (.error err) => .error err
  | some (.ok reasoning) =>
      pure (if 0 < reasoning.maxTokens then some ⟨"enabled", some reasoning.maxTokens⟩
        else thinking)

/-- An element of `stop`, which has to be a string. -/
def stopSequence (stop : JsonTree F) : Outcome String :=
  match stop with
  | .str s => pure s
  | _ => .panicked

def stopSequences (stop : JsonTree F) : Outcome (Option (List String)) :=
  match stop with
  | .str s => pure (some [s])
  | .arr _ item => do
      let stops ← (List.ofFn item).mapM stopSequence
      pure (some stops)
  | _ => pure none

/-! ## The first loop -/

/-- The messages so far, and the last of them. -/
structure FormatState (F : Type) where
  formatMessages : List (Dto.Message F)
  lastMessage : Dto.Message F

/-- The message that goes on, with the placeholder for a nil content. -/
def fmtMessage (message : Dto.Message F) : Dto.Message F where
  role := message.role
  content :=
    match message.content with
    | .null => .str "..."
    | content => content
  toolCalls := if message.role = "assistant" then message.toolCalls else none
  toolCallId := if message.role = "tool" then message.toolCallId else ""

/-- Both are strings of one role. -/
def joins (lastMessage message : Dto.Message F) : Prop :=
  lastMessage.role = message.role ∧ lastMessage.role ≠ "tool" ∧
    lastMessage.isStringContent = true ∧ message.isStringContent = true

instance (lastMessage message : Dto.Message F) : Decidable (joins lastMessage message) :=
  inferInstanceAs (Decidable (_ ∧ _))

/-- The message with the text of the last one before its own. -/
def joinMessage (lastMessage message : Dto.Message F) : Dto.Message F :=
  (fmtMessage message).setStringContent
    (trim (lastMessage.stringContent ++ " " ++ message.stringContent) (· = '"'))

/-- One message.  To cut off the last of no messages is out of the bounds of the slice. -/
def formatMessage (s : FormatState F) (message : Dto.Message F) : Outcome (FormatState F) :=
  if joins s.lastMessage message then
    if s.formatMessages = [] then .panicked
    else
      let joined := joinMessage s.lastMessage message
      pure ⟨s.formatMessages.dropLast ++ [joined], joined⟩
  else pure ⟨s.formatMessages ++ [fmtMessage message], fmtMessage message⟩

def formatMessages (messages : List (Dto.Message F)) : Outcome (List (Dto.Message F)) := do
  let s ← messages.foldlM formatMessage ⟨[], { role := "tool", content := .null }⟩
  pure s.formatMessages

/-! ## The second loop -/

/-- The messages and the system texts so far. -/
structure ConvertState (F : Type) where
  claudeMessages : List (ClaudeMessage F)
  isFirstMessage : Bool
  systemMessages : List (ClaudeBlock F)

def systemTexts (message : Dto.Message F) : List (ClaudeBlock F) :=
  if message.isStringContent then [.text message.stringContent]
  else (message.parseContent.filterMap Dto.MediaContent.text?).map .text

/-- The image of a part that is not text; a part without one has a nil pointer. -/
def convertImage (files : FileReader) (mediaMessage : Dto.MediaContent) :
    Outcome (ClaudeBlock F) :=
  match mediaMessage.getImageMedia with
  | none => .panicked
  | some imageUrl =>
      if hasPrefix imageUrl.url "http" then
        match files.getFileBase64FromUrl imageUrl.url with
        | .error err => .error ("get file base64 from url failed: " ++ err)
        | .ok (mimeType, base64Data) => pure (.image mimeType base64Data)
      else
        match files.decodeBase64ImageData imageUrl.url with
        | .error err => .error err
        | .ok (format, base64String) => pure (.image ("image/" ++ format) base64String)

def convertMedia (files : FileReader) (mediaMessage : Dto.MediaContent) :
    Outcome (ClaudeBlock F) :=
  match mediaMessage.text? with
  | some t => pure (.text t)
  | none => convertImage files mediaMessage

/-- A call whose arguments are no map is only logged. -/
def convertToolCall (json : ArgumentsDecoder N F) (toolCall : Dto.ToolCallRequest F) :
    Option (ClaudeBlock F) :=
  (json.unmarshal toolCall.function.arguments).map fun inputObj =>
    .toolUse toolCall.id toolCall.function.name inputObj

def convertContent (json : ArgumentsDecoder N F) (files : FileReader) (message : Dto.Message F) :
    Outcome (ClaudeContent F) :=
  if message.isStringContent && message.toolCalls.isNone then
    pure (.string message.stringContent)
  else do
    let claudeMediaMessages ← message.parseContent.mapM (convertMedia files)
    pure (.media (claudeMediaMessages ++
      message.parseToolCalls.filterMap (convertToolCall json)))

/-- The parts of a content, of which a string is one. -/
def ClaudeContent.toMedia : ClaudeContent F → List (ClaudeBlock F)
  | string content => [.text content]
  | media content => content

/-- The result of a tool goes to the last message, if that is the user's. -/
def addToolResult (claudeMessages : List (ClaudeMessage F)) (message : Dto.Message F) :
    List (ClaudeMessage F) :=
  let result := ClaudeBlock.toolResult message.toolCallId message.content
  match claudeMessages.getLast? with
  | some lastMessage =>
      if lastMessage.role = "user" then
        claudeMessages.dropLast ++
          [⟨lastMessage.role, .media (lastMessage.content.toMedia ++ [result])⟩]
      else claudeMessages ++ [⟨"user", .media [result]⟩]
  | none => claudeMessages ++ [⟨"user", .media [result]⟩]

/-- A conversation that the user does not begin. -/
def beginMessages (s : ConvertState F) (message : Dto.Message F) : List (ClaudeMessage F) :=
  if s.isFirstMessage ∧ message.role ≠ "user" then
    s.claudeMessages ++ [⟨"user", .media [.text "..."]⟩]
  else s.claudeMessages

def convertMessage (json : ArgumentsDecoder N F) (files : FileReader) (s : ConvertState F)
    (message : Dto.Message F) : Outcome (ConvertState F) :=
  if message.role = "system" then
    pure { s with systemMessages := s.systemMessages ++ systemTexts message }
  else
    let claudeMessages := beginMessages s message
    if message.role = "tool" then
      pure ⟨addToolResult claudeMessages message, false, s.systemMessages⟩
    else do
      let content ← convertContent json files message
      pure ⟨claudeMessages ++ [⟨message.role, content⟩], false, s.systemMessages⟩

def convertMessages (json : ArgumentsDecoder N F) (files : FileReader)
    (formatMessages : List (Dto.Message F)) : Outcome (ConvertState F) :=
  formatMessages.foldlM (convertMessage json files) ⟨[], true, []⟩

/-- The request without its messages, up to the thinking of the reasoning. -/
def initialRequest [Zero F] [One F] (settings : ClaudeSettings)
    (textRequest : Dto.GeneralOpenAIRequest F) (claudeTools : List (ClaudeTool F)) : ClaudeRequest F :=
  let maxTokens := textRequest.getMaxTokens
  let claudeRequest := adaptThinking settings textRequest
    { model := textRequest.model
      system := none
      messages := []
      -- the default of the settings is converted to the unsigned type
      maxTokens := if maxTokens = 0 then
        (settings.getDefaultMaxTokens textRequest.model % 2 ^ 64).toNat else maxTokens
      stopSequences := none
      temperature := textRequest.temperature
      topP := textRequest.topP
      topK := textRequest.topK
      stream := textRequest.stream
      tools := claudeTools
      toolChoice := mapToolChoice textRequest.toolChoice textRequest.parallelTooCalls
      thinking := none }
  { claudeRequest with
    thinking := effortThinking textRequest.reasoningEffort claudeRequest.thinking }

def requestOpenAI2ClaudeMessage [Zero F] [One F] (settings : ClaudeSettings)
    (json : ArgumentsDecoder N F) (files : FileReader) (textRequest : Dto.GeneralOpenAIRequest F) :
    Outcome (ClaudeRequest F) := do
  let claudeTools ← convertTools textRequest
  let claudeRequest := initialRequest settings textRequest claudeTools
  let thinking ← reasoningThinking textRequest.reasoning claudeRequest.thinking
  let stops ← stopSequences textRequest.stop
  let messages ← formatMessages textRequest.messages
  let s ← convertMessages json files messages
  pure
    { claudeRequest with
      thinking := thinking
      stopSequences := stops
      system := if s.systemMessages = [] then none else some s.systemMessages
      messages := s.claudeMessages }

end

end NewApi.Model.ChatToClaude
