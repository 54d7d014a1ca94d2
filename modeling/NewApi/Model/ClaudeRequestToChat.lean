import NewApi.Lib.Outcome
import NewApi.Lib.Runs
import NewApi.Model.ChatRequest

/-!
# A Claude request as a chat request

`ClaudeToOpenAIRequest` distributes the blocks of a message over several messages: each tool result
has one of its own, and the message itself has either its tool calls or its texts and images.
-/

namespace NewApi.Model

open NewApi.Lib NewApi.Lib.Strings

namespace ClaudeToChat

/-! ## Claude requests -/

/-- `dto.ClaudeMessage`, with any value as its content. -/
abbrev ClaudeMessage (F : Type) :=
  Dto.ClaudeMessage (JsonTree F)

/-- `dto.Tool`. -/
structure Tool (F : Type) where
  name : String
  description : String
  inputSchema : JsonTree F

/-- `dto.ClaudeRequest` with what is converted; the tools are those that the value decodes to. -/
structure ClaudeRequest (F : Type) where
  model : String
  system : JsonTree F
  messages : List (ClaudeMessage F)
  maxTokens : ℕ
  stopSequences : List String
  temperature : Option F
  topP : F
  stream : Bool
  tools : List (Tool F)
  thinking : Option Dto.Thinking

/-- What is read of `relaycommon.RelayInfo`. -/
structure RelayInfo where
  isOpenRouter : Bool
  originModelName : String
  upstreamModelName : String

/-! ## Chat requests -/

/-- `dto.MediaContent`, a text or an image. -/
inductive MediaContent (F : Type)
  | text (text : String) (cacheControl : JsonTree F)
  | imageUrl (url : String)

/-- `dto.Message` with the content that the conversion gives it. -/
abbrev ChatMessage (F : Type) :=
  Dto.Message F (Dto.MessageContent (MediaContent F))

/-- `Stop` of a chat request: nil, a string or a list. -/
inductive Stop
  | null
  | one (sequence : String)
  | several (sequences : List String)

/-- `dto.GeneralOpenAIRequest` with the messages and the stop sequences of the conversion. -/
abbrev ChatRequest (F : Type) :=
  Dto.GeneralOpenAIRequest F (Dto.MessageContent (MediaContent F)) Stop

/-! ## The conversion -/

/-- `encoding/json` on slices of blocks, which may be nil, the text of any value, and `%s` of a
value that is no string. -/
structure ClaudeLibrary (F : Type) where
  decodeMedia : JsonTree F → Except String (Option (List (Dto.ClaudeMediaMessage F)))
  marshalMedia : Option (List (Dto.ClaudeMediaMessage F)) → String
  toJSONString : JsonTree F → String
  sprint : JsonTree F → String

variable {F : Type}

/-- The string of a content that is one. -/
def stringContent (content : JsonTree F) : Option String :=
  match content with
  | .str content => some content
  | _ => none

variable (lib : ClaudeLibrary F)

/-- The blocks of a content; none if it cannot be decoded. -/
def decodedMedia (content : JsonTree F) : Option (List (Dto.ClaudeMediaMessage F)) :=
  match lib.decodeMedia content with
  | .ok media => media
  | .error _ => none

/-- `SearchToolNameByToolCallId`. -/
def searchToolName (claudeRequest : ClaudeRequest F) (toolCallId : String) : String :=
  match (claudeRequest.messages.flatMap fun message =>
      (decodedMedia lib message.content).getD []).find? fun media => media.id = toolCallId with
  | some media => media.name
  | none => ""

/-- The data of an image as an address. -/
def imageData (source : Dto.ClaudeMessageSource F) : String :=
  let data :=
    match source.data with
    | .str data => data
    | value => lib.sprint value
  "data:" ++ source.mediaType ++ ";base64," ++ data

def toolCall (media : Dto.ClaudeMediaMessage F) : Dto.ToolCallRequest F where
  id := media.id
  type := "function"
  function := ⟨"", media.name, .null, lib.toJSONString media.input⟩

/-- The text of a tool result: its string, or its blocks as JSON. -/
def toolResultText (content : JsonTree F) : String :=
  match stringContent content with
  | some content => content
  | none => lib.marshalMedia (decodedMedia lib content)

def toolMessage (claudeRequest : ClaudeRequest F) (media : Dto.ClaudeMediaMessage F) : ChatMessage F where
  role := "tool"
  content := .text (toolResultText lib media.content)
  name := some (if media.name = "" then searchToolName lib claudeRequest media.toolUseId
    else media.name)
  toolCallId := media.toolUseId

/-- What the loop over the blocks collects; the messages are those of the whole request. -/
structure BlocksState (F : Type) where
  messages : List (ChatMessage F)
  toolCalls : List (Dto.ToolCallRequest F)
  mediaMessages : List (MediaContent F)

/-- One turn of the loop over the blocks; an image without a source panics. -/
def addBlock (claudeRequest : ClaudeRequest F) (s : BlocksState F) (media : Dto.ClaudeMediaMessage F) :
    Outcome (BlocksState F) :=
  if media.type = "text" then
    .ok { s with mediaMessages := s.mediaMessages ++ [.text media.getText media.cacheControl] }
  else if media.type = "image" then
    match media.source with
    | none => .panicked
    | some source =>
        .ok { s with mediaMessages := s.mediaMessages ++ [.imageUrl (imageData lib source)] }
  else if media.type = "tool_use" then
    .ok { s with toolCalls := s.toolCalls ++ [toolCall lib media] }
  else if media.type = "tool_result" then
    .ok { s with messages := s.messages ++ [toolMessage lib claudeRequest media] }
  else .ok s

/-- The message with what has been collected, if there is anything. -/
def ownMessage (role : String) (toolCalls : List (Dto.ToolCallRequest F))
    (mediaMessages : List (MediaContent F)) : List (ChatMessage F) :=
  if toolCalls ≠ [] then [{ role := role, content := .null, toolCalls := some toolCalls }]
  else if mediaMessages ≠ [] then [{ role := role, content := .media mediaMessages }]
  else []

/-- The loop over the blocks, and the message behind it. -/
def addBlocks (claudeRequest : ClaudeRequest F) (role : String) (messages : List (ChatMessage F))
    (contents : List (Dto.ClaudeMediaMessage F)) : Outcome (List (ChatMessage F)) := do
  let s ← contents.foldlM (addBlock lib claudeRequest) ⟨messages, [], []⟩
  pure (s.messages ++ ownMessage role s.toolCalls s.mediaMessages)

/-- One turn of the loop over the messages. -/
def addMessage (claudeRequest : ClaudeRequest F) (messages : List (ChatMessage F))
    (claudeMessage : ClaudeMessage F) : Outcome (List (ChatMessage F)) :=
  match stringContent claudeMessage.content with
  | some content => .ok (messages ++ [{ role := claudeMessage.role, content := .text content }])
  | none =>
      match lib.decodeMedia claudeMessage.content with
      | .error err => .error err
      | .ok contents =>
          addBlocks lib claudeRequest claudeMessage.role messages (contents.getD [])

/-- The message of the system texts. -/
def systemMessages (info : RelayInfo) (system : JsonTree F) : List (ChatMessage F) :=
  let ofBlocks :=
    match (decodedMedia lib system).getD [] with
    | [] => []
    | systems =>
        if info.isOpenRouter && hasPrefix info.upstreamModelName "anthropic/claude" then
          [{ role := "system"
             content := .media
              (systems.map fun system => .text system.getText system.cacheControl) }]
        else
          [{ role := "system", content := .text (concat (systems.map fun system => system.getText)) }]
  match system with
  | .null => []
  | .str text => if text ≠ "" then [{ role := "system", content := .text text }] else ofBlocks
  | _ => ofBlocks

def convertTool (claudeTool : Tool F) : Dto.ToolCallRequest F where
  id := ""
  type := "function"
  function := ⟨claudeTool.description, claudeTool.name, claudeTool.inputSchema, ""⟩

/-- The model, with the suffix for thinking where the origin has it. -/
def convertedModel (info : RelayInfo) (claudeRequest : ClaudeRequest F) : String :=
  match claudeRequest.thinking with
  | none => claudeRequest.model
  | some thinking =>
      if thinking.type = "enabled" && !info.isOpenRouter &&
          hasSuffix info.originModelName "-thinking" &&
          !hasSuffix claudeRequest.model "-thinking" then
        claudeRequest.model ++ "-thinking"
      else claudeRequest.model

/-- The token limit of OpenRouter's reasoning. -/
def convertedReasoning (info : RelayInfo) (claudeRequest : ClaudeRequest F) :
    Option (Except String Dto.RequestReasoning) :=
  match claudeRequest.thinking with
  | none => none
  | some thinking =>
      if thinking.type = "enabled" && info.isOpenRouter then
        some (.ok ⟨thinking.budgetTokens.getD 0⟩)
      else none

def claudeToOpenAIRequest (claudeRequest : ClaudeRequest F) (info : RelayInfo) :
    Outcome (ChatRequest F) := do
  let messages ← claudeRequest.messages.foldlM (addMessage lib claudeRequest)
    (systemMessages lib info claudeRequest.system)
  pure {
    model := convertedModel info claudeRequest
    maxTokens := claudeRequest.maxTokens
    temperature := claudeRequest.temperature
    topP := claudeRequest.topP
    stream := claudeRequest.stream
    reasoning := convertedReasoning info claudeRequest
    stop :=
      match claudeRequest.stopSequences with
      | [] => .null
      | [sequence] => .one sequence
      | sequences => .several sequences
    tools := some (claudeRequest.tools.map convertTool)
    messages := messages }

/-! ## What is to be kept -/

/-- The texts, images, tool uses and tool results of a content, each in order. -/
structure Contents where
  texts : List String
  images : List String
  toolUses : List (String × String × String)
  toolResults : List (String × Option String)
deriving DecidableEq

attribute [ext] Contents

/-- The address of an image: its URL, or its data as an address. -/
def sourceUrl (source : Option (Dto.ClaudeMessageSource F)) : String :=
  match source with
  | none => ""
  | some source => if source.type = "url" then source.url else imageData lib source

/-- The text of a tool result: its string, or the JSON of its blocks; none without a content. -/
def resultText (content : JsonTree F) : Option String :=
  match content with
  | .null => none
  | .str content => some content
  | content => (lib.decodeMedia content).toOption.map lib.marshalMedia

/-- What the blocks of one type give. -/
def ofType {α : Type} (type : String) (f : Dto.ClaudeMediaMessage F → α)
    (media : List (Dto.ClaudeMediaMessage F)) : List α :=
  media.flatMap fun media => if media.type = type then [f media] else []

def blocksContents (media : List (Dto.ClaudeMediaMessage F)) : Contents where
  texts := ofType "text" Dto.ClaudeMediaMessage.getText media
  images := ofType "image" (fun media => sourceUrl lib media.source) media
  toolUses := ofType "tool_use"
    (fun media => (media.id, media.name, lib.toJSONString media.input)) media
  toolResults := ofType "tool_result" (fun media => (media.toolUseId, resultText lib media.content))
    media

/-- The contents of a Claude message. -/
def claudeContents (claudeMessage : ClaudeMessage F) : Contents :=
  match stringContent claudeMessage.content with
  | some content => ⟨[content], [], [], []⟩
  | none => blocksContents lib ((decodedMedia lib claudeMessage.content).getD [])

namespace ChatMessage

/-- A message of a tool result has the name of a tool. -/
def isToolMessage (message : ChatMessage F) : Bool :=
  message.role = "tool" && message.name.isSome

def texts (message : ChatMessage F) : List String :=
  if message.isToolMessage then []
  else
    match message.content with
    | .null => []
    | .text text => [text]
    | .media parts => parts.filterMap fun
        | .text text _ => some text
        | .imageUrl _ => none

def images (message : ChatMessage F) : List String :=
  match message.content with
  | .media parts => parts.filterMap fun
      | .text _ _ => none
      | .imageUrl url => some url
  | _ => []

def toolUses (message : ChatMessage F) : List (String × String × String) :=
  message.parseToolCalls.map fun call => (call.id, call.function.name, call.function.arguments)

def toolResults (message : ChatMessage F) : List (String × Option String) :=
  if message.isToolMessage then
    match message.content with
    | .text text => [(message.toolCallId, some text)]
    | _ => [(message.toolCallId, none)]
  else []

end ChatMessage

/-- The contents of chat messages. -/
def chatContents (messages : List (ChatMessage F)) : Contents where
  texts := messages.flatMap ChatMessage.texts
  images := messages.flatMap ChatMessage.images
  toolUses := messages.flatMap ChatMessage.toolUses
  toolResults := messages.flatMap ChatMessage.toolResults

/-- Behind the system message, each Claude message has chat messages with its contents, in order. -/
def KeepsContents (info : RelayInfo) (claudeRequest : ClaudeRequest F)
    (openAIRequest : ChatRequest F) : Prop :=
  ∃ pieces : List (List (ChatMessage F)),
    openAIRequest.messages = systemMessages lib info claudeRequest.system ++ pieces.flatten ∧
      List.Forall₂ (fun claudeMessage piece => chatContents piece = claudeContents lib claudeMessage)
        claudeRequest.messages pieces

/-- The content of a tool result is there, and is a string or blocks. -/
def IsResult (content : JsonTree F) : Prop :=
  content ≠ .null ∧ ((stringContent content).isSome ∨ (lib.decodeMedia content).isOk = true)

/-- Images have a source, and the URL of a source is that of its data; a message with a tool use has
neither text nor image; and a tool result has a string or blocks. -/
structure BlocksConvertible (media : List (Dto.ClaudeMediaMessage F)) : Prop where
  sources : ∀ block ∈ media, block.type = "image" →
    ∃ source, block.source = some source ∧ (source.type = "url" → source.url = imageData lib source)
  alone : (∃ block ∈ media, block.type = "tool_use") →
    ∀ block ∈ media, block.type ≠ "text" ∧ block.type ≠ "image"
  results : ∀ block ∈ media, block.type = "tool_result" → IsResult lib block.content

/-- The content of a message is a string, or blocks that are converted. -/
def Convertible (claudeMessage : ClaudeMessage F) : Prop :=
  (stringContent claudeMessage.content).isSome ∨
    ∃ media, lib.decodeMedia claudeMessage.content = .ok media ∧
      BlocksConvertible lib (media.getD [])

/-! ## The messages of a Claude message -/

section

variable {lib} {claudeRequest : ClaudeRequest F} {claudeMessage : ClaudeMessage F}
  {media : List (Dto.ClaudeMediaMessage F)} {s : BlocksState F}

/-- An image has a source. -/
def HasSource (block : Dto.ClaudeMediaMessage F) : Prop :=
  block.type = "image" → block.source.isSome

variable (lib) in
def blockMedia (block : Dto.ClaudeMediaMessage F) : List (MediaContent F) :=
  if block.type = "text" then [.text block.getText block.cacheControl]
  else if block.type = "image" then
    block.source.toList.map fun source => .imageUrl (imageData lib source)
  else []

variable (lib claudeRequest) in
/-- The state after a block that does not panic. -/
def addedBlock (s : BlocksState F) (block : Dto.ClaudeMediaMessage F) : BlocksState F where
  messages := s.messages ++ ofType "tool_result" (toolMessage lib claudeRequest) [block]
  toolCalls := s.toolCalls ++ ofType "tool_use" (toolCall lib) [block]
  mediaMessages := s.mediaMessages ++ blockMedia lib block

theorem ofType_singleton {α : Type} (type : String) (f : Dto.ClaudeMediaMessage F → α)
    (block : Dto.ClaudeMediaMessage F) :
    ofType type f [block] = if block.type = type then [f block] else [] :=
  List.flatMap_singleton _ _

theorem ofType_cons {α : Type} (type : String) (f : Dto.ClaudeMediaMessage F → α)
    (block : Dto.ClaudeMediaMessage F) (media : List (Dto.ClaudeMediaMessage F)) :
    ofType type f (block :: media) = ofType type f [block] ++ ofType type f media := by
  rw [ofType_singleton]
  exact List.flatMap_cons

theorem addBlock_of_source (s : BlocksState F) (block : Dto.ClaudeMediaMessage F)
    (hsource : HasSource block) :
    addBlock lib claudeRequest s block = .ok (addedBlock lib claudeRequest s block) := by
  unfold addBlock addedBlock blockMedia
  simp only [ofType_singleton]
  by_cases htext : block.type = "text"
  · simp [htext]
  by_cases himage : block.type = "image"
  · obtain ⟨source, hsource⟩ := Option.isSome_iff_exists.1 (hsource himage)
    simp [himage, hsource]
  by_cases huse : block.type = "tool_use"
  · simp [huse]
  by_cases hresult : block.type = "tool_result"
  · simp [hresult]
  · simp [htext, himage, huse, hresult]

theorem addBlock_of_no_source (s : BlocksState F) (block : Dto.ClaudeMediaMessage F)
    (hsource : ¬ HasSource block) : (addBlock lib claudeRequest s block).isOk = false := by
  unfold HasSource at hsource
  rw [not_forall] at hsource
  obtain ⟨himage, hnone⟩ := hsource
  have hnone := Option.not_isSome_iff_eq_none.1 hnone
  have htext : block.type ≠ "text" := by
    rw [himage]
    decide
  rw [addBlock, if_neg htext, if_pos himage, hnone]
  rfl

theorem foldl_addedBlock (s : BlocksState F) (media : List (Dto.ClaudeMediaMessage F)) :
    media.foldl (addedBlock lib claudeRequest) s = {
      messages := s.messages ++ ofType "tool_result" (toolMessage lib claudeRequest) media
      toolCalls := s.toolCalls ++ ofType "tool_use" (toolCall lib) media
      mediaMessages := s.mediaMessages ++ media.flatMap (blockMedia lib) } := by
  induction media generalizing s with
  | nil => simp [ofType]
  | cons block media ih =>
      rw [List.foldl_cons, ih, ofType_cons _ _ block media, ofType_cons _ _ block media,
        List.flatMap_cons]
      simp only [addedBlock, List.append_assoc]

/-- The loop over the blocks goes through if all images have a source. -/
theorem foldlM_addBlock_iff {s' : BlocksState F} :
    media.foldlM (addBlock lib claudeRequest) s = .ok s' ↔
      (∀ block ∈ media, HasSource block) ∧
        s' = media.foldl (addedBlock lib claudeRequest) s :=
  Outcome.foldlM_eq_ok_iff addBlock_of_source addBlock_of_no_source

/-! ## The contents of the messages -/

variable (lib claudeRequest) in
/-- The messages of blocks. -/
def blocksMessages (role : String) (media : List (Dto.ClaudeMediaMessage F)) : List (ChatMessage F) :=
  ofType "tool_result" (toolMessage lib claudeRequest) media ++
    ownMessage role (ofType "tool_use" (toolCall lib) media) (media.flatMap (blockMedia lib))

variable (lib) in
/-- The contents of the messages of blocks: no text and no image beside a tool use. -/
def keptContents (media : List (Dto.ClaudeMediaMessage F)) : Contents where
  texts := if ofType "tool_use" id media = [] then ofType "text" Dto.ClaudeMediaMessage.getText media
    else []
  images :=
    if ofType "tool_use" id media = [] then
      media.flatMap fun block =>
        if block.type = "image" then block.source.toList.map (imageData lib) else []
    else []
  toolUses := ofType "tool_use"
    (fun block => (block.id, block.name, lib.toJSONString block.input)) media
  toolResults := ofType "tool_result"
    (fun block => (block.toolUseId, some (toolResultText lib block.content))) media

theorem ofType_eq_map {α β : Type} (type : String) (f : Dto.ClaudeMediaMessage F → α) (g : α → β)
    (media : List (Dto.ClaudeMediaMessage F)) :
    (ofType type f media).map g = ofType type (fun block => g (f block)) media := by
  rw [ofType, List.map_flatMap]
  refine List.flatMap_congr fun block _ => ?_
  split <;> rfl

theorem ofType_eq_nil_iff {α : Type} {type : String} {f : Dto.ClaudeMediaMessage F → α} :
    ofType type f media = [] ↔ ∀ block ∈ media, block.type ≠ type := by
  rw [ofType, List.flatMap_eq_nil_iff]
  refine forall₂_congr fun block _ => ?_
  split
  case isTrue htype => exact iff_of_false (List.cons_ne_nil _ _) (not_not.2 htype)
  case isFalse htype => exact iff_of_true rfl htype

theorem flatMap_ofType {α β : Type} {type : String} {f : Dto.ClaudeMediaMessage F → α} {g : α → List β}
    {h : Dto.ClaudeMediaMessage F → β} (hread : ∀ block, g (f block) = [h block])
    (media : List (Dto.ClaudeMediaMessage F)) :
    (ofType type f media).flatMap g = ofType type h media := by
  rw [ofType, List.flatMap_assoc]
  refine List.flatMap_congr fun block _ => ?_
  split
  · rw [List.flatMap_singleton, hread]
  · rfl

theorem flatMap_ofType_nil {α β : Type} {type : String} {f : Dto.ClaudeMediaMessage F → α}
    {g : α → List β} (hread : ∀ block, g (f block) = []) (media : List (Dto.ClaudeMediaMessage F)) :
    (ofType type f media).flatMap g = [] := by
  rw [ofType, List.flatMap_assoc, List.flatMap_eq_nil_iff]
  intro block _
  split
  · rw [List.flatMap_singleton, hread]
  · rfl

/-- The texts and images of parts. -/
def partTexts (parts : List (MediaContent F)) : List String :=
  parts.filterMap fun
    | .text text _ => some text
    | .imageUrl _ => none

def partImages (parts : List (MediaContent F)) : List String :=
  parts.filterMap fun
    | .text _ _ => none
    | .imageUrl url => some url

theorem chatContents_ownMessage (role : String) (toolCalls : List (Dto.ToolCallRequest F))
    (mediaMessages : List (MediaContent F)) :
    chatContents (ownMessage role toolCalls mediaMessages) = {
      texts := if toolCalls = [] then partTexts mediaMessages else []
      images := if toolCalls = [] then partImages mediaMessages else []
      toolUses := toolCalls.map fun call => (call.id, call.function.name, call.function.arguments)
      toolResults := [] } := by
  have hown : ∀ content calls,
      ChatMessage.isToolMessage (⟨role, content, none, calls, ""⟩ : ChatMessage F) = false :=
    fun _ _ => Bool.and_false _
  unfold ownMessage chatContents
  by_cases hcalls : toolCalls = []
  · rw [hcalls]
    by_cases hmedia : mediaMessages = []
    · rw [hmedia]
      rfl
    · simp [hmedia, ChatMessage.texts, ChatMessage.images, ChatMessage.toolUses,
        ChatMessage.toolResults, Dto.Message.parseToolCalls, hown, partTexts, partImages]
  · simp [hcalls, ChatMessage.texts, ChatMessage.images, ChatMessage.toolUses,
      ChatMessage.toolResults, Dto.Message.parseToolCalls, hown]

theorem partTexts_blockMedia (media : List (Dto.ClaudeMediaMessage F)) :
    partTexts (media.flatMap (blockMedia lib)) = ofType "text" Dto.ClaudeMediaMessage.getText media := by
  rw [partTexts, List.filterMap_flatMap]
  refine List.flatMap_congr fun block _ => ?_
  unfold blockMedia
  split
  · rfl
  split
  · cases block.source <;> rfl
  · rfl

theorem partImages_blockMedia (media : List (Dto.ClaudeMediaMessage F)) :
    partImages (media.flatMap (blockMedia lib)) = media.flatMap fun block =>
      if block.type = "image" then block.source.toList.map (imageData lib) else [] := by
  rw [partImages, List.filterMap_flatMap]
  refine List.flatMap_congr fun block _ => ?_
  unfold blockMedia
  split
  case isTrue htext =>
    have himage : block.type ≠ "image" := by
      rw [htext]
      decide
    rw [if_neg himage]
    rfl
  split
  · cases block.source <;> rfl
  · rfl

theorem chatContents_append (messages later : List (ChatMessage F)) :
    chatContents (messages ++ later) = {
      texts := (chatContents messages).texts ++ (chatContents later).texts
      images := (chatContents messages).images ++ (chatContents later).images
      toolUses := (chatContents messages).toolUses ++ (chatContents later).toolUses
      toolResults := (chatContents messages).toolResults ++ (chatContents later).toolResults } := by
  simp only [chatContents, List.flatMap_append]

theorem chatContents_toolMessages (media : List (Dto.ClaudeMediaMessage F)) :
    chatContents (ofType "tool_result" (toolMessage lib claudeRequest) media) = {
      texts := []
      images := []
      toolUses := []
      toolResults := ofType "tool_result"
        (fun block => (block.toolUseId, some (toolResultText lib block.content))) media } := by
  have hresults : (ofType "tool_result" (toolMessage lib claudeRequest) media).flatMap
      ChatMessage.toolResults = ofType "tool_result"
        (fun block => (block.toolUseId, some (toolResultText lib block.content))) media :=
    flatMap_ofType (fun block => show (toolMessage lib claudeRequest block).toolResults = _ from rfl)
      media
  unfold chatContents
  rw [flatMap_ofType_nil fun _ => rfl, flatMap_ofType_nil fun _ => rfl,
    flatMap_ofType_nil fun _ => rfl, hresults]

/-- What is kept of blocks. -/
theorem chatContents_blocksMessages (role : String) (media : List (Dto.ClaudeMediaMessage F)) :
    chatContents (blocksMessages lib claudeRequest role media) = keptContents lib media := by
  have hnone : ofType "tool_use" (toolCall lib) media = [] ↔ ofType "tool_use" id media = [] := by
    rw [ofType_eq_nil_iff, ofType_eq_nil_iff]
  rw [blocksMessages, chatContents_append, chatContents_toolMessages, chatContents_ownMessage,
    partTexts_blockMedia, partImages_blockMedia, ofType_eq_map]
  simp only [hnone, List.nil_append, List.append_nil]
  rfl

/-! ## When the contents are kept -/

/-- A tool result without a content has a text all the same, that of nil. -/
theorem toolResultText_eq_iff (content : JsonTree F) :
    some (toolResultText lib content) = resultText lib content ↔ IsResult lib content := by
  have hvalue : ∀ value : JsonTree F, stringContent value = none → value ≠ .null →
      (some (toolResultText lib value) = (lib.decodeMedia value).toOption.map lib.marshalMedia ↔
        IsResult lib value) := by
    intro value hstring hnull
    rw [toolResultText, IsResult, hstring, decodedMedia, and_iff_right hnull]
    cases lib.decodeMedia value with
    | ok media => exact iff_of_true rfl (.inr rfl)
    | error err => simp [Except.toOption, Except.isOk, Except.toBool]
  cases content with
  | null => exact iff_of_false (Option.some_ne_none _) fun hresult => hresult.1 rfl
  | str content => exact iff_of_true rfl ⟨by simp, .inl rfl⟩
  | bool value => exact hvalue _ rfl (by simp)
  | num value => exact hvalue _ rfl (by simp)
  | arr length item => exact hvalue _ rfl (by simp)
  | obj keys value => exact hvalue _ rfl (by simp)

/-- The image of a block is kept exactly if it has a source with the URL of its data. -/
theorem image_kept_iff (block : Dto.ClaudeMediaMessage F) :
    block.source.toList.map (imageData lib) = [sourceUrl lib block.source] ↔
      ∃ source, block.source = some source ∧
        (source.type = "url" → source.url = imageData lib source) := by
  cases hsource : block.source with
  | none =>
      refine iff_of_false (fun hnil => nomatch hnil) fun hsome => ?_
      obtain ⟨source, hsome, -⟩ := hsome
      cases hsome
  | some source =>
      show [imageData lib source] = [sourceUrl lib (some source)] ↔ _
      rw [List.cons.injEq, and_iff_left rfl, sourceUrl]
      constructor
      · intro hsame
        refine ⟨source, rfl, fun htype => ?_⟩
        rw [if_pos htype] at hsame
        exact hsame.symm
      · intro hurl
        obtain ⟨source', hsource', hurl⟩ := hurl
        cases hsource'
        split
        case isTrue htype => exact (hurl htype).symm
        case isFalse => rfl

theorem images_kept_iff (media : List (Dto.ClaudeMediaMessage F)) :
    (media.flatMap fun block =>
        if block.type = "image" then block.source.toList.map (imageData lib) else []) =
      ofType "image" (fun block => sourceUrl lib block.source) media ↔
      ∀ block ∈ media, block.type = "image" → ∃ source, block.source = some source ∧
        (source.type = "url" → source.url = imageData lib source) := by
  have hlength : ∀ block ∈ media,
      (if block.type = "image" then block.source.toList.map (imageData lib) else []).length ≤
        (if block.type = "image" then [sourceUrl lib block.source] else []).length := by
    intro block _
    split
    · cases block.source <;> simp
    · exact Nat.le_refl _
  rw [ofType, Runs.flatMap_eq_flatMap_iff hlength]
  refine forall₂_congr fun block _ => ?_
  split
  case isTrue htype => rw [image_kept_iff, forall_prop_of_true htype]
  case isFalse htype => exact iff_of_true rfl fun himage => absurd himage htype

theorem toolResults_kept_iff (media : List (Dto.ClaudeMediaMessage F)) :
    ofType "tool_result" (fun block => (block.toolUseId, some (toolResultText lib block.content)))
        media =
      ofType "tool_result" (fun block => (block.toolUseId, resultText lib block.content)) media ↔
      ∀ block ∈ media, block.type = "tool_result" → IsResult lib block.content := by
  have hlength : ∀ block ∈ media,
      (if block.type = "tool_result" then
        [(block.toolUseId, some (toolResultText lib block.content))] else []).length ≤
        (if block.type = "tool_result" then
          [(block.toolUseId, resultText lib block.content)] else []).length := by
    intro block _
    split <;> exact Nat.le_refl _
  rw [ofType, ofType, Runs.flatMap_eq_flatMap_iff hlength]
  refine forall₂_congr fun block _ => ?_
  split
  case isTrue htype =>
    rw [List.cons.injEq, and_iff_left rfl, Prod.mk.injEq, and_iff_right rfl,
      toolResultText_eq_iff, forall_prop_of_true htype]
  case isFalse htype => exact iff_of_true rfl fun hresult => absurd hresult htype

/-- The contents of blocks are kept exactly if the blocks are converted. -/
theorem keptContents_eq_iff (media : List (Dto.ClaudeMediaMessage F)) :
    keptContents lib media = blocksContents lib media ↔ BlocksConvertible lib media := by
  have huses : ofType "tool_use" id media = [] ↔ ∀ block ∈ media, block.type ≠ "tool_use" :=
    ofType_eq_nil_iff
  rw [keptContents, blocksContents, Contents.mk.injEq, toolResults_kept_iff]
  by_cases hnone : ofType "tool_use" id media = []
  · rw [if_pos hnone, if_pos hnone, images_kept_iff, and_iff_right rfl, and_iff_right rfl]
    constructor
    · intro hkept
      refine ⟨hkept.1, fun huse => ?_, hkept.2⟩
      obtain ⟨block, hblock, huse⟩ := huse
      exact absurd huse (huses.1 hnone block hblock)
    · intro hconvertible
      exact ⟨hconvertible.sources, hconvertible.results⟩
  · rw [if_neg hnone, if_neg hnone, and_iff_right rfl, eq_comm, ofType_eq_nil_iff,
      @eq_comm _ [] (ofType "image" _ media), ofType_eq_nil_iff]
    have huse : ∃ block ∈ media, block.type = "tool_use" := by
      rw [huses, not_forall₂] at hnone
      obtain ⟨block, hblock, huse⟩ := hnone
      exact ⟨block, hblock, not_not.1 huse⟩
    constructor
    · intro hkept
      obtain ⟨htexts, himages, hresults⟩ := hkept
      refine ⟨fun block hblock himage => absurd himage (himages block hblock),
        fun _ block hblock => ⟨htexts block hblock, himages block hblock⟩, hresults⟩
    · intro hconvertible
      have halone := hconvertible.alone huse
      exact ⟨fun block hblock => (halone block hblock).1, fun block hblock =>
        (halone block hblock).2, hconvertible.results⟩

variable (lib claudeRequest) in
/-- The messages of a Claude message. -/
def messagesOf (claudeMessage : ClaudeMessage F) : List (ChatMessage F) :=
  match stringContent claudeMessage.content with
  | some content => [{ role := claudeMessage.role, content := .text content }]
  | none =>
      blocksMessages lib claudeRequest claudeMessage.role
        ((decodedMedia lib claudeMessage.content).getD [])

variable (lib) in
/-- The content is a string, or is decoded to blocks whose images have a source. -/
def Decodes (claudeMessage : ClaudeMessage F) : Prop :=
  (stringContent claudeMessage.content).isSome ∨
    ∃ media, lib.decodeMedia claudeMessage.content = .ok media ∧
      ∀ block ∈ media.getD [], HasSource block

theorem addBlocks_eq_ok_iff {role : String} {messages messages' : List (ChatMessage F)} :
    addBlocks lib claudeRequest role messages media = .ok messages' ↔
      (∀ block ∈ media, HasSource block) ∧
        messages' = messages ++ blocksMessages lib claudeRequest role media := by
  rw [addBlocks, Outcome.bind_eq_ok]
  simp only [foldlM_addBlock_iff, foldl_addedBlock, Outcome.pure_eq, Outcome.ok.injEq, and_assoc,
    exists_and_left, exists_eq_left, List.nil_append, blocksMessages, ← List.append_assoc]
  exact and_congr_right fun _ => eq_comm

theorem addMessage_of_decodes (messages : List (ChatMessage F)) (claudeMessage : ClaudeMessage F)
    (hdecodes : Decodes lib claudeMessage) :
    addMessage lib claudeRequest messages claudeMessage =
      .ok (messages ++ messagesOf lib claudeRequest claudeMessage) := by
  unfold addMessage messagesOf
  cases hstring : stringContent claudeMessage.content with
  | some content => rfl
  | none =>
      rcases hdecodes with hsome | ⟨media, hmedia, hsources⟩
      · rw [hstring] at hsome
        cases hsome
      · simp only [hmedia, decodedMedia]
        exact addBlocks_eq_ok_iff.2 ⟨hsources, rfl⟩

theorem addMessage_of_not_decodes (messages : List (ChatMessage F)) (claudeMessage : ClaudeMessage F)
    (hdecodes : ¬ Decodes lib claudeMessage) :
    (addMessage lib claudeRequest messages claudeMessage).isOk = false := by
  rw [Bool.eq_false_iff, Ne, Outcome.isOk_iff]
  intro hok
  obtain ⟨messages', hok⟩ := hok
  unfold addMessage at hok
  cases hstring : stringContent claudeMessage.content with
  | some content => exact hdecodes (.inl (by rw [hstring]; rfl))
  | none =>
      cases hmedia : lib.decodeMedia claudeMessage.content with
      | error err =>
          simp only [hstring, hmedia] at hok
          cases hok
      | ok media =>
          simp only [hstring, hmedia] at hok
          exact hdecodes (.inr ⟨media, hmedia, (addBlocks_eq_ok_iff.1 hok).1⟩)

theorem foldl_append_flatMap (messages : List (ChatMessage F)) (claudeMessages : List (ClaudeMessage F)) :
    claudeMessages.foldl (fun messages claudeMessage =>
        messages ++ messagesOf lib claudeRequest claudeMessage) messages =
      messages ++ claudeMessages.flatMap (messagesOf lib claudeRequest) :=
  Runs.foldl_eq_append_flatMap id (fun _ _ => rfl) messages claudeMessages

/-- The loop over the messages goes through if all of them are decoded. -/
theorem foldlM_addMessage_iff {messages messages' : List (ChatMessage F)}
    {claudeMessages : List (ClaudeMessage F)} :
    claudeMessages.foldlM (addMessage lib claudeRequest) messages = .ok messages' ↔
      (∀ claudeMessage ∈ claudeMessages, Decodes lib claudeMessage) ∧
        messages' = messages ++ claudeMessages.flatMap (messagesOf lib claudeRequest) := by
  rw [Outcome.foldlM_eq_ok_iff addMessage_of_decodes addMessage_of_not_decodes,
    foldl_append_flatMap]

theorem claudeToOpenAIRequest_eq_ok {info : RelayInfo} {openAIRequest : ChatRequest F}
    (hconvert : claudeToOpenAIRequest lib claudeRequest info = .ok openAIRequest) :
    (∀ claudeMessage ∈ claudeRequest.messages, Decodes lib claudeMessage) ∧
      openAIRequest.messages = systemMessages lib info claudeRequest.system ++
        claudeRequest.messages.flatMap (messagesOf lib claudeRequest) := by
  rw [claudeToOpenAIRequest, Outcome.bind_eq_ok] at hconvert
  obtain ⟨messages, hmessages, hsame⟩ := hconvert
  obtain ⟨hdecodes, rfl⟩ := foldlM_addMessage_iff.1 hmessages
  cases hsame
  exact ⟨hdecodes, rfl⟩

theorem exists_of_decodes {info : RelayInfo}
    (hdecodes : ∀ claudeMessage ∈ claudeRequest.messages, Decodes lib claudeMessage) :
    ∃ openAIRequest, claudeToOpenAIRequest lib claudeRequest info = .ok openAIRequest :=
  ⟨_, Outcome.bind_eq_ok.2 ⟨_, foldlM_addMessage_iff.2 ⟨hdecodes, rfl⟩, rfl⟩⟩

theorem chatContents_string (role content : String) :
    chatContents [({ role := role, content := .text content } : ChatMessage F)] = ⟨[content], [], [], []⟩ := by
  simp [chatContents, ChatMessage.texts, ChatMessage.images, ChatMessage.toolUses,
    ChatMessage.toolResults, ChatMessage.isToolMessage, Dto.Message.parseToolCalls]

/-- The contents of a message are kept exactly if it is converted. -/
theorem chatContents_messagesOf_iff :
    Decodes lib claudeMessage ∧
        chatContents (messagesOf lib claudeRequest claudeMessage) =
          claudeContents lib claudeMessage ↔
      Convertible lib claudeMessage := by
  unfold messagesOf claudeContents Decodes Convertible
  cases hstring : stringContent claudeMessage.content with
  | some content => exact iff_of_true ⟨.inl rfl, chatContents_string _ _⟩ (.inl rfl)
  | none =>
      simp only [Option.isSome_none, Bool.false_eq_true, false_or, chatContents_blocksMessages,
        keptContents_eq_iff]
      constructor
      · intro hkept
        obtain ⟨⟨media, hmedia, -⟩, hconvertible⟩ := hkept
        refine ⟨media, hmedia, ?_⟩
        rw [decodedMedia, hmedia] at hconvertible
        exact hconvertible
      · intro hkept
        obtain ⟨media, hmedia, hconvertible⟩ := hkept
        refine ⟨⟨media, hmedia, fun block hblock himage => ?_⟩, ?_⟩
        · obtain ⟨source, hsource, -⟩ := hconvertible.sources block hblock himage
          rw [hsource]
          rfl
        · rw [decodedMedia, hmedia]
          exact hconvertible

/-- No more is kept than there is. -/
structure AtMost (kept all : Contents) : Prop where
  texts : kept.texts.length ≤ all.texts.length
  images : kept.images.length ≤ all.images.length
  toolUses : kept.toolUses.length ≤ all.toolUses.length
  toolResults : kept.toolResults.length ≤ all.toolResults.length

theorem atMost_refl (contents : Contents) : AtMost contents contents :=
  ⟨Nat.le_refl _, Nat.le_refl _, Nat.le_refl _, Nat.le_refl _⟩

theorem length_ofType_eq {α β : Type} (type : String) (f : Dto.ClaudeMediaMessage F → α)
    (g : Dto.ClaudeMediaMessage F → β) (media : List (Dto.ClaudeMediaMessage F)) :
    (ofType type f media).length = (ofType type g media).length := by
  have hid : ∀ {γ : Type} (h : Dto.ClaudeMediaMessage F → γ),
      (ofType type h media).length = (ofType type id media).length := by
    intro γ h
    rw [← List.length_map h, ofType_eq_map]
    rfl
  rw [hid f, hid g]

theorem atMost_keptContents (media : List (Dto.ClaudeMediaMessage F)) :
    AtMost (keptContents lib media) (blocksContents lib media) where
  texts := by
    show (if _ then _ else _ : List String).length ≤ _
    split
    · exact Nat.le_refl _
    · exact Nat.zero_le _
  images := by
    show (if _ then _ else _ : List String).length ≤ (ofType _ _ media).length
    split
    · rw [ofType, List.length_flatMap, List.length_flatMap]
      refine List.sum_le_sum fun block _ => ?_
      split
      · cases block.source <;> simp
      · exact Nat.zero_le _
    · exact Nat.zero_le _
  toolUses := Nat.le_refl _
  toolResults := Nat.le_of_eq (length_ofType_eq _ _ _ media)

theorem atMost_messagesOf (claudeMessage : ClaudeMessage F) :
    AtMost (chatContents (messagesOf lib claudeRequest claudeMessage))
      (claudeContents lib claudeMessage) := by
  unfold messagesOf claudeContents
  cases stringContent claudeMessage.content with
  | some content =>
      show AtMost (chatContents [_]) ⟨[content], [], [], []⟩
      rw [chatContents_string]
      exact atMost_refl _
  | none =>
      show AtMost (chatContents (blocksMessages _ _ _ _)) (blocksContents _ _)
      rw [chatContents_blocksMessages]
      exact atMost_keptContents _

/-- Pieces with all that there is are those of the messages, where these have no more. -/
theorem read_eq_of_pieces {α : Type} {claudeMessages : List (ClaudeMessage F)}
    {pieces : List (List (ChatMessage F))} {read : ChatMessage F → List α} {all : ClaudeMessage F → List α}
    (hpieces : pieces.flatten = claudeMessages.flatMap (messagesOf lib claudeRequest))
    (hall : List.Forall₂ (fun claudeMessage piece => piece.flatMap read = all claudeMessage)
      claudeMessages pieces)
    (hlength : ∀ claudeMessage ∈ claudeMessages,
      ((messagesOf lib claudeRequest claudeMessage).flatMap read).length ≤
        (all claudeMessage).length) :
    ∀ claudeMessage ∈ claudeMessages,
      (messagesOf lib claudeRequest claudeMessage).flatMap read = all claudeMessage := by
  have hread : pieces.flatten.flatMap read = claudeMessages.flatMap all := by
    clear hpieces hlength
    induction hall with
    | nil => rfl
    | cons hpiece _ ih =>
        rw [List.flatten_cons, List.flatMap_append, hpiece, ih, List.flatMap_cons]
  rw [hpieces, List.flatMap_assoc] at hread
  exact (Runs.flatMap_eq_flatMap_iff hlength).1 hread

theorem chatContents_of_pieces {claudeMessages : List (ClaudeMessage F)}
    {pieces : List (List (ChatMessage F))}
    (hpieces : pieces.flatten = claudeMessages.flatMap (messagesOf lib claudeRequest))
    (hall : List.Forall₂ (fun claudeMessage piece =>
      chatContents piece = claudeContents lib claudeMessage) claudeMessages pieces) :
    ∀ claudeMessage ∈ claudeMessages,
      chatContents (messagesOf lib claudeRequest claudeMessage) =
        claudeContents lib claudeMessage := by
  intro claudeMessage hmem
  have hlength : ∀ claudeMessage ∈ claudeMessages,
      AtMost (chatContents (messagesOf lib claudeRequest claudeMessage))
        (claudeContents lib claudeMessage) :=
    fun claudeMessage _ => atMost_messagesOf claudeMessage
  refine Contents.ext ?_ ?_ ?_ ?_
  · exact read_eq_of_pieces hpieces (hall.imp fun _ _ hsame => congrArg Contents.texts hsame)
      (fun c hc => (hlength c hc).texts) claudeMessage hmem
  · exact read_eq_of_pieces hpieces (hall.imp fun _ _ hsame => congrArg Contents.images hsame)
      (fun c hc => (hlength c hc).images) claudeMessage hmem
  · exact read_eq_of_pieces hpieces (hall.imp fun _ _ hsame => congrArg Contents.toolUses hsame)
      (fun c hc => (hlength c hc).toolUses) claudeMessage hmem
  · exact read_eq_of_pieces hpieces (hall.imp fun _ _ hsame => congrArg Contents.toolResults hsame)
      (fun c hc => (hlength c hc).toolResults) claudeMessage hmem

/-- A Claude request is converted with all its contents exactly if each of its messages is a string
or blocks that are converted. -/
theorem claude_contents_kept_iff (lib : ClaudeLibrary F) (info : RelayInfo)
    (claudeRequest : ClaudeRequest F) :
    (∃ openAIRequest, claudeToOpenAIRequest lib claudeRequest info = .ok openAIRequest ∧
        KeepsContents lib info claudeRequest openAIRequest) ↔
      ∀ claudeMessage ∈ claudeRequest.messages, Convertible lib claudeMessage := by
  constructor
  · intro hkeeps claudeMessage hmem
    obtain ⟨openAIRequest, hconvert, pieces, hpieces, hall⟩ := hkeeps
    obtain ⟨hdecodes, hmessages⟩ := claudeToOpenAIRequest_eq_ok hconvert
    rw [hmessages, List.append_cancel_left_eq] at hpieces
    exact chatContents_messagesOf_iff.1 ⟨hdecodes claudeMessage hmem,
      chatContents_of_pieces hpieces.symm hall claudeMessage hmem⟩
  · intro hconvertible
    have hkept : ∀ claudeMessage ∈ claudeRequest.messages, Decodes lib claudeMessage ∧
        chatContents (messagesOf lib claudeRequest claudeMessage) =
          claudeContents lib claudeMessage :=
      fun claudeMessage hmem => chatContents_messagesOf_iff.2 (hconvertible claudeMessage hmem)
    obtain ⟨openAIRequest, hconvert⟩ :
        ∃ openAIRequest, claudeToOpenAIRequest lib claudeRequest info = .ok openAIRequest :=
      exists_of_decodes fun claudeMessage hmem => (hkept claudeMessage hmem).1
    refine ⟨openAIRequest, hconvert, claudeRequest.messages.map (messagesOf lib claudeRequest), ?_, ?_⟩
    · rw [(claudeToOpenAIRequest_eq_ok hconvert).2, List.flatMap_def]
    · rw [List.forall₂_map_right_iff, List.forall₂_same]
      exact fun claudeMessage hmem => (hkept claudeMessage hmem).2

end

/-! ## A text beside a tool use -/

def textBlock (text : String) : Dto.ClaudeMediaMessage ℤ :=
  { type := "text", text := some text }

def toolUseBlock (id name : String) : Dto.ClaudeMediaMessage ℤ :=
  { type := "tool_use", id := id, name := name }

/-- The library where every list that is decoded consists of the blocks. -/
def blocksLibrary (blocks : List (Dto.ClaudeMediaMessage ℤ)) : ClaudeLibrary ℤ where
  decodeMedia := fun
    | .arr _ _ => .ok (some blocks)
    | _ => .error "json: cannot unmarshal into Go value"
  marshalMedia := fun _ => "null"
  toJSONString := fun _ => "null"
  sprint := fun _ => "%!s(<nil>)"

def requestOf (content : JsonTree ℤ) : ClaudeRequest ℤ :=
  ⟨"claude-sonnet-4", .null, [⟨"assistant", content⟩], 1024, [], none, 1, false, [], none⟩

def weatherLibrary : ClaudeLibrary ℤ :=
  blocksLibrary [textBlock "Let me look.", toolUseBlock "toolu_1" "get_weather"]

def weatherContent : JsonTree ℤ :=
  .arr 2 fun _ => .null

/-- The text of a message with a tool use is dropped. -/
theorem text_beside_tool_use_dropped :
    ¬ ∃ openAIRequest,
      claudeToOpenAIRequest weatherLibrary (requestOf weatherContent) ⟨false, "", ""⟩ =
          .ok openAIRequest ∧
        KeepsContents weatherLibrary ⟨false, "", ""⟩ (requestOf weatherContent) openAIRequest := by
  intro hkeeps
  obtain ⟨openAIRequest, hconvert, pieces, hpieces, hall⟩ := hkeeps
  obtain ⟨-, hmessages⟩ := claudeToOpenAIRequest_eq_ok hconvert
  rw [hmessages, List.append_cancel_left_eq] at hpieces
  have htexts := congrArg Contents.texts
    (chatContents_of_pieces hpieces.symm hall _ (List.mem_singleton_self _))
  revert htexts
  decide

end ClaudeToChat

end NewApi.Model
