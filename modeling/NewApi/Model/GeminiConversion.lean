import NewApi.Lib.Runs
import NewApi.Lib.Slice
import NewApi.Model.ChatRequest

/-!
# A Gemini request as a chat request

The function calls of Gemini have no ids.  `GeminiToOpenAIRequest` numbers the calls of each content
from one on, and gives a function response the number of the calls before it in its content.
-/

namespace NewApi.Model

open NewApi.Lib NewApi.Lib.Strings

namespace GeminiToOpenAI

/-! ## Gemini requests -/

/-- `dto.GeminiInlineData`. -/
structure GeminiInlineData where
  mimeType : String
  data : String

/-- `dto.GeminiFileData`. -/
structure GeminiFileData where
  mimeType : String
  fileUri : String

/-- `dto.FunctionCall`. -/
structure FunctionCall (F : Type) where
  functionName : String
  arguments : JsonTree F

/-- `dto.GeminiFunctionResponse`. -/
structure GeminiFunctionResponse (F : Type) where
  name : String
  response : JsonTree F

/-- `dto.GeminiPart` with what is converted; several fields may be there. -/
structure GeminiPart (F : Type) where
  text : String
  inlineData : Option GeminiInlineData
  functionCall : Option (FunctionCall F)
  functionResponse : Option (GeminiFunctionResponse F)
  fileData : Option GeminiFileData

/-- `dto.GeminiChatContent`. -/
structure GeminiChatContent (F : Type) where
  role : String
  parts : List (GeminiPart F)

/-- `dto.GeminiChatGenerationConfig` with what is converted. -/
structure GeminiChatGenerationConfig (F : Type) where
  temperature : Option F
  topP : F
  topK : F
  maxOutputTokens : ℕ
  candidateCount : ℤ
  stopSequences : Slice String

/-- `dto.GeminiChatTool`, with the functions that its declarations are, or that they are none. -/
structure GeminiChatTool (F : Type) where
  functionDeclarations : Option (Except String (List (Dto.FunctionRequest F)))

/-- `dto.GeminiChatRequest`; the tools are a raw message. -/
structure GeminiChatRequest (F : Type) where
  contents : List (GeminiChatContent F)
  generationConfig : GeminiChatGenerationConfig F
  tools : String
  systemInstructions : Option (GeminiChatContent F)

/-! ## Chat requests -/

/-- `dto.Message` with the content that the conversion gives it. -/
abbrev ChatMessage (F : Type) :=
  Dto.Message F (Dto.MessageContent Dto.MediaContent)

/-- `dto.GeneralOpenAIRequest` with the messages and the stop sequences of the conversion. -/
abbrev ChatRequest (F : Type) :=
  Dto.GeneralOpenAIRequest F (Dto.MessageContent Dto.MediaContent) (Option (List String))

/-! ## The conversion -/

/-- Numbers as the code compares and truncates them, the text of a value, and `encoding/json` on
the tools, many or one. -/
structure GeminiLibrary (F : Type) where
  isPositive : F → Bool
  toInt : F → ℤ
  toJSONString : JsonTree F → String
  decodeTools : String → Except String (List (GeminiChatTool F))
  decodeTool : String → Except String (GeminiChatTool F)

variable {F : Type}

def convertGeminiRoleToOpenAI (geminiRole : String) : String :=
  match geminiRole with
  | "user" => "user"
  | "model" => "assistant"
  | "function" => "function"
  | _ => "user"

def extractTextFromGeminiParts (parts : List (GeminiPart F)) : String :=
  join '\n' ((parts.filter fun part => part.text ≠ "").map GeminiPart.text)

/-- The id of the call with this number. -/
def callId (number : ℕ) : String :=
  "call_" ++ number.repr

/-- What the loop over the parts of a content collects; the messages are those of all contents. -/
structure PartsState (F : Type) where
  messages : List (ChatMessage F)
  mediaContents : List Dto.MediaContent
  toolCalls : List (Dto.ToolCallRequest F)

variable (lib : GeminiLibrary F)

def toolCallOf (number : ℕ) (call : FunctionCall F) : Dto.ToolCallRequest F where
  id := callId number
  type := "function"
  function := ⟨"", call.functionName, .null, lib.toJSONString call.arguments⟩

def toolMessageOf (number : ℕ) (response : GeminiFunctionResponse F) : ChatMessage F where
  role := "tool"
  content := .text (lib.toJSONString response.response)
  toolCallId := callId number

/-- One turn of the loop over the parts. -/
def addPart (s : PartsState F) (part : GeminiPart F) : PartsState F :=
  if part.text ≠ "" then { s with mediaContents := s.mediaContents ++ [.text part.text] }
  else
    match part.inlineData with
    | some inlineData =>
        { s with mediaContents := s.mediaContents ++ [.imageUrl
            ⟨"data:" ++ inlineData.mimeType ++ ";base64," ++ inlineData.data, "auto",
              inlineData.mimeType⟩] }
    | none =>
        match part.fileData with
        | some fileData =>
            { s with mediaContents := s.mediaContents ++
                [.imageUrl ⟨fileData.fileUri, "auto", fileData.mimeType⟩] }
        | none =>
            match part.functionCall with
            | some call =>
                { s with toolCalls := s.toolCalls ++ [toolCallOf lib (s.toolCalls.length + 1) call] }
            | none =>
                match part.functionResponse with
                | some response =>
                    { s with messages := s.messages ++
                        [toolMessageOf lib s.toolCalls.length response] }
                | none => s

/-- The content of a message without tool calls. -/
def messageContent (mediaContents : List Dto.MediaContent) : Dto.MessageContent Dto.MediaContent :=
  match mediaContents with
  | [] => .null
  | [.text text] => .text text
  | parts => .media parts

/-- One turn of the loop over the contents. -/
def addContent (messages : List (ChatMessage F)) (content : GeminiChatContent F) : List (ChatMessage F) :=
  let s := content.parts.foldl (addPart lib) ⟨messages, [], []⟩
  let message : ChatMessage F := {
    role := convertGeminiRoleToOpenAI content.role
    content := if s.toolCalls ≠ [] then .null else messageContent s.mediaContents
    toolCalls := if s.toolCalls ≠ [] then some s.toolCalls else none }
  if message.content ≠ .null ∨ message.toolCalls ≠ none then s.messages ++ [message]
  else s.messages

/-- The error of a decoding is logged with a nil context, whose value the logger asks for. -/
def orPanic {α : Type} (decoded : Except String α) : Outcome α :=
  match decoded with
  | .ok a => .ok a
  | .error _ => .panicked

/-- The tools of a list or of one object. -/
def getTools (geminiRequest : GeminiChatRequest F) : Outcome (List (GeminiChatTool F)) :=
  if hasPrefix geminiRequest.tools "[" then orPanic (lib.decodeTools geminiRequest.tools)
  else if hasPrefix geminiRequest.tools "\x7b" then do
    let singleTool ← orPanic (lib.decodeTool geminiRequest.tools)
    pure [singleTool]
  else pure []

def convertTools (tools : List (GeminiChatTool F)) : List (Dto.ToolCallRequest F) :=
  tools.flatMap fun tool =>
    match tool.functionDeclarations with
    | some (.ok functions) =>
        functions.map fun function =>
          { type := "function"
            function := ⟨function.description, function.name, function.parameters, ""⟩ }
    | _ => []

/-- The stop sequences are cut to four. -/
def keptStop (stopSequences : Slice String) : Outcome (Option (List String)) :=
  if 0 < stopSequences.items.length then some <$> stopSequences.upTo 4 else pure none

def geminiToOpenAIRequest [Zero F] (upstreamModelName : String) (isStream : Bool)
    (geminiRequest : GeminiChatRequest F) : Outcome (ChatRequest F) := do
  let config := geminiRequest.generationConfig
  let messages := geminiRequest.contents.foldl (addContent lib) []
  let stop ← keptStop config.stopSequences
  let tools ← getTools lib geminiRequest
  let systemMessages : List (ChatMessage F) :=
    match geminiRequest.systemInstructions with
    | some content =>
        [{ role := "system", content := .text (extractTextFromGeminiParts content.parts) }]
    | none => []
  pure {
    model := upstreamModelName
    stream := isStream
    messages := systemMessages ++ messages
    temperature := config.temperature
    topP := if lib.isPositive config.topP then config.topP else 0
    topK := if lib.isPositive config.topK then lib.toInt config.topK else 0
    maxTokens := config.maxOutputTokens
    stop := stop
    n := if config.candidateCount > 0 then config.candidateCount else 0
    tools := if convertTools tools ≠ [] then some (convertTools tools) else none }

/-! ## What is to be kept -/

/-- The parts of all contents. -/
def allParts (geminiRequest : GeminiChatRequest F) : List (GeminiPart F) :=
  geminiRequest.contents.flatMap GeminiChatContent.parts

/-- The tool calls of all messages. -/
def allToolCalls (messages : List (ChatMessage F)) : List (Dto.ToolCallRequest F) :=
  messages.flatMap Dto.Message.parseToolCalls

/-- A tool message with the value of the response, for an earlier call of its function. -/
def HasToolMessage (messages : List (ChatMessage F)) (response : GeminiFunctionResponse F) : Prop :=
  ∃ before msg after, messages = before ++ msg :: after ∧ msg.role = "tool" ∧
    msg.content = .text (lib.toJSONString response.response) ∧
    ∃ call ∈ allToolCalls before, call.id = msg.toolCallId ∧ call.function.name = response.name

/-- Each function call is a tool call with an id of its own, each function response a tool message
for an earlier call of the function, and four stop sequences are kept at most. -/
structure KeepsCalls (geminiRequest : GeminiChatRequest F) (openaiRequest : ChatRequest F) :
    Prop where
  calls : (allToolCalls openaiRequest.messages).map
      (fun call => (call.function.name, call.function.arguments)) =
    (allParts geminiRequest).flatMap fun part =>
      part.functionCall.toList.map fun call =>
        (call.functionName, lib.toJSONString call.arguments)
  distinct : ((allToolCalls openaiRequest.messages).map Dto.ToolCallRequest.id).Nodup
  responses : ∀ part ∈ allParts geminiRequest, ∀ response, part.functionResponse = some response →
    HasToolMessage lib openaiRequest.messages response
  stop : openaiRequest.stop.getD [] = geminiRequest.generationConfig.stopSequences.items.take 4

/-- Nothing hides the function call of a part: a part is converted by its first field that is there,
and the call comes after the text and the data. -/
def CallShown (part : GeminiPart F) : Prop :=
  part.functionCall.isSome →
    part.text = "" ∧ part.inlineData.isNone ∧ part.fileData.isNone

def HasCall (content : GeminiChatContent F) : Prop :=
  ∃ part ∈ content.parts, part.functionCall.isSome

/-- What looks like a list of tools, or like one, can be decoded. -/
def ToolsDecode (tools : String) : Prop :=
  (hasPrefix tools "[" = true → (lib.decodeTools tools).isOk = true) ∧
    (hasPrefix tools "\x7b" = true → (lib.decodeTool tools).isOk = true)

/-- No stop sequences or four of them at least, tools that can be decoded, no function response,
every function call shown, and calls in one content only. -/
structure Convertible (geminiRequest : GeminiChatRequest F) : Prop where
  stop : geminiRequest.generationConfig.stopSequences.items = [] ∨
    4 ≤ geminiRequest.generationConfig.stopSequences.items.length
  tools : ToolsDecode lib geminiRequest.tools
  responses : ∀ part ∈ allParts geminiRequest, part.functionResponse = none
  shown : ∀ part ∈ allParts geminiRequest, CallShown part
  contents : geminiRequest.contents.Pairwise fun content content' =>
    ¬ HasCall content ∨ ¬ HasCall content'

/-! ## The messages of a content -/

section

variable {lib} {part : GeminiPart F} {parts : List (GeminiPart F)} {s : PartsState F}
  {content : GeminiChatContent F} {messages : List (ChatMessage F)} {n : ℕ}

/-- The function call that a part is converted to. -/
def shownCall (part : GeminiPart F) : Option (FunctionCall F) :=
  if part.text ≠ "" then none
  else
    match part.inlineData, part.fileData with
    | none, none => part.functionCall
    | _, _ => none

def shownResponse (part : GeminiPart F) : Option (GeminiFunctionResponse F) :=
  if part.text ≠ "" then none
  else
    match part.inlineData, part.fileData, part.functionCall with
    | none, none, none => part.functionResponse
    | _, _, _ => none

/-- The text or the data that a part is converted to. -/
def shownMedia (part : GeminiPart F) : Option Dto.MediaContent :=
  if part.text ≠ "" then some (.text part.text)
  else
    match part.inlineData, part.fileData with
    | some inlineData, _ =>
        some (.imageUrl ⟨"data:" ++ inlineData.mimeType ++ ";base64," ++ inlineData.data, "auto",
          inlineData.mimeType⟩)
    | none, some fileData => some (.imageUrl ⟨fileData.fileUri, "auto", fileData.mimeType⟩)
    | none, none => none

theorem functionResponse_of_shown {response : GeminiFunctionResponse F}
    (hshown : shownResponse part = some response) : part.functionResponse.isSome := by
  unfold shownResponse at hshown
  split at hshown
  · cases hshown
  split at hshown
  · rw [hshown]
    rfl
  · cases hshown

variable (lib) in
/-- Calls with their numbers, behind so many others. -/
def numberedCalls : ℕ → List (FunctionCall F) → List (Dto.ToolCallRequest F)
  | _, [] => []
  | n, call :: calls => toolCallOf lib (n + 1) call :: numberedCalls (n + 1) calls

variable (lib) in
/-- The tool messages of parts, behind so many calls. -/
def responseMessages : ℕ → List (GeminiPart F) → List (ChatMessage F)
  | _, [] => []
  | n, part :: parts =>
      (shownResponse part).toList.map (toolMessageOf lib n) ++
        responseMessages (n + (shownCall part).toList.length) parts

/-- The calls that the parts are converted to. -/
def shownCalls (parts : List (GeminiPart F)) : List (FunctionCall F) :=
  parts.flatMap fun part => (shownCall part).toList

theorem shownCalls_cons (part : GeminiPart F) (parts : List (GeminiPart F)) :
    shownCalls (part :: parts) = (shownCall part).toList ++ shownCalls parts :=
  List.flatMap_cons

/-- Each part adds what it shows. -/
theorem addPart_eq (s : PartsState F) (part : GeminiPart F) :
    addPart lib s part = {
      messages :=
        s.messages ++ (shownResponse part).toList.map (toolMessageOf lib s.toolCalls.length)
      mediaContents := s.mediaContents ++ (shownMedia part).toList
      toolCalls :=
        s.toolCalls ++ numberedCalls lib s.toolCalls.length (shownCall part).toList } := by
  unfold addPart shownCall shownResponse shownMedia
  split
  · simp [numberedCalls]
  cases part.inlineData with
  | some inlineData => simp [numberedCalls]
  | none =>
      cases part.fileData with
      | some fileData => simp [numberedCalls]
      | none =>
          cases part.functionCall with
          | some call => simp [numberedCalls]
          | none => cases part.functionResponse <;> simp [numberedCalls]

theorem numberedCalls_append (n : ℕ) (calls later : List (FunctionCall F)) :
    numberedCalls lib n (calls ++ later) =
      numberedCalls lib n calls ++ numberedCalls lib (n + calls.length) later := by
  induction calls generalizing n with
  | nil => rfl
  | cons call calls ih =>
      rw [List.cons_append, numberedCalls, ih, numberedCalls, List.cons_append, List.length_cons,
        Nat.add_assoc, Nat.add_comm 1]

theorem length_numberedCalls (n : ℕ) (calls : List (FunctionCall F)) :
    (numberedCalls lib n calls).length = calls.length := by
  induction calls generalizing n with
  | nil => rfl
  | cons call calls ih => rw [numberedCalls, List.length_cons, List.length_cons, ih]

/-- What the loop over the parts collects. -/
theorem foldl_addPart (s : PartsState F) (parts : List (GeminiPart F)) :
    parts.foldl (addPart lib) s = {
      messages := s.messages ++ responseMessages lib s.toolCalls.length parts
      mediaContents := s.mediaContents ++ parts.flatMap fun part => (shownMedia part).toList
      toolCalls := s.toolCalls ++ numberedCalls lib s.toolCalls.length (shownCalls parts) } := by
  induction parts generalizing s with
  | nil => simp [responseMessages, shownCalls, numberedCalls]
  | cons part parts ih =>
      rw [List.foldl_cons, ih, addPart_eq]
      simp only [List.length_append, length_numberedCalls, responseMessages, shownCalls_cons,
        numberedCalls_append, List.flatMap_cons, List.append_assoc]

variable (lib) in
/-- What a content has besides its responses. -/
def contentMessage (content : GeminiChatContent F) : ChatMessage F where
  role := convertGeminiRoleToOpenAI content.role
  content :=
    if numberedCalls lib 0 (shownCalls content.parts) ≠ [] then .null
    else messageContent (content.parts.flatMap fun part => (shownMedia part).toList)
  toolCalls :=
    if numberedCalls lib 0 (shownCalls content.parts) ≠ [] then
      some (numberedCalls lib 0 (shownCalls content.parts))
    else none

variable (lib) in
def ownMessage (content : GeminiChatContent F) : Option (ChatMessage F) :=
  if (contentMessage lib content).content ≠ .null ∨ (contentMessage lib content).toolCalls ≠ none then
    some (contentMessage lib content)
  else none

variable (lib) in
/-- The messages of a content: those of its responses, and its own one. -/
def contentMessages (content : GeminiChatContent F) : List (ChatMessage F) :=
  responseMessages lib 0 content.parts ++ (ownMessage lib content).toList

theorem addContent_eq (messages : List (ChatMessage F)) (content : GeminiChatContent F) :
    addContent lib messages content = messages ++ contentMessages lib content := by
  unfold addContent
  rw [foldl_addPart]
  simp only [List.nil_append, List.length_nil]
  show (if (contentMessage lib content).content ≠ .null ∨
      (contentMessage lib content).toolCalls ≠ none then
    messages ++ responseMessages lib 0 content.parts ++ [contentMessage lib content]
    else messages ++ responseMessages lib 0 content.parts) = _
  rw [contentMessages, ownMessage, ← List.append_assoc]
  split
  · rw [Option.toList_some]
  · rw [Option.toList_none, List.append_nil]

theorem foldl_addContent (messages : List (ChatMessage F)) (contents : List (GeminiChatContent F)) :
    contents.foldl (addContent lib) messages =
      messages ++ contents.flatMap (contentMessages lib) :=
  Runs.foldl_eq_append_flatMap id addContent_eq messages contents

/-! ## Calls and their ids -/

theorem allToolCalls_append (messages later : List (ChatMessage F)) :
    allToolCalls (messages ++ later) = allToolCalls messages ++ allToolCalls later :=
  List.flatMap_append

/-- A tool message has no calls, and the number of a call so far. -/
theorem mem_responseMessages {message : ChatMessage F}
    (hmem : message ∈ responseMessages lib n parts) :
    message.role = "tool" ∧ message.parseToolCalls = [] ∧
      (∃ part ∈ parts, part.functionResponse.isSome) ∧
      ∃ number ≤ n + (shownCalls parts).length, message.toolCallId = callId number := by
  induction parts generalizing n with
  | nil => cases hmem
  | cons part parts ih =>
      rw [responseMessages, List.mem_append] at hmem
      rcases hmem with hfirst | hlater
      · obtain ⟨response, hresponse, rfl⟩ := List.mem_map.1 hfirst
        refine ⟨rfl, rfl, ⟨part, List.mem_cons_self, ?_⟩, n, Nat.le_add_right _ _, rfl⟩
        exact functionResponse_of_shown (Option.mem_toList.1 hresponse)
      · obtain ⟨hrole, hcalls, ⟨part', hpart', hresponse⟩, number, hnumber, hid⟩ := ih hlater
        refine ⟨hrole, hcalls, ⟨part', List.mem_cons_of_mem _ hpart', hresponse⟩, number, ?_, hid⟩
        rw [shownCalls_cons, List.length_append]
        omega

theorem allToolCalls_responseMessages (n : ℕ) (parts : List (GeminiPart F)) :
    allToolCalls (responseMessages lib n parts) = [] := by
  rw [allToolCalls, List.flatMap_eq_nil_iff]
  exact fun message hmessage => (mem_responseMessages hmessage).2.1

theorem parseToolCalls_contentMessage (content : GeminiChatContent F) :
    (contentMessage lib content).parseToolCalls =
      numberedCalls lib 0 (shownCalls content.parts) := by
  unfold Dto.Message.parseToolCalls contentMessage
  dsimp only
  split
  case isTrue => rfl
  case isFalse hnone => exact (not_not.1 hnone).symm

theorem allToolCalls_ownMessage (content : GeminiChatContent F) :
    allToolCalls (ownMessage lib content).toList =
      numberedCalls lib 0 (shownCalls content.parts) := by
  rw [← parseToolCalls_contentMessage]
  unfold ownMessage
  split
  case isTrue => exact List.flatMap_singleton _ _
  case isFalse hnothing =>
    rw [not_or, not_not, not_not] at hnothing
    rw [Dto.Message.parseToolCalls, hnothing.2]
    rfl

theorem allToolCalls_contentMessages (content : GeminiChatContent F) :
    allToolCalls (contentMessages lib content) =
      numberedCalls lib 0 (shownCalls content.parts) := by
  rw [contentMessages, allToolCalls_append, allToolCalls_responseMessages, List.nil_append,
    allToolCalls_ownMessage]

theorem allToolCalls_flatMap (contents : List (GeminiChatContent F)) :
    allToolCalls (contents.flatMap (contentMessages lib)) =
      contents.flatMap fun content => numberedCalls lib 0 (shownCalls content.parts) := by
  rw [allToolCalls, List.flatMap_assoc]
  exact List.flatMap_congr fun content _ => allToolCalls_contentMessages content

theorem callId_injective {number number' : ℕ} (hsame : callId number = callId number') :
    number = number' := by
  rw [callId, callId, String.append_right_inj] at hsame
  exact JsonTree.eq_of_repr hsame

theorem ids_numberedCalls (n : ℕ) (calls : List (FunctionCall F)) :
    (numberedCalls lib n calls).map Dto.ToolCallRequest.id =
      (List.range' (n + 1) calls.length).map callId := by
  induction calls generalizing n with
  | nil => rfl
  | cons call calls ih =>
      rw [numberedCalls, List.map_cons, ih, List.length_cons, List.range'_succ, List.map_cons]
      rfl

theorem pairs_numberedCalls (n : ℕ) (calls : List (FunctionCall F)) :
    (numberedCalls lib n calls).map (fun call => (call.function.name, call.function.arguments)) =
      calls.map fun call => (call.functionName, lib.toJSONString call.arguments) := by
  induction calls generalizing n with
  | nil => rfl
  | cons call calls ih =>
      rw [numberedCalls, List.map_cons, ih, List.map_cons]
      rfl

/-- Several calls at once are those of their parts. -/
theorem pairs_allToolCalls (contents : List (GeminiChatContent F)) :
    (allToolCalls (contents.flatMap (contentMessages lib))).map
        (fun call => (call.function.name, call.function.arguments)) =
      (contents.flatMap GeminiChatContent.parts).flatMap fun part =>
        (shownCall part).toList.map fun call =>
          (call.functionName, lib.toJSONString call.arguments) := by
  rw [allToolCalls_flatMap, List.map_flatMap, List.flatMap_assoc]
  refine List.flatMap_congr fun content _ => ?_
  rw [pairs_numberedCalls, shownCalls, List.map_flatMap]

theorem shownCall_of_callShown (hshown : CallShown part) : shownCall part = part.functionCall := by
  unfold CallShown at hshown
  unfold shownCall
  cases hcall : part.functionCall with
  | none =>
      split
      · rfl
      · split <;> rfl
  | some call =>
      obtain ⟨htext, hinline, hfile⟩ := hshown (by rw [hcall]; rfl)
      rw [if_neg (not_not.2 htext), Option.isNone_iff_eq_none.1 hinline,
        Option.isNone_iff_eq_none.1 hfile]

theorem callShown_of_shownCall {call : FunctionCall F} (hcall : shownCall part = some call) :
    CallShown part := by
  intro _
  unfold shownCall at hcall
  split at hcall
  · cases hcall
  case isFalse htext =>
    split at hcall
    case h_1 hinline hfile =>
      rw [hinline, hfile]
      exact ⟨not_not.1 htext, rfl, rfl⟩
    case h_2 => cases hcall

theorem length_shownCall_le (part : GeminiPart F) :
    (shownCall part).toList.length ≤ part.functionCall.toList.length := by
  cases hcall : shownCall part with
  | none => exact Nat.zero_le _
  | some call => rw [← hcall, shownCall_of_callShown (callShown_of_shownCall hcall)]

theorem calls_kept_iff (parts : List (GeminiPart F)) :
    (parts.flatMap fun part => (shownCall part).toList.map fun call =>
        (call.functionName, lib.toJSONString call.arguments)) =
      (parts.flatMap fun part => part.functionCall.toList.map fun call =>
        (call.functionName, lib.toJSONString call.arguments)) ↔
      ∀ part ∈ parts, CallShown part := by
  rw [Runs.flatMap_eq_flatMap_iff fun part _ => by
    rw [List.length_map, List.length_map]
    exact length_shownCall_le part]
  refine forall₂_congr fun part _ => ?_
  constructor
  · intro hsame hcall
    cases hshown : shownCall part with
    | some call => exact callShown_of_shownCall hshown hcall
    | none =>
        obtain ⟨call, hcall⟩ := Option.isSome_iff_exists.1 hcall
        rw [hshown, hcall] at hsame
        cases hsame
  · intro hshown
    rw [shownCall_of_callShown hshown]

/-- The ids of the calls are different exactly if they are in one content. -/
theorem ids_nodup_iff (contents : List (GeminiChatContent F)) :
    ((allToolCalls (contents.flatMap (contentMessages lib))).map Dto.ToolCallRequest.id).Nodup ↔
      contents.Pairwise fun content content' =>
        shownCalls content.parts = [] ∨ shownCalls content'.parts = [] := by
  have hids : (allToolCalls (contents.flatMap (contentMessages lib))).map Dto.ToolCallRequest.id =
      contents.flatMap fun content =>
        (List.range' 1 (shownCalls content.parts).length).map callId := by
    rw [allToolCalls_flatMap, List.map_flatMap]
    exact List.flatMap_congr fun content _ => ids_numberedCalls 0 _
  rw [hids, List.nodup_flatMap]
  refine (and_iff_right fun content _ => ?_).trans ?_
  · exact List.Nodup.map (fun _ _ => callId_injective) (List.nodup_range' 1)
  · refine List.Pairwise.iff fun content content' => ?_
    constructor
    · intro hdisjoint
      by_contra hboth
      rw [not_or, ← List.length_eq_zero_iff, ← List.length_eq_zero_iff] at hboth
      have hfirst : ∀ length, length ≠ 0 → callId 1 ∈ (List.range' 1 length).map callId := by
        intro length hlength
        exact List.mem_map_of_mem (List.mem_range'_1.2 (by omega))
      exact hdisjoint (hfirst _ hboth.1) (hfirst _ hboth.2)
    · intro hone id hid hid'
      dsimp only at hid hid'
      rcases hone with hnone | hnone
      · rw [hnone] at hid
        cases hid
      · rw [hnone] at hid'
        cases hid'

theorem shownCalls_eq_nil_iff (hshown : ∀ part ∈ content.parts, CallShown part) :
    shownCalls content.parts = [] ↔ ¬ HasCall content := by
  rw [shownCalls, List.flatMap_eq_nil_iff, HasCall]
  constructor
  · intro hnone hcall
    obtain ⟨part, hpart, hcall⟩ := hcall
    obtain ⟨call, hcall⟩ := Option.isSome_iff_exists.1 hcall
    have hempty := hnone part hpart
    rw [shownCall_of_callShown (hshown part hpart), hcall] at hempty
    cases hempty
  · intro hnone part hpart
    rw [shownCall_of_callShown (hshown part hpart)]
    cases hcall : part.functionCall with
    | none => rfl
    | some call => exact absurd ⟨part, hpart, by rw [hcall]; rfl⟩ hnone

/-! ## Tool messages -/

theorem role_ownMessage {message : ChatMessage F} (hown : ownMessage lib content = some message) :
    message.role ≠ "tool" := by
  unfold ownMessage at hown
  split at hown
  · cases hown
    show convertGeminiRoleToOpenAI content.role ≠ "tool"
    unfold convertGeminiRoleToOpenAI
    split <;> decide
  · cases hown

/-- Before a tool message of a content there are tool messages only. -/
theorem contentMessages_split {start more : List (ChatMessage F)} {message : ChatMessage F}
    (hsplit : contentMessages lib content = start ++ message :: more)
    (hrole : message.role = "tool") :
    message ∈ responseMessages lib 0 content.parts ∧ allToolCalls start = [] := by
  rw [contentMessages, List.append_eq_append_iff] at hsplit
  rcases hsplit with ⟨rest, hstart, hown⟩ | ⟨rest, hresponses, hrest⟩
  · have hmem : message ∈ (ownMessage lib content).toList := by
      rw [hown]
      exact List.mem_append_right _ List.mem_cons_self
    exact absurd hrole (role_ownMessage (Option.mem_toList.1 hmem))
  · cases rest with
    | nil =>
        have hmem : message ∈ (ownMessage lib content).toList := by
          rw [List.nil_append] at hrest
          rw [← hrest]
          exact List.mem_cons_self
        exact absurd hrole (role_ownMessage (Option.mem_toList.1 hmem))
    | cons first rest =>
        obtain ⟨rfl, -⟩ := List.cons.inj hrest
        have hall : allToolCalls (responseMessages lib 0 content.parts) = [] :=
          allToolCalls_responseMessages 0 content.parts
        rw [hresponses, allToolCalls_append, List.append_eq_nil_iff] at hall
        refine ⟨?_, hall.1⟩
        rw [hresponses]
        exact List.mem_append_right _ List.mem_cons_self

/-- A call before a tool message with its id is in an earlier content, and both contents have
calls. -/
theorem exists_of_tool_message {contents : List (GeminiChatContent F)}
    {before after : List (ChatMessage F)} {message : ChatMessage F}
    (hsplit : contents.flatMap (contentMessages lib) = before ++ message :: after)
    (hrole : message.role = "tool") {call : Dto.ToolCallRequest F} (hcall : call ∈ allToolCalls before)
    (hid : call.id = message.toolCallId) :
    ¬ contents.Pairwise fun content content' =>
      shownCalls content.parts = [] ∨ shownCalls content'.parts = [] := by
  obtain ⟨done, content, todo, start, more, rfl, hpiece, rfl⟩ := Runs.exists_of_flatMap_eq hsplit
  obtain ⟨hmessage, hstart⟩ := contentMessages_split hpiece hrole
  obtain ⟨-, -, -, number, hnumber, hmessageId⟩ := mem_responseMessages hmessage
  rw [allToolCalls_append, hstart, List.append_nil, allToolCalls_flatMap] at hcall
  obtain ⟨earlier, hearlier, hmem⟩ := List.mem_flatMap.1 hcall
  have hids : call.id ∈ (numberedCalls lib 0 (shownCalls earlier.parts)).map Dto.ToolCallRequest.id :=
    List.mem_map_of_mem hmem
  rw [ids_numberedCalls] at hids
  obtain ⟨number', hrange, hcallId⟩ := List.mem_map.1 hids
  have hpositive := (List.mem_range'_1.1 hrange).1
  obtain rfl : number' = number := callId_injective (by rw [hcallId, hid, hmessageId])
  intro hpairwise
  have hone := (List.pairwise_append.1 hpairwise).2.2 earlier hearlier content List.mem_cons_self
  rcases hone with hnone | hnone
  · rw [hnone] at hmem
    cases hmem
  · rw [hnone, List.length_nil] at hnumber
    omega

end

/-! ## The conversion of a request -/

section

variable {lib} {upstreamModelName : String} {isStream : Bool} {stopSequences : Slice String}
  {geminiRequest : GeminiChatRequest F} {openaiRequest : ChatRequest F}

/-- The messages of the system instructions. -/
def systemMessages (geminiRequest : GeminiChatRequest F) : List (ChatMessage F) :=
  match geminiRequest.systemInstructions with
  | some content =>
      [{ role := "system", content := .text (extractTextFromGeminiParts content.parts) }]
  | none => []

theorem mem_systemMessages {message : ChatMessage F}
    (hmessage : message ∈ systemMessages geminiRequest) :
    message.role = "system" ∧ message.parseToolCalls = [] := by
  unfold systemMessages at hmessage
  cases hsystem : geminiRequest.systemInstructions with
  | none =>
      rw [hsystem] at hmessage
      cases hmessage
  | some content =>
      rw [hsystem] at hmessage
      obtain rfl := List.mem_singleton.1 hmessage
      exact ⟨rfl, rfl⟩

theorem allToolCalls_systemMessages (geminiRequest : GeminiChatRequest F) :
    allToolCalls (systemMessages geminiRequest) = [] := by
  rw [allToolCalls, List.flatMap_eq_nil_iff]
  exact fun message hmessage => (mem_systemMessages hmessage).2

theorem hasToolMessage_of_systemMessages {messages : List (ChatMessage F)}
    {response : GeminiFunctionResponse F}
    (hresponse : HasToolMessage lib (systemMessages geminiRequest ++ messages) response) :
    HasToolMessage lib messages response := by
  obtain ⟨before, msg, after, hsplit, hrole, hcontent, call, hcall, hid⟩ := hresponse
  rw [List.append_eq_append_iff] at hsplit
  rcases hsplit with ⟨rest, rfl, hrest⟩ | ⟨rest, hsystem, hrest⟩
  · rw [allToolCalls_append, allToolCalls_systemMessages, List.nil_append] at hcall
    exact ⟨rest, msg, after, hrest, hrole, hcontent, call, hcall, hid⟩
  · have hnone := allToolCalls_systemMessages geminiRequest
    rw [hsystem, allToolCalls_append, List.append_eq_nil_iff] at hnone
    rw [hnone.1] at hcall
    cases hcall

theorem keptStop_iff :
    (∃ stop, keptStop stopSequences = .ok stop ∧ stop.getD [] = stopSequences.items.take 4) ↔
      stopSequences.items = [] ∨ 4 ≤ stopSequences.items.length := by
  unfold keptStop
  by_cases hitems : stopSequences.items = []
  · rw [hitems]
    exact iff_of_true ⟨none, rfl, rfl⟩ (.inl rfl)
  · rw [if_pos (List.length_pos_iff.2 hitems), or_iff_right hitems, ← Slice.upTo_eq_take_iff]
    constructor
    · intro hstop
      obtain ⟨stop, hstop, hkept⟩ := hstop
      rw [map_eq_pure_bind] at hstop
      obtain ⟨first, hfirst, hsame⟩ := Outcome.bind_eq_ok.1 hstop
      cases hsame
      have hkept : first = stopSequences.items.take 4 := hkept
      rw [hfirst, hkept]
    · intro hfirst
      rw [hfirst]
      exact ⟨some (stopSequences.items.take 4), rfl, rfl⟩

theorem orPanic_isOk {α : Type} (decoded : Except String α) :
    (∃ a, orPanic decoded = .ok a) ↔ decoded.isOk = true := by
  cases decoded with
  | ok a => exact iff_of_true ⟨a, rfl⟩ rfl
  | error err =>
      refine iff_of_false (fun hok => ?_) Bool.false_ne_true
      obtain ⟨a, ha⟩ := hok
      cases ha

/-- A text does not begin with a bracket and with a brace. -/
theorem hasPrefix_brace {tools : String} (hbracket : hasPrefix tools "[" = true) :
    hasPrefix tools "\x7b" ≠ true := by
  intro hbrace
  rw [hasPrefix, List.isPrefixOf_iff_prefix] at hbracket hbrace
  obtain ⟨rest, hrest⟩ := hbracket
  obtain ⟨rest', hrest'⟩ := hbrace
  have hchars := hrest.trans hrest'.symm
  rw [String.toList_ofList] at hchars
  simp at hchars

/-- The tools are read exactly if they can be decoded. -/
theorem getTools_ok_iff :
    (∃ tools, getTools lib geminiRequest = .ok tools) ↔ ToolsDecode lib geminiRequest.tools := by
  unfold getTools ToolsDecode
  by_cases hbracket : hasPrefix geminiRequest.tools "[" = true
  · rw [if_pos hbracket, orPanic_isOk, imp_iff_right hbracket]
    exact (and_iff_left fun hbrace => absurd hbrace (hasPrefix_brace hbracket)).symm
  · rw [if_neg hbracket]
    by_cases hbrace : hasPrefix geminiRequest.tools "\x7b" = true
    · rw [if_pos hbrace, imp_iff_right hbrace, and_iff_right fun hlist => absurd hlist hbracket,
        ← orPanic_isOk]
      constructor
      · intro hread
        obtain ⟨tools, htools⟩ := hread
        obtain ⟨singleTool, hsingle, -⟩ := Outcome.bind_eq_ok.1 htools
        exact ⟨singleTool, hsingle⟩
      · intro hdecodes
        obtain ⟨singleTool, hsingle⟩ := hdecodes
        exact ⟨[singleTool], by rw [hsingle]; rfl⟩
    · rw [if_neg hbrace]
      exact iff_of_true ⟨[], rfl⟩
        ⟨fun hlist => absurd hlist hbracket, fun hobject => absurd hobject hbrace⟩

variable (lib upstreamModelName isStream geminiRequest) in
/-- The converted request with the stop sequences that are kept and the tools that are read. -/
def convertedRequest [Zero F] (stop : Option (List String)) (tools : List (GeminiChatTool F)) :
    ChatRequest F where
  model := upstreamModelName
  stream := isStream
  messages := systemMessages geminiRequest ++ geminiRequest.contents.foldl (addContent lib) []
  temperature := geminiRequest.generationConfig.temperature
  topP :=
    if lib.isPositive geminiRequest.generationConfig.topP then
      geminiRequest.generationConfig.topP
    else 0
  topK :=
    if lib.isPositive geminiRequest.generationConfig.topK then
      lib.toInt geminiRequest.generationConfig.topK
    else 0
  maxTokens := geminiRequest.generationConfig.maxOutputTokens
  stop := stop
  n :=
    if geminiRequest.generationConfig.candidateCount > 0 then
      geminiRequest.generationConfig.candidateCount
    else 0
  tools := if convertTools tools ≠ [] then some (convertTools tools) else none

theorem geminiToOpenAIRequest_eq [Zero F] :
    geminiToOpenAIRequest lib upstreamModelName isStream geminiRequest =
      keptStop geminiRequest.generationConfig.stopSequences >>= fun stop =>
        getTools lib geminiRequest >>= fun tools =>
          .ok (convertedRequest lib upstreamModelName isStream geminiRequest stop tools) := rfl

theorem geminiToOpenAIRequest_eq_ok [Zero F] :
    geminiToOpenAIRequest lib upstreamModelName isStream geminiRequest = .ok openaiRequest ↔
      ∃ stop, keptStop geminiRequest.generationConfig.stopSequences = .ok stop ∧
        ∃ tools, getTools lib geminiRequest = .ok tools ∧
          openaiRequest =
            convertedRequest lib upstreamModelName isStream geminiRequest stop tools := by
  rw [geminiToOpenAIRequest_eq, Outcome.bind_eq_ok]
  refine exists_congr fun stop => and_congr_right fun _ => ?_
  rw [Outcome.bind_eq_ok]
  refine exists_congr fun tools => and_congr_right fun _ => ?_
  rw [Outcome.ok.injEq, eq_comm]

theorem convertedRequest_messages [Zero F] (stop : Option (List String))
    (tools : List (GeminiChatTool F)) :
    (convertedRequest lib upstreamModelName isStream geminiRequest stop tools).messages =
      systemMessages geminiRequest ++ geminiRequest.contents.flatMap (contentMessages lib) := by
  show systemMessages geminiRequest ++ geminiRequest.contents.foldl (addContent lib) [] = _
  rw [foldl_addContent, List.nil_append]

/-- A request is converted with its calls kept exactly if it has no stop sequences or four at least,
tools that can be decoded, no function response, no hidden function call, and its calls in one
content. -/
theorem gemini_calls_kept_iff [Zero F] (lib : GeminiLibrary F) (upstreamModelName : String)
    (isStream : Bool) (geminiRequest : GeminiChatRequest F) :
    (∃ openaiRequest,
      geminiToOpenAIRequest lib upstreamModelName isStream geminiRequest = .ok openaiRequest ∧
        KeepsCalls lib geminiRequest openaiRequest) ↔
      Convertible lib geminiRequest := by
  constructor
  · intro hkeeps
    obtain ⟨openaiRequest, hconvert, hcalls, hdistinct, hresponses, hkept⟩ := hkeeps
    obtain ⟨stop, hstop, tools, htools, rfl⟩ := geminiToOpenAIRequest_eq_ok.1 hconvert
    rw [convertedRequest_messages, allToolCalls_append, allToolCalls_systemMessages, List.nil_append]
      at hcalls hdistinct
    rw [ids_nodup_iff] at hdistinct
    have hshown := (calls_kept_iff _).1 ((pairs_allToolCalls _).symm.trans hcalls)
    have hparts : ∀ content ∈ geminiRequest.contents, ∀ part ∈ content.parts, CallShown part :=
      fun content hcontent part hpart => hshown part (List.mem_flatMap.2 ⟨content, hcontent, hpart⟩)
    refine ⟨keptStop_iff.1 ⟨_, hstop, hkept⟩, getTools_ok_iff.1 ⟨tools, htools⟩,
      fun part hpart => ?_, hshown, ?_⟩
    · rw [Option.eq_none_iff_forall_ne_some]
      intro response hresponse
      have htool := hresponses part hpart response hresponse
      rw [convertedRequest_messages] at htool
      obtain ⟨before, msg, after, hsplit, hrole, -, call, hcall, hid, -⟩ :=
        hasToolMessage_of_systemMessages htool
      exact exists_of_tool_message hsplit hrole hcall hid hdistinct
    · refine hdistinct.imp_of_mem fun hcontent hcontent' hone => ?_
      rwa [shownCalls_eq_nil_iff (hparts _ hcontent), shownCalls_eq_nil_iff (hparts _ hcontent')]
        at hone
  · intro hconvertible
    obtain ⟨hstop, htools, hresponses, hshown, hcontents⟩ := hconvertible
    have hparts : ∀ content ∈ geminiRequest.contents, ∀ part ∈ content.parts, CallShown part :=
      fun content hcontent part hpart => hshown part (List.mem_flatMap.2 ⟨content, hcontent, hpart⟩)
    obtain ⟨stop, hstop, hkept⟩ := keptStop_iff.2 hstop
    obtain ⟨tools, htools⟩ := getTools_ok_iff.2 htools
    refine ⟨_, geminiToOpenAIRequest_eq_ok.2 ⟨stop, hstop, tools, htools, rfl⟩, ?_, ?_, ?_, hkept⟩
    · rw [convertedRequest_messages, allToolCalls_append, allToolCalls_systemMessages,
        List.nil_append, pairs_allToolCalls]
      exact (calls_kept_iff _).2 hshown
    · rw [convertedRequest_messages, allToolCalls_append, allToolCalls_systemMessages,
        List.nil_append, ids_nodup_iff]
      refine hcontents.imp_of_mem fun hcontent hcontent' hone => ?_
      rwa [shownCalls_eq_nil_iff (hparts _ hcontent), shownCalls_eq_nil_iff (hparts _ hcontent')]
    · intro part hpart response hresponse
      rw [hresponses part hpart] at hresponse
      cases hresponse

end

/-! ## One stop sequence, one tool that is a string, and one call with its response -/

def intLibrary : GeminiLibrary ℤ where
  isPositive := fun n => 0 < n
  toInt := id
  toJSONString := fun _ => "\x7b\x7d"
  decodeTools := fun tools => if tools = "[]" then .ok [] else .error "invalid character"
  decodeTool := fun tool => if tool = "\x7b\x7d" then .ok ⟨none⟩ else .error "invalid character"

def textPart (text : String) : GeminiPart ℤ :=
  ⟨text, none, none, none, none⟩

def requestOf (contents : List (GeminiChatContent ℤ)) (stopSequences : Slice String) :
    GeminiChatRequest ℤ where
  contents := contents
  generationConfig := ⟨none, 0, 0, 0, 0, stopSequences⟩
  tools := ""
  systemInstructions := none

/-- One stop sequence in a slice without spare room panics. -/
theorem one_stop_sequence_panics :
    ¬ ∃ openaiRequest,
      geminiToOpenAIRequest intLibrary "gpt-5" false
          (requestOf [⟨"user", [textPart "hi"]⟩] ⟨["END"], []⟩) = .ok openaiRequest ∧
        KeepsCalls intLibrary (requestOf [⟨"user", [textPart "hi"]⟩] ⟨["END"], []⟩)
          openaiRequest := by
  intro hkeeps
  obtain ⟨openaiRequest, hconvert, -⟩ := hkeeps
  have hpanic : geminiToOpenAIRequest intLibrary "gpt-5" false
      (requestOf [⟨"user", [textPart "hi"]⟩] ⟨["END"], []⟩) = .panicked := rfl
  rw [hpanic] at hconvert
  cases hconvert

/-- Tools that cannot be decoded panic. -/
example : geminiToOpenAIRequest intLibrary "gpt-5" false
    { requestOf [⟨"user", [textPart "hi"]⟩] ⟨[], []⟩ with tools := "[\"x\"]" } = .panicked := rfl

/-- The response to a call of an earlier content has the id `call_0`, which no call has. -/
example : ([⟨"model", [⟨"", none, some ⟨"get_weather", .null⟩, none, none⟩]⟩,
    ⟨"function", [⟨"", none, none, some ⟨"get_weather", .null⟩, none⟩]⟩].foldl
      (addContent intLibrary) []).map (fun msg => (msg.role, msg.toolCallId)) =
    [("assistant", ""), ("tool", "call_0")] := rfl

end GeminiToOpenAI

end NewApi.Model
