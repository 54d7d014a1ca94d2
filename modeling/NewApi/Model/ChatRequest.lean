import Mathlib.Algebra.Ring.Int.Defs
import NewApi.Lib.JsonTree
import NewApi.Lib.Strings

/-!
# Chat requests and Claude messages

The data of a request in the OpenAI format, and of a message in Claude's, with what the conversions
read and set; a field that a conversion does not set has its zero value.  A field of type `any` is
the decoded value, with null for nil, unless a conversion says what it puts there; a raw message is
what it decodes to.
-/

namespace NewApi.Model.Dto

open NewApi.Lib NewApi.Lib.Strings

/-- `dto.FunctionRequest`. -/
structure FunctionRequest (F : Type) where
  description : String
  name : String
  parameters : JsonTree F
  arguments : String

/-- `dto.ToolCallRequest`, the element of `tools` and of `tool_calls`. -/
structure ToolCallRequest (F : Type) where
  id : String := ""
  type : String := ""
  function : FunctionRequest F
  custom : JsonTree F := .null

/-- `dto.MessageImageUrl`. -/
structure MessageImageUrl where
  url : String
  detail : String
  mimeType : String
deriving DecidableEq

/-- `dto.MediaContent`, by its type. -/
inductive MediaContent
  | text (text : String)
  | imageUrl (imageUrl : MessageImageUrl)
  | inputAudio (data format : String)
  | file (fileName fileData fileId : String)
  | videoUrl (url : String)
deriving DecidableEq

/-- The content that a conversion gives a message: nil, a text or a list of parts. -/
inductive MessageContent (M : Type)
  | null
  | text (text : String)
  | media (parts : List M)
deriving DecidableEq

/-- `dto.Message` with a content of type `C`; the tool calls are those that the raw message decodes
to. -/
structure Message (F : Type) (C : Type := JsonTree F) where
  role : String
  content : C
  name : Option String := none
  toolCalls : Option (List (ToolCallRequest F)) := none
  toolCallId : String := ""

namespace MediaContent

/-- Nil for a part without an image. -/
def getImageMedia : MediaContent → Option MessageImageUrl
  | imageUrl image => some image
  | _ => none

/-- The text of a part, if it is one. -/
def text? : MediaContent → Option String
  | text t => some t
  | _ => none

end MediaContent

section

variable {F : Type}

/-- A field that is a string. -/
def stringAt (t : JsonTree F) (key : String) : Option String :=
  match t.child key with
  | some (.str s) => some s
  | _ => none

namespace MediaContent

/-- The image of a part; an image without an address has an empty one. -/
def parseImageUrl : Option (JsonTree F) → MessageImageUrl
  | some (.str url) => ⟨url, "high", ""⟩
  | some value => ⟨(stringAt value "url").getD "", (stringAt value "detail").getD "high", ""⟩
  | none => ⟨"", "high", ""⟩

def parseInputAudio (audioData : JsonTree F) : Option MediaContent :=
  (stringAt audioData "data").bind fun data =>
    (stringAt audioData "format").map fun format => inputAudio data format

def parseFile (fileData : JsonTree F) : Option MediaContent :=
  match stringAt fileData "file_id" with
  | some fileId => some (file "" "" fileId)
  | none =>
      (stringAt fileData "filename").bind fun fileName =>
        (stringAt fileData "file_data").map fun fileDataStr => file fileName fileDataStr ""

/-- One part of a list; a part of another type, or without what its type needs, is left out. -/
def parse (contentItem : JsonTree F) : Option MediaContent :=
  match stringAt contentItem "type" with
  | none => none
  | some contentType =>
      if contentType = "text" then (stringAt contentItem "text").map text
      else if contentType = "image_url" then
        some (imageUrl (parseImageUrl (contentItem.child "image_url")))
      else if contentType = "input_audio" then
        (contentItem.child "input_audio").bind parseInputAudio
      else if contentType = "file" then (contentItem.child "file").bind parseFile
      else if contentType = "video_url" then (stringAt contentItem "video_url").map videoUrl
      else none

end MediaContent

namespace Message

def isStringContent (message : Message F) : Bool :=
  match message.content with
  | .str _ => true
  | _ => false

/-- The text of a part of a list. -/
def textOf (contentItem : JsonTree F) : String :=
  if stringAt contentItem "type" = some "text" then (stringAt contentItem "text").getD "" else ""

def stringContent (message : Message F) : String :=
  match message.content with
  | .str content => content
  | .arr _ item => concat ((List.ofFn item).map textOf)
  | _ => ""

def setStringContent (message : Message F) (content : String) : Message F :=
  { message with content := .str content }

/-- The parts of a content that has not been parsed before. -/
def parseContent (message : Message F) : List MediaContent :=
  match message.content with
  | .str content => [.text content]
  | .arr _ item => (List.ofFn item).filterMap MediaContent.parse
  | _ => []

def parseToolCalls {C : Type} (message : Message F C) : List (ToolCallRequest F) :=
  message.toolCalls.getD []

end Message

/-- `dto.WebSearchOptions`; the location is decoded into a map where it is read. -/
structure WebSearchOptions (F : Type) where
  searchContextSize : String
  userLocation : Option (Except String (JsonTree F))

/-- `openrouter.RequestReasoning`. -/
structure RequestReasoning where
  maxTokens : ℤ

/-- `dto.ResponseFormat`. -/
structure ResponseFormat (F : Type) where
  type : String
  jsonSchema : JsonTree F

/-- `dto.GeneralOpenAIRequest` with stop sequences of type `S`. -/
structure GeneralOpenAIRequest (F : Type) (C : Type := JsonTree F) (S : Type := JsonTree F) where
  model : String
  messages : List (Message F C)
  stream : Bool
  maxTokens : ℕ
  maxCompletionTokens : ℕ := 0
  reasoningEffort : String := ""
  temperature : Option F
  topP : F
  topK : ℤ := 0
  stop : S
  n : ℤ := 0
  responseFormat : Option (ResponseFormat F) := none
  parallelTooCalls : Option Bool := none
  tools : Option (List (ToolCallRequest F)) := none
  toolChoice : JsonTree F := .null
  webSearchOptions : Option (WebSearchOptions F) := none
  reasoning : Option (Except String RequestReasoning) := none
  user : String := ""
  store : JsonTree F := .null
  metadata : JsonTree F := .null

def GeneralOpenAIRequest.getMaxTokens (request : GeneralOpenAIRequest F) : ℕ :=
  if request.maxCompletionTokens ≠ 0 then request.maxCompletionTokens else request.maxTokens

end

/-! ## Claude messages -/

/-- `dto.ClaudeMessageSource`. -/
structure ClaudeMessageSource (F : Type) where
  type : String
  mediaType : String
  data : JsonTree F
  url : String

/-- `dto.ClaudeMediaMessage`. -/
structure ClaudeMediaMessage (F : Type) where
  type : String
  text : Option String := none
  source : Option (ClaudeMessageSource F) := none
  cacheControl : JsonTree F := .null
  id : String := ""
  name : String := ""
  input : JsonTree F := .null
  content : JsonTree F := .null
  toolUseId : String := ""

def ClaudeMediaMessage.getText {F : Type} (media : ClaudeMediaMessage F) : String :=
  media.text.getD ""

/-- `dto.ClaudeMessage` with a content of type `C`. -/
structure ClaudeMessage (C : Type) where
  role : String
  content : C

/-- `dto.Thinking`. -/
structure Thinking where
  type : String
  budgetTokens : Option ℤ

end NewApi.Model.Dto
