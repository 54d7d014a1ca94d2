import NewApi.Lib.ExactFloat
import NewApi.Model.Realtime

/-!
# Validated requests and what pricing reads of them

`GetAndValidateRequest` checks the decoded request of each format and fills in defaults; the token
limits and image counts of the requests are of the machine's unsigned type.  The price is computed
from the `TokenCountMeta` of the request, where the limit is of the signed type.
-/

namespace NewApi.Model

open NewApi.Lib NewApi.Lib.Strings

/-- `relayconstant`, as far as the validation tells the modes apart. -/
inductive RelayMode
  | unknown
  | chatCompletions
  | completions
  | embeddings
  | moderations
  | imagesGenerations
  | imagesEdits
  | edits
deriving DecidableEq

/-- A field of type `any`: missing, a string, or something else. -/
inductive AnyField
  | absent
  | string (value : String)
  | value
deriving DecidableEq

/-- `dto.GeneralOpenAIRequest`; of the messages their number, of the web search options the context
size. -/
structure GeneralOpenAIRequest where
  model : String
  messages : ℕ
  prompt : AnyField
  fimPrefix : AnyField
  fimSuffix : AnyField
  maxTokens : UInt64
  maxCompletionTokens : UInt64
  input : AnyField
  instruction : String
  webSearchOptions : Option String
deriving DecidableEq

/-- `dto.ClaudeRequest`; of the messages their number. -/
structure ClaudeRequest where
  model : String
  messages : ℕ
  maxTokens : UInt64
deriving DecidableEq

/-- `dto.OpenAIResponsesRequest`, with whether it has an input. -/
structure OpenAIResponsesRequest where
  model : String
  hasInput : Bool
  maxOutputTokens : UInt64
deriving DecidableEq

/-- `ali.AliImageParameters`. -/
structure AliImageParameters where
  size : String
  n : ℤ
  steps : String
  scale : String
  watermark : Option Bool
  promptExtend : Option Bool
deriving DecidableEq

/-- The fields `parameters` and `input` among the extra ones of an image request, as they are
decoded where they are read. -/
structure ImageExtra where
  parameters : Option (Except String AliImageParameters)
  input : Option (Except String String)

/-- `dto.ImageRequest`.  A request that comes as a form has no map of extra fields. -/
structure ImageRequest where
  model : String
  prompt : String
  n : UInt64
  size : String
  quality : String
  responseFormat : String
  watermark : Option Bool
  extra : Option ImageExtra

/-- The values of an image edit form; the number has been read by `String2Int`. -/
structure ImageForm where
  prompt : String
  model : String
  n : Int64
  quality : String
  size : String
  watermark : Option String

/-! ## Validation -/

/-- `math.MaxInt32 / 2`. -/
def maxTokensLimit : ℕ := 1073741823

def validateSearchContextSize : Option String → Except String (Option String)
  | none => .ok none
  | some size =>
      if size = "" then .ok (some "medium")
      else if size = "high" ∨ size = "medium" ∨ size = "low" then .ok (some size)
      else .error "invalid search_context_size, must be one of: high, medium, low"

/-- The field that a mode needs, besides the model. -/
def requireField (relayMode : RelayMode) (request : GeneralOpenAIRequest) :
    Except String GeneralOpenAIRequest :=
  match relayMode with
  | .completions =>
      if request.prompt = .string "" then .error "field prompt is required" else .ok request
  | .chatCompletions =>
      if request.messages = 0 ∧ request.fimPrefix = .absent ∧ request.fimSuffix = .absent then
        .error "field messages is required"
      else .ok request
  | .moderations =>
      if request.input = .absent ∨ request.input = .string "" then
        .error "field input is required"
      else .ok request
  | .edits =>
      if request.instruction = "" then .error "field instruction is required" else .ok request
  | _ => .ok request

/-- The model of a request that names none. -/
def defaultModel (relayMode : RelayMode) (paramModel model : String) : String :=
  match relayMode with
  | .moderations => if model = "" then "text-moderation-latest" else model
  | .embeddings => if model = "" then paramModel else model
  | _ => model

def getAndValidateTextRequest (relayMode : RelayMode) (paramModel : String)
    (textRequest : GeneralOpenAIRequest) : Except String GeneralOpenAIRequest :=
  let textRequest :=
    { textRequest with model := defaultModel relayMode paramModel textRequest.model }
  if maxTokensLimit < textRequest.maxTokens.toNat then .error "max_tokens is invalid"
  else if textRequest.model = "" then .error "model is required"
  else
    match validateSearchContextSize textRequest.webSearchOptions with
    | .error err => .error err
    | .ok options => requireField relayMode { textRequest with webSearchOptions := options }

def getAndValidateClaudeRequest (textRequest : ClaudeRequest) : Except String ClaudeRequest :=
  if textRequest.messages = 0 then .error "field messages is required"
  else if textRequest.model = "" then .error "field model is required"
  else .ok textRequest

def getAndValidateResponsesRequest (request : OpenAIResponsesRequest) :
    Except String OpenAIResponsesRequest :=
  if request.model = "" then .error "model is required"
  else if !request.hasInput then .error "input is required"
  else .ok request

/-- A request without a number of images is for one. -/
def ImageRequest.defaultCount (request : ImageRequest) : ImageRequest :=
  if request.n = 0 then { request with n := 1 } else request

/-- The request of an image edit form; a negative number wraps. -/
def ImageForm.toRequest (form : ImageForm) : ImageRequest :=
  ImageRequest.defaultCount
    { model := form.model
      prompt := form.prompt
      n := form.n.toUInt64
      size := form.size
      quality :=
        if form.model = "gpt-image-1" ∧ form.quality = "" then "standard" else form.quality
      responseFormat := ""
      watermark := form.watermark.map fun value => value = "true"
      extra := none }

/-- The checks and defaults of a model's sizes and qualities. -/
def validateImageModel (request : ImageRequest) : Except String ImageRequest :=
  if request.model = "dall-e-2" ∨ request.model = "dall-e" then
    if request.size ≠ "" ∧ request.size ≠ "256x256" ∧ request.size ≠ "512x512" ∧
        request.size ≠ "1024x1024" then
      .error "size must be one of 256x256, 512x512, or 1024x1024 for dall-e-2 or dall-e"
    else if request.size = "" then .ok { request with size := "1024x1024" }
    else .ok request
  else if request.model = "dall-e-3" then
    if request.size ≠ "" ∧ request.size ≠ "1024x1024" ∧ request.size ≠ "1024x1792" ∧
        request.size ≠ "1792x1024" then
      .error "size must be one of 1024x1024, 1024x1792 or 1792x1024 for dall-e-3"
    else
      .ok
        { request with
          quality := if request.quality = "" then "standard" else request.quality
          size := if request.size = "" then "1024x1024" else request.size }
  else if request.model = "gpt-image-1" then
    .ok { request with quality := if request.quality = "" then "auto" else request.quality }
  else .ok request

/-- An edit that comes as a form is not checked. -/
def getAndValidOpenAIImageRequest (relayMode : RelayMode) (form : Option ImageForm)
    (imageRequest : ImageRequest) : Except String ImageRequest :=
  match relayMode, form with
  | .imagesEdits, some form => .ok form.toRequest
  | _, _ =>
      if imageRequest.model = "" then .error "model is required"
      else if contains imageRequest.size "×" then
        .error "size an unexpected error occurred in the parameter, please use 'x' instead of the multiplication sign '×'"
      else (validateImageModel imageRequest).map ImageRequest.defaultCount

/-- A validated request in one of the formats with a token limit or a number of images. -/
inductive PricedRequest
  | openAI (request : GeneralOpenAIRequest)
  | claude (request : ClaudeRequest)
  | responses (request : OpenAIResponsesRequest)
  | image (request : ImageRequest)

/-- A decoded request, with what its validation reads of the call. -/
inductive DecodedRequest
  | openAI (relayMode : RelayMode) (paramModel : String) (request : GeneralOpenAIRequest)
  | claude (request : ClaudeRequest)
  | responses (request : OpenAIResponsesRequest)
  | image (relayMode : RelayMode) (form : Option ImageForm) (request : ImageRequest)

def getAndValidateRequest : DecodedRequest → Except String PricedRequest
  | .openAI relayMode paramModel request =>
      (getAndValidateTextRequest relayMode paramModel request).map .openAI
  | .claude request => (getAndValidateClaudeRequest request).map .claude
  | .responses request => (getAndValidateResponsesRequest request).map .responses
  | .image relayMode form request =>
      (getAndValidOpenAIImageRequest relayMode form request).map .image

theorem ImageRequest.defaultCount_pos (request : ImageRequest) :
    0 < request.defaultCount.n.toNat := by
  unfold defaultCount
  split
  case isTrue hzero => exact Nat.one_pos
  case isFalse hsome =>
    rw [Nat.pos_iff_ne_zero]
    intro hnone
    exact hsome (UInt64.toNat_inj.1 hnone)

/-- What a converted result comes from. -/
theorem ok_of_map {ε α β : Type} {f : α → β} {x : Except ε α} {y : β} (h : x.map f = .ok y) :
    ∃ a, x = .ok a ∧ f a = y := by
  cases x with
  | error err => cases h
  | ok a => exact ⟨a, rfl, Except.ok.inj h⟩

/-- An accepted image request is for at least one image. -/
theorem image_count_pos {decoded : DecodedRequest} {request : ImageRequest}
    (haccepted : getAndValidateRequest decoded = .ok (.image request)) : 0 < request.n.toNat := by
  cases decoded with
  | openAI relayMode paramModel textRequest =>
      obtain ⟨valid, -, hvalid⟩ := ok_of_map haccepted
      cases hvalid
  | claude textRequest =>
      obtain ⟨valid, -, hvalid⟩ := ok_of_map haccepted
      cases hvalid
  | responses responsesRequest =>
      obtain ⟨valid, -, hvalid⟩ := ok_of_map haccepted
      cases hvalid
  | image relayMode form imageRequest =>
      obtain ⟨valid, hchecked, hvalid⟩ := ok_of_map haccepted
      cases hvalid
      unfold getAndValidOpenAIImageRequest at hchecked
      split at hchecked
      case h_1 values =>
        cases hchecked
        exact ImageRequest.defaultCount_pos _
      case h_2 =>
      split at hchecked
      case isTrue hnoModel => cases hchecked
      case isFalse hmodel =>
      split at hchecked
      case isTrue hsign => cases hchecked
      case isFalse hsize =>
        obtain ⟨checked, -, rfl⟩ := ok_of_map hchecked
        exact checked.defaultCount_pos

/-! ## What pricing reads -/

section

variable {F : Type} [Float64 F]

/-- The conversion of the unsigned type to the signed one. -/
def intOfUint (n : UInt64) : ℤ :=
  (n.toNat : ℤ).bmod (2 ^ 64)

namespace ImageRequest

def sizeRatio (request : ImageRequest) : F :=
  if hasPrefix request.model "dall-e" then
    if request.size = "256x256" then Float64.ofInt 4 / Float64.ofInt 10
    else if request.size = "512x512" then Float64.ofInt 45 / Float64.ofInt 100
    else if request.size = "1024x1024" then Float64.ofInt 1
    else if request.size = "1024x1792" ∨ request.size = "1792x1024" then Float64.ofInt 2
    else Float64.ofInt 1
  else Float64.ofInt 1

def qualityRatio (request : ImageRequest) : F :=
  if hasPrefix request.model "dall-e" ∧ request.model = "dall-e-3" ∧ request.quality = "hd" then
    if request.size = "1024x1792" ∨ request.size = "1792x1024" then
      Float64.ofInt 15 / Float64.ofInt 10
    else Float64.ofInt 2
  else Float64.ofInt 1

/-- `ImageRequest.GetTokenCountMeta`. -/
def getTokenCountMeta (request : ImageRequest) : TokenCountMeta F where
  maxTokens := 1584
  imagePriceRatio := request.sizeRatio * request.qualityRatio * Float64.ofInt request.n.toNat

end ImageRequest

/-- `fastTokenCountMetaForPricing`; `GetTokenCountMeta` of every format sets the two fields to the
same values. -/
def fastTokenCountMetaForPricing : PricedRequest → TokenCountMeta F
  | .openAI request =>
      { maxTokens :=
          if request.maxTokens < request.maxCompletionTokens then
            intOfUint request.maxCompletionTokens
          else intOfUint request.maxTokens
        imagePriceRatio := Float64.ofInt 0 }
  | .claude request =>
      { maxTokens := intOfUint request.maxTokens
        imagePriceRatio := Float64.ofInt 0 }
  | .responses request =>
      { maxTokens := intOfUint request.maxOutputTokens
        imagePriceRatio := Float64.ofInt 0 }
  | .image request => request.getTokenCountMeta

end

end NewApi.Model
