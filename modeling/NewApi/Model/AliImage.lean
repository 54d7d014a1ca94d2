import NewApi.Model.Deposit
import NewApi.Model.OtherRatios

/-!
# An image request on an Ali channel

The number of images is a factor of the model price from the start.  The adaptor of the Ali channels
records it once more as the ratio `n`, first the number that it sends and then the one that the
upstream reports, so that the final quota is multiplied by both numbers.
-/

namespace NewApi.Model

open NewApi.Lib NewApi.Lib.Strings
open FiniteFloat (val)

def ChannelTypeAli : ℤ := 17

def RelayMode.toNat : RelayMode → ℕ
  | .unknown => 0
  | .chatCompletions => 1
  | .completions => 2
  | .embeddings => 3
  | .moderations => 4
  | .imagesGenerations => 5
  | .imagesEdits => 6
  | .edits => 7

/-- The input of an `AliImageRequest`: as it was sent, a message with the texts and images of its
content, or a prompt; of a wan model with its images. -/
inductive AliImageInput
  | sent (raw : String)
  | messages (images : List String) (text : String)
  | prompt (text : String)
  | wan (text : String) (images : List String)

structure AliImageRequest where
  model : String
  input : AliImageInput
  parameters : AliImageParameters
  responseFormat : String

/-- `AliImageParameters{}`. -/
def AliImageParameters.zero : AliImageParameters where
  size := ""
  n := 0
  steps := ""
  scale := ""
  watermark := none
  promptExtend := none

def AliImageParameters.promptExtendValue (parameters : AliImageParameters) : Bool :=
  parameters.promptExtend.getD false

/-- An `AliResponse`: its message, the state of its task, the number of images in its usage and the
number of those that it has been converted to. -/
structure AliResponse where
  message : String
  taskStatus : String
  outputMessage : String
  outputCode : String
  imageCount : ℤ
  images : ℕ

/-- The body of an upstream response. -/
inductive AliBody
  | unreadable (err : String)
  | undecodable (err : String)
  | decoded (response : AliResponse)

/-- An image request as the helper of an attempt finds it: the request, the upstream model or the
error of the mapping, how its body comes and is sent on, an error of decoding a form and its images,
an error of the call to the upstream, its response, the end of an asynchronous task and an error of
encoding the answer. -/
structure AliImageCall where
  request : ImageRequest
  originModelName : String
  relayMode : RelayMode
  multipart : Bool
  passThrough : Bool
  upstreamModel : Except NewAPIError String
  formError : Option String
  formImages : Except String (List String)
  called : Option NewAPIError
  statusCode : ℤ
  body : AliBody
  task : Except String AliResponse
  encodeError : Option String

/-- `NewOpenAIError` of a plain error. -/
def NewAPIError.newOpenAIError (err errorCode : String) (statusCode : ℤ) : NewAPIError :=
  withOpenAIError
    { message := err, type := errorCode, param := "", code := some errorCode, metadata := "" }
    statusCode

section

variable {F : Type} [Float64 F] (syncImageModels : List String)

/-- `model_setting.IsSyncImageModel`, over the setting. -/
def isSyncImageModel (modelName : String) : Bool :=
  syncImageModels.any fun part => contains modelName part

def isOldWanModel (modelName : String) : Bool :=
  contains modelName "wan" && !contains modelName "wan2.6"

def isWanModel (modelName : String) : Bool :=
  contains modelName "wan"

/-- The parameters of an image request: those that it has, or from its own fields. -/
def aliImageParameters (request : ImageRequest) : Except String AliImageParameters :=
  match request.extra with
  | none => .ok .zero
  | some extra =>
      match extra.parameters with
      | some (.error err) => .error ("invalid parameters field: " ++ err)
      | some (.ok parameters) => .ok parameters
      | none =>
          .ok
            { AliImageParameters.zero with
              size := request.size.map fun c => if c = 'x' then '*' else c
              n := intOfUint request.n
              watermark := request.watermark }

/-- The input that an image request has. -/
def aliImageSentInput (request : ImageRequest) : Except String (Option String) :=
  match request.extra.bind ImageExtra.input with
  | some (.error err) => .error ("invalid input field: " ++ err)
  | some (.ok input) => .ok (some input)
  | none => .ok none

/-- The ratios that the conversion records. -/
def aliImageRatios (request : ImageRequest) (parameters : AliImageParameters) :
    List (String × F) :=
  (if contains request.model "z-image" && parameters.promptExtendValue then
    [("prompt_extend", Float64.ofInt 2)] else []) ++
  (if parameters.n ≠ 0 then [("n", Float64.ofInt parameters.n)] else [])

/-- `oaiImage2AliImageRequest`, with its calls of `AddOtherRatio`. -/
def oaiImage2AliImageRequest (request : ImageRequest) (isSync : Bool) :
    List (String × F) × Except String AliImageRequest :=
  match aliImageParameters request with
  | .error err => ([], .error err)
  | .ok parameters =>
      match aliImageSentInput request with
      | .error err => ([], .error err)
      | .ok input =>
          (aliImageRatios request parameters,
            .ok
              { model := request.model
                input :=
                  match input with
                  | some raw => .sent raw
                  | none => if isSync then .messages [] request.prompt else .prompt request.prompt
                parameters := parameters
                responseFormat := request.responseFormat })

/-- `oaiFormEdit2AliImageEdit`. -/
def oaiFormEdit2AliImageEdit (request : ImageRequest) (formImages : Except String (List String)) :
    List (String × F) × Except String AliImageRequest :=
  match formImages with
  | .error err => ([], .error ("get image base64s from form failed: " ++ err))
  | .ok images =>
      ([],
        .ok
          { model := request.model
            input := .messages images request.prompt
            parameters := { AliImageParameters.zero with watermark := request.watermark }
            responseFormat := request.responseFormat })

/-- `oaiFormEdit2WanxImageEdit`. -/
def oaiFormEdit2WanxImageEdit (request : ImageRequest) (formError : Option String)
    (formImages : Except String (List String)) :
    List (String × F) × Except String AliImageRequest :=
  match formError, formImages with
  | some err, _ => ([], .error err)
  | none, .error err => ([], .error ("get image base64s from form failed: " ++ err))
  | none, .ok images =>
      ([("n", Float64.ofInt (intOfUint request.n))],
        .ok
          { model := request.model
            input := .wan request.prompt images
            parameters := { AliImageParameters.zero with n := intOfUint request.n }
            responseFormat := request.responseFormat })

/-- Whether an error of the conversion is told with its stage. -/
def withStage (stage : String) (result : List (String × F) × Except String AliImageRequest) :
    List (String × F) × Except String AliImageRequest :=
  (result.1, result.2.mapError fun err => stage ++ err)

namespace AliImageCall

variable (call : AliImageCall)

/-- The field `IsSyncImageModel` of the adaptor after the conversion. -/
def isSync : Bool :=
  !call.passThrough &&
    match call.relayMode with
    | .imagesGenerations => isSyncImageModel syncImageModels call.originModelName
    | .imagesEdits =>
        !isOldWanModel call.originModelName && isSyncImageModel syncImageModels call.originModelName &&
          !isWanModel call.originModelName
    | _ => false

/-- `ConvertImageRequest` of the Ali adaptor. -/
def convertImageRequest (request : ImageRequest) :
    List (String × F) × Except String AliImageRequest :=
  match call.relayMode with
  | .imagesGenerations =>
      withStage "convert image request to async ali image request failed: "
        (oaiImage2AliImageRequest request (call.isSync syncImageModels))
  | .imagesEdits =>
      if isOldWanModel call.originModelName then
        oaiFormEdit2WanxImageEdit request call.formError call.formImages
      else if call.multipart then
        withStage "convert image edit form request failed: "
          (oaiFormEdit2AliImageEdit request call.formImages)
      else
        withStage "convert image request to async ali image request failed: "
          (oaiImage2AliImageRequest request (call.isSync syncImageModels))
  | relayMode => ([], .error ("unsupported image relay mode: " ++ toString relayMode.toNat))

/-- The response whose images are converted: that of the call, or that of its task. -/
def finished : Except NewAPIError AliResponse :=
  match call.body with
  | .unreadable err => .error (NewAPIError.newOpenAIError err "read_response_body_failed" 500)
  | .undecodable err => .error (NewAPIError.newOpenAIError err "bad_response_body" 500)
  | .decoded response =>
      if response.message ≠ "" then .error (NewAPIError.newError response.message "bad_response")
      else if call.isSync syncImageModels then .ok response
      else
        match call.task with
        | .error err => .error (NewAPIError.newError err "bad_response")
        | .ok ended =>
            if ended.taskStatus ≠ "SUCCEEDED" then
              .error (NewAPIError.withOpenAIError
                { message := ended.outputMessage, type := "ali_error", param := "",
                  code := some ended.outputCode, metadata := "" } call.statusCode)
            else .ok ended

end AliImageCall

/-- The number of images that a response reports, or else returns. -/
def AliResponse.count (response : AliResponse) : ℤ :=
  if response.imageCount ≠ 0 then response.imageCount else response.images

namespace AliImageCall

variable (call : AliImageCall)

/-- `aliImageHandler`, with its calls of `AddOtherRatio`. -/
def aliImageHandler : List (String × F) × Option NewAPIError :=
  match call.finished syncImageModels with
  | .error err => ([], some err)
  | .ok response =>
      (if response.count ≠ 0 then [("n", Float64.ofInt response.count)] else [],
        call.encodeError.map fun err => NewAPIError.newError err "bad_response_body")

/-- The usage of an image request whose handler reports none. -/
def usage : Usage F :=
  { Usage.empty with
    promptTokens := intOfUint call.request.n
    totalTokens := intOfUint call.request.n }

/-- The conversion of a request that is not passed through. -/
def convert (upstreamModel : String) : List (String × F) × Option NewAPIError :=
  if call.passThrough then ([], none)
  else
    match call.convertImageRequest syncImageModels
        { call.request with model := upstreamModel } with
    | (records, .error err) => (records, some (NewAPIError.newError err "convert_request_failed"))
    | (records, .ok _) => (records, none)

/-- `ImageHelper` up to the settlement: the calls of `AddOtherRatio`, and the usage that is
settled. -/
def imageHelper : List (String × F) × Except NewAPIError (Usage F) :=
  match call.upstreamModel with
  | .error err => ([], .error err)
  | .ok upstreamModel =>
      match call.convert syncImageModels upstreamModel with
      | (converting, some err) => (converting, .error err)
      | (converting, none) =>
          match call.called with
          | some err => (converting, .error err)
          | none =>
              match call.aliImageHandler syncImageModels with
              | (handling, some err) => (converting ++ handling, .error err)
              | (handling, none) => (converting ++ handling, .ok call.usage)

end AliImageCall

end

/-! ## The ratios of a served request -/

namespace AliImageCall

variable (call : AliImageCall)

/-- The request is converted by `oaiImage2AliImageRequest`. -/
def convertsFields : Bool :=
  match call.relayMode with
  | .imagesGenerations => true
  | .imagesEdits => !isOldWanModel call.originModelName && !call.multipart
  | _ => false

/-- The factor of `prompt_extend` applies: a z-image model whose parameters ask for it. -/
def promptExtends : Bool :=
  !call.passThrough && call.convertsFields &&
    match call.upstreamModel, aliImageParameters call.request with
    | .ok upstreamModel, .ok parameters =>
        contains upstreamModel "z-image" && parameters.promptExtendValue
    | _, _ => false

end AliImageCall

section

variable {F : Type} [Float64 F] (syncImageModels : List String) (call : AliImageCall)

/-- The record of the prompt extension, if any. -/
def promptExtendRecord (F : Type) [Float64 F] (call : AliImageCall) : List (String × F) :=
  if call.promptExtends then [("prompt_extend", Float64.ofInt 2)] else []

omit [Float64 F] in
theorem withStage_ok {stage : String} {result : List (String × F) × Except String AliImageRequest}
    {records : List (String × F)} {converted : AliImageRequest}
    (h : withStage stage result = (records, .ok converted)) : result = (records, .ok converted) := by
  obtain ⟨recorded, outcome⟩ := result
  cases outcome with
  | error err => cases h
  | ok value =>
      cases h
      rfl

theorem oaiImage2AliImageRequest_ok {request : ImageRequest} {isSync : Bool}
    {records : List (String × F)} {converted : AliImageRequest}
    (h : oaiImage2AliImageRequest request isSync = (records, .ok converted)) :
    ∃ parameters, aliImageParameters request = .ok parameters ∧
      records = aliImageRatios request parameters := by
  unfold oaiImage2AliImageRequest at h
  cases hparameters : aliImageParameters request with
  | error err =>
      rw [hparameters] at h
      cases h
  | ok parameters =>
      rw [hparameters] at h
      cases hinput : aliImageSentInput request with
      | error err =>
          rw [hinput] at h
          cases h
      | ok input =>
          rw [hinput] at h
          cases h
          exact ⟨parameters, rfl, rfl⟩

/-- A request converted by its fields records the prompt extension when it applies, and maybe a
number. -/
theorem fields_recorded {upstreamModel : String} {isSync : Bool} {records : List (String × F)}
    {converted : AliImageRequest} (hmodel : call.upstreamModel = .ok upstreamModel)
    (hpass : call.passThrough = false) (hfields : call.convertsFields = true)
    (h : oaiImage2AliImageRequest { call.request with model := upstreamModel } isSync =
      (records, .ok converted)) :
    ∃ numbers : List (String × F), (∀ record ∈ numbers, record.1 = "n") ∧
      records = promptExtendRecord F call ++ numbers := by
  obtain ⟨parameters, hparameters, rfl⟩ := oaiImage2AliImageRequest_ok h
  have hextends : call.promptExtends =
      (contains upstreamModel "z-image" && parameters.promptExtendValue) := by
    have hsame : aliImageParameters call.request = .ok parameters := hparameters
    unfold AliImageCall.promptExtends
    rw [hpass, hfields, hmodel, hsame]
    rfl
  refine ⟨_, ?_, congrArg (· ++ _) ?_⟩
  · intro record hrecord
    split at hrecord
    · rw [List.mem_singleton.1 hrecord]
    · cases hrecord
  · unfold promptExtendRecord
    rw [hextends]

/-- The conversion of a request that is sent on records the prompt extension when it applies, and
maybe a number. -/
theorem convertImageRequest_ok {upstreamModel : String} {records : List (String × F)}
    {converted : AliImageRequest} (hmodel : call.upstreamModel = .ok upstreamModel)
    (hpass : call.passThrough = false)
    (h : call.convertImageRequest syncImageModels { call.request with model := upstreamModel } =
      (records, .ok converted)) :
    ∃ numbers : List (String × F), (∀ record ∈ numbers, record.1 = "n") ∧
      records = promptExtendRecord F call ++ numbers := by
  have hunextended (hfields : call.convertsFields = false) : promptExtendRecord F call = [] := by
    unfold promptExtendRecord AliImageCall.promptExtends
    rw [hfields, Bool.and_false, Bool.false_and]
    rfl
  unfold AliImageCall.convertImageRequest at h
  split at h
  case h_1 hmode =>
    have hfields : call.convertsFields = true := by
      unfold AliImageCall.convertsFields
      rw [hmode]
    exact fields_recorded call hmodel hpass hfields (withStage_ok h)
  case h_2 hmode =>
    have hconverts : call.convertsFields =
        (!isOldWanModel call.originModelName && !call.multipart) := by
      unfold AliImageCall.convertsFields
      rw [hmode]
    split at h
    case isTrue hwan =>
      rw [hunextended (by rw [hconverts, hwan]; rfl)]
      unfold oaiFormEdit2WanxImageEdit at h
      split at h
      · cases h
      · cases h
      · cases h
        refine ⟨_, ?_, rfl⟩
        intro record hrecord
        rw [List.mem_singleton.1 hrecord]
    case isFalse hother =>
    split at h
    case isTrue hmultipart =>
      rw [hunextended (by rw [hconverts, hmultipart, Bool.not_true, Bool.and_false])]
      have hform := withStage_ok h
      unfold oaiFormEdit2AliImageEdit at hform
      split at hform
      · cases hform
      · cases hform
        exact ⟨[], fun _ hnone => absurd hnone List.not_mem_nil, rfl⟩
    case isFalse hjson =>
      have hfields : call.convertsFields = true := by
        rw [hconverts, Bool.eq_false_of_not_eq_true hother, Bool.eq_false_of_not_eq_true hjson]
        rfl
      exact fields_recorded call hmodel hpass hfields (withStage_ok h)
  case h_3 => cases h

theorem convert_ok {upstreamModel : String} {records : List (String × F)}
    (hmodel : call.upstreamModel = .ok upstreamModel)
    (h : call.convert syncImageModels upstreamModel = (records, none)) :
    ∃ numbers : List (String × F), (∀ record ∈ numbers, record.1 = "n") ∧
      records = promptExtendRecord F call ++ numbers := by
  unfold AliImageCall.convert at h
  split at h
  case isTrue hpass =>
    have hunextended : promptExtendRecord F call = [] := by
      unfold promptExtendRecord AliImageCall.promptExtends
      rw [hpass, Bool.not_true, Bool.false_and, Bool.false_and]
      rfl
    cases h
    rw [hunextended]
    exact ⟨[], fun _ hnone => absurd hnone List.not_mem_nil, rfl⟩
  case isFalse hconverts =>
    have hpass := Bool.eq_false_of_not_eq_true hconverts
    split at h
    · cases h
    case h_2 recorded converted hconverted =>
      cases h
      exact convertImageRequest_ok syncImageModels call hmodel hpass hconverted

/-- A request that is served records the prompt extension when it applies, maybe a number, and the
number that the upstream reports or returns. -/
theorem imageHelper_ok {records : List (String × F)} {served : Usage F}
    (h : call.imageHelper syncImageModels = (records, .ok served)) :
    served = call.usage ∧
      ∃ (response : AliResponse) (numbers : List (String × F)),
        call.finished syncImageModels = .ok response ∧ (∀ record ∈ numbers, record.1 = "n") ∧
        records = promptExtendRecord F call ++ numbers ++
          if response.count ≠ 0 then [("n", Float64.ofInt response.count)] else [] := by
  unfold AliImageCall.imageHelper at h
  cases hmodel : call.upstreamModel with
  | error err =>
      rw [hmodel] at h
      cases h
  | ok upstreamModel =>
      rw [hmodel] at h
      dsimp only at h
      split at h
      case h_1 => cases h
      case h_2 converting hconvert =>
      obtain ⟨numbers, hnumbers, rfl⟩ := convert_ok syncImageModels call hmodel hconvert
      split at h
      case h_1 => cases h
      case h_2 =>
      split at h
      case h_1 => cases h
      case h_2 handling hhandled =>
        obtain ⟨hrecorded, hserved⟩ := Prod.mk.inj h
        unfold AliImageCall.aliImageHandler at hhandled
        split at hhandled
        case h_1 => cases hhandled
        case h_2 response hfinished =>
          obtain ⟨hhandling, -⟩ := Prod.mk.inj hhandled
          refine ⟨(Except.ok.inj hserved).symm, response, numbers, hfinished, hnumbers, ?_⟩
          rw [← hrecorded, hhandling]

end

/-! ## What the images cost -/

namespace ImageRequest

variable (request : ImageRequest)

/-- The factor of the size. -/
def sizeFactor : ℚ :=
  if hasPrefix request.model "dall-e" then
    if request.size = "256x256" then 2 / 5
    else if request.size = "512x512" then 9 / 20
    else if request.size = "1024x1792" ∨ request.size = "1792x1024" then 2
    else 1
  else 1

/-- The factor of the quality. -/
def qualityFactor : ℚ :=
  if request.model = "dall-e-3" ∧ request.quality = "hd" then
    if request.size = "1024x1792" ∨ request.size = "1792x1024" then 3 / 2 else 2
  else 1

end ImageRequest

section

variable {F : Type} [Float64 F]

/-- A record replaces the value of its key. -/
theorem filter_addOtherRatio (others : List (String × F)) (record : String × F) :
    (addOtherRatio others record).filter (fun other => other.1 ≠ record.1) =
      others.filter fun other => other.1 ≠ record.1 := by
  unfold addOtherRatio
  split
  · rfl
  · rw [List.filter_append, List.filter_filter]
    simp

theorem filter_addOtherRatios {key : String} {records : List (String × F)}
    (hrecords : ∀ record ∈ records, record.1 = key) (others : List (String × F)) :
    (addOtherRatios others records).filter (fun other => other.1 ≠ key) =
      others.filter fun other => other.1 ≠ key := by
  induction records generalizing others with
  | nil => rfl
  | cons record records ih =>
      obtain ⟨hkey, hrest⟩ := List.forall_mem_cons.1 hrecords
      rw [addOtherRatios_cons, ih hrest, ← hkey, filter_addOtherRatio]

variable (syncImageModels : List String) (call : AliImageCall)

/-- The factor of the prompt extension. -/
def promptExtendFactor : ℚ :=
  if call.promptExtends then 2 else 1

/-- The ratios of a served request multiply to the factor of the prompt extension and the float of
the number that the upstream reports. -/
theorem otherProduct_served [FiniteFloat F] {response : AliResponse} {numbers : List (String × F)}
    (hnumbers : ∀ record ∈ numbers, record.1 = "n") (hcount : 0 < response.count) :
    otherProduct (addOtherRatios [] (promptExtendRecord F call ++ numbers ++
        if response.count ≠ 0 then [("n", Float64.ofInt response.count)] else [])) =
      promptExtendFactor call * value (Float64.ofInt response.count : F) := by
  have hpos : 0 < val (Float64.ofInt response.count : F) := FiniteFloat.val_ofInt_pos hcount
  have hextended : otherProduct ((addOtherRatios [] (promptExtendRecord F call)).filter
      fun other => other.1 ≠ "n") = promptExtendFactor call := by
    unfold promptExtendRecord promptExtendFactor
    cases call.promptExtends with
    | false => rfl
    | true =>
        have htwo : 0 < val ("prompt_extend", (Float64.ofInt 2 : F)).2 :=
          FiniteFloat.val_ofInt_pos (by decide)
        have hextend : addOtherRatios [] [("prompt_extend", (Float64.ofInt 2 : F))] =
            [("prompt_extend", Float64.ofInt 2)] := addOtherRatio_pos [] htwo
        rw [if_pos rfl, if_pos rfl, hextend]
        show value (Float64.ofInt 2 : F) * 1 = 2
        rw [mul_one, FiniteFloat.value_ofInt 2 (by decide), Int.cast_ofNat]
  rw [if_pos (by omega : response.count ≠ 0), addOtherRatios_append, addOtherRatios_cons,
    addOtherRatios_nil, addOtherRatio_pos _ hpos, otherProduct_append, addOtherRatios_append,
    filter_addOtherRatios hnumbers, hextended, otherProduct_cons, otherProduct_nil, mul_one]
  rfl

variable (cfg : RealtimeSettings F) (req : RealtimeRequest)

/-- The quota of a price of one. -/
def quotaPerPrice : ℚ :=
  value cfg.quotaPerUnit * value (handleGroupRatio cfg req)

/-- The price of one image of a request, in quota. -/
def imagePrice (unitPrice : F) (request : ImageRequest) : ℚ :=
  value unitPrice * (request.sizeFactor * request.qualityFactor) * quotaPerPrice cfg req

/-- The price of the call: the unit price times the ratio of the request, which has its size, its
quality and its number. -/
def callPrice (unitPrice : F) (request : ImageRequest) : F :=
  let imagePriceRatio := (request.getTokenCountMeta : TokenCountMeta F).imagePriceRatio
  if Float64.eq imagePriceRatio (Float64.ofInt 0) then unitPrice else unitPrice * imagePriceRatio

/-- What the products of floating point are off, in quota. -/
def productError (unitPrice : F) (request : ImageRequest) : ℚ :=
  value (callPrice unitPrice request) * quotaPerPrice cfg req -
    imagePrice cfg req unitPrice request * request.n.toNat

/-- What a request finds in its context at its first attempt. -/
def imageContext : ToolContext where
  responsesUsageInfo := none
  chatCompletionWebSearchContextSize := ""
  imageGenerationCall := none

/-- The fee for the search of a model that is named for it. -/
def searchFee (price : PriceData F) (modelName : String) : ℚ :=
  (webSearchQuota cfg.toPriceSettings price modelName imageContext).toRat

/-- The quota of a served request: `ImageHelper` settles the price data with the recorded ratios. -/
def aliImageQuota (price : PriceData F) (records : List (String × F)) (served : Usage F) : ℤ :=
  textQuota cfg.toPriceSettings
    { price with otherRatios := addOtherRatios price.otherRatios records }
    ChannelTypeAli call.originModelName imageContext served

variable {cfg req} {promptTokens : ℤ}

/-- The price data of an image request: it has no model ratio and no other ratios yet. -/
theorem modelPriceHelper_image {request : ImageRequest} {price : PriceData F} {unitPrice : F}
    (hunit : cfg.modelPrice req.originModelName = some unitPrice)
    (h : modelPriceHelper cfg req promptTokens (fastTokenCountMetaForPricing (.image request)) =
      .ok price) :
    price.usePrice = true ∧ price.modelPrice = callPrice unitPrice request ∧
      price.groupRatio = handleGroupRatio cfg req ∧ price.modelRatio = Float64.ofInt 0 ∧
      price.otherRatios = [] := by
  unfold modelPriceHelper at h
  rw [hunit] at h
  cases h
  exact ⟨rfl, rfl, rfl, rfl, rfl⟩

theorem intOfUint_ne_zero {n : UInt64} (hpos : 0 < n.toNat) : intOfUint n ≠ 0 := by
  have hbound : n.toNat < 2 ^ 64 := n.toNat_lt
  unfold intOfUint
  rcases Nat.lt_or_ge n.toNat (2 ^ 63) with hsmall | hlarge
  · rw [bmod_of_small (by omega) (by omega)]
    omega
  · rw [bmod_of_large (by omega) (by omega)]
    omega

/-- The tool fees of an image request are those of the search. -/
theorem toolFees_image {price : PriceData F} (huse : price.usePrice = true) (modelName : String)
    (served : Usage F) :
    toolFees cfg.toPriceSettings price modelName imageContext served =
      searchFee cfg price modelName := by
  have haudio : audioInputQuota cfg.toPriceSettings price modelName served = Decimal.zero := by
    unfold audioInputQuota
    rw [huse]
    rfl
  have hzero : Decimal.zero.toRat = 0 := Decimal.toRat_ofInt 0
  unfold toolFees searchFee
  rw [haudio]
  show _ + Decimal.zero.toRat + Decimal.zero.toRat + Decimal.zero.toRat = _
  rw [hzero, add_zero, add_zero, add_zero]

/-- A call that is priced by the image costs the price of one image, times the requested number,
but for what floating point is off. -/
theorem tokenQuota_image {unitPrice : F} {price : PriceData F} {request : ImageRequest}
    {modelName : String} {usage : Usage F} (huse : price.usePrice = true)
    (hmodelPrice : price.modelPrice = callPrice unitPrice request)
    (hgroup : price.groupRatio = handleGroupRatio cfg req) :
    (tokenQuota cfg.toPriceSettings price ChannelTypeAli modelName usage).toRat =
      imagePrice cfg req unitPrice request * request.n.toNat +
        productError cfg req unitPrice request := by
  unfold tokenQuota productError
  rw [if_pos huse, Decimal.toRat_mul, Decimal.toRat_mul, hgroup, hmodelPrice, add_sub_cancel,
    quotaPerPrice, ← mul_assoc]
  rfl

variable [FiniteFloat F]

/-- The quota is the rounding of the price of one image, times the requested number, times the
reported one. -/
theorem aliImageQuota_eq {unitPrice : F} {price : PriceData F} {records : List (String × F)}
    {served : Usage F} {response : AliResponse}
    (haccepted : PricedRequest.Accepted (.image call.request))
    (hunit : cfg.modelPrice req.originModelName = some unitPrice)
    (hprice : modelPriceHelper cfg req promptTokens
      (fastTokenCountMetaForPricing (.image call.request)) = .ok price)
    (hserved : call.imageHelper syncImageModels = (records, .ok served))
    (hfinished : call.finished syncImageModels = .ok response) (hcount : 0 < response.count) :
    aliImageQuota call cfg price records served =
      Decimal.roundInt64 ((imagePrice cfg req unitPrice call.request * call.request.n.toNat +
        productError cfg req unitPrice call.request + searchFee cfg price call.originModelName) *
          (promptExtendFactor call * value (Float64.ofInt response.count : F))) := by
  obtain ⟨rfl, ended, numbers, hended, hnumbers, rfl⟩ :=
    imageHelper_ok syncImageModels call hserved
  obtain rfl := Except.ok.inj (hfinished.symm.trans hended)
  obtain ⟨huse, hmodelPrice, hgroup, hratio, hothers⟩ := modelPriceHelper_image hunit hprice
  have hcharged : (call.usage : Usage F).promptTokens +
      (call.usage : Usage F).completionTokens ≠ 0 := by
    obtain ⟨decoded, hdecoded⟩ := haccepted
    unfold AliImageCall.usage Usage.empty
    dsimp only
    rw [add_zero]
    exact intOfUint_ne_zero (image_count_pos hdecoded)
  generalize hpriced : ({ price with
    otherRatios := addOtherRatios price.otherRatios (promptExtendRecord F call ++ numbers ++
      if response.count ≠ 0 then [("n", Float64.ofInt response.count)] else []) } :
        PriceData F) = priced
  have hfree : (textRatio priced).toRat = 0 := by
    have hzero : value priced.modelRatio = 0 := by
      rw [← hpriced]
      show value price.modelRatio = 0
      rw [hratio, FiniteFloat.value_zero]
    have hsplit : (textRatio priced).toRat = value priced.modelRatio * value priced.groupRatio :=
      Decimal.toRat_mul _ _
    rw [hsplit, hzero, zero_mul]
  have htokens : (tokenQuota cfg.toPriceSettings priced ChannelTypeAli call.originModelName
      call.usage).toRat = imagePrice cfg req unitPrice call.request * call.request.n.toNat +
        productError cfg req unitPrice call.request := by
    subst hpriced
    exact tokenQuota_image huse hmodelPrice hgroup
  have hfees : toolFees cfg.toPriceSettings priced call.originModelName imageContext
      call.usage = searchFee cfg price call.originModelName := by
    rw [toolFees_image (by rw [← hpriced]; exact huse), ← hpriced]
    rfl
  have hproduct : otherProduct priced.otherRatios =
      promptExtendFactor call * value (Float64.ofInt response.count : F) := by
    rw [← hpriced]
    show otherProduct (addOtherRatios price.otherRatios _) = _
    rw [hothers]
    exact otherProduct_served call hnumbers hcount
  unfold aliImageQuota
  rw [hpriced, textQuota_eq, hproduct]
  unfold roundQuota textBase Decimal.atLeastOne
  rw [if_neg hcharged, if_neg (fun h => h.1 hfree), htokens, hfees]

end

/-! ## Two images -/

/-- An image costs 0.01. -/
def sampleImageSettings : RealtimeSettings Decimal :=
  { sampleRealtimeSettings with modelPrice := fun _ => some ⟨1, -2⟩ }

def sampleImageModels : List String := ["z-image", "qwen-image", "wan2.6"]

def sampleImageRequest : RealtimeRequest :=
  { sampleRealtimeRequest with originModelName := "qwen-image" }

/-- Two images are requested, and the upstream reports two. -/
def sampleImageCall : AliImageCall where
  request :=
    { model := "qwen-image"
      prompt := "a cat"
      n := 2
      size := "1024x1024"
      quality := ""
      responseFormat := ""
      watermark := none
      extra := some ⟨none, none⟩ }
  originModelName := "qwen-image"
  relayMode := .imagesGenerations
  multipart := false
  passThrough := false
  upstreamModel := .ok "qwen-image"
  formError := none
  formImages := .ok []
  called := none
  statusCode := 200
  body := .decoded ⟨"", "", "", "", 2, 2⟩
  task := .error ""
  encodeError := none

theorem sampleImageCall_accepted : PricedRequest.Accepted (.image sampleImageCall.request) :=
  ⟨.image .imagesGenerations none sampleImageCall.request, rfl⟩

end NewApi.Model
