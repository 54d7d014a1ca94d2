import NewApi.Lib.Decimal
import NewApi.Lib.Strings

/-!
# What a request costs

The final quota of a successful attempt, as the three settlement functions compute it from
the usage that the upstream reported and the prices of the request: `postConsumeQuota` with
decimals, `PostClaudeConsumeQuota` with floating point and `PostAudioConsumeQuota` with
decimals over text and audio tokens.
-/

namespace NewApi.Model

open NewApi.Lib NewApi.Lib.Strings

def ChannelTypeAnthropic : ℤ := 14

def ChannelTypeOpenRouter : ℤ := 20

/-- `types.PriceData`, with the group ratio of its `GroupRatioInfo`. -/
structure PriceData (F : Type) where
  freeModel : Bool
  modelPrice : F
  modelRatio : F
  completionRatio : F
  cacheRatio : F
  cacheCreationRatio : F
  cacheCreation5mRatio : F
  cacheCreation1hRatio : F
  imageRatio : F
  otherRatios : List (String × F)
  usePrice : Bool
  quotaToPreConsume : ℤ
  groupRatio : F

/-- `dto.Usage`; `cost` is the float64 in the field `Cost`, when there is one. -/
structure Usage (F : Type) where
  promptTokens : ℤ
  completionTokens : ℤ
  totalTokens : ℤ
  cachedTokens : ℤ
  cachedCreationTokens : ℤ
  promptTextTokens : ℤ
  promptAudioTokens : ℤ
  promptImageTokens : ℤ
  completionTextTokens : ℤ
  completionAudioTokens : ℤ
  claudeCacheCreation5mTokens : ℤ
  claudeCacheCreation1hTokens : ℤ
  cost : Option F

/-- The zero value of `dto.Usage`. -/
def Usage.empty {F : Type} : Usage F where
  promptTokens := 0
  completionTokens := 0
  totalTokens := 0
  cachedTokens := 0
  cachedCreationTokens := 0
  promptTextTokens := 0
  promptAudioTokens := 0
  promptImageTokens := 0
  completionTextTokens := 0
  completionAudioTokens := 0
  claudeCacheCreation5mTokens := 0
  claudeCacheCreation1hTokens := 0
  cost := none

/-- The built-in tools of a Responses request: the calls of the web search with its context
size, and the calls of the file search. -/
structure ResponsesUsageInfo where
  webSearchPreview : Option (ℤ × String)
  fileSearch : Option ℤ

/-- What the handler leaves in the request context for `postConsumeQuota`. -/
structure ToolContext where
  responsesUsageInfo : Option ResponsesUsageInfo
  chatCompletionWebSearchContextSize : String
  imageGenerationCall : Option (String × String)

/-- The price tables and the quota unit. -/
structure PriceSettings (F : Type) where
  quotaPerUnit : F
  webSearchPricePerThousand : String → String → F
  fileSearchPricePerThousand : F
  geminiInputAudioPricePerMillionTokens : String → F
  gptImage1PriceOnceCall : String → String → F
  defaultModelRatio : String → Option F
  completionRatio : String → F
  audioRatio : String → F
  audioCompletionRatio : String → F

section

variable {F : Type} [Float64 F] (cfg : PriceSettings F)

/-- Quota of the web search tool: of a Responses request by its calls, else one call for a
`search-preview` model. -/
def webSearchQuota (price : PriceData F) (modelName : String) (ctx : ToolContext) : Decimal :=
  let dGroupRatio := Float64.toDecimal price.groupRatio
  let dQuotaPerUnit := Float64.toDecimal cfg.quotaPerUnit
  match ctx.responsesUsageInfo with
  | some tools =>
      match tools.webSearchPreview with
      | some (callCount, searchContextSize) =>
          if 0 < callCount then
            Float64.toDecimal (cfg.webSearchPricePerThousand modelName searchContextSize) *
              Decimal.ofInt callCount / Decimal.ofInt 1000 * dGroupRatio * dQuotaPerUnit
          else Decimal.zero
      | none => Decimal.zero
  | none =>
      if hasSuffix modelName "search-preview" then
        let searchContextSize :=
          if ctx.chatCompletionWebSearchContextSize = "" then "medium"
          else ctx.chatCompletionWebSearchContextSize
        Float64.toDecimal (cfg.webSearchPricePerThousand modelName searchContextSize) /
          Decimal.ofInt 1000 * dGroupRatio * dQuotaPerUnit
      else Decimal.zero

/-- Quota of the file search tool of a Responses request. -/
def fileSearchQuota (price : PriceData F) (ctx : ToolContext) : Decimal :=
  match ctx.responsesUsageInfo.bind ResponsesUsageInfo.fileSearch with
  | some callCount =>
      if 0 < callCount then
        Float64.toDecimal cfg.fileSearchPricePerThousand * Decimal.ofInt callCount /
          Decimal.ofInt 1000 * Float64.toDecimal price.groupRatio *
            Float64.toDecimal cfg.quotaPerUnit
      else Decimal.zero
  | none => Decimal.zero

/-- Quota of an image generation call. -/
def imageGenerationCallQuota (price : PriceData F) (ctx : ToolContext) : Decimal :=
  match ctx.imageGenerationCall with
  | some (quality, size) =>
      Float64.toDecimal (cfg.gptImage1PriceOnceCall quality size) *
        Float64.toDecimal price.groupRatio * Float64.toDecimal cfg.quotaPerUnit
  | none => Decimal.zero

/-- Audio input tokens are priced apart when the model has an audio price. -/
def audioInputApart (modelName : String) (usage : Usage F) : Bool :=
  usage.promptAudioTokens ≠ 0 &&
    Float64.lt (Float64.ofInt 0) (cfg.geminiInputAudioPricePerMillionTokens modelName)

def audioInputQuota (price : PriceData F) (modelName : String) (usage : Usage F) : Decimal :=
  if !price.usePrice && audioInputApart cfg modelName usage then
    Float64.toDecimal (cfg.geminiInputAudioPricePerMillionTokens modelName) /
      Decimal.ofInt 1000000 * Decimal.ofInt usage.promptAudioTokens *
        Float64.toDecimal price.groupRatio * Float64.toDecimal cfg.quotaPerUnit
  else Decimal.zero

/-- The prompt tokens that are charged at the plain model ratio.  Cached tokens are already
left out of the prompt tokens of an Anthropic channel. -/
def baseTokens (channelType : ℤ) (modelName : String) (usage : Usage F) : Decimal :=
  let isClaudeUsageSemantic := channelType = ChannelTypeAnthropic
  let base := Decimal.ofInt usage.promptTokens
  let base :=
    if usage.cachedTokens ≠ 0 ∧ ¬isClaudeUsageSemantic then
      base - Decimal.ofInt usage.cachedTokens
    else base
  let base :=
    if usage.cachedCreationTokens ≠ 0 ∧ ¬isClaudeUsageSemantic then
      base - Decimal.ofInt usage.cachedCreationTokens
    else base
  let base :=
    if usage.promptImageTokens ≠ 0 then base - Decimal.ofInt usage.promptImageTokens else base
  if audioInputApart cfg modelName usage then base - Decimal.ofInt usage.promptAudioTokens
  else base

/-- A kind of tokens charged at its own ratio. -/
def tokensWithRatio (tokens : ℤ) (ratio : F) : Decimal :=
  if tokens ≠ 0 then Decimal.ofInt tokens * Float64.toDecimal ratio else Decimal.zero

/-- The product of the model ratio and the group ratio. -/
def textRatio (price : PriceData F) : Decimal :=
  Float64.toDecimal price.modelRatio * Float64.toDecimal price.groupRatio

/-- Quota of the tokens, or of the call when the model has a price. -/
def tokenQuota (price : PriceData F) (channelType : ℤ) (modelName : String)
    (usage : Usage F) : Decimal :=
  if price.usePrice then
    Float64.toDecimal price.modelPrice * Float64.toDecimal cfg.quotaPerUnit *
      Float64.toDecimal price.groupRatio
  else
    let promptQuota := baseTokens cfg channelType modelName usage +
      tokensWithRatio usage.cachedTokens price.cacheRatio +
      tokensWithRatio usage.promptImageTokens price.imageRatio +
      tokensWithRatio usage.cachedCreationTokens price.cacheCreationRatio
    let completionQuota :=
      Decimal.ofInt usage.completionTokens * Float64.toDecimal price.completionRatio
    let quota := (promptQuota + completionQuota) * textRatio price
    if !(textRatio price).isZero && quota.le Decimal.zero then Decimal.ofInt 1 else quota

/-- The quota that `postConsumeQuota` charges.  The Claude web search is only logged, its
quota is not added.  The other ratios are a map; the order of their product is immaterial. -/
def textQuota (price : PriceData F) (channelType : ℤ) (modelName : String)
    (ctx : ToolContext) (usage : Usage F) : ℤ :=
  let calculated := tokenQuota cfg price channelType modelName usage +
    webSearchQuota cfg price modelName ctx + fileSearchQuota cfg price ctx +
    audioInputQuota cfg price modelName usage + imageGenerationCallQuota cfg price ctx
  let calculated := price.otherRatios.foldl
    (fun quota other => quota * Float64.toDecimal other.2) calculated
  let quota := calculated.round.intPart
  if usage.promptTokens + usage.completionTokens = 0 then 0
  else if !(textRatio price).isZero && quota = 0 then 1
  else quota

def hasCustomModelRatio (modelName : String) (currentRatio : F) : Bool :=
  match cfg.defaultModelRatio modelName with
  | none => true
  | some defaultRatio => !Float64.eq currentRatio defaultRatio

/-- Cache creation tokens told from the cost that OpenRouter reports. -/
def calcOpenRouterCacheCreateTokens (usage : Usage F) (price : PriceData F) : ℤ :=
  if Float64.eq price.cacheCreationRatio (Float64.ofInt 1) then 0
  else
    let quotaPrice := price.modelRatio / cfg.quotaPerUnit
    let promptCacheCreatePrice := quotaPrice * price.cacheCreationRatio
    let promptCacheReadPrice := quotaPrice * price.cacheRatio
    let completionPrice := quotaPrice * price.completionRatio
    let cost := usage.cost.getD (Float64.ofInt 0)
    Float64.toInt (Float64.round
      ((cost - Float64.ofInt usage.promptTokens * quotaPrice +
          Float64.ofInt usage.cachedTokens * (quotaPrice - promptCacheReadPrice) -
          Float64.ofInt usage.completionTokens * completionPrice) /
        (promptCacheCreatePrice - quotaPrice)))

/-- Cache creation tokens of a Claude request.  `usage.Cost != 0` compares an interface value
with the int 0, which no decoded cost equals, so it is always true. -/
def claudeCacheCreationTokens (price : PriceData F) (channelType : ℤ) (modelName : String)
    (usage : Usage F) : ℤ :=
  let isUsingCustomSettings := price.usePrice || hasCustomModelRatio cfg modelName price.modelRatio
  let maybe := calcOpenRouterCacheCreateTokens cfg usage price
  if channelType = ChannelTypeOpenRouter ∧ usage.cachedCreationTokens = 0 ∧
      Float64.eq price.cacheCreationRatio (Float64.ofInt 1) = false ∧
      isUsingCustomSettings = false ∧ 0 ≤ maybe ∧
      maybe ≤ usage.promptTokens - usage.cachedTokens then maybe
  else usage.cachedCreationTokens

/-- Prompt tokens of a Claude request; OpenRouter counts the cached ones among them. -/
def claudePromptTokens (price : PriceData F) (channelType : ℤ) (modelName : String)
    (usage : Usage F) : ℤ :=
  if channelType = ChannelTypeOpenRouter then
    usage.promptTokens - usage.cachedTokens -
      claudeCacheCreationTokens cfg price channelType modelName usage
  else usage.promptTokens

/-- The `calculateQuota` of `PostClaudeConsumeQuota`, but for its minimum. -/
def claudeCalculateQuota (price : PriceData F) (channelType : ℤ) (modelName : String)
    (usage : Usage F) : F :=
  let promptTokens := claudePromptTokens cfg price channelType modelName usage
  let cacheCreationTokens := claudeCacheCreationTokens cfg price channelType modelName usage
  let remaining := cacheCreationTokens - usage.claudeCacheCreation5mTokens -
    usage.claudeCacheCreation1hTokens
  if price.usePrice then price.modelPrice * cfg.quotaPerUnit * price.groupRatio
  else
    let quota := Float64.ofInt promptTokens + Float64.ofInt usage.cachedTokens * price.cacheRatio
    let quota := quota +
      Float64.ofInt usage.claudeCacheCreation5mTokens * price.cacheCreation5mRatio
    let quota := quota +
      Float64.ofInt usage.claudeCacheCreation1hTokens * price.cacheCreation1hRatio
    let quota :=
      if 0 < remaining then quota + Float64.ofInt remaining * price.cacheCreationRatio
      else quota
    let quota := quota + Float64.ofInt usage.completionTokens * price.completionRatio
    quota * price.groupRatio * price.modelRatio

/-- The quota that `PostClaudeConsumeQuota` charges. -/
def claudeQuota (price : PriceData F) (channelType : ℤ) (modelName : String)
    (usage : Usage F) : ℤ :=
  let promptTokens := claudePromptTokens cfg price channelType modelName usage
  let calculated := claudeCalculateQuota cfg price channelType modelName usage
  let calculated :=
    if Float64.eq price.modelRatio (Float64.ofInt 0) = false ∧
        Float64.le calculated (Float64.ofInt 0) = true then Float64.ofInt 1
    else calculated
  if promptTokens + usage.completionTokens = 0 then 0 else Float64.toInt calculated

/-- `QuotaInfo`, with the token details flattened. -/
structure QuotaInfo (F : Type) where
  inputTextTokens : ℤ
  inputAudioTokens : ℤ
  outputTextTokens : ℤ
  outputAudioTokens : ℤ
  modelName : String
  usePrice : Bool
  modelPrice : F
  modelRatio : F
  groupRatio : F

def calculateAudioQuota (info : QuotaInfo F) : ℤ :=
  let groupRatio := Float64.toDecimal info.groupRatio
  if info.usePrice then
    (Float64.toDecimal info.modelPrice * Float64.toDecimal cfg.quotaPerUnit *
      groupRatio).intPart
  else
    let completionRatio := Float64.toDecimal (cfg.completionRatio info.modelName)
    let audioRatio := Float64.toDecimal (cfg.audioRatio info.modelName)
    let audioCompletionRatio := Float64.toDecimal (cfg.audioCompletionRatio info.modelName)
    let ratio := groupRatio * Float64.toDecimal info.modelRatio
    let quota := Decimal.ofInt info.inputTextTokens +
      Decimal.ofInt info.outputTextTokens * completionRatio +
      Decimal.ofInt info.inputAudioTokens * audioRatio +
      Decimal.ofInt info.outputAudioTokens * audioRatio * audioCompletionRatio
    let quota := quota * ratio
    let quota := if !ratio.isZero && quota.le Decimal.zero then Decimal.ofInt 1 else quota
    quota.round.intPart

/-- The quota that `PostAudioConsumeQuota` charges.  It hands no model price on, so a model
with a price costs nothing here. -/
def audioQuota (price : PriceData F) (modelName : String) (usage : Usage F) : ℤ :=
  if usage.totalTokens = 0 then 0
  else
    calculateAudioQuota cfg
      { inputTextTokens := usage.promptTextTokens
        inputAudioTokens := usage.promptAudioTokens
        outputTextTokens := usage.completionTextTokens
        outputAudioTokens := usage.completionAudioTokens
        modelName := modelName
        usePrice := price.usePrice
        modelPrice := Float64.ofInt 0
        modelRatio := price.modelRatio
        groupRatio := price.groupRatio }

end

end NewApi.Model
