import NewApi.Model.SettledQuota
import NewApi.Model.TextQuota

/-!
# The fees on the log

`postConsumeQuota` computes the fee of every tool and writes a line about it into the log.  The sum
that it charges has all of these fees but that of the Claude web search.
-/

namespace NewApi.Model

open NewApi.Lib NewApi.Lib.Strings

/-- A line of the log about a tool, with the quota that it announces. -/
inductive FeeLine
  | webSearch (callCount : ℤ) (searchContextSize : String) (quota : Decimal)
  | claudeWebSearch (callCount : ℤ) (quota : Decimal)
  | fileSearch (callCount : ℤ) (quota : Decimal)
  | imageGenerationCall (quota : Decimal)
  | audioInput (quota : Decimal)

def FeeLine.quota : FeeLine → Decimal
  | .webSearch _ _ quota => quota
  | .claudeWebSearch _ quota => quota
  | .fileSearch _ quota => quota
  | .imageGenerationCall quota => quota
  | .audioInput quota => quota

/-- What some lines announce together. -/
def announced (lines : List FeeLine) : ℚ :=
  (lines.map fun line => line.quota.toRat).sum

@[simp] theorem announced_nil : announced [] = 0 := rfl

theorem announced_append (first second : List FeeLine) :
    announced (first ++ second) = announced first + announced second := by
  unfold announced
  rw [List.map_append, List.sum_append]

section

variable {F : Type} [Float64 F]

/-- `GetClaudeWebSearchPricePerThousand`. -/
def getClaudeWebSearchPricePerThousand (F : Type) [Float64 F] : F :=
  Float64.ofInt 10

variable (cfg : PriceSettings F)

/-- Quota of the Claude web search. -/
def claudeWebSearchQuota (price : PriceData F) (callCount : ℤ) : Decimal :=
  if 0 < callCount then
    Float64.toDecimal (getClaudeWebSearchPricePerThousand F) / Decimal.ofInt 1000 *
      Float64.toDecimal price.groupRatio * Float64.toDecimal cfg.quotaPerUnit * Decimal.ofInt callCount
  else Decimal.zero

/-- The line about the web search. -/
def webSearchLine (price : PriceData F) (modelName : String) (ctx : ToolContext) : List FeeLine :=
  match ctx.responsesUsageInfo with
  | some tools =>
      match tools.webSearchPreview with
      | some (callCount, searchContextSize) =>
          if 0 < callCount then
            [.webSearch callCount searchContextSize (webSearchQuota cfg price modelName ctx)]
          else []
      | none => []
  | none =>
      if hasSuffix modelName "search-preview" then
        [.webSearch 1
          (if ctx.chatCompletionWebSearchContextSize = "" then "medium"
            else ctx.chatCompletionWebSearchContextSize)
          (webSearchQuota cfg price modelName ctx)]
      else []

def claudeWebSearchLine (price : PriceData F) (callCount : ℤ) : List FeeLine :=
  if 0 < callCount then [.claudeWebSearch callCount (claudeWebSearchQuota cfg price callCount)] else []

def fileSearchLine (price : PriceData F) (ctx : ToolContext) : List FeeLine :=
  match ctx.responsesUsageInfo.bind ResponsesUsageInfo.fileSearch with
  | some callCount =>
      if 0 < callCount then [.fileSearch callCount (fileSearchQuota cfg price ctx)] else []
  | none => []

def imageGenerationCallLine (price : PriceData F) (ctx : ToolContext) : List FeeLine :=
  match ctx.imageGenerationCall with
  | some _ => [.imageGenerationCall (imageGenerationCallQuota cfg price ctx)]
  | none => []

def audioInputLine (price : PriceData F) (modelName : String) (usage : Usage F) : List FeeLine :=
  if !price.usePrice && audioInputApart cfg modelName usage then
    [.audioInput (audioInputQuota cfg price modelName usage)]
  else []

/-- The lines about tools in the order of `extraContent`. -/
def feeLines (price : PriceData F) (modelName : String) (ctx : ToolContext)
    (claudeWebSearchRequests : ℤ) (usage : Usage F) : List FeeLine :=
  webSearchLine cfg price modelName ctx ++ claudeWebSearchLine cfg price claudeWebSearchRequests ++
    fileSearchLine cfg price ctx ++ imageGenerationCallLine cfg price ctx ++
    audioInputLine cfg price modelName usage

variable (price : PriceData F) (modelName : String) (ctx : ToolContext) (usage : Usage F)

/-- A fee that is not announced is zero. -/
theorem announced_webSearchLine :
    announced (webSearchLine cfg price modelName ctx) =
      (webSearchQuota cfg price modelName ctx).toRat := by
  have hzero : Decimal.zero.toRat = 0 := (Decimal.isZero_iff _).1 rfl
  unfold webSearchLine
  split
  case h_1 tools htools =>
    split
    case h_1 callCount searchContextSize hsearch =>
      split
      case isTrue hcalled => exact add_zero _
      case isFalse hnone =>
        unfold webSearchQuota
        rw [htools]
        dsimp only
        rw [hsearch]
        dsimp only
        rw [if_neg hnone, hzero]
        rfl
    case h_2 hsearch =>
      unfold webSearchQuota
      rw [htools]
      dsimp only
      rw [hsearch, hzero]
      rfl
  case h_2 hnone =>
    split
    case isTrue hpreview => exact add_zero _
    case isFalse hother =>
      unfold webSearchQuota
      rw [hnone]
      dsimp only
      rw [if_neg hother, hzero]
      rfl

theorem announced_claudeWebSearchLine (callCount : ℤ) :
    announced (claudeWebSearchLine cfg price callCount) =
      (claudeWebSearchQuota cfg price callCount).toRat := by
  have hzero : Decimal.zero.toRat = 0 := (Decimal.isZero_iff _).1 rfl
  unfold claudeWebSearchLine
  split
  case isTrue hcalled => exact add_zero _
  case isFalse hnone =>
    unfold claudeWebSearchQuota
    rw [if_neg hnone, hzero]
    rfl

theorem announced_fileSearchLine :
    announced (fileSearchLine cfg price ctx) = (fileSearchQuota cfg price ctx).toRat := by
  have hzero : Decimal.zero.toRat = 0 := (Decimal.isZero_iff _).1 rfl
  unfold fileSearchLine
  split
  case h_1 callCount hsearch =>
    split
    case isTrue hcalled => exact add_zero _
    case isFalse hnone =>
      unfold fileSearchQuota
      rw [hsearch]
      dsimp only
      rw [if_neg hnone, hzero]
      rfl
  case h_2 hsearch =>
    unfold fileSearchQuota
    rw [hsearch, hzero]
    rfl

theorem announced_imageGenerationCallLine :
    announced (imageGenerationCallLine cfg price ctx) =
      (imageGenerationCallQuota cfg price ctx).toRat := by
  have hzero : Decimal.zero.toRat = 0 := (Decimal.isZero_iff _).1 rfl
  unfold imageGenerationCallLine
  split
  case h_1 => exact add_zero _
  case h_2 hnone =>
    unfold imageGenerationCallQuota
    rw [hnone, hzero]
    rfl

theorem announced_audioInputLine :
    announced (audioInputLine cfg price modelName usage) =
      (audioInputQuota cfg price modelName usage).toRat := by
  have hzero : Decimal.zero.toRat = 0 := (Decimal.isZero_iff _).1 rfl
  unfold audioInputLine
  split
  case isTrue => exact add_zero _
  case isFalse hnone =>
    unfold audioInputQuota
    rw [if_neg hnone, hzero]
    rfl

/-- The lines announce the tool fees and that of the Claude web search. -/
theorem announced_feeLines (claudeWebSearchRequests : ℤ) :
    announced (feeLines cfg price modelName ctx claudeWebSearchRequests usage) =
      toolFees cfg price modelName ctx usage +
        (claudeWebSearchQuota cfg price claudeWebSearchRequests).toRat := by
  unfold feeLines toolFees
  rw [announced_append, announced_append, announced_append, announced_append,
    announced_webSearchLine, announced_claudeWebSearchLine, announced_fileSearchLine,
    announced_imageGenerationCallLine, announced_audioInputLine]
  ring

end

theorem samplePrice_ratio_pos : 0 < (textRatio samplePriceData).toRat := by
  show 0 < (Decimal.ofInt 1 * Decimal.ofInt 1).toRat
  rw [Decimal.toRat_mul, Decimal.toRat_ofInt]
  norm_num

theorem sampleTokens_cost :
    (tokenQuota sampleRelaySettings.toPriceSettings samplePriceData ChannelTypeAnthropic
      "claude-3-5-haiku" (promptUsage Decimal 4)).toRat = 4 := by
  have hquota : tokenQuota sampleRelaySettings.toPriceSettings samplePriceData ChannelTypeAnthropic
    "claude-3-5-haiku" (promptUsage Decimal 4) = Decimal.ofInt 4 := by decide
  rw [hquota, Decimal.toRat_ofInt]
  norm_num

end NewApi.Model
