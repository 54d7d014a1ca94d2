import NewApi.Model.ExactQuota
import NewApi.Model.RealtimeBalance
import NewApi.Model.TextQuota

/-!
# An Anthropic response under two protocols

The response of an Anthropic channel is settled by `PostClaudeConsumeQuota` for a client that
speaks the Claude format and by `postConsumeQuota` for one that speaks that of OpenAI.  The first
charges the tokens that are cached for five minutes and for an hour at ratios of their own, and
drops what is left of an integer; the second charges them all at one ratio, and rounds.  The first
computes with floating point, the second with decimals.
-/

namespace NewApi.Model

open NewApi.Lib NewApi.Lib.Strings

section

variable {F : Type} [Float64 F]

/-- The usage that `HandleClaudeResponseData` tells of a response. -/
def anthropicUsage (F : Type) (inputTokens outputTokens cacheReadInputTokens
    cacheCreationInputTokens cacheCreation5mTokens cacheCreation1hTokens : ℤ) : Usage F :=
  { Usage.empty with
    promptTokens := inputTokens
    completionTokens := outputTokens
    totalTokens := inputTokens + outputTokens
    cachedTokens := cacheReadInputTokens
    cachedCreationTokens := cacheCreationInputTokens
    claudeCacheCreation5mTokens := cacheCreation5mTokens
    claudeCacheCreation1hTokens := cacheCreation1hTokens }

variable (cfg : PriceSettings F) (price : PriceData F) (modelName : String)
  (input output cacheRead creation creation5m creation1h : ℤ)

/-- What the tokens cost at the one ratio of the cache creation. -/
def plainAmount : ℚ :=
  (input + cacheRead * value price.cacheRatio + creation * value price.cacheCreationRatio +
    output * value price.completionRatio) * (value price.modelRatio * value price.groupRatio)

/-- What the ratios of the Claude settlement add for the cached tokens. -/
def cacheSurcharge : ℚ :=
  (creation5m * value price.cacheCreation5mRatio + creation1h * value price.cacheCreation1hRatio +
      (max 0 (creation - creation5m - creation1h) : ℤ) * value price.cacheCreationRatio -
      creation * value price.cacheCreationRatio) *
    (value price.modelRatio * value price.groupRatio)

theorem toRat_tokensWithRatio (tokens : ℤ) (ratio : F) :
    (tokensWithRatio tokens ratio).toRat = tokens * value ratio := by
  unfold tokensWithRatio
  split
  case isTrue =>
    rw [Decimal.toRat_mul, Decimal.toRat_ofInt]
    rfl
  case isFalse hzero =>
    rw [not_not.1 hzero, Int.cast_zero, zero_mul]
    exact (Decimal.isZero_iff _).1 rfl

variable {price}

/-- The text settlement of the response, but for the minimum. -/
theorem toRat_tokenQuota_anthropic (hratio : price.usePrice = false) :
    (tokenQuota cfg price ChannelTypeAnthropic modelName
        (anthropicUsage F input output cacheRead creation creation5m creation1h)).toRat =
      if value price.modelRatio * value price.groupRatio ≠ 0 ∧
          plainAmount price input output cacheRead creation ≤ 0 then 1
      else plainAmount price input output cacheRead creation := by
  have hbase : baseTokens cfg ChannelTypeAnthropic modelName
      (anthropicUsage F input output cacheRead creation creation5m creation1h) =
        Decimal.ofInt input := by
    unfold baseTokens audioInputApart anthropicUsage Usage.empty
    simp
  unfold tokenQuota
  rw [hratio, if_neg Bool.false_ne_true, hbase]
  dsimp only [anthropicUsage, Usage.empty]
  generalize hquota : ((Decimal.ofInt input + tokensWithRatio cacheRead price.cacheRatio +
      tokensWithRatio 0 price.imageRatio + tokensWithRatio creation price.cacheCreationRatio +
      Decimal.ofInt output * Float64.toDecimal price.completionRatio) * textRatio price :
        Decimal) = quota
  have hamount : quota.toRat = plainAmount price input output cacheRead creation := by
    rw [← hquota]
    simp only [Decimal.toRat_mul, Decimal.toRat_add, Decimal.toRat_ofInt, toRat_tokensWithRatio,
      toRat_textRatio]
    unfold plainAmount value
    rw [Int.cast_zero, zero_mul, add_zero]
  have hguard : (!(textRatio price).isZero && quota.le Decimal.zero) = true ↔
      value price.modelRatio * value price.groupRatio ≠ 0 ∧
        plainAmount price input output cacheRead creation ≤ 0 := by
    have hzero : Decimal.zero.toRat = 0 := (Decimal.isZero_iff _).1 rfl
    rw [Bool.and_eq_true, Bool.not_eq_true', ← Bool.not_eq_true, Decimal.isZero_iff, Decimal.le_iff,
      toRat_textRatio, hamount, hzero]
  by_cases hleast : value price.modelRatio * value price.groupRatio ≠ 0 ∧
      plainAmount price input output cacheRead creation ≤ 0
  · rw [if_pos hleast, if_pos (hguard.2 hleast), Decimal.toRat_ofInt, Int.cast_one]
  · rw [if_neg hleast, if_neg (fun h => hleast (hguard.1 h)), hamount]

/-- What the text settlement rounds. -/
def openAIAmount (price : PriceData F) (input output cacheRead creation : ℤ) : ℚ :=
  (if plainAmount price input output cacheRead creation ≤ 0 then 1
    else plainAmount price input output cacheRead creation) * otherProduct price.otherRatios

theorem claudePromptTokens_anthropic (price : PriceData F) :
    claudePromptTokens cfg price ChannelTypeAnthropic modelName
      (anthropicUsage F input output cacheRead creation creation5m creation1h) = input := by
  unfold claudePromptTokens
  exact if_neg (by decide)

/-- Without a tool, and with a model that does not search by itself, there is no tool fee. -/
theorem toolFees_anthropic (price : PriceData F) (searchContextSize : String)
    (hpreview : hasSuffix modelName "search-preview" = false) :
    toolFees cfg price modelName ⟨none, searchContextSize, none⟩
      (anthropicUsage F input output cacheRead creation creation5m creation1h) = 0 := by
  have hzero : Decimal.zero.toRat = 0 := (Decimal.isZero_iff _).1 rfl
  have haudio : audioInputApart cfg modelName
      (anthropicUsage F input output cacheRead creation creation5m creation1h) = false := rfl
  unfold toolFees webSearchQuota fileSearchQuota audioInputQuota imageGenerationCallQuota
  dsimp only [Option.bind_none]
  rw [hpreview, haudio, Bool.and_false, if_neg Bool.false_ne_true, if_neg Bool.false_ne_true, hzero]
  norm_num

/-- A response without tokens is free for a client that speaks the format of OpenAI. -/
theorem textQuota_of_unused (price : PriceData F) (ctx : ToolContext) (htokens : input + output = 0) :
    textQuota cfg price ChannelTypeAnthropic modelName ctx
      (anthropicUsage F input output cacheRead creation creation5m creation1h) = 0 := by
  rw [textQuota_eq]
  exact if_pos htokens

/-- Where tokens are counted and no ratio is zero, the text quota rounds the amount, to at least
one. -/
theorem textQuota_anthropic (ctx : ToolContext) (hratio : price.usePrice = false)
    (htools : toolFees cfg price modelName ctx
      (anthropicUsage F input output cacheRead creation creation5m creation1h) = 0)
    (htokens : input + output ≠ 0) (hratios : value price.modelRatio * value price.groupRatio ≠ 0) :
    textQuota cfg price ChannelTypeAnthropic modelName ctx
        (anthropicUsage F input output cacheRead creation creation5m creation1h) =
      Decimal.atLeastOne True
        (Decimal.roundInt64 (openAIAmount price input output cacheRead creation)) := by
  have htext : (textRatio price).toRat ≠ 0 := by
    rw [toRat_textRatio]
    exact hratios
  have hcount : (anthropicUsage F input output cacheRead creation creation5m creation1h).promptTokens +
      (anthropicUsage F input output cacheRead creation creation5m creation1h).completionTokens ≠
        0 :=
    htokens
  have hleast : (if value price.modelRatio * value price.groupRatio ≠ 0 ∧
      plainAmount price input output cacheRead creation ≤ 0 then 1
      else plainAmount price input output cacheRead creation) =
        if plainAmount price input output cacheRead creation ≤ 0 then 1
        else plainAmount price input output cacheRead creation :=
    if_congr (and_iff_right hratios) rfl rfl
  rw [textQuota_eq, textBase, htools, add_zero,
    toRat_tokenQuota_anthropic cfg modelName _ _ _ _ _ _ hratio, hleast]
  unfold roundQuota openAIAmount
  rw [if_neg hcount, Decimal.atLeastOne_of htext]

/-- Where a ratio is zero, the text settlement is free. -/
theorem textQuota_of_free (ctx : ToolContext) (hratio : price.usePrice = false)
    (htools : toolFees cfg price modelName ctx
      (anthropicUsage F input output cacheRead creation creation5m creation1h) = 0)
    (hratios : value price.modelRatio * value price.groupRatio = 0) :
    textQuota cfg price ChannelTypeAnthropic modelName ctx
      (anthropicUsage F input output cacheRead creation creation5m creation1h) = 0 := by
  have hplain : plainAmount price input output cacheRead creation = 0 := by
    unfold plainAmount
    rw [hratios, mul_zero]
  have htext : (textRatio price).toRat = 0 := by
    rw [toRat_textRatio]
    exact hratios
  have hzero : Decimal.roundInt64 0 = 0 :=
    (Decimal.roundInt64_eq_zero_iff 0).2 (Decimal.vanishes_of_lt (by norm_num))
  rw [textQuota_eq, textBase, htools, add_zero,
    toRat_tokenQuota_anthropic cfg modelName _ _ _ _ _ _ hratio, hplain,
    if_neg fun h => h.1 hratios, zero_mul]
  unfold roundQuota Decimal.atLeastOne
  have hnot : ¬((textRatio price).toRat ≠ 0 ∧ (0 : ℤ) = 0) := fun h => h.1 htext
  rw [hzero, if_neg hnot, ite_self]

variable [FiniteFloat F] (price)

/-- What a Claude settlement of the response converts, but for the minimum. -/
def anthropicAmount : ℚ :=
  claudeAmount cfg price ChannelTypeAnthropic modelName
    (anthropicUsage F input output cacheRead creation creation5m creation1h)

/-- What the sums and products of floating point are off. -/
def anthropicError : ℚ :=
  anthropicAmount cfg price modelName input output cacheRead creation creation5m creation1h -
    (plainAmount price input output cacheRead creation +
      cacheSurcharge price creation creation5m creation1h)

variable {price}

/-- Where a ratio is zero, a Claude settlement charges at most its minimum. -/
theorem claudeQuota_of_free (hratio : price.usePrice = false)
    (hratios : value price.modelRatio * value price.groupRatio = 0) :
    let usage := anthropicUsage F input output cacheRead creation creation5m creation1h
    ClaudeConverts cfg price ChannelTypeAnthropic modelName usage ∧
      (claudeQuota cfg price ChannelTypeAnthropic modelName usage = 0 ∨
        claudeQuota cfg price ChannelTypeAnthropic modelName usage = 1) := by
  intro usage
  have hamount : claudeAmount cfg price ChannelTypeAnthropic modelName usage = 0 := by
    rw [mul_eq_zero, FiniteFloat.value_eq_zero_iff, FiniteFloat.value_eq_zero_iff] at hratios
    unfold claudeAmount claudeCalculateQuota
    dsimp only
    rw [hratio, if_neg Bool.false_ne_true]
    rcases hratios with hmodel | hgroup
    · exact FiniteFloat.mul_eq_zero (.inr hmodel)
    · exact FiniteFloat.mul_eq_zero (.inl (FiniteFloat.mul_eq_zero (.inr hgroup)))
  have hleast : claudeLeast price (claudeAmount cfg price ChannelTypeAnthropic modelName usage) = 0 ∨
      claudeLeast price (claudeAmount cfg price ChannelTypeAnthropic modelName usage) = 1 := by
    rw [hamount, claudeLeast]
    split
    case isTrue => exact .inr rfl
    case isFalse => exact .inl rfl
  have hzero : Decimal.truncate 0 = 0 := by exact_mod_cast Decimal.truncate_intCast 0
  have hone : Decimal.truncate 1 = 1 := by exact_mod_cast Decimal.truncate_intCast 1
  have hconverts : ClaudeConverts cfg price ChannelTypeAnthropic modelName usage := by
    refine .inr ?_
    rcases hleast with h | h
    · rw [h, hzero]
      decide
    · rw [h, hone]
      decide
  refine ⟨hconverts, ?_⟩
  rw [claudeQuota_eq cfg hconverts]
  rcases hleast with h | h
  · rw [h, hzero, ite_self]
    exact .inl rfl
  · rw [h, hone]
    split
    · exact .inl rfl
    · exact .inr rfl

end

end NewApi.Model
