import NewApi.Lib.ExactFloat
import NewApi.Lib.RoundingStep
import NewApi.Model.Settlement

/-!
# Claude and audio quotas in exact numbers

`PostClaudeConsumeQuota` computes with floating point and drops what is left of an integer.
`PostAudioConsumeQuota` rounds a decimal.  Both charge at least one for an amount that is not
positive, the one where the model has a ratio, the other where the product of the ratios is not
zero.
-/

namespace NewApi.Model

open NewApi.Lib
open FiniteFloat (val)

section

variable {F : Type} [Float64 F] (cfg : PriceSettings F)

theorem toRat_textRatio (price : PriceData F) :
    (textRatio price).toRat = value price.modelRatio * value price.groupRatio :=
  Decimal.toRat_mul _ _

/-- What an audio settlement rounds for a model without a price, but for the minimum. -/
def audioAmount (price : PriceData F) (modelName : String) (usage : Usage F) : ℚ :=
  (usage.promptTextTokens + usage.completionTextTokens * value (cfg.completionRatio modelName) +
      usage.promptAudioTokens * value (cfg.audioRatio modelName) +
      usage.completionAudioTokens * value (cfg.audioRatio modelName) *
        value (cfg.audioCompletionRatio modelName)) *
    (value price.groupRatio * value price.modelRatio)

/-- At least one is charged where the product of the ratios is not zero. -/
def audioLeast (price : PriceData F) (amount : ℚ) : ℚ :=
  if value price.groupRatio * value price.modelRatio ≠ 0 ∧ amount ≤ 0 then 1 else amount

variable [FiniteFloat F]

/-- What a Claude settlement converts to an integer, but for the minimum: sums and products are those
of floating point. -/
def claudeAmount (price : PriceData F) (channelType : ℤ) (modelName : String) (usage : Usage F) : ℚ :=
  val (claudeCalculateQuota cfg price channelType modelName usage)

/-- At least one is charged where the model has a ratio. -/
def claudeLeast (price : PriceData F) (amount : ℚ) : ℚ :=
  if val price.modelRatio ≠ 0 ∧ amount ≤ 0 then 1 else amount

/-- Where a Claude settlement uses what it converts, that is in the range of an `int`. -/
def ClaudeConverts (price : PriceData F) (channelType : ℤ) (modelName : String) (usage : Usage F) :
    Prop :=
  claudePromptTokens cfg price channelType modelName usage + usage.completionTokens = 0 ∨
    Strings.InInt64
      (Decimal.truncate (claudeLeast price (claudeAmount cfg price channelType modelName usage)))

/-- The number that is converted is the amount, or the minimum. -/
theorem claudeQuota_toInt (price : PriceData F) (channelType : ℤ) (modelName : String)
    (usage : Usage F) :
    ∃ calculated : F,
      val calculated = claudeLeast price (claudeAmount cfg price channelType modelName usage) ∧
      claudeQuota cfg price channelType modelName usage =
        if claudePromptTokens cfg price channelType modelName usage + usage.completionTokens = 0 then 0
        else Float64.toInt calculated := by
  have hguard : (Float64.eq price.modelRatio (Float64.ofInt 0) = false ∧
      Float64.le (claudeCalculateQuota cfg price channelType modelName usage) (Float64.ofInt 0) =
        true) ↔
      val price.modelRatio ≠ 0 ∧ claudeAmount cfg price channelType modelName usage ≤ 0 := by
    rw [← Bool.not_eq_true, FiniteFloat.eq_iff, FiniteFloat.le_iff, FiniteFloat.val_zero]
    rfl
  refine ⟨_, ?_, rfl⟩
  unfold claudeLeast
  by_cases hleast : val price.modelRatio ≠ 0 ∧
      claudeAmount cfg price channelType modelName usage ≤ 0
  · rw [if_pos hleast, if_pos (hguard.2 hleast), FiniteFloat.val_ofInt 1 (by decide), Int.cast_one]
  · rw [if_neg hleast, if_neg (fun h => hleast (hguard.1 h))]
    rfl

theorem claudeQuota_eq {price : PriceData F} {channelType : ℤ} {modelName : String}
    {usage : Usage F} (hconverts : ClaudeConverts cfg price channelType modelName usage) :
    claudeQuota cfg price channelType modelName usage =
      if claudePromptTokens cfg price channelType modelName usage + usage.completionTokens = 0 then 0
      else
        Decimal.truncate (claudeLeast price (claudeAmount cfg price channelType modelName usage)) := by
  obtain ⟨calculated, hval, hquota⟩ := claudeQuota_toInt cfg price channelType modelName usage
  rw [hquota]
  split
  case isTrue => rfl
  case isFalse hsome =>
    rw [← hval]
    exact FiniteFloat.toInt_eq calculated (hval ▸ hconverts.resolve_left hsome)

theorem claudeQuota_zero_iff (price : PriceData F) (channelType : ℤ) (modelName : String)
    (usage : Usage F) :
    claudeQuota cfg price channelType modelName usage = 0 ↔
      claudePromptTokens cfg price channelType modelName usage + usage.completionTokens = 0 ∨
        Decimal.truncate
          (claudeLeast price (claudeAmount cfg price channelType modelName usage)) = 0 := by
  obtain ⟨calculated, hval, hquota⟩ := claudeQuota_toInt cfg price channelType modelName usage
  rw [hquota, ← hval]
  split
  case isTrue hnone => exact iff_of_true rfl (.inl hnone)
  case isFalse hsome => rw [or_iff_right hsome, FiniteFloat.toInt_eq_zero_iff]

/-- A model with a price costs nothing. -/
theorem audioQuota_eq (price : PriceData F) (modelName : String) (usage : Usage F) :
    audioQuota cfg price modelName usage =
      if usage.totalTokens = 0 then 0
      else if price.usePrice then 0
      else Decimal.roundInt64 (audioLeast price (audioAmount cfg price modelName usage)) := by
  unfold audioQuota calculateAudioQuota
  dsimp only
  refine if_congr Iff.rfl rfl (if_congr Iff.rfl ?_ ?_)
  · have hzero : (Float64.toDecimal (Float64.ofInt 0 : F)).toRat = 0 := FiniteFloat.value_zero
    rw [Decimal.intPart_eq, Decimal.toRat_mul, Decimal.toRat_mul, hzero, zero_mul, zero_mul]
    rfl
  · rw [Decimal.round_intPart]
    refine congrArg Decimal.roundInt64 ?_
    generalize hratio : (Float64.toDecimal price.groupRatio * Float64.toDecimal price.modelRatio :
      Decimal) = ratio
    have hvalue : ratio.toRat = value price.groupRatio * value price.modelRatio := by
      rw [← hratio, Decimal.toRat_mul]
      rfl
    generalize hquota : ((Decimal.ofInt usage.promptTextTokens +
        Decimal.ofInt usage.completionTextTokens * Float64.toDecimal (cfg.completionRatio modelName) +
        Decimal.ofInt usage.promptAudioTokens * Float64.toDecimal (cfg.audioRatio modelName) +
        Decimal.ofInt usage.completionAudioTokens * Float64.toDecimal (cfg.audioRatio modelName) *
          Float64.toDecimal (cfg.audioCompletionRatio modelName)) * ratio : Decimal) = quota
    have hamount : quota.toRat = audioAmount cfg price modelName usage := by
      rw [← hquota]
      simp only [Decimal.toRat_mul, Decimal.toRat_add, Decimal.toRat_ofInt, hvalue]
      rfl
    have hguard : (!ratio.isZero && quota.le Decimal.zero) = true ↔
        value price.groupRatio * value price.modelRatio ≠ 0 ∧
          audioAmount cfg price modelName usage ≤ 0 := by
      have hzero : Decimal.zero.toRat = 0 := (Decimal.isZero_iff _).1 rfl
      rw [Bool.and_eq_true, Bool.not_eq_true', ← Bool.not_eq_true, Decimal.isZero_iff, Decimal.le_iff,
        hvalue, hamount, hzero]
    unfold audioLeast
    by_cases hfloor : value price.groupRatio * value price.modelRatio ≠ 0 ∧
        audioAmount cfg price modelName usage ≤ 0
    · rw [if_pos hfloor, if_pos (hguard.2 hfloor), Decimal.toRat_ofInt, Int.cast_one]
    · rw [if_neg hfloor, if_neg (fun h => hfloor (hguard.1 h)), hamount]

end

end NewApi.Model
