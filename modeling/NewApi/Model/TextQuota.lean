import NewApi.Lib.RoundingStep
import NewApi.Model.Settlement

/-!
# The quota of a text request in exact numbers

`postConsumeQuota` computes with decimals.  Its quota is the rounding of an exact amount, the tokens
or the call and the tool fees, times the product of the other ratios.
-/

namespace NewApi.Model

open NewApi.Lib

section

variable {F : Type} [Float64 F] (cfg : PriceSettings F)

/-- The product of the other ratios. -/
def otherProduct (otherRatios : List (String × F)) : ℚ :=
  (otherRatios.map fun other => (Float64.toDecimal other.2).toRat).prod

/-- The tool fees of a request. -/
def toolFees (price : PriceData F) (modelName : String) (ctx : ToolContext) (usage : Usage F) : ℚ :=
  (webSearchQuota cfg price modelName ctx).toRat + (fileSearchQuota cfg price ctx).toRat +
    (audioInputQuota cfg price modelName usage).toRat + (imageGenerationCallQuota cfg price ctx).toRat

/-- What is rounded to the quota, but for the other ratios. -/
def textBase (price : PriceData F) (channelType : ℤ) (modelName : String) (ctx : ToolContext)
    (usage : Usage F) : ℚ :=
  (tokenQuota cfg price channelType modelName usage).toRat + toolFees cfg price modelName ctx usage

/-- The quota of an amount: no tokens cost nothing, and where the ratio is not zero at least one is
charged. -/
def roundQuota (price : PriceData F) (usage : Usage F) (amount : ℚ) : ℤ :=
  if usage.promptTokens + usage.completionTokens = 0 then 0
  else Decimal.atLeastOne ((textRatio price).toRat ≠ 0) (Decimal.roundInt64 amount)

@[simp] theorem otherProduct_nil : otherProduct ([] : List (String × F)) = 1 := rfl

@[simp] theorem otherProduct_cons (other : String × F) (others : List (String × F)) :
    otherProduct (other :: others) = (Float64.toDecimal other.2).toRat * otherProduct others :=
  List.prod_cons

theorem otherProduct_append (first second : List (String × F)) :
    otherProduct (first ++ second) = otherProduct first * otherProduct second := by
  unfold otherProduct
  rw [List.map_append, List.prod_append]

/-- Multiplying by the ratios one after another is multiplying by their product. -/
theorem toRat_foldl_others (others : List (String × F)) (quota : Decimal) :
    (others.foldl (fun quota other => quota * Float64.toDecimal other.2) quota).toRat =
      quota.toRat * otherProduct others := by
  induction others generalizing quota with
  | nil => exact (mul_one _).symm
  | cons other others ih =>
      rw [List.foldl_cons, ih, Decimal.toRat_mul, otherProduct_cons, mul_assoc]

theorem textQuota_eq (price : PriceData F) (channelType : ℤ) (modelName : String)
    (ctx : ToolContext) (usage : Usage F) :
    textQuota cfg price channelType modelName ctx usage =
      roundQuota price usage
        (textBase cfg price channelType modelName ctx usage * otherProduct price.otherRatios) := by
  have hbase : (tokenQuota cfg price channelType modelName usage +
      webSearchQuota cfg price modelName ctx + fileSearchQuota cfg price ctx +
      audioInputQuota cfg price modelName usage + imageGenerationCallQuota cfg price ctx).toRat =
      textBase cfg price channelType modelName ctx usage := by
    rw [Decimal.toRat_add, Decimal.toRat_add, Decimal.toRat_add, Decimal.toRat_add]
    unfold textBase toolFees
    ring
  have hratio : (!(textRatio price).isZero) = true ↔ (textRatio price).toRat ≠ 0 := by
    rw [Bool.not_eq_true', ← Bool.not_eq_true, Decimal.isZero_iff]
  unfold textQuota roundQuota Decimal.atLeastOne
  dsimp only
  rw [Decimal.round_intPart, toRat_foldl_others, hbase]
  refine if_congr Iff.rfl rfl (if_congr ?_ rfl rfl)
  rw [Bool.and_eq_true, hratio, decide_eq_true_eq]

/-- Where there are tokens, an amount is charged as an integer. -/
theorem roundQuota_eq_iff {price : PriceData F} {usage : Usage F} (amount : ℚ) (n : ℤ) :
    roundQuota price usage amount = n ↔
      if usage.promptTokens + usage.completionTokens = 0 then n = 0
      else Strings.InInt64 n ∧ Decimal.ChargedAs ((textRatio price).toRat ≠ 0) n amount := by
  unfold roundQuota
  split
  · exact eq_comm
  · exact Decimal.atLeastOne_roundInt64_eq_iff _ n amount

/-- A surplus is not charged where there are no tokens, or where it is lost. -/
theorem roundQuota_add_eq_iff {price : PriceData F} {usage : Usage F} (amount surplus : ℚ) :
    roundQuota price usage (amount + surplus) = roundQuota price usage amount ↔
      usage.promptTokens + usage.completionTokens = 0 ∨
        Decimal.SurplusLost ((textRatio price).toRat ≠ 0) amount surplus := by
  unfold roundQuota
  split
  case isTrue hnone => exact iff_of_true rfl (.inl hnone)
  case isFalse hsome => rw [or_iff_right hsome, Decimal.atLeastOne_add_eq_iff]

end

end NewApi.Model
