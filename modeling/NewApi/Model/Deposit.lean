import NewApi.Model.RealtimeBalance
import NewApi.Model.ValidRequest

/-!
# The estimated deposit

`ModelPriceHelper` adds the token limit of a request to its prompt tokens and converts the price of
the sum to an `int`.  Limits come from unsigned fields, which only the chat format bounds and only
in one of its two fields, so that the conversion, the sum or the price may leave the range of
`int`.
-/

namespace NewApi.Model

open NewApi.Lib
open ExactArithmetic (val)

/-! ## Machine integers -/

/-- The range of `int`. -/
def IsInt (n : ℤ) : Prop :=
  -2 ^ 63 ≤ n ∧ n < 2 ^ 63

instance (n : ℤ) : Decidable (IsInt n) :=
  inferInstanceAs (Decidable (_ ∧ _))

/-- A sum wraps. -/
def addInt (m n : ℤ) : ℤ :=
  (m + n).bmod (2 ^ 64)

theorem bmod_of_small {n : ℤ} (hlow : 0 ≤ n) (hhigh : n < 2 ^ 63) : n.bmod (2 ^ 64) = n :=
  Int.bmod_eq_of_le (by norm_num; omega) (by norm_num; omega)

theorem bmod_of_large {n : ℤ} (hlow : 2 ^ 63 ≤ n) (hhigh : n < 2 ^ 64) :
    n.bmod (2 ^ 64) = n - 2 ^ 64 := by
  rw [← Int.sub_bmod_right n (2 ^ 64)]
  exact Int.bmod_eq_of_le (by norm_num; omega) (by norm_num; omega)

/-- An unsigned number keeps its value in the signed type when it is below the sign bit. -/
theorem intOfUint_eq_iff (n : UInt64) : intOfUint n = n.toNat ↔ n.toNat < 2 ^ 63 := by
  have hbound : n.toNat < 2 ^ 64 := n.toNat_lt
  unfold intOfUint
  constructor
  · intro h
    by_contra hlarge
    rw [bmod_of_large (by omega) (by omega)] at h
    omega
  · intro h
    exact bmod_of_small (by omega) (by omega)

section

variable {F : Type} [Float64 F]

/-- The conversion of a float to an `int`, which has no result out of the range. -/
def floatToInt (x : F) : Option ℤ :=
  if IsInt (Float64.toInt x) then some (Float64.toInt x) else none

variable (cfg : RealtimeSettings F) (req : RealtimeRequest) (promptTokens : ℤ)

/-- `preConsumedTokens` of `ModelPriceHelper`. -/
def preConsumedTokens (maxTokens : ℤ) : ℤ :=
  let preConsumedTokens := max promptTokens cfg.preConsumedQuota
  if maxTokens ≠ 0 then addInt preConsumedTokens maxTokens else preConsumedTokens

/-- The float that `ModelPriceHelper` converts to the quota. -/
def preConsumedFloat (maxTokens : ℤ) (price : PriceData F) : F :=
  if price.usePrice then price.modelPrice * cfg.quotaPerUnit * price.groupRatio
  else
    Float64.ofInt (preConsumedTokens cfg promptTokens maxTokens) *
      (price.modelRatio * price.groupRatio)

/-- `ModelPriceHelper` with the integers of the machine; there is no result where a conversion is
out of the range. -/
def modelPriceHelperInt (tokenMeta : TokenCountMeta F) :
    Option (Except NewAPIError (PriceData F)) :=
  match modelPriceHelper cfg req promptTokens tokenMeta with
  | .error err => some (.error err)
  | .ok price =>
      (floatToInt (preConsumedFloat cfg promptTokens tokenMeta.maxTokens price)).map fun quota =>
        .ok { price with quotaToPreConsume := if price.freeModel then 0 else quota }

end

/-! ## What is asked for -/

namespace PricedRequest

/-- The tokens that the estimate reserves. -/
def requestedTokens : PricedRequest → ℕ
  | .openAI request => max request.maxTokens.toNat request.maxCompletionTokens.toNat
  | .claude request => request.maxTokens.toNat
  | .responses request => request.maxOutputTokens.toNat
  | .image _ => 1584

/-- The tokens or images that the client asks for. -/
def count : PricedRequest → ℕ
  | .image request => request.n.toNat
  | request => request.requestedTokens

/-- The request but for what it asks for. -/
def uncounted : PricedRequest → PricedRequest
  | .openAI request => .openAI { request with maxTokens := 0, maxCompletionTokens := 0 }
  | .claude request => .claude { request with maxTokens := 0 }
  | .responses request => .responses { request with maxOutputTokens := 0 }
  | .image request => .image { request with n := 0 }

/-- Some request has been validated to this one. -/
def Accepted (request : PricedRequest) : Prop :=
  ∃ decoded, getAndValidateRequest decoded = .ok request

end PricedRequest

theorem maxTokens_eq_iff {F : Type} [Float64 F] (request : PricedRequest) :
    (fastTokenCountMetaForPricing request : TokenCountMeta F).maxTokens = request.requestedTokens ↔
      request.requestedTokens < 2 ^ 63 := by
  cases request with
  | openAI request =>
      show (if request.maxTokens < request.maxCompletionTokens then
        intOfUint request.maxCompletionTokens else intOfUint request.maxTokens) =
          ((max request.maxTokens.toNat request.maxCompletionTokens.toNat : ℕ) : ℤ) ↔
        max request.maxTokens.toNat request.maxCompletionTokens.toNat < 2 ^ 63
      by_cases hlt : request.maxTokens < request.maxCompletionTokens
      · rw [if_pos hlt, max_eq_right (UInt64.lt_iff_toNat_lt.1 hlt).le]
        exact intOfUint_eq_iff _
      · rw [if_neg hlt, max_eq_left (Nat.le_of_not_lt fun h => hlt (UInt64.lt_iff_toNat_lt.2 h))]
        exact intOfUint_eq_iff _
  | claude request =>
      dsimp only [fastTokenCountMetaForPricing, PricedRequest.requestedTokens]
      exact intOfUint_eq_iff _
  | responses request =>
      dsimp only [fastTokenCountMetaForPricing, PricedRequest.requestedTokens]
      exact intOfUint_eq_iff _
  | image request =>
      have hsmall : 1584 < 2 ^ 63 := by decide
      exact iff_of_true rfl hsmall

/-! ## The exact deposit -/

section

variable {F : Type} [Float64 F] [ExactArithmetic F]

namespace ImageRequest

theorem sizeRatio_pos (request : ImageRequest) : 0 < val (request.sizeRatio : F) := by
  have hone : val (Float64.ofInt 1 : F) = 1 := by rw [ExactArithmetic.val_ofInt, Int.cast_one]
  have htwo : val (Float64.ofInt 2 : F) = 2 := by rw [ExactArithmetic.val_ofInt, Int.cast_ofNat]
  have hsmall : val (Float64.ofInt 4 / Float64.ofInt 10 : F) = 4 / 10 := by
    rw [ExactArithmetic.val_div 4 10 (4 * 10 ^ 15) (by decide) (by norm_num)]
    norm_num
  have hmedium : val (Float64.ofInt 45 / Float64.ofInt 100 : F) = 45 / 100 := by
    rw [ExactArithmetic.val_div 45 100 (45 * 10 ^ 14) (by decide) (by norm_num)]
    norm_num
  unfold sizeRatio
  split
  case isFalse =>
    rw [hone]
    norm_num
  case isTrue =>
    split
    · rw [hsmall]
      norm_num
    split
    · rw [hmedium]
      norm_num
    split
    · rw [hone]
      norm_num
    split
    · rw [htwo]
      norm_num
    · rw [hone]
      norm_num

theorem qualityRatio_pos (request : ImageRequest) : 0 < val (request.qualityRatio : F) := by
  have hone : val (Float64.ofInt 1 : F) = 1 := by rw [ExactArithmetic.val_ofInt, Int.cast_one]
  have htwo : val (Float64.ofInt 2 : F) = 2 := by rw [ExactArithmetic.val_ofInt, Int.cast_ofNat]
  have hwide : val (Float64.ofInt 15 / Float64.ofInt 10 : F) = 15 / 10 := by
    rw [ExactArithmetic.val_div 15 10 (15 * 10 ^ 15) (by decide) (by norm_num)]
    norm_num
  unfold qualityRatio
  split
  case isFalse =>
    rw [hone]
    norm_num
  case isTrue =>
    split
    · rw [hwide]
      norm_num
    · rw [htwo]
      norm_num

/-- The factor of size and quality. -/
def factor (F : Type) [Float64 F] [ExactArithmetic F] (request : ImageRequest) : ℚ :=
  val (request.sizeRatio : F) * val (request.qualityRatio : F)

theorem factor_pos (request : ImageRequest) : 0 < request.factor F :=
  mul_pos request.sizeRatio_pos request.qualityRatio_pos

theorem imagePriceRatio_eq (request : ImageRequest) :
    val (request.getTokenCountMeta : TokenCountMeta F).imagePriceRatio =
      request.factor F * request.n.toNat := by
  unfold getTokenCountMeta factor
  dsimp only
  rw [ExactArithmetic.val_mul, ExactArithmetic.val_mul, ExactArithmetic.val_ofInt, Int.cast_natCast]

end ImageRequest

variable (cfg : RealtimeSettings F) (req : RealtimeRequest) (promptTokens : ℤ)
  (request : PricedRequest)

/-- What the images multiply the price of a call by. -/
def imageFactor (F : Type) [Float64 F] [ExactArithmetic F] : PricedRequest → ℚ
  | .image request => request.factor F * request.n.toNat
  | _ => 1

/-- The tokens that the deposit is for. -/
def depositTokens : ℤ :=
  max promptTokens cfg.preConsumedQuota + request.requestedTokens

/-- The price of the estimate, in quota. -/
def deposit : ℚ :=
  match cfg.modelPrice req.originModelName with
  | some modelPrice =>
      val modelPrice * imageFactor F request * val cfg.quotaPerUnit * val (handleGroupRatio cfg req)
  | none =>
      depositTokens cfg promptTokens request *
        (val (cfg.modelRatio req.originModelName).1 * val (handleGroupRatio cfg req))

/-- The model has a price, or a ratio that is configured or need not be. -/
def Priced : Prop :=
  cfg.modelPrice req.originModelName ≠ none ∨ (cfg.modelRatio req.originModelName).2.1 = true ∨
    req.acceptUnsetRatioModel = true

/-- The prices and ratios of the model are not negative. -/
structure NonnegPrices : Prop where
  modelPrice : ∀ modelPrice, cfg.modelPrice req.originModelName = some modelPrice →
    0 ≤ val modelPrice
  modelRatio : 0 ≤ val (cfg.modelRatio req.originModelName).1
  groupRatio : 0 ≤ val (handleGroupRatio cfg req)
  quotaPerUnit : 0 ≤ val cfg.quotaPerUnit

/-- What `ModelPriceHelper` says of a request: the price of a call with its images, or the ratio of
the tokens. -/
inductive PricedAs (price : PriceData F) : Prop
  | call (modelPrice : F) (hprice : cfg.modelPrice req.originModelName = some modelPrice)
      (huse : price.usePrice = true)
      (hmodelPrice : val price.modelPrice = val modelPrice * imageFactor F request)
      (hgroup : price.groupRatio = handleGroupRatio cfg req)
      (hfree : price.freeModel = true →
        val (handleGroupRatio cfg req) = 0 ∨ val price.modelPrice = 0) : PricedAs price
  | tokens (hprice : cfg.modelPrice req.originModelName = none) (huse : price.usePrice = false)
      (hmodelRatio : price.modelRatio = (cfg.modelRatio req.originModelName).1)
      (hgroup : price.groupRatio = handleGroupRatio cfg req)
      (hfree : price.freeModel = true →
        val (handleGroupRatio cfg req) = 0 ∨ val price.modelRatio = 0) : PricedAs price

variable {cfg req promptTokens request}

theorem imageFactor_pos (haccepted : request.Accepted) : 0 < imageFactor F request := by
  cases request with
  | image request =>
      obtain ⟨decoded, hdecoded⟩ := haccepted
      exact mul_pos request.factor_pos (Nat.cast_pos.2 (image_count_pos hdecoded))
  | openAI request => exact one_pos
  | claude request => exact one_pos
  | responses request => exact one_pos

/-- The images are in the price of a call. -/
theorem val_modelPrice (haccepted : request.Accepted) (modelPrice : F) :
    val (if Float64.eq (fastTokenCountMetaForPricing request : TokenCountMeta F).imagePriceRatio
        (Float64.ofInt 0) then modelPrice
      else modelPrice * (fastTokenCountMetaForPricing request : TokenCountMeta F).imagePriceRatio) =
      val modelPrice * imageFactor F request := by
  have hzero : Float64.eq (Float64.ofInt 0 : F) (Float64.ofInt 0) = true :=
    (ExactArithmetic.eq_iff _ _).2 rfl
  cases request with
  | image request =>
      have hratio := request.imagePriceRatio_eq (F := F)
      have hpos := imageFactor_pos (F := F) haccepted
      show val (if Float64.eq (request.getTokenCountMeta : TokenCountMeta F).imagePriceRatio
        (Float64.ofInt 0) then modelPrice else _) = _
      rw [if_neg]
      · rw [ExactArithmetic.val_mul]
        exact congrArg _ hratio
      · rw [ExactArithmetic.eq_iff, ExactArithmetic.val_ofInt, hratio, Int.cast_zero]
        exact hpos.ne'
  | openAI request =>
      exact (congrArg val (if_pos hzero)).trans (mul_one _).symm
  | claude request =>
      exact (congrArg val (if_pos hzero)).trans (mul_one _).symm
  | responses request =>
      exact (congrArg val (if_pos hzero)).trans (mul_one _).symm

/-- A free model costs nothing: its group ratio is zero, or its price or ratio. -/
theorem free_cases {groupRatio amount : F} {enabled : Bool}
    (hfree : (!enabled && (Float64.eq groupRatio (Float64.ofInt 0) ||
      Float64.eq amount (Float64.ofInt 0))) = true) : val groupRatio = 0 ∨ val amount = 0 := by
  rw [Bool.and_eq_true, Bool.or_eq_true, ExactArithmetic.eq_iff, ExactArithmetic.eq_iff,
    ExactArithmetic.val_ofInt, Int.cast_zero] at hfree
  exact hfree.2

theorem modelPriceHelper_priced (haccepted : request.Accepted) {price : PriceData F}
    (h : modelPriceHelper cfg req promptTokens (fastTokenCountMetaForPricing request) = .ok price) :
    PricedAs cfg req request price := by
  unfold modelPriceHelper at h
  dsimp only at h
  split at h
  case h_1 hnone =>
    split at h
    case isTrue hunset => cases h
    case isFalse hset =>
      cases h
      exact .tokens hnone rfl rfl rfl free_cases
  case h_2 modelPrice hsome =>
    cases h
    exact .call modelPrice hsome rfl (val_modelPrice haccepted modelPrice) rfl free_cases

omit [ExactArithmetic F] in
theorem modelPriceHelper_ok_iff (promptTokens : ℤ) (tokenMeta : TokenCountMeta F) :
    (∃ price, modelPriceHelper cfg req promptTokens tokenMeta = .ok price) ↔ Priced cfg req := by
  unfold modelPriceHelper Priced
  dsimp only
  cases hprice : cfg.modelPrice req.originModelName with
  | some modelPrice => exact iff_of_true ⟨_, rfl⟩ (.inl (Option.some_ne_none _))
  | none =>
      dsimp only
      by_cases hunset :
          (!(cfg.modelRatio req.originModelName).2.1 && !req.acceptUnsetRatioModel) = true
      · rw [if_pos hunset]
        rw [Bool.and_eq_true, Bool.not_eq_true', Bool.not_eq_true'] at hunset
        refine iff_of_false ?_ ?_
        · intro h
          obtain ⟨price, hok⟩ := h
          cases hok
        · intro h
          rcases h with h | h | h
          · exact h rfl
          · exact Bool.false_ne_true (hunset.1.symm.trans h)
          · exact Bool.false_ne_true (hunset.2.symm.trans h)
      · rw [if_neg hunset]
        refine iff_of_true ⟨_, rfl⟩ (.inr ?_)
        rw [Bool.and_eq_true, Bool.not_eq_true', Bool.not_eq_true', not_and_or, Bool.not_eq_false,
          Bool.not_eq_false] at hunset
        exact hunset

/-! ## Conversions -/

/-- An amount that is not negative is converted when it is below the sign bit. -/
theorem floatToInt_eq_floor_iff {x : F} (hx : 0 ≤ val x) :
    floatToInt x = some ⌊val x⌋ ↔ val x < 2 ^ 63 := by
  have hint : Float64.toInt x = ⌊val x⌋ := by
    rw [ExactArithmetic.toInt_eq]
    exact if_pos hx
  have hfloor : ⌊val x⌋ < 2 ^ 63 ↔ val x < 2 ^ 63 := by
    rw [Int.floor_lt]
    norm_num
  have hnonneg : 0 ≤ ⌊val x⌋ := Int.floor_nonneg.2 hx
  unfold floatToInt
  rw [hint, ← hfloor]
  constructor
  · intro h
    by_contra hlarge
    rw [if_neg (fun hint => hlarge hint.2)] at h
    cases h
  · intro h
    exact if_pos ⟨by omega, h⟩

/-- An amount of wrapped tokens is not positive, and its conversion is the exact one only when that
is zero. -/
theorem floatToInt_wrapped_iff {x : F} {tokens : ℤ} {ratio : ℚ} (hlow : 2 ^ 63 ≤ tokens)
    (hhigh : tokens < 2 ^ 64) (hratio : 0 ≤ ratio) (hx : val x = (tokens - 2 ^ 64 : ℤ) * ratio) :
    floatToInt x = some ⌊(tokens : ℚ) * ratio⌋ ↔ (tokens : ℚ) * ratio < 1 := by
  have hneg : ((tokens - 2 ^ 64 : ℤ) : ℚ) ≤ 0 := by exact_mod_cast (by omega : tokens - 2 ^ 64 ≤ 0)
  have hopposite : -(tokens : ℚ) ≤ ((tokens - 2 ^ 64 : ℤ) : ℚ) := by
    exact_mod_cast (by omega : -tokens ≤ tokens - 2 ^ 64)
  have hpos : (0 : ℚ) ≤ tokens := Int.cast_nonneg (by omega)
  have hval : val x ≤ 0 := hx ▸ mul_nonpos_of_nonpos_of_nonneg hneg hratio
  have hexact : 0 ≤ ⌊(tokens : ℚ) * ratio⌋ := Int.floor_nonneg.2 (mul_nonneg hpos hratio)
  have hzero : Float64.toInt x ≤ 0 := by
    rw [ExactArithmetic.toInt_eq, Decimal.truncate]
    split
    case isTrue hnonneg =>
      rw [le_antisymm hval hnonneg, Int.floor_zero]
    case isFalse => exact Int.ceil_le.2 (by exact_mod_cast hval)
  have hsmall : (tokens : ℚ) * ratio < 1 ↔ ⌊(tokens : ℚ) * ratio⌋ ≤ 0 := by
    rw [Int.floor_le_iff, Int.cast_zero, zero_add]
  unfold floatToInt
  rw [hsmall]
  constructor
  · intro h
    split at h
    case isTrue hint =>
      have heq := Option.some.inj h
      omega
    case isFalse => cases h
  · intro h
    have hlarge : -1 < val x := by
      have hlt : (tokens : ℚ) * ratio < 1 := hsmall.2 h
      have hmul := mul_le_mul_of_nonneg_right hopposite hratio
      rw [← hx] at hmul
      linarith
    have hconverted : Float64.toInt x = 0 := by
      refine le_antisymm hzero ?_
      rw [ExactArithmetic.toInt_eq, Decimal.truncate]
      split
      case isTrue hnonneg => exact Int.floor_nonneg.2 hnonneg
      case isFalse =>
        have hceil : -1 < ⌈val x⌉ := Int.lt_ceil.2 (by exact_mod_cast hlarge)
        omega
    rw [hconverted, if_pos (by decide)]
    exact congrArg some (by omega)

theorem deposit_nonneg (hprices : NonnegPrices cfg req) (haccepted : request.Accepted)
    (hprompt : 0 ≤ promptTokens) : 0 ≤ deposit cfg req promptTokens request := by
  have hfactor := (imageFactor_pos (F := F) haccepted).le
  have htokens : 0 ≤ depositTokens cfg promptTokens request := by
    unfold depositTokens
    omega
  unfold deposit
  split
  case h_1 modelPrice hprice =>
    exact mul_nonneg
      (mul_nonneg (mul_nonneg (hprices.modelPrice modelPrice hprice) hfactor)
        hprices.quotaPerUnit) hprices.groupRatio
  case h_2 hnone =>
    exact mul_nonneg (Int.cast_nonneg htokens) (mul_nonneg hprices.modelRatio hprices.groupRatio)

omit [Float64 F] [ExactArithmetic F] in
/-- The sum of the tokens wraps when it reaches the sign bit. -/
theorem preConsumedTokens_eq (hsetting : IsInt cfg.preConsumedQuota) (hprompt : 0 ≤ promptTokens)
    (hint : IsInt promptTokens) (hrequested : request.requestedTokens < 2 ^ 63) :
    preConsumedTokens cfg promptTokens request.requestedTokens =
      if depositTokens cfg promptTokens request < 2 ^ 63 then
        depositTokens cfg promptTokens request
      else depositTokens cfg promptTokens request - 2 ^ 64 := by
  have hhigh := hint.2
  have hhigh' := hsetting.2
  unfold preConsumedTokens addInt depositTokens
  dsimp only
  split
  case isTrue hsome =>
    split
    case isTrue hsmall => exact bmod_of_small (by omega) hsmall
    case isFalse hlarge => exact bmod_of_large (by omega) (by omega)
  case isFalse hnone => rw [if_pos (by omega)]; omega

omit [Float64 F] [ExactArithmetic F] in
theorem depositTokens_lt (hsetting : IsInt cfg.preConsumedQuota) (hint : IsInt promptTokens)
    (hrequested : request.requestedTokens < 2 ^ 63) :
    depositTokens cfg promptTokens request < 2 ^ 64 := by
  have hprompt' := hint.2
  have hsetting' := hsetting.2
  unfold depositTokens
  omega

/-- A free model costs nothing by either account, so the conversion decides alone. -/
theorem freed_floor_iff {x : F} {amount : ℚ} {freeModel : Bool}
    (hfree : freeModel = true → val x = 0 ∧ amount = 0) :
    (∃ quota, floatToInt x = some quota ∧ (if freeModel then 0 else quota) = ⌊amount⌋) ↔
      floatToInt x = some ⌊amount⌋ := by
  cases freeModel with
  | false =>
      constructor
      · intro h
        obtain ⟨quota, hconverted, hexact⟩ := h
        rw [if_neg Bool.false_ne_true] at hexact
        rw [hconverted, hexact]
      · intro h
        exact ⟨_, h, if_neg Bool.false_ne_true⟩
  | true =>
      obtain ⟨hzero, hnothing⟩ := hfree rfl
      have hconverted : floatToInt x = some 0 := by
        have hfloor := (floatToInt_eq_floor_iff (x := x) hzero.ge).2 (by rw [hzero]; norm_num)
        rwa [hzero, Int.floor_zero] at hfloor
      rw [hnothing, Int.floor_zero]
      exact iff_of_true ⟨0, hconverted, if_pos rfl⟩ hconverted

/-- What the tokens cost is converted exactly when neither they nor it reach the sign bit, or it is
below one. -/
theorem tokens_floor_iff (hsetting : IsInt cfg.preConsumedQuota) (hprompt : 0 ≤ promptTokens)
    (hint : IsInt promptTokens) (hrequested : request.requestedTokens < 2 ^ 63) {x : F} {ratio : ℚ}
    (hratio : 0 ≤ ratio) (hnonneg : 0 ≤ depositTokens cfg promptTokens request * ratio)
    (hvalue : val x = preConsumedTokens cfg promptTokens request.requestedTokens * ratio) :
    floatToInt x = some ⌊depositTokens cfg promptTokens request * ratio⌋ ↔
      depositTokens cfg promptTokens request * ratio < 2 ^ 63 ∧
        (depositTokens cfg promptTokens request < 2 ^ 63 ∨
          depositTokens cfg promptTokens request * ratio < 1) := by
  rw [preConsumedTokens_eq hsetting hprompt hint hrequested] at hvalue
  by_cases hsmall : depositTokens cfg promptTokens request < 2 ^ 63
  · rw [if_pos hsmall] at hvalue
    rw [← hvalue, floatToInt_eq_floor_iff (hvalue ▸ hnonneg)]
    exact (and_iff_left (.inl hsmall)).symm
  · rw [if_neg hsmall] at hvalue
    have hhigh := depositTokens_lt hsetting hint hrequested
    rw [floatToInt_wrapped_iff (Int.not_lt.1 hsmall) hhigh hratio hvalue]
    constructor
    · intro h
      exact ⟨h.trans (by norm_num), .inr h⟩
    · intro h
      exact h.2.resolve_left hsmall

/-- The conversion is exact when the deposit is in the range and, for tokens, their sum is or the
deposit is below one. -/
theorem quota_exact_iff (hprices : NonnegPrices cfg req) (hsetting : IsInt cfg.preConsumedQuota)
    (hprompt : 0 ≤ promptTokens) (hint : IsInt promptTokens) (haccepted : request.Accepted)
    (hrequested : request.requestedTokens < 2 ^ 63) {price : PriceData F}
    (hpriced : PricedAs cfg req request price) :
    (∃ quota, floatToInt (preConsumedFloat cfg promptTokens request.requestedTokens price) =
        some quota ∧
      (if price.freeModel then 0 else quota) = ⌊deposit cfg req promptTokens request⌋) ↔
      deposit cfg req promptTokens request < 2 ^ 63 ∧
        (cfg.modelPrice req.originModelName = none →
          depositTokens cfg promptTokens request < 2 ^ 63 ∨
            deposit cfg req promptTokens request < 1) := by
  have hnonneg := deposit_nonneg hprices haccepted hprompt
  generalize hx : preConsumedFloat cfg promptTokens request.requestedTokens price = x
  cases hpriced with
  | call modelPrice hprice huse hmodelPrice hgroup hfree =>
      have hdeposit : deposit cfg req promptTokens request =
          val modelPrice * imageFactor F request * val cfg.quotaPerUnit *
            val (handleGroupRatio cfg req) := by
        unfold deposit
        rw [hprice]
      have hvalue : val x = deposit cfg req promptTokens request := by
        rw [← hx, preConsumedFloat, if_pos huse, ExactArithmetic.val_mul, ExactArithmetic.val_mul,
          hmodelPrice, hgroup, hdeposit]
      rw [freed_floor_iff]
      · rw [← hvalue, floatToInt_eq_floor_iff (hvalue ▸ hnonneg), hprice]
        exact (and_iff_left fun hnone => absurd hnone (Option.some_ne_none _)).symm
      · intro hmodel
        have hzero : deposit cfg req promptTokens request = 0 := by
          rw [hdeposit, ← hmodelPrice]
          rcases hfree hmodel with hzero | hzero
          · rw [hzero, mul_zero]
          · rw [hzero, zero_mul, zero_mul]
        exact ⟨hvalue.trans hzero, hzero⟩
  | tokens hprice huse hmodelRatio hgroup hfree =>
      have hratio : 0 ≤ val price.modelRatio * val (handleGroupRatio cfg req) := by
        rw [hmodelRatio]
        exact mul_nonneg hprices.modelRatio hprices.groupRatio
      have hdeposit : deposit cfg req promptTokens request =
          depositTokens cfg promptTokens request *
            (val price.modelRatio * val (handleGroupRatio cfg req)) := by
        unfold deposit
        rw [hprice, hmodelRatio]
      have hvalue : val x = preConsumedTokens cfg promptTokens request.requestedTokens *
          (val price.modelRatio * val (handleGroupRatio cfg req)) := by
        rw [← hx, preConsumedFloat, huse, if_neg Bool.false_ne_true, ExactArithmetic.val_mul,
          ExactArithmetic.val_mul, ExactArithmetic.val_ofInt, hgroup]
      rw [hdeposit] at hnonneg ⊢
      rw [freed_floor_iff, imp_iff_right hprice]
      · exact tokens_floor_iff hsetting hprompt hint hrequested hratio hnonneg hvalue
      · intro hmodel
        have hzero : val price.modelRatio * val (handleGroupRatio cfg req) = 0 := by
          rcases hfree hmodel with hzero | hzero
          · rw [hzero, mul_zero]
          · rw [hzero, zero_mul]
        rw [hvalue, hzero, mul_zero, mul_zero]
        exact ⟨rfl, rfl⟩

/-! ## When the deposit is sound -/

variable (cfg req promptTokens request)

/-- The limit has kept its value, and the quota is the exact deposit without its fraction. -/
structure DepositExact : Prop where
  maxTokens : (fastTokenCountMetaForPricing request : TokenCountMeta F).maxTokens =
    request.requestedTokens
  quota : ∃ result,
    modelPriceHelperInt cfg req promptTokens (fastTokenCountMetaForPricing request) = some result ∧
      ∀ price, result = .ok price →
        price.quotaToPreConsume = ⌊deposit cfg req promptTokens request⌋ ∧
          0 ≤ price.quotaToPreConsume

/-- Who asks for less deposits no more. -/
def DepositMonotone : Prop :=
  ∀ smaller : PricedRequest, smaller.Accepted → smaller.uncounted = request.uncounted →
    smaller.count ≤ request.count →
      (fastTokenCountMetaForPricing smaller : TokenCountMeta F).maxTokens ≤
          (fastTokenCountMetaForPricing request : TokenCountMeta F).maxTokens ∧
        ∀ less more,
          modelPriceHelperInt cfg req promptTokens (fastTokenCountMetaForPricing smaller) =
            some (.ok less) →
          modelPriceHelperInt cfg req promptTokens (fastTokenCountMetaForPricing request) =
            some (.ok more) →
          less.quotaToPreConsume ≤ more.quotaToPreConsume

/-- The limit is below the sign bit, and so is the deposit of a priced model.  The sum of the tokens
is too, or what they cost is below one. -/
structure DepositFits : Prop where
  requested : request.requestedTokens < 2 ^ 63
  deposit : Priced cfg req → deposit cfg req promptTokens request < 2 ^ 63
  tokens : Priced cfg req → cfg.modelPrice req.originModelName = none →
    depositTokens cfg promptTokens request < 2 ^ 63 ∨ Model.deposit cfg req promptTokens request < 1

variable {cfg req promptTokens request}

theorem depositExact_iff (hprices : NonnegPrices cfg req) (hsetting : IsInt cfg.preConsumedQuota)
    (hprompt : 0 ≤ promptTokens) (hint : IsInt promptTokens) (haccepted : request.Accepted) :
    DepositExact cfg req promptTokens request ↔ DepositFits cfg req promptTokens request := by
  have hnonneg := Int.floor_nonneg.2 (deposit_nonneg hprices haccepted hprompt)
  have hlimit := maxTokens_eq_iff (F := F) request
  cases hhelper : modelPriceHelper cfg req promptTokens
    (fastTokenCountMetaForPricing request : TokenCountMeta F) with
  | error err =>
      have hunpriced : ¬ Priced cfg req := by
        rw [← modelPriceHelper_ok_iff promptTokens
          (fastTokenCountMetaForPricing request), hhelper]
        intro h
        obtain ⟨price, hok⟩ := h
        cases hok
      have hresult : modelPriceHelperInt cfg req promptTokens
          (fastTokenCountMetaForPricing request) = some (.error err) := by
        unfold modelPriceHelperInt
        rw [hhelper]
      constructor
      · intro h
        exact ⟨hlimit.1 h.maxTokens, fun hpriced => absurd hpriced hunpriced,
          fun hpriced => absurd hpriced hunpriced⟩
      · intro h
        refine ⟨hlimit.2 h.requested, _, hresult, fun price hprice => ?_⟩
        cases hprice
  | ok price =>
      have hpriced : Priced cfg req := (modelPriceHelper_ok_iff _ _).1 ⟨price, hhelper⟩
      have hresult : modelPriceHelperInt cfg req promptTokens
          (fastTokenCountMetaForPricing request) =
          (floatToInt (preConsumedFloat cfg promptTokens
            (fastTokenCountMetaForPricing request : TokenCountMeta F).maxTokens price)).map
              fun quota =>
                .ok { price with quotaToPreConsume := if price.freeModel then 0 else quota } := by
        unfold modelPriceHelperInt
        rw [hhelper]
      have hexact (hrequested : request.requestedTokens < 2 ^ 63) :=
        quota_exact_iff hprices hsetting hprompt hint haccepted hrequested
          (modelPriceHelper_priced haccepted hhelper)
      constructor
      · intro h
        have hrequested := hlimit.1 h.maxTokens
        obtain ⟨result, hsome, hquota⟩ := h.quota
        rw [hresult, h.maxTokens, Option.map_eq_some_iff] at hsome
        obtain ⟨quota, hconverted, rfl⟩ := hsome
        have hfits := (hexact hrequested).1 ⟨quota, hconverted, (hquota _ rfl).1⟩
        exact ⟨hrequested, fun _ => hfits.1, fun _ => hfits.2⟩
      · intro h
        have hmax := hlimit.2 h.requested
        obtain ⟨quota, hconverted, hquota⟩ :=
          (hexact h.requested).2 ⟨h.deposit hpriced, h.tokens hpriced⟩
        have hsome : modelPriceHelperInt cfg req promptTokens
            (fastTokenCountMetaForPricing request) =
            some (.ok { price with quotaToPreConsume := if price.freeModel then 0 else quota }) := by
          rw [hresult, hmax, hconverted, Option.map_some]
        refine ⟨hmax, _, hsome, fun price' hprice' => ?_⟩
        cases hprice'
        exact ⟨hquota, hquota ▸ hnonneg⟩

/-- Requests that differ in their number have the same factor and other limits. -/
theorem requested_le {smaller : PricedRequest} (hsame : smaller.uncounted = request.uncounted)
    (hcount : smaller.count ≤ request.count) :
    smaller.requestedTokens ≤ request.requestedTokens ∧
      imageFactor F smaller ≤ imageFactor F request := by
  cases smaller with
  | openAI smaller =>
      cases request with
      | openAI request => exact ⟨hcount, le_rfl⟩
      | claude request => cases hsame
      | responses request => cases hsame
      | image request => cases hsame
  | claude smaller =>
      cases request with
      | claude request => exact ⟨hcount, le_rfl⟩
      | openAI request => cases hsame
      | responses request => cases hsame
      | image request => cases hsame
  | responses smaller =>
      cases request with
      | responses request => exact ⟨hcount, le_rfl⟩
      | openAI request => cases hsame
      | claude request => cases hsame
      | image request => cases hsame
  | image smaller =>
      cases request with
      | image request =>
          refine ⟨le_rfl, ?_⟩
          have hfields := ImageRequest.mk.inj (PricedRequest.image.inj hsame)
          obtain ⟨hmodel, -, -, hsize, hquality, -⟩ := hfields
          have hfactor : smaller.factor F = request.factor F := by
            unfold ImageRequest.factor ImageRequest.sizeRatio ImageRequest.qualityRatio
            rw [hmodel, hsize, hquality]
          show smaller.factor F * smaller.n.toNat ≤ request.factor F * request.n.toNat
          rw [hfactor]
          exact mul_le_mul_of_nonneg_left (Nat.cast_le.2 hcount) request.factor_pos.le
      | openAI request => cases hsame
      | claude request => cases hsame
      | responses request => cases hsame

theorem deposit_le (promptTokens : ℤ) {smaller : PricedRequest} (hprices : NonnegPrices cfg req)
    (hsame : smaller.uncounted = request.uncounted) (hcount : smaller.count ≤ request.count) :
    depositTokens cfg promptTokens smaller ≤ depositTokens cfg promptTokens request ∧
      deposit cfg req promptTokens smaller ≤ deposit cfg req promptTokens request := by
  obtain ⟨hrequested, hfactor⟩ := requested_le (F := F) hsame hcount
  have htokens : depositTokens cfg promptTokens smaller ≤ depositTokens cfg promptTokens request := by
    unfold depositTokens
    omega
  refine ⟨htokens, ?_⟩
  unfold deposit
  split
  case h_1 modelPrice hprice =>
    exact mul_le_mul_of_nonneg_right
      (mul_le_mul_of_nonneg_right
        (mul_le_mul_of_nonneg_left hfactor (hprices.modelPrice modelPrice hprice))
        hprices.quotaPerUnit) hprices.groupRatio
  case h_2 hnone =>
    exact mul_le_mul_of_nonneg_right (Int.cast_le.2 htokens)
      (mul_nonneg hprices.modelRatio hprices.groupRatio)

theorem DepositFits.smaller {smaller : PricedRequest} (hfits : DepositFits cfg req promptTokens request)
    (hprices : NonnegPrices cfg req) (hsame : smaller.uncounted = request.uncounted)
    (hcount : smaller.count ≤ request.count) : DepositFits cfg req promptTokens smaller := by
  obtain ⟨htokens, hdeposit⟩ := deposit_le promptTokens hprices hsame hcount
  refine ⟨(requested_le (F := F) hsame hcount).1.trans_lt hfits.requested,
    fun hpriced => hdeposit.trans_lt (hfits.deposit hpriced), fun hpriced hnone => ?_⟩
  rcases hfits.tokens hpriced hnone with hsmall | hless
  · exact .inl (htokens.trans_lt hsmall)
  · exact .inr (hdeposit.trans_lt hless)

/-- An exact deposit is monotone, as who asks for less fits too. -/
theorem DepositFits.monotone (hfits : DepositFits cfg req promptTokens request)
    (hprices : NonnegPrices cfg req) (hsetting : IsInt cfg.preConsumedQuota)
    (hprompt : 0 ≤ promptTokens) (hint : IsInt promptTokens) (haccepted : request.Accepted) :
    DepositMonotone cfg req promptTokens request := by
  intro smaller hsmaller hsame hcount
  have hmore := (depositExact_iff hprices hsetting hprompt hint haccepted).2 hfits
  have hless := (depositExact_iff hprices hsetting hprompt hint hsmaller).2
    (hfits.smaller hprices hsame hcount)
  refine ⟨?_, fun less more hlessPrice hmorePrice => ?_⟩
  · rw [hless.maxTokens, hmore.maxTokens]
    exact Int.ofNat_le.2 (requested_le (F := F) hsame hcount).1
  · obtain ⟨result, hresult, hquota⟩ := hless.quota
    obtain ⟨result', hresult', hquota'⟩ := hmore.quota
    rw [(hquota less (Option.some.inj (hresult.symm.trans hlessPrice))).1,
      (hquota' more (Option.some.inj (hresult'.symm.trans hmorePrice))).1]
    exact Int.floor_le_floor (deposit_le _ hprices hsame hcount).2

/-- The deposit of an accepted request is exact, not negative and monotone in what it asks for
exactly when it fits. -/
theorem deposit_sound_iff (cfg : RealtimeSettings F) (req : RealtimeRequest) (promptTokens : ℤ)
    (request : PricedRequest) (hprices : NonnegPrices cfg req)
    (hsetting : IsInt cfg.preConsumedQuota) (hprompt : 0 ≤ promptTokens) (hint : IsInt promptTokens)
    (haccepted : request.Accepted) :
    (DepositExact cfg req promptTokens request ∧ DepositMonotone cfg req promptTokens request) ↔
      DepositFits cfg req promptTokens request := by
  have hexact := depositExact_iff hprices hsetting hprompt hint haccepted
  constructor
  · intro h
    exact hexact.1 h.1
  · intro h
    exact ⟨hexact.2 h, h.monotone hprices hsetting hprompt hint haccepted⟩

end

/-! ## Two requests -/

/-- A Claude request with a token limit. -/
def claudeRequestOf (maxTokens : UInt64) : ClaudeRequest where
  model := "claude-sonnet-4"
  messages := 1
  maxTokens := maxTokens

theorem claudeRequestOf_accepted (maxTokens : UInt64) :
    PricedRequest.Accepted (.claude (claudeRequestOf maxTokens)) :=
  ⟨.claude (claudeRequestOf maxTokens), rfl⟩

theorem samplePrices_nonneg : NonnegPrices sampleRealtimeSettings sampleRealtimeRequest := by
  have hone : (0 : ℚ) ≤ val (Decimal.ofInt 1) := by
    show (0 : ℚ) ≤ (Decimal.ofInt 1).toRat
    rw [Decimal.toRat_ofInt]
    exact zero_le_one
  refine ⟨fun modelPrice hprice => ?_, hone, hone, ?_⟩
  · cases hprice
  · show (0 : ℚ) ≤ (Decimal.ofInt 500000).toRat
    rw [Decimal.toRat_ofInt]
    norm_num

/-- A limit of 1000 tokens fits. -/
theorem deposit_sound_small :
    (DepositExact sampleRealtimeSettings sampleRealtimeRequest 20 (.claude (claudeRequestOf 1000)) ∧
      DepositMonotone sampleRealtimeSettings sampleRealtimeRequest 20
        (.claude (claudeRequestOf 1000))) ↔
      DepositFits sampleRealtimeSettings sampleRealtimeRequest 20
        (.claude (claudeRequestOf 1000)) :=
  deposit_sound_iff sampleRealtimeSettings sampleRealtimeRequest 20 _ samplePrices_nonneg
    (by decide) (by decide) (by decide) (claudeRequestOf_accepted 1000)

/-- The accepted limit of 2 ^ 63 tokens becomes a negative one, and the deposit a negative quota. -/
theorem deposit_negative :
    ∃ price, modelPriceHelperInt sampleRealtimeSettings sampleRealtimeRequest 20
        (fastTokenCountMetaForPricing (.claude (claudeRequestOf 9223372036854775808))) =
          some (.ok price) ∧
      price.quotaToPreConsume = -9223372036854775788 ∧
      PricedRequest.Accepted (.claude (claudeRequestOf 9223372036854775808)) ∧
      ¬ (DepositExact sampleRealtimeSettings sampleRealtimeRequest 20
          (.claude (claudeRequestOf 9223372036854775808)) ∧
        DepositMonotone sampleRealtimeSettings sampleRealtimeRequest 20
          (.claude (claudeRequestOf 9223372036854775808))) := by
  refine ⟨_, rfl, rfl, claudeRequestOf_accepted _, fun hsound => ?_⟩
  have hlimit := (maxTokens_eq_iff _).1 hsound.1.maxTokens
  exact absurd hlimit (by decide)

end NewApi.Model
