import NewApi.Lib.RoundingStep
import NewApi.Model.TopUpCredit

/-!
# Top-ups that are asked for in tokens

Where quota is displayed as tokens, `RequestEpay` takes an amount of tokens.  The price divides it
by `QuotaPerUnit` to sixteen digits, the order stores the integer part of the quotient, and
`EpayNotify` multiplies that by `QuotaPerUnit` again.
-/

namespace NewApi.Model

open NewApi.Lib

section

variable {F : Type} [Float64 F] (cfg : TopUpConfig F) (settings : TopUpSettings F)

/-- The units that `getPayMoney` asks the price of. -/
def pricedUnits (amount : ℤ) : Decimal :=
  if settings.displayTokens then Decimal.ofInt amount / Float64.toDecimal cfg.quotaPerUnit
  else Decimal.ofInt amount

/-- The price of some units; the discount goes by the amount that is asked for. -/
def moneyFor (amount : ℤ) (group : String) (units : Decimal) : F :=
  let discount :=
    match settings.amountDiscount amount with
    | some ds => if Float64.lt (Float64.ofInt 0) ds then ds else Float64.ofInt 1
    | none => Float64.ofInt 1
  settings.inexactFloat64
    (units * Float64.toDecimal settings.price * Float64.toDecimal (topupRatio settings group) *
      Float64.toDecimal discount)

theorem getPayMoney_eq (amount : ℤ) (group : String) :
    getPayMoney cfg settings amount group =
      moneyFor settings amount group (pricedUnits cfg settings amount) := rfl

/-- What the order, its price and its credit stand for: the stored units, the units that are priced
and the quota are all worth the amount of tokens. -/
structure StandsForTokens (env : TopUpEnvironment) (amount : ℤ) (topUp : TopUp F) (credited : ℤ) :
    Prop where
  stored : topUp.amount * (Float64.toDecimal cfg.quotaPerUnit).toRat = amount
  charged : ∃ group units, env.group = some group ∧
    topUp.money = moneyFor settings amount group units ∧
    units.toRat * (Float64.toDecimal cfg.quotaPerUnit).toRat = amount
  credited : credited = amount

end

section

variable {F : Type} [Float64 F] {cfg : TopUpConfig F} {settings : TopUpSettings F}
  {env : TopUpEnvironment} {amount : Int64} {paymentMethod : String} {topUp : TopUp F}

/-- What an order that is accepted in tokens looks like. -/
theorem requestEpay_tokens_ok (hdisplay : settings.displayTokens = true)
    (hrequest : requestEpay cfg settings env amount.toInt paymentMethod = .ok topUp) :
    ∃ group, env.group = some group ∧ (Float64.toDecimal cfg.quotaPerUnit).toRat ≠ 0 ∧
      topUp.amount = (Decimal.ofInt amount.toInt / Float64.toDecimal cfg.quotaPerUnit).intPart ∧
      topUp.money = moneyFor settings amount.toInt group
        (Decimal.ofInt amount.toInt / Float64.toDecimal cfg.quotaPerUnit) ∧
      topUp.status = TopUpStatusPending := by
  unfold requestEpay at hrequest
  dsimp only at hrequest
  split at hrequest
  case isTrue => cases hrequest
  case isFalse =>
    split at hrequest
    case h_1 => cases hrequest
    case h_2 group hgroup =>
      split_ifs at hrequest with hzero
      obtain rfl := Except.ok.inj hrequest
      refine ⟨group, hgroup, ?_, rfl, ?_, rfl⟩
      · unfold dividesByZero at hzero
        rw [hdisplay, Bool.true_and, Decimal.isZero_iff] at hzero
        exact hzero
      · rw [getPayMoney_eq, pricedUnits, if_pos hdisplay]

/-- Where the amount is some units exactly, the quotient is those units. -/
theorem quotient_of_units {amount units : ℤ}
    (hzero : (Float64.toDecimal cfg.quotaPerUnit).toRat ≠ 0)
    (hunits : units * (Float64.toDecimal cfg.quotaPerUnit).toRat = amount) :
    (Decimal.ofInt amount / Float64.toDecimal cfg.quotaPerUnit).toRat = units := by
  have hcoef : (Float64.toDecimal cfg.quotaPerUnit).coef ≠ 0 := by
    intro h
    rw [Decimal.toRat, h, Int.cast_zero, zero_mul] at hzero
    exact hzero rfl
  have hexact : (Decimal.ofInt amount).toRat * 10 ^ 16 =
      (units * 10 ^ 16 : ℤ) * (Float64.toDecimal cfg.quotaPerUnit).toRat := by
    rw [Decimal.toRat_ofInt, ← hunits]
    push_cast
    ring
  have hpow : (10 : ℚ) ^ 16 * 10 ^ (-16 : ℤ) = 1 := by norm_num
  rw [Decimal.div_eq_of_exact hcoef hexact, Decimal.toRat, Int.cast_mul, Int.cast_pow, mul_assoc]
  push_cast
  rw [hpow, mul_one]

/-- An accepted order in tokens is paid, and what is stored, charged and credited stands for the
tokens that were asked for exactly when these are a number of units. -/
theorem tokens_bought_iff (hdisplay : settings.displayTokens = true)
    (hrequest : requestEpay cfg settings env amount.toInt paymentMethod = .ok topUp)
    (user : TopUpUser) :
    (∃ s, Completes cfg topUp user .epayNotify s) ∧
    ∀ s, Completes cfg topUp user .epayNotify s →
      (StandsForTokens cfg settings env amount.toInt topUp (s.user.quota - user.quota) ↔
        0 ≤ amount.toInt ∧ ∃ units : Int64,
          units.toInt * (Float64.toDecimal cfg.quotaPerUnit).toRat = amount.toInt) := by
  obtain ⟨group, hgroup, hzero, hamount, hmoney, hpending⟩ := requestEpay_tokens_ok hdisplay hrequest
  have hpays : ∃ s, Completes cfg topUp user .epayNotify s ∧
      s.user.quota = user.quota + max 0 (creditOf cfg topUp .epayNotify) :=
    completes_epayNotify hpending
  obtain ⟨paid, hpaid, hquota⟩ := hpays
  refine ⟨⟨paid, hpaid⟩, fun s hs => ?_⟩
  rw [hs.unique hpaid, hquota, add_sub_cancel_left]
  constructor
  · intro h
    refine ⟨?_, Int64.ofInt topUp.amount, ?_⟩
    · rw [← h.credited]
      exact le_max_left _ _
    · have hrange : Strings.InInt64 topUp.amount := by
        rw [hamount]
        exact Decimal.intPart_inInt64 _
      rw [Int64.toInt_ofInt_of_le hrange.1 hrange.2]
      exact h.stored
  · intro h
    obtain ⟨hnonneg, units, hunits⟩ := h
    have hquotient := quotient_of_units hzero hunits
    have hstored : topUp.amount = units.toInt := by
      rw [hamount, Decimal.intPart_eq, hquotient, Decimal.truncate_intCast]
      exact Strings.bmod_of_inInt64 ⟨units.le_toInt, units.toInt_lt⟩
    refine ⟨?_, ⟨group, _, hgroup, hmoney, ?_⟩, ?_⟩
    · rw [hstored]
      exact hunits
    · rw [hquotient]
      exact hunits
    · have hcredit : creditOf cfg topUp .epayNotify = amount.toInt := by
        rw [creditOf, Decimal.intPart_eq, Decimal.toRat_mul, Decimal.toRat_ofInt, hstored, hunits,
          Decimal.truncate_intCast]
        exact Strings.bmod_of_inInt64 ⟨amount.le_toInt, amount.toInt_lt⟩
      rw [hcredit]
      exact max_eq_right hnonneg

end

/-- Tokens are displayed. -/
def tokenTopUpSettings : TopUpSettings Decimal :=
  { sampleTopUpSettings with displayTokens := true }

def paidEnvironment : TopUpEnvironment where
  group := some "default"
  hasClient := true
  purchaseOk := true
  insertOk := true

/-- Two units of 500000 tokens. -/
def twoUnitOrder : TopUp Decimal where
  amount := 2
  money := getPayMoney sampleTopUpConfig tokenTopUpSettings 1000000 "default"
  paymentMethod := "alipay"
  status := TopUpStatusPending

theorem tokens_bought_two_units :
    requestEpay sampleTopUpConfig tokenTopUpSettings paidEnvironment (1000000 : Int64).toInt "alipay" =
        .ok twoUnitOrder ∧
      ∃ s, Completes sampleTopUpConfig twoUnitOrder sampleUserRow .epayNotify s ∧
        StandsForTokens sampleTopUpConfig tokenTopUpSettings paidEnvironment 1000000 twoUnitOrder
          (s.user.quota - sampleUserRow.quota) := by
  have hrequest : requestEpay sampleTopUpConfig tokenTopUpSettings paidEnvironment (1000000 : Int64).toInt
      "alipay" = .ok twoUnitOrder := rfl
  obtain ⟨⟨s, hs⟩, hall⟩ := tokens_bought_iff rfl hrequest sampleUserRow
  refine ⟨hrequest, s, hs, (hall s hs).2 ⟨by decide, 2, ?_⟩⟩
  show ((2 : ℤ) : ℚ) * (Decimal.ofInt 500000).toRat = (1000000 : ℤ)
  rw [Decimal.toRat_ofInt]
  norm_num

/-- Of 750000 tokens that are paid for 500000 are credited. -/
theorem half_unit_not_credited :
    ¬ ∀ (cfg : TopUpConfig Decimal) (settings : TopUpSettings Decimal) (env : TopUpEnvironment)
      (amount : Int64) (paymentMethod : String) (topUp : TopUp Decimal) (user : TopUpUser)
      (s : TopUpState Decimal), settings.displayTokens = true →
        0 < (Float64.toDecimal cfg.quotaPerUnit).toRat →
        requestEpay cfg settings env amount.toInt paymentMethod = .ok topUp →
        Completes cfg topUp user .epayNotify s →
          StandsForTokens cfg settings env amount.toInt topUp (s.user.quota - user.quota) := by
  intro hclaim
  have hpos : 0 < (Float64.toDecimal sampleTopUpConfig.quotaPerUnit).toRat := by
    show 0 < (Decimal.ofInt 500000).toRat
    rw [Decimal.toRat_ofInt]
    norm_num
  have hstands := hclaim sampleTopUpConfig tokenTopUpSettings paidEnvironment 750000 "alipay" _
    sampleUserRow _ rfl hpos rfl ⟨4, rfl, by decide⟩
  exact absurd hstands.credited (by decide)

end NewApi.Model
