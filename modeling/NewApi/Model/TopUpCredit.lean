import NewApi.Lib.DecimalValue
import NewApi.Lib.Integers
import NewApi.Model.TopUp

/-!
# What an order credits

The three handlers that create orders give `Amount` and `Money` different meanings: units and the
price of `Epay`, units and units times the group ratio of Stripe, quota and the price of Creem.
`ManualCompleteTopUp` tells them apart by `PaymentMethod` only.  This file compares its credit with
that of the provider's own callback, each run alone on a pending order.
-/

namespace NewApi.Model

open NewApi.Lib

/-! ## The orders -/

structure CreemProduct (F : Type) where
  productId : String
  price : F
  quota : ℤ

/-- The settings that the creation of an order reads.  `displayTokens` says that the display type is
`TOKENS`, `inexactFloat64` is the float next to a decimal, and the products of Creem are missing
where their text cannot be parsed. -/
structure TopUpSettings (F : Type) where
  displayTokens : Bool
  price : F
  minTopUp : ℤ
  stripeMinTopUp : ℤ
  topupGroupRatio : String → Option F
  amountDiscount : ℤ → Option F
  payMethods : List String
  creemProducts : Option (List (CreemProduct F))
  inexactFloat64 : Decimal → F

/-- What can go wrong between the checks and the stored order. -/
structure TopUpEnvironment where
  group : Option String
  hasClient : Bool
  purchaseOk : Bool
  insertOk : Bool

inductive TopUpProvider where
  | stripe
  | epay
  | creem
deriving DecidableEq, Repr

section

variable {F : Type} [Float64 F] (cfg : TopUpConfig F) (settings : TopUpSettings F)

def getTopupGroupRatio (group : String) : F :=
  (settings.topupGroupRatio group).getD (Float64.ofInt 1)

/-- A ratio of zero counts as one. -/
def topupRatio (group : String) : F :=
  let topupGroupRatio := getTopupGroupRatio settings group
  if Float64.eq topupGroupRatio (Float64.ofInt 0) then Float64.ofInt 1 else topupGroupRatio

def getPayMoney (amount : ℤ) (group : String) : F :=
  let dAmount :=
    if settings.displayTokens then Decimal.ofInt amount / Float64.toDecimal cfg.quotaPerUnit
    else Decimal.ofInt amount
  let discount :=
    match settings.amountDiscount amount with
    | some ds => if Float64.lt (Float64.ofInt 0) ds then ds else Float64.ofInt 1
    | none => Float64.ofInt 1
  settings.inexactFloat64
    (dAmount * Float64.toDecimal settings.price *
      Float64.toDecimal (topupRatio settings group) * Float64.toDecimal discount)

def getMinTopup : ℤ :=
  if settings.displayTokens then
    (Decimal.ofInt settings.minTopUp * Float64.toDecimal cfg.quotaPerUnit).intPart
  else settings.minTopUp

/-- The quotient by `QuotaPerUnit` panics where that is zero. -/
def dividesByZero : Bool :=
  settings.displayTokens && (Float64.toDecimal cfg.quotaPerUnit).isZero

def requestEpay (env : TopUpEnvironment) (amount : ℤ) (paymentMethod : String) :
    Except String (TopUp F) :=
  if amount < getMinTopup cfg settings then
    .error s!"充值数量不能小于 {getMinTopup cfg settings}"
  else
    match env.group with
    | none => .error "获取用户分组失败"
    | some group =>
        let payMoney := getPayMoney cfg settings amount group
        if dividesByZero cfg settings then .error "decimal division by 0"
        else if Float64.lt payMoney (Float64.ofInt 1 / Float64.ofInt 100) then .error "充值金额过低"
        else if paymentMethod ∉ settings.payMethods then .error "支付方式不存在"
        else if !env.hasClient then .error "当前管理员未配置支付信息"
        else if !env.purchaseOk then .error "拉起支付失败"
        else if !env.insertOk then .error "创建订单失败"
        else
          .ok
            { amount :=
                if settings.displayTokens then
                  (Decimal.ofInt amount / Float64.toDecimal cfg.quotaPerUnit).intPart
                else amount
              money := payMoney
              paymentMethod := paymentMethod
              status := TopUpStatusPending }

def getStripeMinTopup : ℤ :=
  if settings.displayTokens then settings.stripeMinTopUp * Float64.toInt cfg.quotaPerUnit
  else settings.stripeMinTopUp

def requestStripePay (env : TopUpEnvironment) (amount : ℤ) (paymentMethod : String) :
    Except String (TopUp F) :=
  if paymentMethod ≠ "stripe" then .error "不支持的支付渠道"
  else if amount < getStripeMinTopup cfg settings then
    .error s!"充值数量不能小于 {getStripeMinTopup cfg settings}"
  else if 10000 < amount then .error "充值数量不能大于 10000"
  else if !env.purchaseOk then .error "拉起支付失败"
  else if !env.insertOk then .error "创建订单失败"
  else
    .ok
      { amount := amount
        money := Float64.ofInt amount * topupRatio settings (env.group.getD "")
        paymentMethod := "stripe"
        status := TopUpStatusPending }

/-- An order of Creem is stored before the payment is asked for. -/
def requestCreemPay (env : TopUpEnvironment) (productId paymentMethod : String) :
    Except String (TopUp F) :=
  if paymentMethod ≠ "creem" then .error "不支持的支付渠道"
  else if productId = "" then .error "请选择产品"
  else
    match settings.creemProducts with
    | none => .error "产品配置错误"
    | some products =>
        match products.find? fun product => product.productId = productId with
        | none => .error "产品不存在"
        | some selectedProduct =>
            if !env.insertOk then .error "创建订单失败"
            else
              .ok
                { amount := selectedProduct.quota
                  money := selectedProduct.price
                  paymentMethod := ""
                  status := TopUpStatusPending }

/-- The orders of a provider. -/
def Creates (topUp : TopUp F) : TopUpProvider → Prop
  | .stripe => ∃ env amount paymentMethod,
      requestStripePay cfg settings env amount paymentMethod = .ok topUp
  | .epay => ∃ env amount paymentMethod,
      requestEpay cfg settings env amount paymentMethod = .ok topUp
  | .creem => ∃ env productId paymentMethod,
      requestCreemPay settings env productId paymentMethod = .ok topUp

end

/-! ## The credit -/

/-- The provider's own callback, for some customer. -/
def TopUpProvider.callback (customer : String) : TopUpProvider → TopUpOp
  | .stripe => .recharge customer
  | .epay => .epayNotify
  | .creem => .rechargeCreem customer

section

variable {F : Type} [Float64 F] (cfg : TopUpConfig F)

/-- An execution runs alone on the order until it has returned, and none of its statements fails. -/
def Completes (topUp : TopUp F) (user : TopUpUser) (op : TopUpOp) (s : TopUpState F) : Prop :=
  ∃ n, (topUpOrder cfg).run (.start topUp user)
      (.start op :: List.replicate n (.advance 0 true)) = some s ∧ s.Ended

/-- The quota that some units are worth, as far as an `int64` keeps it. -/
def unitsQuota (units : ℚ) : ℤ :=
  (Decimal.truncate (units * (Float64.toDecimal cfg.quotaPerUnit).toRat)).bmod (2 ^ 64)

/-- Amounts of units that are worth the same quota, cut off and never negative. -/
def SameQuota (units units' : ℚ) : Prop :=
  max 0 (unitsQuota cfg units) = max 0 (unitsQuota cfg units')

/-- An order whose columns mean to `ManualCompleteTopUp` what they mean to the callback. -/
def MeansTheSame (topUp : TopUp F) : TopUpProvider → Prop
  | .stripe => cfg.storeFloat (topUp.money * cfg.quotaPerUnit) =
      max 0 (unitsQuota cfg (Float64.toDecimal topUp.money).toRat)
  | .epay => topUp.paymentMethod = "stripe" →
      SameQuota cfg (Float64.toDecimal topUp.money).toRat topUp.amount
  | .creem =>
      let quotaPerUnit := (Float64.toDecimal cfg.quotaPerUnit).toRat
      topUp.amount = 0 ∨ 0 < topUp.amount ∧ topUp.amount < 2 ^ 63 ∧
        ∃ k : ℤ, Decimal.CutTo (topUp.amount + k * 2 ^ 64) (topUp.amount * quotaPerUnit)

end

section

variable {F : Type} [Float64 F] {cfg : TopUpConfig F} {settings : TopUpSettings F}
  {topUp : TopUp F} {user : TopUpUser} {s : TopUpState F}

/-- A created order is pending, and its method is the provider's. -/
theorem created_pending {provider : TopUpProvider}
    (hcreates : Creates cfg settings topUp provider) :
    topUp.status = TopUpStatusPending ∧ (provider = .stripe → topUp.paymentMethod = "stripe") ∧
      (provider = .creem → topUp.paymentMethod = "") := by
  cases provider with
  | stripe =>
      obtain ⟨env, amount, paymentMethod, hrequest⟩ := hcreates
      rw [requestStripePay] at hrequest
      repeat' split at hrequest
      all_goals cases hrequest
      exact ⟨rfl, fun _ => rfl, nofun⟩
  | epay =>
      obtain ⟨env, amount, paymentMethod, hrequest⟩ := hcreates
      rw [requestEpay] at hrequest
      dsimp only at hrequest
      repeat' split at hrequest
      all_goals cases hrequest
      all_goals exact ⟨rfl, nofun, nofun⟩
  | creem =>
      obtain ⟨env, productId, paymentMethod, hrequest⟩ := hcreates
      rw [requestCreemPay] at hrequest
      repeat' split at hrequest
      all_goals cases hrequest
      exact ⟨rfl, nofun, fun _ => rfl⟩

/-- The credit of an execution that runs alone. -/
def aloneCredit (cfg : TopUpConfig F) (topUp : TopUp F) (op : TopUpOp) : ℤ :=
  match op with
  | .epayNotify | .manualCompleteTopUp => max 0 (creditOf cfg topUp op)
  | _ => creditOf cfg topUp op

/-- The state that an execution leaves when it has credited the order. -/
def creditedState (cfg : TopUpConfig F) (topUp : TopUp F) (user : TopUpUser) (op : TopUpOp)
    (setEmail : Bool) : TopUpState F where
  topUp := topUp.complete op
  user := user.credit cfg topUp op setEmail
  orderLock := none
  rowLock := none
  procs := [.returned]
  credits := [creditOf cfg topUp op]

/-- One statement of the only execution. -/
theorem run_alone_cons {proc : TopUpProc F} {as : List TopUpAction} (hproc : s.procs = [proc]) :
    (topUpOrder cfg).run s (.advance 0 true :: as) =
      (s.advance cfg 0 true proc).bind fun t => (topUpOrder cfg).run t as := by
  have hstep : (topUpOrder cfg).step s (.advance 0 true) = s.advance cfg 0 true proc := by
    show TopUpState.step cfg s (.advance 0 true) = _
    rw [TopUpState.step, hproc]
    rfl
  rw [System.run, hstep]
  cases s.advance cfg 0 true proc <;> rfl

/-- The state of an execution alone, that has the order's row locked or not. -/
def aloneState (topUp : TopUp F) (user : TopUpUser) (orderLock rowLock : Option ℕ)
    (proc : TopUpProc F) : TopUpState F :=
  { TopUpState.start topUp user with orderLock := orderLock, rowLock := rowLock, procs := [proc] }

theorem run_start_alone (op : TopUpOp) (as : List TopUpAction) :
    (topUpOrder cfg).run (.start topUp user) (.start op :: as) =
      (topUpOrder cfg).run (aloneState topUp user none none (TopUpState.begin_ op)) as := rfl

/-- The order lock is free. -/
theorem run_lock_alone (op : TopUpOp) (as : List TopUpAction) :
    (topUpOrder cfg).run (aloneState topUp user none none (.locking op)) (.advance 0 true :: as) =
      (topUpOrder cfg).run (aloneState topUp user (some 0) none (.selecting op)) as := rfl

/-- The order is selected as pending. -/
theorem run_select_pending (op : TopUpOp) {orderLock : Option ℕ} {as : List TopUpAction}
    (hpending : topUp.status = TopUpStatusPending)
    (hpays : op = .manualCompleteTopUp → 0 < creditOf cfg topUp op) :
    (topUpOrder cfg).run (aloneState topUp user orderLock none (.selecting op))
        (.advance 0 true :: as) =
      (topUpOrder cfg).run (aloneState topUp user orderLock none (.saving op topUp)) as := by
  have hselect : op.afterSelect cfg topUp = .saving op topUp := by
    cases op with
    | sessionExpired => rfl
    | manualCompleteTopUp =>
        have hpos := hpays rfl
        simp [TopUpOp.afterSelect, hpending, TopUpStatusPending, TopUpStatusSuccess, hpos]
    | _ => simp [TopUpOp.afterSelect, hpending]
  rw [run_alone_cons rfl]
  show (topUpOrder cfg).run ((aloneState topUp user orderLock none (.selecting op)).goto 0
    (op.afterSelect cfg topUp)) as = _
  rw [hselect]
  rfl

/-- The transaction that has saved the order credits it and commits. -/
theorem run_transaction (op : TopUpOp) {orderLock : Option ℕ} {setEmail : Bool}
    (hlock : orderLock = none ∨ orderLock = some 0) (hop : op ≠ .epayNotify) :
    (topUpOrder cfg).run (aloneState topUp user orderLock (some 0) (.crediting op topUp setEmail))
        (List.replicate 2 (.advance 0 true)) = some (creditedState cfg topUp user op setEmail) := by
  rw [List.replicate_succ, run_alone_cons rfl]
  have hcredit : (aloneState topUp user orderLock (some 0) (.crediting op topUp setEmail)).advance cfg
      0 true (.crediting op topUp setEmail) =
        some (aloneState topUp user orderLock (some 0) (.committing op topUp setEmail)) := by
    cases op <;> first | rfl | exact absurd rfl hop
  rw [hcredit, Option.bind_some, List.replicate_succ, run_alone_cons rfl]
  rcases hlock with rfl | rfl <;> rfl

omit [Float64 F] in
theorem ended_of_procs (hprocs : s.procs = [.returned]) : s.Ended := by
  intro proc hproc
  rw [hprocs] at hproc
  rw [List.mem_singleton.1 hproc]
  rfl

theorem completes_rechargeCreem (customerEmail : String)
    (hpending : topUp.status = TopUpStatusPending) : ∃ setEmail,
    Completes cfg topUp user (.rechargeCreem customerEmail)
      (creditedState cfg topUp user (.rechargeCreem customerEmail) setEmail) := by
  have hselect : ∀ as, (topUpOrder cfg).run (.start topUp user)
      (.start (.rechargeCreem customerEmail) :: .advance 0 true :: .advance 0 true :: as) =
        (topUpOrder cfg).run (aloneState topUp user none none
          (.saving (.rechargeCreem customerEmail) topUp)) (.advance 0 true :: as) := fun as =>
    (run_start_alone _ _).trans (run_select_pending (.rechargeCreem customerEmail) hpending (by simp))
  by_cases hemail : customerEmail = ""
  · subst hemail
    refine ⟨false, 4, (hselect _).trans ?_, ended_of_procs rfl⟩
    rw [run_alone_cons rfl]
    exact run_transaction (.rechargeCreem _) (.inl rfl) (by simp)
  · refine ⟨user.email = "", 5, (hselect _).trans ?_, ended_of_procs rfl⟩
    have hsave : (aloneState topUp user none none (.saving (.rechargeCreem customerEmail) topUp)).advance
        cfg 0 true (.saving (.rechargeCreem customerEmail) topUp) =
          some (aloneState topUp user none (some 0)
            (.selectingUser (.rechargeCreem customerEmail) topUp)) := by
      simp [TopUpState.advance, hemail, aloneState, TopUpState.goto, TopUpState.start]
    rw [run_alone_cons rfl, hsave, Option.bind_some, List.replicate_succ, run_alone_cons rfl]
    exact run_transaction (.rechargeCreem _) (.inl rfl) (by simp)

theorem completes_epayNotify (hpending : topUp.status = TopUpStatusPending) :
    ∃ s, Completes cfg topUp user .epayNotify s ∧
      s.user.quota = user.quota + max 0 (creditOf cfg topUp .epayNotify) := by
  have hselect : (topUpOrder cfg).run (.start topUp user)
      (.start .epayNotify :: List.replicate 4 (.advance 0 true)) =
        (topUpOrder cfg).run (aloneState topUp user (some 0) none (.saving .epayNotify topUp))
          (List.replicate 2 (.advance 0 true)) :=
    (run_start_alone _ _).trans ((run_lock_alone _ _).trans
      (run_select_pending .epayNotify hpending nofun))
  let saved : TopUpState F :=
    { aloneState topUp user (some 0) none (.crediting .epayNotify topUp false) with
      topUp := topUp.complete .epayNotify }
  have hsaved : (topUpOrder cfg).run (.start topUp user)
      (.start .epayNotify :: List.replicate 4 (.advance 0 true)) =
        (saved.advance cfg 0 true (.crediting .epayNotify topUp false)).bind fun t =>
          (topUpOrder cfg).run t [] := by
    rw [hselect, List.replicate_succ, run_alone_cons rfl]
    exact run_alone_cons (s := saved) rfl
  by_cases hneg : creditOf cfg topUp .epayNotify < 0
  · -- `IncreaseUserQuota` refuses a negative amount
    have hrefuses : saved.advance cfg 0 true (.crediting .epayNotify topUp false) =
        some (saved.finish 0) := by
      simp [TopUpState.advance, hneg]
    rw [hrefuses] at hsaved
    refine ⟨saved.finish 0, ⟨4, hsaved, ended_of_procs rfl⟩, ?_⟩
    rw [max_eq_left hneg.le, add_zero]
    rfl
  · have hcredits : saved.advance cfg 0 true (.crediting .epayNotify topUp false) =
        some (creditedState cfg topUp user .epayNotify false) := by
      simp [TopUpState.advance, hneg, TopUpState.finish, creditedState, saved, aloneState,
        TopUpState.start]
    rw [hcredits] at hsaved
    refine ⟨creditedState cfg topUp user .epayNotify false, ⟨4, hsaved, ended_of_procs rfl⟩, ?_⟩
    rw [max_eq_right (not_lt.1 hneg)]
    rfl

theorem completes_manual (hpending : topUp.status = TopUpStatusPending) :
    ∃ s, Completes cfg topUp user .manualCompleteTopUp s ∧
      s.user.quota = user.quota + max 0 (creditOf cfg topUp .manualCompleteTopUp) := by
  by_cases hpays : 0 < creditOf cfg topUp .manualCompleteTopUp
  · refine ⟨creditedState cfg topUp user .manualCompleteTopUp false, ⟨5, ?_, ended_of_procs rfl⟩, ?_⟩
    · refine (run_start_alone _ _).trans ((run_lock_alone _ _).trans
        ((run_select_pending .manualCompleteTopUp hpending fun _ => hpays).trans ?_))
      rw [List.replicate_succ, run_alone_cons rfl]
      exact run_transaction .manualCompleteTopUp (.inr rfl) nofun
    · rw [max_eq_right hpays.le]
      rfl
  · -- an amount that is not positive is refused before anything is written
    have hrefuses : TopUpOp.manualCompleteTopUp.afterSelect cfg topUp = .returned := by
      simp [TopUpOp.afterSelect, hpending, not_lt.1 hpays]
    refine ⟨aloneState topUp user none none .returned, ⟨2, ?_, ended_of_procs rfl⟩, ?_⟩
    · refine (run_start_alone _ _).trans ((run_lock_alone _ _).trans ?_)
      rw [List.replicate_succ, run_alone_cons rfl]
      show (topUpOrder cfg).run ((aloneState topUp user (some 0) none
        (.selecting .manualCompleteTopUp)).goto 0
          (TopUpOp.manualCompleteTopUp.afterSelect cfg topUp))
          [] = _
      rw [hrefuses]
      rfl
    · rw [max_eq_left (not_lt.1 hpays), add_zero]
      rfl

theorem completes_recharge (customerId : String) (hpending : topUp.status = TopUpStatusPending) :
    Completes cfg topUp user (.recharge customerId)
      (creditedState cfg topUp user (.recharge customerId) false) := by
  refine ⟨4, (run_start_alone _ _).trans
    ((run_select_pending (.recharge customerId) hpending nofun).trans ?_), ended_of_procs rfl⟩
  rw [List.replicate_succ, run_alone_cons rfl]
  exact run_transaction (.recharge customerId) (.inl rfl) nofun

/-- Alone on a pending order an execution returns, and credits that much. -/
theorem completes_alone (cfg : TopUpConfig F) (user : TopUpUser) (op : TopUpOp)
    (hpending : topUp.status = TopUpStatusPending) (hop : op ≠ .sessionExpired) :
    ∃ s, Completes cfg topUp user op s ∧ s.user.quota = user.quota + aloneCredit cfg topUp op := by
  cases op with
  | sessionExpired => exact absurd rfl hop
  | recharge customerId => exact ⟨_, completes_recharge customerId hpending, rfl⟩
  | rechargeCreem customerEmail =>
      obtain ⟨setEmail, hcompletes⟩ := completes_rechargeCreem customerEmail hpending
      exact ⟨_, hcompletes, rfl⟩
  | epayNotify => exact completes_epayNotify hpending
  | manualCompleteTopUp => exact completes_manual hpending

/-- Where all executions have ended, none goes on. -/
theorem step_ended (hended : s.Ended) : (topUpOrder cfg).step s (.advance 0 true) = none := by
  show TopUpState.step cfg s (.advance 0 true) = none
  rw [TopUpState.step]
  cases hproc : s.procs[0]? with
  | none => rfl
  | some proc =>
      have hreturned := hended proc (List.mem_of_getElem? hproc)
      cases proc <;> first | rfl | exact absurd hreturned Bool.false_ne_true

/-- There is one way to the end. -/
theorem Completes.unique {op : TopUpOp} {t : TopUpState F} (hs : Completes cfg topUp user op s)
    (ht : Completes cfg topUp user op t) : s = t := by
  obtain ⟨n, hn, hended⟩ := hs
  obtain ⟨m, hm, hended'⟩ := ht
  rw [run_start_alone] at hn hm
  exact System.run_replicate_unique hn (step_ended hended) hm (step_ended hended')

/-! ## Where the two agree -/

theorem max_zero_wrapped {n : ℤ} (hn : 0 < n) (m : ℤ) :
    max 0 (m.bmod (2 ^ 64)) = n ↔ n < 2 ^ 63 ∧ ∃ k : ℤ, m = n + k * 2 ^ 64 := by
  constructor
  · intro h
    have hkept : m.bmod (2 ^ 64) = n := by
      rcases max_choice 0 (m.bmod (2 ^ 64)) with hzero | hsame
      · omega
      · rw [← hsame, h]
    refine ⟨hkept ▸ (Strings.inInt64_bmod m).2, m.bdiv (2 ^ 64), ?_⟩
    have hsplit : m.bmod (2 ^ 64) = m - m.bdiv (2 ^ 64) * (2 ^ 64 : ℕ) :=
      Int.bmod_eq_self_sub_bdiv_mul m (2 ^ 64)
    rw [hkept] at hsplit
    rw [hsplit]
    push_cast
    ring
  · rintro ⟨hrange, k, rfl⟩
    have hsum : n + k * 2 ^ 64 = n + k * (2 ^ 64 : ℕ) := by norm_num
    have hkept : (n + k * 2 ^ 64).bmod (2 ^ 64) = n := by
      rw [hsum, Int.add_mul_bmod_self_right]
      exact Strings.bmod_of_inInt64 ⟨by omega, hrange⟩
    rw [hkept, max_eq_right hn.le]

/-- The credits of the callback and of the administrator, alone, are the same exactly where the
columns mean the same to both. -/
theorem credit_eq_iff {provider : TopUpProvider} {customer : String}
    (hcreates : Creates cfg settings topUp provider) (cfg' : TopUpConfig F) :
    aloneCredit cfg' topUp .manualCompleteTopUp =
      aloneCredit cfg' topUp (provider.callback customer) ↔
      MeansTheSame cfg' topUp provider := by
  obtain ⟨-, hstripe, hcreem⟩ := created_pending hcreates
  have hunits (d : Decimal) :
      (d * Float64.toDecimal cfg'.quotaPerUnit).intPart = unitsQuota cfg' d.toRat := by
    rw [Decimal.intPart_eq, Decimal.toRat_mul, unitsQuota]
  have hmoney : creditOf cfg' topUp .manualCompleteTopUp = if topUp.paymentMethod = "stripe"
      then unitsQuota cfg' (Float64.toDecimal topUp.money).toRat
      else unitsQuota cfg' topUp.amount := by
    rw [creditOf, hunits, hunits, Decimal.toRat_ofInt]
  cases provider with
  | stripe =>
      rw [TopUpProvider.callback, aloneCredit, hmoney, if_pos (hstripe rfl)]
      exact eq_comm
  | epay =>
      have hepay : creditOf cfg' topUp .epayNotify = unitsQuota cfg' topUp.amount := by
        rw [creditOf, hunits, Decimal.toRat_ofInt]
      rw [TopUpProvider.callback, aloneCredit, aloneCredit, hmoney, hepay, MeansTheSame, SameQuota]
      split
      case isTrue hmethod => exact ⟨fun h _ => h, fun h => h hmethod⟩
      case isFalse hmethod => exact iff_of_true rfl fun h => absurd h hmethod
  | creem =>
      have hmethod : topUp.paymentMethod ≠ "stripe" := by
        rw [hcreem rfl]
        decide
      rw [TopUpProvider.callback, aloneCredit, hmoney, if_neg hmethod]
      show max 0 _ = topUp.amount ↔ _
      rw [MeansTheSame]
      rcases lt_trichotomy topUp.amount 0 with hneg | hzero | hpos
      · refine iff_of_false (fun heq => ?_) ?_
        · have hle := le_max_left 0 (unitsQuota cfg' topUp.amount)
          omega
        · rintro (hzero | ⟨hpos, -⟩) <;> omega
      · rw [hzero]
        simp [unitsQuota, Decimal.truncate]
      · rw [unitsQuota, max_zero_wrapped hpos, or_iff_right hpos.ne', and_iff_right hpos]
        simp only [Decimal.truncate_eq_iff]

/-- An order of any of the three providers, completed alone by the provider's callback and, instead,
by the administrator: both run to their end, in one way, and they credit the same quota exactly
where the order's columns mean the same to both. -/
theorem completion_credit_agrees {provider : TopUpProvider} {customer : String}
    (hcreates : Creates cfg settings topUp provider) (cfg' : TopUpConfig F) (user : TopUpUser) :
    (∃ manual, Completes cfg' topUp user .manualCompleteTopUp manual) ∧
    (∃ paid, Completes cfg' topUp user (provider.callback customer) paid) ∧
    ∀ manual paid, Completes cfg' topUp user .manualCompleteTopUp manual →
      Completes cfg' topUp user (provider.callback customer) paid →
      (manual.user.quota = paid.user.quota ↔ MeansTheSame cfg' topUp provider) := by
  obtain ⟨hpending, -, -⟩ := created_pending hcreates
  have hcallback : provider.callback customer ≠ .sessionExpired := by
    cases provider <;> nofun
  obtain ⟨manual, hmanual, hmanualQuota⟩ := completes_alone cfg' user
    .manualCompleteTopUp hpending nofun
  obtain ⟨paid, hpaid, hpaidQuota⟩ := completes_alone cfg' user _ hpending hcallback
  refine ⟨⟨manual, hmanual⟩, ⟨paid, hpaid⟩, fun manual' paid' hmanual' hpaid' => ?_⟩
  rw [hmanual'.unique hmanual, hpaid'.unique hpaid, hmanualQuota, hpaidQuota, add_right_inj]
  exact credit_eq_iff hcreates cfg'

end

/-! ## A product of Creem -/

/-- One product: 500000 quota for 10. -/
def sampleTopUpSettings : TopUpSettings Decimal where
  displayTokens := false
  price := Decimal.ofInt 7
  minTopUp := 1
  stripeMinTopUp := 1
  topupGroupRatio _ := none
  amountDiscount _ := none
  payMethods := ["alipay"]
  creemProducts := some [{ productId := "prod", price := Decimal.ofInt 10, quota := 500000 }]
  inexactFloat64 d := d

def sampleCreemOrder : TopUp Decimal where
  amount := 500000
  money := Decimal.ofInt 10
  paymentMethod := ""
  status := TopUpStatusPending

/-- The client buys the product, and nothing fails. -/
theorem sampleCreemOrder_created :
    Creates sampleTopUpConfig sampleTopUpSettings sampleCreemOrder .creem :=
  ⟨{ group := some "default", hasClient := true, purchaseOk := true, insertOk := true }, "prod",
    "creem", rfl⟩

theorem completion_credit_agrees_creem :
    (∃ manual, Completes sampleTopUpConfig sampleCreemOrder sampleUserRow .manualCompleteTopUp
      manual) ∧
    (∃ paid, Completes sampleTopUpConfig sampleCreemOrder sampleUserRow (.rechargeCreem "") paid) ∧
    ∀ manual paid,
      Completes sampleTopUpConfig sampleCreemOrder sampleUserRow .manualCompleteTopUp manual →
      Completes sampleTopUpConfig sampleCreemOrder sampleUserRow (.rechargeCreem "") paid →
      (manual.user.quota = paid.user.quota ↔
        MeansTheSame sampleTopUpConfig sampleCreemOrder .creem) :=
  completion_credit_agrees sampleCreemOrder_created sampleTopUpConfig sampleUserRow

/-- The administrator credits a product of Creem times `QuotaPerUnit`. -/
theorem manual_completion_multiplies_creem :
    ¬ ∀ (cfg : TopUpConfig Decimal) (settings : TopUpSettings Decimal) (topUp : TopUp Decimal)
      (provider : TopUpProvider) (customer : String) (user : TopUpUser)
      (manual paid : TopUpState Decimal), Creates cfg settings topUp provider →
      Completes cfg topUp user .manualCompleteTopUp manual →
      Completes cfg topUp user (provider.callback customer) paid →
      manual.user.quota = paid.user.quota := by
  intro hclaim
  have hagrees := hclaim sampleTopUpConfig sampleTopUpSettings sampleCreemOrder .creem ""
    sampleUserRow _ _ sampleCreemOrder_created ⟨5, rfl, by decide⟩ ⟨4, rfl, by decide⟩
  exact absurd hagrees (by decide)

end NewApi.Model
