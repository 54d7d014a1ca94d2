import NewApi.Model.ClaudeToOpenAI
import NewApi.Model.SettledQuota

/-!
# An attempt that panics

A panic leaves `Relay` through its deferred functions and is recovered by `RelayPanicRecover`,
which moves no quota.  The deferred refund looks at the error variable, which the panicking attempt
has not assigned: it holds the error of the attempt before, if there was one.
-/

namespace NewApi.Model

open NewApi.Lib

/-! ## Errors -/

namespace NewAPIError

/-- The code of an error is the one that it is told with, as every constructor of errors leaves it.
-/
def Coded (e : NewAPIError) : Prop :=
  e.openAIResult.code.getD "unknown_error" = e.errorCode

variable {maskSensitiveInfo : String → String}

theorem newError_coded (err errorCode : String) : (newError err errorCode).Coded :=
  rfl

theorem newErrorWithStatusCode_coded (err errorCode : String) (statusCode : ℤ) :
    (newErrorWithStatusCode err errorCode statusCode).Coded :=
  rfl

theorem withOpenAIError_coded (openAIError : OpenAIError) (statusCode : ℤ) :
    (withOpenAIError openAIError statusCode).Coded := by
  unfold Coded withOpenAIError openAIResult
  dsimp only
  rw [if_pos rfl]
  split
  case isTrue => rfl
  case isFalse => rfl

theorem withClaudeError_coded (claudeError : ClaudeError) (statusCode : ℤ) :
    (withClaudeError claudeError statusCode).Coded :=
  rfl

/-- A violation is not retried. -/
theorem violation_not_retried {e : NewAPIError} (hcoded : e.Coded)
    (hviolation : isViolationFeeCode e.errorCode = true) (retryRanges : List StatusCodeRange)
    (specificChannel : Bool) (retryTimes : ℤ) :
    shouldRetry retryRanges specificChannel (e.normalizeViolationFeeError maskSensitiveInfo)
      retryTimes = false := by
  by_cases hmarked : e.hasCSAMViolationMarker maskSensitiveInfo = true
  · exact e.normalize_not_retried retryRanges specificChannel retryTimes hmarked
  · have hnormalized : e.normalizeViolationFeeError maskSensitiveInfo =
        (withOpenAIError (e.toOpenAIError maskSensitiveInfo) e.statusCode).withSkipRetry := by
      rw [normalizeViolationFeeError, if_neg hmarked, if_pos hviolation]
    have hcode : (withOpenAIError (e.toOpenAIError maskSensitiveInfo) e.statusCode).errorCode =
        e.errorCode := hcoded
    -- the code begins with another text than that of a channel error
    have hchannel : (e.normalizeViolationFeeError maskSensitiveInfo).isChannelError = false := by
      rw [hnormalized, isChannelError, withSkipRetry]
      show Lib.Strings.hasPrefix
        (withOpenAIError (e.toOpenAIError maskSensitiveInfo) e.statusCode).errorCode "channel:" = false
      rw [hcode, ← Bool.not_eq_true]
      intro hchannel
      obtain ⟨rest, hrest⟩ := List.isPrefixOf_iff_prefix.1 hchannel
      obtain ⟨others, hothers⟩ := List.isPrefixOf_iff_prefix.1 hviolation
      have hfirst : some 'c' = some 'v' := congrArg List.head? (hrest.trans hothers.symm)
      exact absurd hfirst (by decide)
    have hskip : (e.normalizeViolationFeeError maskSensitiveInfo).skipRetry = true := by
      rw [hnormalized]
      rfl
    rw [shouldRetry, hchannel, hskip]
    rfl

/-- No fee is charged for an error that has let the loop go on. -/
theorem retried_not_charged {e : NewAPIError} (hcoded : e.Coded) {retryRanges : List StatusCodeRange}
    {specificChannel : Bool} {retryTimes : ℤ}
    (hretried : shouldRetry retryRanges specificChannel
      (e.normalizeViolationFeeError maskSensitiveInfo) retryTimes = true) :
    ((e.normalizeViolationFeeError maskSensitiveInfo).normalizeViolationFeeError
      maskSensitiveInfo).shouldChargeViolationFee maskSensitiveInfo = false := by
  have hmarked : ¬e.hasCSAMViolationMarker maskSensitiveInfo = true := by
    intro hmarked
    rw [e.normalize_not_retried retryRanges specificChannel retryTimes hmarked] at hretried
    cases hretried
  have hviolation : ¬isViolationFeeCode e.errorCode = true := by
    intro hviolation
    rw [violation_not_retried hcoded hviolation] at hretried
    cases hretried
  have hnormalized : e.normalizeViolationFeeError maskSensitiveInfo = e := by
    rw [normalizeViolationFeeError, if_neg hmarked, if_neg hviolation]
  have hcode : ¬e.errorCode = ErrorCodeViolationFeeGrokCSAM := by
    intro hcode
    rw [hcode] at hviolation
    exact hviolation (by decide)
  rw [hnormalized, hnormalized, shouldChargeViolationFee, decide_eq_false hcode, Bool.false_or,
    Bool.eq_false_iff]
  exact hmarked

end NewAPIError

/-! ## Unwinding -/

/-- Where an attempt panics: before it is settled, or once the settlement has been applied. -/
inductive PanicPoint (F : Type)
  | beforeSettlement
  | afterSettlement (settlement : Settlement F)

section

variable {F : Type} [Float64 F] (cfg : RelaySettings F)

/-- The state of the request at the panic. -/
def PanicPoint.reached (s : RelayState F) (modelName : String) : PanicPoint F → RelayState F
  | .beforeSettlement => s
  | .afterSettlement settlement => settlement.run cfg s modelName

/-- The amount that the attempt has settled at the panic. -/
def PanicPoint.settled (attempt : Attempt F) (estimatePromptTokens : ℤ) : PanicPoint F → ℤ
  | .beforeSettlement => 0
  | .afterSettlement settlement =>
      settlement.quota cfg.toPriceSettings attempt.priceData attempt.channelType
        estimatePromptTokens attempt.originModelName

/-- What the settlement has added to the deposit at the panic. -/
def PanicPoint.added (attempt : Attempt F) (estimatePromptTokens deposit : ℤ) : PanicPoint F → ℤ
  | .beforeSettlement => 0
  | .afterSettlement settlement =>
      (PanicPoint.afterSettlement settlement).settled cfg attempt estimatePromptTokens - deposit

/-- The billing part of `Relay` when an attempt panics after some others. -/
def relayPanics (specificChannel refundFirst : Bool) (adm : Admission) (db : DB) (info : RelayInfo F)
    (failed : List (Attempt F)) (attempt : Attempt F) (point : PanicPoint F) :
    Option (Except NewAPIError (RelayState F)) :=
  let start : RelayState F :=
    { db := db, info := { info with finalPreConsumedQuota := 0 }, trace := [], refunds := [] }
  let admitted :=
    if info.priceData.freeModel then .ok start
    else preConsumeQuota cfg start adm info.priceData.quotaToPreConsume
  match admitted with
  | .error error => some (.error error)
  | .ok s =>
      (relayLoop cfg specificChannel RetryParam.start true s none
        (failed ++ [{ attempt with outcome := .panicked }])).map fun result =>
          .ok (relayDeferred cfg refundFirst (point.reached cfg result.1 attempt.originModelName)
            result.2)

end

section

variable {F : Type} [Float64 F] {cfg : RelaySettings F} {s : RelayState F}

/-- A settlement charges the difference between its quota and the deposit. -/
theorem settlement_quota_charged (settlement : Settlement F) (s : RelayState F) (modelName : String) :
    Charged s.info.toPayer
      (settlement.quota cfg.toPriceSettings s.info.priceData s.info.channelType
        s.info.estimatePromptTokens modelName - s.info.finalPreConsumedQuota) s.db
      (settlement.run cfg s modelName).db := by
  obtain ⟨-, -, quota, htrace, hcharged⟩ := settlement_charged cfg settlement s modelName
  have hquota := (settlement_trace settlement s modelName).symm.trans htrace
  rw [List.append_cancel_left_eq, List.cons.injEq, RelayEvent.consumed.injEq] at hquota
  rw [hquota.1]
  exact hcharged

/-- What has been charged at the panic since the start of the attempt. -/
theorem reached_charged (point : PanicPoint F) (attempt : Attempt F) (s : RelayState F) :
    let entered := attempt.enter s
    let reached := point.reached cfg entered attempt.originModelName
    reached.info = entered.info ∧ reached.refunds = s.refunds ∧
      Charged s.info.toPayer
        (point.added cfg attempt s.info.estimatePromptTokens s.info.finalPreConsumedQuota)
        s.db reached.db := by
  cases point with
  | beforeSettlement => exact ⟨rfl, rfl, Charged.zero _ _⟩
  | afterSettlement settlement =>
      obtain ⟨hinfo, hrefunds, -⟩ :=
        settlement_charged cfg settlement (attempt.enter s) attempt.originModelName
      exact ⟨hinfo, hrefunds, settlement_quota_charged settlement (attempt.enter s) _⟩

/-- The panicking attempt has only entered its handler, and assigns no error. -/
theorem relayLoop_panicked {specificChannel first : Bool} {param : RetryParam}
    {looped : RelayState F} {err err' : Option NewAPIError} {attempt : Attempt F}
    (hloop : relayLoop cfg specificChannel param first s err
      [{ attempt with outcome := .panicked }] = some (looped, err')) :
    looped = attempt.enter s ∧ err' = err := by
  obtain ⟨-, ⟨-, hlast⟩ | ⟨error, -, -, houtcome, -⟩⟩ := relayLoop_cons hloop
  · cases hlast
    exact ⟨rfl, rfl⟩
  · cases houtcome

/-- Where no fee is charged, the deferred function returns the deposit. -/
theorem relayDeferred_returns {refundFirst : Bool} {error : NewAPIError} (hrefunds : s.refunds = [])
    (hclean : (error.normalizeViolationFeeError cfg.maskSensitiveInfo).shouldChargeViolationFee
      cfg.maskSensitiveInfo = false) :
    Charged s.info.toPayer (-s.info.finalPreConsumedQuota) s.db
      (relayDeferred cfg refundFirst s (some error)).db := by
  have hfree (t : RelayState F) : chargeViolationFeeIfNeeded cfg t
      (error.normalizeViolationFeeError cfg.maskSensitiveInfo) = t := by
    unfold chargeViolationFeeIfNeeded
    dsimp only
    rw [hclean]
    rfl
  have hreturned : (returnPreConsumedQuota s).info = s.info ∧ (returnPreConsumedQuota s).db = s.db ∧
      (returnPreConsumedQuota s).refunds.sum = s.info.finalPreConsumedQuota := by
    unfold returnPreConsumedQuota
    split
    case isTrue => exact ⟨rfl, rfl, by simp [hrefunds]⟩
    case isFalse hzero => exact ⟨rfl, rfl, by rw [hrefunds, not_not.1 hzero, List.sum_nil]⟩
  obtain ⟨hinfo, hdb, hsum⟩ := hreturned
  rw [relayDeferred, hfree]
  generalize returnPreConsumedQuota s = returned at hinfo hdb hsum
  rw [← hsum, ← hinfo, ← hdb]
  cases refundFirst with
  | true =>
      -- the goroutine has run, and none is left
      have hfirst := runRefunds_charged returned
      have hlast := runRefunds_charged (runRefunds returned)
      have hboth := hfirst.trans hlast
      have hnone : (runRefunds returned).refunds = [] := rfl
      rw [hnone, List.sum_nil, neg_zero, Int.add_zero] at hboth
      exact hboth
  | false => exact runRefunds_charged returned

/-- The deposit is returned to a request that has failed before, and kept from any other. -/
theorem relayPanics_charged {specificChannel refundFirst : Bool} {adm : Admission} {db : DB}
    {info : RelayInfo F} {failed : List (Attempt F)} {attempt : Attempt F} {point : PanicPoint F}
    {s' : RelayState F}
    (hcoded : ∀ earlier ∈ failed, ∀ error, earlier.outcome = .failed error → error.Coded)
    (hrun : relayPanics cfg specificChannel refundFirst adm db info failed attempt point =
      some (.ok s')) :
    Charged info.toPayer
      (max 0 (notedDeposit cfg adm info) +
        point.added cfg attempt info.estimatePromptTokens (notedDeposit cfg adm info) +
        (if failed.isEmpty then 0 else -notedDeposit cfg adm info)) db s'.db := by
  rw [relayPanics] at hrun
  split at hrun
  case h_1 error hrefused => cases hrun
  case h_2 s hok =>
  have hstarted := started_of_admitted rfl hok
  obtain ⟨⟨looped, err⟩, hloop, hs'⟩ := Option.map_eq_some_iff.1 hrun
  obtain rfl := Except.ok.inj hs'
  obtain ⟨-, reachedParam, reachedFirst, started, reachedError, hlast, huntouched, hestimate, herror⟩ :=
    relayLoop_last hloop
  obtain ⟨rfl, rfl⟩ := relayLoop_panicked hlast
  obtain ⟨hreachedInfo, hreachedRefunds, hreached⟩ := @reached_charged F _ cfg point attempt started
  have hdeposit : started.info.finalPreConsumedQuota = notedDeposit cfg adm info := by
    rw [huntouched.preConsumed, hstarted.noted]
  have hpayer : started.info.toPayer = info.toPayer := by
    rw [huntouched.payer, hstarted.noted]
  rw [huntouched.db, hpayer, hestimate, hstarted.noted, hdeposit] at hreached
  have hall := hstarted.charged.trans hreached
  rcases herror with ⟨rfl, rfl⟩ | ⟨earlier, hearlier, error, retryTimes, houtcome, rfl, hretried⟩
  · -- the deferred function sees no error
    rw [List.isEmpty_nil, if_pos rfl, Int.add_zero]
    exact hall
  · have hreturned := @relayDeferred_returns F _ cfg _ refundFirst _
      (hreachedRefunds.trans (huntouched.refunds.trans hstarted.refunds))
      (NewAPIError.retried_not_charged (hcoded earlier hearlier error houtcome) hretried)
    have hsame : (attempt.enter started).info.toPayer = info.toPayer ∧
        (attempt.enter started).info.finalPreConsumedQuota = notedDeposit cfg adm info :=
      ⟨hpayer, hdeposit⟩
    rw [hreachedInfo, hsame.1, hsame.2] at hreturned
    rw [List.isEmpty_eq_false_iff.2 (List.ne_nil_of_mem hearlier), if_neg Bool.false_ne_true]
    exact hall.trans hreturned

end

/-- The deposit is neither kept nor lost. -/
def DepositBalanced {F : Type} (deposit : ℤ) (failed : List (Attempt F)) : PanicPoint F → Prop
  | .beforeSettlement => failed = [] ∧ deposit ≤ 0 ∨ failed ≠ [] ∧ 0 ≤ deposit
  | .afterSettlement _ => failed = [] ∧ 0 ≤ deposit ∨ deposit = 0

/-- A request whose attempt panics is charged what the attempt has settled exactly when the deposit
is balanced: one that has not been settled needs an earlier failure, and one that has been settled
must have none. -/
theorem panic_charged_iff {F : Type} [Float64 F] (cfg : RelaySettings F)
    (specificChannel refundFirst : Bool) (adm : Admission) (db : DB) (info : RelayInfo F)
    (failed : List (Attempt F)) (attempt : Attempt F) (point : PanicPoint F) (s' : RelayState F)
    (hcoded : ∀ earlier ∈ failed, ∀ error, earlier.outcome = .failed error → error.Coded)
    (hrun : relayPanics cfg specificChannel refundFirst adm db info failed attempt point =
      some (.ok s')) :
    Charged info.toPayer (point.settled cfg attempt info.estimatePromptTokens) db s'.db ↔
      DepositBalanced (notedDeposit cfg adm info) failed point := by
  have hcharged := (relayPanics_charged hcoded hrun).charged_iff
    (point.settled cfg attempt info.estimatePromptTokens)
  refine hcharged.trans ?_
  generalize notedDeposit cfg adm info = deposit
  cases failed with
  | nil =>
      cases point with
      | beforeSettlement =>
          show 0 = max 0 deposit + 0 + 0 ↔ [] = [] ∧ deposit ≤ 0 ∨ [] ≠ [] ∧ 0 ≤ deposit
          rw [or_iff_left fun h => h.1 rfl, and_iff_right rfl]
          omega
      | afterSettlement settlement =>
          show _ = max 0 deposit + (_ - deposit) + 0 ↔ [] = [] ∧ 0 ≤ deposit ∨ deposit = 0
          rw [and_iff_right rfl]
          omega
  | cons earlier failed =>
      have hnonempty : earlier :: failed ≠ [] := List.cons_ne_nil _ _
      cases point with
      | beforeSettlement =>
          show 0 = max 0 deposit + 0 + -deposit ↔
            earlier :: failed = [] ∧ deposit ≤ 0 ∨ earlier :: failed ≠ [] ∧ 0 ≤ deposit
          rw [or_iff_right fun h => hnonempty h.1, and_iff_right hnonempty]
          omega
      | afterSettlement settlement =>
          show _ = max 0 deposit + (_ - deposit) + -deposit ↔
            earlier :: failed = [] ∧ 0 ≤ deposit ∨ deposit = 0
          rw [or_iff_right fun h => hnonempty h.1]
          omega

/-! ## Panics -/

/-- An upstream error, then a panic. -/
def busyAttempts : List (Attempt Decimal) :=
  [sampleAttempt (.failed (NewAPIError.newErrorWithStatusCode "busy" "bad_response" 500))]

theorem busyAttempts_coded : ∀ earlier ∈ busyAttempts, ∀ error, earlier.outcome = .failed error →
    error.Coded := by
  intro earlier hearlier error houtcome
  obtain rfl := List.mem_singleton.1 hearlier
  cases houtcome
  exact NewAPIError.newErrorWithStatusCode_coded "busy" "bad_response" 500

/-- A panic after a failed attempt returns the deposit. -/
theorem panic_charged_retried :
    ∃ s', relayPanics sampleRelaySettings false false sampleAdmission sampleDB sampleRelayInfo
        busyAttempts (sampleAttempt .panicked) .beforeSettlement = some (.ok s') ∧
      s'.trace = [.returned 5] ∧
        (Charged sampleRelayInfo.toPayer
          (PanicPoint.beforeSettlement.settled sampleRelaySettings (sampleAttempt .panicked) 4)
          sampleDB s'.db ↔
        DepositBalanced (notedDeposit sampleRelaySettings sampleAdmission sampleRelayInfo)
          busyAttempts .beforeSettlement) :=
  ⟨_, rfl, by decide, panic_charged_iff sampleRelaySettings false false sampleAdmission sampleDB
    sampleRelayInfo busyAttempts (sampleAttempt .panicked) .beforeSettlement _ busyAttempts_coded rfl⟩

/-- A panic after the settlement of a retried request returns the deposit that has been settled. -/
theorem settled_panic_refunded :
    ¬ ∀ (cfg : RelaySettings Decimal) (specificChannel refundFirst : Bool) (adm : Admission) (db : DB)
      (info : RelayInfo Decimal) (failed : List (Attempt Decimal)) (attempt : Attempt Decimal)
      (point : PanicPoint Decimal) (s' : RelayState Decimal),
        (∀ earlier ∈ failed, ∀ error, earlier.outcome = .failed error → error.Coded) →
        relayPanics cfg specificChannel refundFirst adm db info failed attempt point =
          some (.ok s') →
        Charged info.toPayer (point.settled cfg attempt info.estimatePromptTokens) db s'.db := by
  intro hclaim
  have hcharged := hclaim sampleRelaySettings false false sampleAdmission sampleDB sampleRelayInfo
    busyAttempts (sampleAttempt .panicked) (.afterSettlement (.postConsumeQuota none ⟨none, "", none⟩))
    _ busyAttempts_coded rfl
  exact absurd (congrFun hcharged.user 1) (by decide)

end NewApi.Model
