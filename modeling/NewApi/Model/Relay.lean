import NewApi.Model.ApiError
import NewApi.Model.Billing
import NewApi.Model.Settlement

/-!
# A synchronous relay request

`Relay` pre-consumes quota, tries channels until an attempt succeeds or an error ends the
loop, and returns the pre-consumed quota in a deferred function when it ends with an error.
A successful attempt settles the request by charging the difference between its final quota
and what was pre-consumed.
-/

namespace NewApi.Model

open NewApi.Lib

/-- The settings a relay request reads. -/
structure RelaySettings (F : Type) extends PriceSettings F where
  retryTimes : ℤ
  automaticRetryStatusCodeRanges : List StatusCodeRange
  violationDeductionEnabled : Bool
  violationDeductionAmount : F
  formatQuota : ℤ → String
  maskSensitiveInfo : String → String

/-- `relaycommon.RelayInfo` as far as billing reads it. -/
structure RelayInfo (F : Type) extends Payer where
  tokenUnlimited : Bool
  channelId : ℕ
  channelType : ℤ
  estimatePromptTokens : ℤ
  finalPreConsumedQuota : ℤ
  priceData : PriceData F

/-- The billing events of a request in order: a settlement with the quota it logs, the
pre-consumed quota that was scheduled to be returned, a violation fee. -/
inductive RelayEvent
  | consumed (quota : ℤ)
  | returned (quota : ℤ)
  | violationFee (quota : ℤ)
deriving DecidableEq

/-- The state of a request: the database, the relay info, its billing events and the refund
goroutines that have not run yet. -/
structure RelayState (F : Type) where
  db : DB
  info : RelayInfo F
  trace : List RelayEvent
  refunds : List ℤ

/-- What admission reads: the user's quota, the quota of the token in the request context
and the remaining quota of the token row. -/
structure Admission where
  userQuota : Except String ℤ
  contextTokenQuota : ℤ
  tokenRemainQuota : Except String ℤ

/-- The settlement function that the handler calls, with the usage it hands over. -/
inductive Settlement (F : Type)
  | postConsumeQuota (usage : Option (Usage F)) (ctx : ToolContext)
  | postClaudeConsumeQuota (usage : Usage F)
  | postAudioConsumeQuota (usage : Usage F)

/-- How an attempt ends.  A panic in the handler leaves `Relay` through its deferred
functions, as a return does. -/
inductive AttemptOutcome (F : Type)
  | noChannel (error : NewAPIError)
  | noBody (error : NewAPIError)
  | failed (error : NewAPIError)
  | panicked
  | succeeded (settlement : Settlement F)

/-- What the channel selection does to the retry counter. -/
inductive Selection
  | keep
  | setRetry
  | setRetryAndResetNextTry

/-- One attempt: the channel, the prices as `getChannel` and the handler leave them, the
model name at settlement and the outcome. -/
structure Attempt (F : Type) where
  selection : Selection
  channelId : ℕ
  channelType : ℤ
  priceData : PriceData F
  originModelName : String
  outcome : AttemptOutcome F

def Attempt.Succeeds {F : Type} (attempt : Attempt F) : Prop :=
  match attempt.outcome with
  | .succeeded _ => True
  | _ => False

/-- `service.RetryParam`. -/
structure RetryParam where
  retry : ℤ
  resetNextTry : Bool

namespace RetryParam

def start : RetryParam where
  retry := 0
  resetNextTry := false

def increaseRetry (param : RetryParam) : RetryParam :=
  if param.resetNextTry then { param with resetNextTry := false }
  else { param with retry := param.retry + 1 }

def select (param : RetryParam) : Selection → RetryParam
  | .keep => param
  | .setRetry => { param with retry := 0 }
  | .setRetryAndResetNextTry => { retry := 0, resetNextTry := true }

/-- The counter during an attempt; the first one selects no channel. -/
def during (param : RetryParam) (first : Bool) (selection : Selection) : RetryParam :=
  if first then param else param.select selection

end RetryParam

section

variable {F : Type} [Float64 F] (cfg : RelaySettings F)

/-- `GetTrustQuota`. -/
def getTrustQuota : ℤ :=
  Float64.toInt (Float64.ofInt 10 * cfg.quotaPerUnit)

/-- User and token have so much quota that nothing needs to be pre-consumed. -/
def trusts (info : RelayInfo F) (userQuota tokenQuota : ℤ) : Bool :=
  getTrustQuota cfg < userQuota && (info.tokenUnlimited || getTrustQuota cfg < tokenQuota)

def preConsumeTokenQuota (db : DB) (info : RelayInfo F) (adm : Admission) (quota : ℤ) :
    Except String DB :=
  if quota < 0 then .error "quota 不能为负数！"
  else if info.isPlayground then .ok db
  else
    match adm.tokenRemainQuota with
    | .error err => .error err
    | .ok remainQuota =>
        if !info.tokenUnlimited && remainQuota < quota then
          .error ("token quota is not enough, token remain quota: " ++
            cfg.formatQuota remainQuota ++ ", need quota: " ++ cfg.formatQuota quota)
        else
          match db.debitToken info.tokenId quota with
          | (_, some err) => .error err
          | (db, none) => .ok db

/-- Check the balance, then take the quota from the token and from the user unless both are
trusted. -/
def preConsumeQuota (s : RelayState F) (adm : Admission) (preConsumedQuota : ℤ) :
    Except NewAPIError (RelayState F) :=
  match adm.userQuota with
  | .error err => .error (NewAPIError.newError err ErrorCodeQueryDataError).withSkipRetry
  | .ok userQuota =>
      if userQuota ≤ 0 then
        .error (NewAPIError.newErrorWithStatusCode
          ("用户额度不足, 剩余额度: " ++ cfg.formatQuota userQuota)
          ErrorCodeInsufficientUserQuota 403).withSkipRetry.withNoRecordErrorLog
      else if userQuota - preConsumedQuota < 0 then
        .error (NewAPIError.newErrorWithStatusCode
          ("预扣费额度失败, 用户剩余额度: " ++ cfg.formatQuota userQuota ++
            ", 需要预扣费额度: " ++ cfg.formatQuota preConsumedQuota)
          ErrorCodeInsufficientUserQuota 403).withSkipRetry.withNoRecordErrorLog
      else
        let quota :=
          if trusts cfg s.info userQuota adm.contextTokenQuota then 0 else preConsumedQuota
        if 0 < quota then
          match preConsumeTokenQuota cfg s.db s.info adm quota with
          | .error err =>
              .error (NewAPIError.newErrorWithStatusCode err
                ErrorCodePreConsumeTokenQuotaFailed 403).withSkipRetry.withNoRecordErrorLog
          | .ok db =>
              match db.debitUser s.info.userId quota with
              | (_, some err) =>
                  .error (NewAPIError.newError err "update_data_error").withSkipRetry
              | (db, none) =>
                  .ok { s with db := db, info := { s.info with finalPreConsumedQuota := quota } }
        else .ok { s with info := { s.info with finalPreConsumedQuota := quota } }

/-- What the three settlement functions do with their quota: count it as used unless no
tokens were reported, charge the difference to what was pre-consumed and log the quota. -/
def settle (s : RelayState F) (quota : ℤ) (counted : Bool) : RelayState F :=
  let db :=
    if counted then
      (s.db.updateUserUsedQuotaAndRequestCount s.info.userId quota 1).updateChannelUsedQuota
        s.info.channelId quota
    else s.db
  let quotaDelta := quota - s.info.finalPreConsumedQuota
  let db := if quotaDelta ≠ 0 then (db.postConsumeQuota s.info.toPayer quotaDelta).1 else db
  { s with db := db, trace := s.trace ++ [.consumed quota] }

/-- The usage that stands in when the upstream reported none. -/
def estimatedUsage (info : RelayInfo F) : Usage F :=
  { Usage.empty with
    promptTokens := info.estimatePromptTokens
    totalTokens := info.estimatePromptTokens }

def postConsumeQuota (s : RelayState F) (modelName : String) (usage : Option (Usage F))
    (ctx : ToolContext) : RelayState F :=
  let usage := usage.getD (estimatedUsage s.info)
  settle s
    (textQuota cfg.toPriceSettings s.info.priceData s.info.channelType modelName ctx usage)
    (usage.promptTokens + usage.completionTokens ≠ 0)

def postClaudeConsumeQuota (s : RelayState F) (modelName : String) (usage : Usage F) :
    RelayState F :=
  settle s
    (claudeQuota cfg.toPriceSettings s.info.priceData s.info.channelType modelName usage)
    (claudePromptTokens cfg.toPriceSettings s.info.priceData s.info.channelType modelName usage +
      usage.completionTokens ≠ 0)

def postAudioConsumeQuota (s : RelayState F) (modelName : String) (usage : Usage F) :
    RelayState F :=
  settle s (audioQuota cfg.toPriceSettings s.info.priceData modelName usage)
    (usage.totalTokens ≠ 0)

def Settlement.run (s : RelayState F) (modelName : String) : Settlement F → RelayState F
  | .postConsumeQuota usage ctx => Model.postConsumeQuota cfg s modelName usage ctx
  | .postClaudeConsumeQuota usage => Model.postClaudeConsumeQuota cfg s modelName usage
  | .postAudioConsumeQuota usage => Model.postAudioConsumeQuota cfg s modelName usage

/-- The state in which the handler of an attempt runs: `getChannel` has refreshed the prices
and `InitChannelMeta` has set the channel. -/
def Attempt.enter (attempt : Attempt F) (s : RelayState F) : RelayState F :=
  { s with
    info :=
      { s.info with
        channelId := attempt.channelId
        channelType := attempt.channelType
        priceData := attempt.priceData } }

/-- The retry loop over the attempts that it makes, from the current `newAPIError`.  The
first attempt takes the channel of the request context, so it always has one.  The result is
`none` when the list is not the list of attempts that this run of the loop makes. -/
def relayLoop (specificChannel : Bool) :
    RetryParam → Bool → RelayState F → Option NewAPIError → List (Attempt F) →
      Option (RelayState F × Option NewAPIError)
  | param, _, s, newAPIError, [] =>
      if param.retry ≤ cfg.retryTimes then none else some (s, newAPIError)
  | param, first, s, newAPIError, attempt :: rest =>
      if param.retry ≤ cfg.retryTimes then
        let param := param.during first attempt.selection
        let s := attempt.enter s
        match attempt.outcome with
        | .noChannel error => if !first && rest.isEmpty then some (s, some error) else none
        | .noBody error => if rest.isEmpty then some (s, some error) else none
        | .panicked => if rest.isEmpty then some (s, newAPIError) else none
        | .succeeded settlement =>
            if rest.isEmpty then some (settlement.run cfg s attempt.originModelName, none)
            else none
        | .failed error =>
            let error := error.normalizeViolationFeeError cfg.maskSensitiveInfo
            if shouldRetry cfg.automaticRetryStatusCodeRanges specificChannel error
                (cfg.retryTimes - param.retry) then
              relayLoop specificChannel param.increaseRetry false s (some error) rest
            else if rest.isEmpty then some (s, some error)
            else none
      else none

/-- `ReturnPreConsumedQuota`: schedule the refund goroutine. -/
def returnPreConsumedQuota (s : RelayState F) : RelayState F :=
  if s.info.finalPreConsumedQuota ≠ 0 then
    { s with
      trace := s.trace ++ [.returned s.info.finalPreConsumedQuota]
      refunds := s.refunds ++ [s.info.finalPreConsumedQuota] }
  else s

/-- The scheduled goroutines run. -/
def runRefunds (s : RelayState F) : RelayState F :=
  { s with
    db := s.refunds.foldl (fun db quota => (db.postConsumeQuota s.info.toPayer (-quota)).1) s.db
    refunds := [] }

def calcViolationFeeQuota (amount groupRatio : F) : ℤ :=
  if Float64.le amount (Float64.ofInt 0) then 0
  else if Float64.le groupRatio (Float64.ofInt 0) then 0
  else
    let quota := (Float64.toDecimal amount * Float64.toDecimal cfg.quotaPerUnit *
      Float64.toDecimal groupRatio).round.intPart
    if quota ≤ 0 then 0 else quota

def chargeViolationFeeIfNeeded (s : RelayState F) (apiErr : NewAPIError) : RelayState F :=
  let feeQuota := calcViolationFeeQuota cfg cfg.violationDeductionAmount s.info.priceData.groupRatio
  if !apiErr.shouldChargeViolationFee cfg.maskSensitiveInfo then s
  else if !cfg.violationDeductionEnabled then s
  else if feeQuota ≤ 0 then s
  else
    let db := (s.db.postConsumeQuota s.info.toPayer feeQuota).1
    { s with
      db := (db.updateUserUsedQuotaAndRequestCount s.info.userId feeQuota 1).updateChannelUsedQuota
        s.info.channelId feeQuota
      trace := s.trace ++ [.violationFee feeQuota] }

/-- The deferred function.  The refund goroutine runs at some time after it is scheduled,
before the fee or after it. -/
def relayDeferred (refundFirst : Bool) (s : RelayState F) (newAPIError : Option NewAPIError) :
    RelayState F :=
  match newAPIError with
  | none => s
  | some error =>
      let error := error.normalizeViolationFeeError cfg.maskSensitiveInfo
      let s := returnPreConsumedQuota s
      let s := if refundFirst then runRefunds s else s
      runRefunds (chargeViolationFeeIfNeeded cfg s error)

/-- The billing part of `Relay`, from the priced request on.  An error is that of the
pre-consumption, which ends the request before the loop. -/
def relay (specificChannel refundFirst : Bool) (adm : Admission) (db : DB) (info : RelayInfo F)
    (attempts : List (Attempt F)) : Option (Except NewAPIError (RelayState F)) :=
  let start : RelayState F :=
    { db := db, info := { info with finalPreConsumedQuota := 0 }, trace := [], refunds := [] }
  let admitted :=
    if info.priceData.freeModel then .ok start
    else preConsumeQuota cfg start adm info.priceData.quotaToPreConsume
  match admitted with
  | .error error => some (.error error)
  | .ok s =>
      (relayLoop cfg specificChannel RetryParam.start true s none attempts).map fun result =>
        .ok (relayDeferred cfg refundFirst result.1 result.2)

end

end NewApi.Model
