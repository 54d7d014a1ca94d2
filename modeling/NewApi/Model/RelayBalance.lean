import Mathlib.Algebra.Ring.Int.Defs
import NewApi.Model.Relay

/-!
# What a relay request costs its payer

However many attempts the retry loop makes and however they end, a request that succeeds
costs the quota that its settlement logged, and one that fails costs nothing but a violation
fee.  The two ways out of this are a loop that makes no attempt and a first attempt that
panics: both leave the error unset that the deferred refund looks for.
-/

namespace NewApi.Model

open NewApi.Lib

/-- The first attempt returns, with or without an error. -/
def FirstReturns {F : Type} (attempts : List (Attempt F)) : Prop :=
  match attempts with
  | [] => True
  | attempt :: _ => attempt.outcome ≠ .panicked

/-- The request ended with its books balanced: a success was charged the one quota that was
logged, a failure nothing but at most one fee, and the fee only after all of the
pre-consumed quota was scheduled to be returned. -/
structure Conserved {F : Type} (attempts : List (Attempt F)) (payer : Payer) (db : DB)
    (s' : RelayState F) : Prop where
  succeeded : (∃ attempt ∈ attempts, attempt.Succeeds) →
    ∃ quota, s'.trace = [.consumed quota] ∧ Charged payer quota db s'.db
  failed : (∀ attempt ∈ attempts, ¬attempt.Succeeds) →
    ∃ fees : List ℤ, fees.length ≤ 1 ∧
      s'.trace =
        (if s'.info.finalPreConsumedQuota = 0 then []
          else [.returned s'.info.finalPreConsumedQuota]) ++ fees.map .violationFee ∧
      Charged payer fees.sum db s'.db
  ended : s'.refunds = []

section

variable {F : Type} [Float64 F] {cfg : RelaySettings F} {s s' : RelayState F} {adm : Admission}

/-- Nothing is pre-consumed: the model is free, user and token are trusted, or the estimate
is zero. -/
def PreConsumesNothing (cfg : RelaySettings F) (adm : Admission) (info : RelayInfo F) : Prop :=
  info.priceData.freeModel = true ∨
    (∃ userQuota, adm.userQuota = .ok userQuota ∧
      trusts cfg info userQuota adm.contextTokenQuota = true) ∨
    info.priceData.quotaToPreConsume = 0

/-- A difference of zero needs no statement. -/
theorem delta_charged (payer : Payer) (db : DB) (delta : ℤ) :
    Charged payer delta db
      (if delta ≠ 0 then (db.postConsumeQuota payer delta).1 else db) := by
  split
  case isTrue hdelta => exact (DB.postConsumeQuota_charged db payer delta).2
  case isFalse hzero =>
    obtain rfl : delta = 0 := not_not.1 hzero
    exact Charged.zero payer db

omit [Float64 F] in
/-- A settlement charges what is missing to its quota. -/
theorem settle_charged (s : RelayState F) (quota : ℤ) (counted : Bool) :
    Charged s.info.toPayer (quota - s.info.finalPreConsumedQuota) s.db
      (settle s quota counted).db := by
  have hcounted : Charged s.info.toPayer 0 s.db
      (if counted then
        (s.db.updateUserUsedQuotaAndRequestCount s.info.userId quota 1).updateChannelUsedQuota
          s.info.channelId quota
      else s.db) := by
    split
    case isTrue => exact (Charged.zero _ s.db).counted s.info.userId s.info.channelId quota
    case isFalse => exact Charged.zero _ _
  have hboth := hcounted.trans
    (delta_charged s.info.toPayer _ (quota - s.info.finalPreConsumedQuota))
  rwa [Int.zero_add] at hboth

/-- A successful attempt appends its quota to the trace and charges the difference. -/
theorem settlement_charged (cfg : RelaySettings F) (settlement : Settlement F) (s : RelayState F)
    (modelName : String) :
    (settlement.run cfg s modelName).info = s.info ∧
      (settlement.run cfg s modelName).refunds = s.refunds ∧
      ∃ quota, (settlement.run cfg s modelName).trace = s.trace ++ [.consumed quota] ∧
        Charged s.info.toPayer (quota - s.info.finalPreConsumedQuota) s.db
          (settlement.run cfg s modelName).db := by
  cases settlement with
  | postConsumeQuota usage ctx => exact ⟨rfl, rfl, _, rfl, settle_charged s _ _⟩
  | postClaudeConsumeQuota usage => exact ⟨rfl, rfl, _, rfl, settle_charged s _ _⟩
  | postAudioConsumeQuota usage => exact ⟨rfl, rfl, _, rfl, settle_charged s _ _⟩

omit [Float64 F] in
/-- Pre-consuming token quota takes it from the token of a request that has one. -/
theorem preConsumeTokenQuota_ok {db db' : DB} {info : RelayInfo F} {quota : ℤ}
    (hok : preConsumeTokenQuota cfg db info adm quota = .ok db') :
    db' = if info.isPlayground then db else db.decreaseTokenQuota info.tokenId quota := by
  rw [preConsumeTokenQuota] at hok
  split at hok
  case isTrue hneg => cases hok
  case isFalse hpos =>
    cases hplayground : info.isPlayground with
    | true =>
        rw [hplayground, if_pos rfl] at hok
        cases hok
        rfl
    | false =>
        rw [hplayground, if_neg (by simp)] at hok
        cases htoken : adm.tokenRemainQuota with
        | error err =>
            rw [htoken] at hok
            cases hok
        | ok remainQuota =>
            rw [htoken] at hok
            dsimp only at hok
            split at hok
            case isTrue hshort => cases hok
            case isFalse henough =>
              rw [DB.debitToken, DB.guarded, if_neg hpos] at hok
              cases hok
              rfl

/-- Pre-consumption charges the quota that it notes, which is zero for a trusted payer, unless
that is negative. -/
theorem preConsumeQuota_ok {preConsumedQuota : ℤ}
    (hok : preConsumeQuota cfg s adm preConsumedQuota = .ok s') :
    ∃ userQuota, adm.userQuota = .ok userQuota ∧
      s' = { s with
        db := s'.db
        info :=
          { s.info with
            finalPreConsumedQuota :=
              if trusts cfg s.info userQuota adm.contextTokenQuota then 0
              else preConsumedQuota } } ∧
      Charged s.info.toPayer (max 0 s'.info.finalPreConsumedQuota) s.db s'.db := by
  rw [preConsumeQuota] at hok
  cases huser : adm.userQuota with
  | error err =>
      rw [huser] at hok
      cases hok
  | ok userQuota =>
      refine ⟨userQuota, rfl, ?_⟩
      rw [huser] at hok
      dsimp only at hok
      split at hok
      case isTrue hempty => cases hok
      case isFalse hsome =>
      split at hok
      case isTrue hshort => cases hok
      case isFalse henough =>
      generalize hquota : (if trusts cfg s.info userQuota adm.contextTokenQuota = true then 0
        else preConsumedQuota) = quota at hok ⊢
      split at hok
      case isFalse hnothing =>
        cases hok
        have hzero : max 0 quota = 0 := by omega
        refine ⟨rfl, ?_⟩
        show Charged _ (max 0 quota) s.db s.db
        rw [hzero]
        exact Charged.zero _ _
      case isTrue hsomething =>
        cases htoken : preConsumeTokenQuota cfg s.db s.info adm quota with
        | error err =>
            rw [htoken] at hok
            cases hok
        | ok db =>
            have hdb := preConsumeTokenQuota_ok htoken
            have hguard : ¬quota < 0 := by omega
            rw [htoken] at hok
            dsimp only at hok
            rw [DB.debitUser, DB.guarded, if_neg hguard] at hok
            cases hok
            have hmax : max 0 quota = quota := by omega
            refine ⟨rfl, ?_⟩
            show Charged _ (max 0 quota) s.db _
            rw [hmax]
            -- the token has been debited before the user
            subst hdb
            cases hplayground : s.info.isPlayground with
            | true =>
                exact ⟨by simp; rfl, by simp [hplayground]; rfl, by simp [hplayground]; rfl⟩
            | false =>
                exact ⟨by simp; rfl, by simp [hplayground]; rfl, by simp [hplayground]; rfl⟩

omit [Float64 F] in
/-- The refund goroutines pay back what was scheduled. -/
theorem refunds_charged (payer : Payer) (refunds : List ℤ) (db : DB) :
    Charged payer (-refunds.sum) db
      (refunds.foldl (fun db quota => (db.postConsumeQuota payer (-quota)).1) db) := by
  induction refunds generalizing db with
  | nil => exact Charged.zero payer db
  | cons quota refunds ih =>
      have hfirst := (DB.postConsumeQuota_charged db payer (-quota)).2
      have hsum : -(quota :: refunds).sum = -quota + -refunds.sum := by
        rw [List.sum_cons, Int.neg_add]
      rw [hsum, List.foldl_cons]
      exact hfirst.trans (ih _)

omit [Float64 F] in
theorem runRefunds_charged (s : RelayState F) :
    Charged s.info.toPayer (-s.refunds.sum) s.db (runRefunds s).db :=
  refunds_charged s.info.toPayer s.refunds s.db

/-- At most one fee is charged, and it is on the trace. -/
theorem chargeViolationFee_charged (cfg : RelaySettings F) (s : RelayState F)
    (apiErr : NewAPIError) :
    ∃ fees : List ℤ, fees.length ≤ 1 ∧
      (chargeViolationFeeIfNeeded cfg s apiErr).trace = s.trace ++ fees.map .violationFee ∧
      (chargeViolationFeeIfNeeded cfg s apiErr).info = s.info ∧
      (chargeViolationFeeIfNeeded cfg s apiErr).refunds = s.refunds ∧
      Charged s.info.toPayer fees.sum s.db (chargeViolationFeeIfNeeded cfg s apiErr).db := by
  have hnone : ∃ fees : List ℤ, fees.length ≤ 1 ∧ s.trace = s.trace ++ fees.map .violationFee ∧
      s.info = s.info ∧ s.refunds = s.refunds ∧ Charged s.info.toPayer fees.sum s.db s.db :=
    ⟨[], by simp, by simp, rfl, rfl, Charged.zero _ _⟩
  rw [chargeViolationFeeIfNeeded]
  dsimp only
  generalize calcViolationFeeQuota cfg cfg.violationDeductionAmount
    s.info.priceData.groupRatio = feeQuota
  split
  case isTrue hclean => exact hnone
  case isFalse hviolation =>
    split
    case isTrue hdisabled => exact hnone
    case isFalse henabled =>
      split
      case isTrue hfree => exact hnone
      case isFalse hfee =>
        have hcharge := (DB.postConsumeQuota_charged s.db s.info.toPayer feeQuota).2
        have hboth := hcharge.trans
          ((Charged.zero _ _).counted s.info.userId s.info.channelId feeQuota)
        rw [Int.add_zero] at hboth
        exact ⟨[feeQuota], by simp, rfl, rfl, rfl, by simpa using hboth⟩

/-- The deferred function of a failed request gives back all that was pre-consumed and
charges at most a fee, wherever the refund goroutine runs. -/
theorem relayDeferred_failed {refundFirst : Bool} {error : NewAPIError}
    (hrefunds : s.refunds = []) :
    (relayDeferred cfg refundFirst s (some error)).info = s.info ∧
      (relayDeferred cfg refundFirst s (some error)).refunds = [] ∧
      ∃ fees : List ℤ, fees.length ≤ 1 ∧
        (relayDeferred cfg refundFirst s (some error)).trace = s.trace ++
          (if s.info.finalPreConsumedQuota = 0 then []
            else [.returned s.info.finalPreConsumedQuota]) ++ fees.map .violationFee ∧
        Charged s.info.toPayer (fees.sum - s.info.finalPreConsumedQuota) s.db
          (relayDeferred cfg refundFirst s (some error)).db := by
  have hreturned : (returnPreConsumedQuota s).info = s.info ∧
      (returnPreConsumedQuota s).db = s.db ∧
      (returnPreConsumedQuota s).refunds.sum = s.info.finalPreConsumedQuota ∧
      (returnPreConsumedQuota s).trace = s.trace ++
        (if s.info.finalPreConsumedQuota = 0 then []
          else [.returned s.info.finalPreConsumedQuota]) := by
    rw [returnPreConsumedQuota]
    by_cases hzero : s.info.finalPreConsumedQuota = 0
    · rw [if_neg (not_not.2 hzero), if_pos hzero]
      exact ⟨rfl, rfl, by simp [hrefunds, hzero], by simp⟩
    · rw [if_pos hzero, if_neg hzero]
      exact ⟨rfl, rfl, by simp [hrefunds], rfl⟩
  obtain ⟨hinfo, hdb, hsum, htrace⟩ := hreturned
  rw [relayDeferred]
  generalize returnPreConsumedQuota s = returned at hinfo hdb hsum htrace
  generalize error.normalizeViolationFeeError cfg.maskSensitiveInfo = violation
  rw [← htrace, ← hsum, ← hinfo, ← hdb]
  cases refundFirst with
  | true =>
      -- the goroutine runs before the fee is charged, and none is left after it
      obtain ⟨fees, hlength, hfeeTrace, hfeeInfo, hfeeRefunds, hfee⟩ :=
        chargeViolationFee_charged cfg (runRefunds returned) violation
      refine ⟨hfeeInfo, rfl, fees, hlength, hfeeTrace, ?_⟩
      have hlast := runRefunds_charged (chargeViolationFeeIfNeeded cfg (runRefunds returned) violation)
      rw [hfeeRefunds, hfeeInfo] at hlast
      have hall := ((runRefunds_charged returned).trans hfee).trans hlast
      have hamount : -returned.refunds.sum + fees.sum + -([] : List ℤ).sum =
          fees.sum - returned.refunds.sum := by
        rw [List.sum_nil]
        omega
      rwa [← hamount]
  | false =>
      obtain ⟨fees, hlength, hfeeTrace, hfeeInfo, hfeeRefunds, hfee⟩ :=
        chargeViolationFee_charged cfg returned violation
      refine ⟨hfeeInfo, rfl, fees, hlength, hfeeTrace, ?_⟩
      have hlast := runRefunds_charged (chargeViolationFeeIfNeeded cfg returned violation)
      rw [hfeeRefunds, hfeeInfo] at hlast
      have hall := hfee.trans hlast
      rwa [← Int.sub_eq_add_neg] at hall

/-- Nothing that billing depends on has changed. -/
structure Untouched (s s' : RelayState F) : Prop where
  db : s'.db = s.db
  trace : s'.trace = s.trace
  refunds : s'.refunds = s.refunds
  payer : s'.info.toPayer = s.info.toPayer
  preConsumed : s'.info.finalPreConsumedQuota = s.info.finalPreConsumedQuota

/-- One settlement has been made. -/
structure Settled (s s' : RelayState F) : Prop where
  refunds : s'.refunds = s.refunds
  preConsumed : s'.info.finalPreConsumedQuota = s.info.finalPreConsumedQuota
  charged : ∃ quota, s'.trace = s.trace ++ [.consumed quota] ∧
    Charged s.info.toPayer (quota - s.info.finalPreConsumedQuota) s.db s'.db

omit [Float64 F] in
theorem enter_untouched (attempt : Attempt F) (s : RelayState F) :
    Untouched s (attempt.enter s) :=
  ⟨rfl, rfl, rfl, rfl, rfl⟩

omit [Float64 F] in
theorem Untouched.trans {s'' : RelayState F} (hfirst : Untouched s s')
    (hsecond : Untouched s' s'') : Untouched s s'' :=
  ⟨hsecond.db.trans hfirst.db, hsecond.trace.trans hfirst.trace,
    hsecond.refunds.trans hfirst.refunds, hsecond.payer.trans hfirst.payer,
    hsecond.preConsumed.trans hfirst.preConsumed⟩

omit [Float64 F] in
theorem Untouched.settled {s'' : RelayState F} (hfirst : Untouched s s')
    (hsecond : Settled s' s'') : Settled s s'' := by
  refine ⟨hsecond.refunds.trans hfirst.refunds,
    hsecond.preConsumed.trans hfirst.preConsumed, ?_⟩
  rw [← hfirst.db, ← hfirst.trace, ← hfirst.payer, ← hfirst.preConsumed]
  exact hsecond.charged

/-- What the loop leaves when the attempt is its last one. -/
def Attempt.end (cfg : RelaySettings F) (attempt : Attempt F) (s : RelayState F)
    (newAPIError : Option NewAPIError) : RelayState F × Option NewAPIError :=
  match attempt.outcome with
  | .noChannel error => (attempt.enter s, some error)
  | .noBody error => (attempt.enter s, some error)
  | .panicked => (attempt.enter s, newAPIError)
  | .succeeded settlement => (settlement.run cfg (attempt.enter s) attempt.originModelName, none)
  | .failed error => (attempt.enter s, some (error.normalizeViolationFeeError cfg.maskSensitiveInfo))

/-- An attempt is the last one, or has failed and is retried. -/
theorem relayLoop_cons {specificChannel first : Bool} {param : RetryParam}
    {newAPIError : Option NewAPIError} {attempt : Attempt F} {rest : List (Attempt F)}
    {result : RelayState F × Option NewAPIError}
    (hloop : relayLoop cfg specificChannel param first s newAPIError (attempt :: rest) =
      some result) :
    param.retry ≤ cfg.retryTimes ∧
      (rest = [] ∧ result = attempt.end cfg s newAPIError ∨
        ∃ (error : NewAPIError) (retryTimes : ℤ) (param' : RetryParam),
          attempt.outcome = .failed error ∧
            shouldRetry cfg.automaticRetryStatusCodeRanges specificChannel
              (error.normalizeViolationFeeError cfg.maskSensitiveInfo) retryTimes = true ∧
            relayLoop cfg specificChannel param' false (attempt.enter s)
              (some (error.normalizeViolationFeeError cfg.maskSensitiveInfo)) rest = some result) := by
  rw [relayLoop] at hloop
  split at hloop
  case isFalse hover => cases hloop
  case isTrue hretry =>
  refine ⟨hretry, ?_⟩
  have hended {last : RelayState F × Option NewAPIError}
      (hended : (if rest.isEmpty then some last else none) = some result) :
      rest = [] ∧ result = last := by
    split at hended
    case isTrue hlast => exact ⟨List.isEmpty_iff.1 hlast, (Option.some.inj hended).symm⟩
    case isFalse => cases hended
  unfold Attempt.end
  cases houtcome : attempt.outcome with
  | noChannel error =>
      simp only [houtcome] at hloop
      cases first with
      | true => cases hloop
      | false => exact .inl (hended hloop)
  | noBody error =>
      simp only [houtcome] at hloop
      exact .inl (hended hloop)
  | panicked =>
      simp only [houtcome] at hloop
      exact .inl (hended hloop)
  | succeeded settlement =>
      simp only [houtcome] at hloop
      exact .inl (hended hloop)
  | failed error =>
      simp only [houtcome] at hloop
      split at hloop
      case isTrue hagain => exact .inr ⟨error, _, _, rfl, hagain, hloop⟩
      case isFalse hstop => exact .inl (hended hloop)

/-- The loop ends with one settlement or with no change at all, and in the second case with
an error unless it made no attempt or its first one panicked. -/
theorem relayLoop_result {specificChannel first : Bool} {param : RetryParam}
    {newAPIError err' : Option NewAPIError} {attempts : List (Attempt F)}
    (hloop : relayLoop cfg specificChannel param first s newAPIError attempts =
      some (s', err')) :
    ((∃ attempt ∈ attempts, attempt.Succeeds) ∧ err' = none ∧
        (param.retry ≤ cfg.retryTimes ∧ FirstReturns attempts) ∧ Settled s s') ∨
      ((∀ attempt ∈ attempts, ¬attempt.Succeeds) ∧ Untouched s s' ∧
        (err'.isSome ↔ newAPIError.isSome ∨
          (param.retry ≤ cfg.retryTimes ∧ FirstReturns attempts))) := by
  induction attempts generalizing param first s newAPIError with
  | nil =>
      rw [relayLoop] at hloop
      split at hloop
      case isTrue hretry => cases hloop
      case isFalse hover =>
        cases hloop
        exact .inr ⟨by simp, ⟨rfl, rfl, rfl, rfl, rfl⟩, by simp [hover]⟩
  | cons attempt rest ih =>
      have henter := enter_untouched attempt s
      obtain ⟨hretry, ⟨rfl, hlast⟩ | ⟨error, -, param', houtcome, -, hrest⟩⟩ := relayLoop_cons hloop
      · -- the last attempt
        unfold Attempt.end at hlast
        cases houtcome : attempt.outcome with
        | succeeded settlement =>
            rw [houtcome] at hlast
            cases hlast
            obtain ⟨hinfo, hrefunds, quota, htrace, hcharged⟩ :=
              settlement_charged cfg settlement (attempt.enter s) attempt.originModelName
            have hsettled := henter.settled
              ⟨hrefunds, congrArg RelayInfo.finalPreConsumedQuota hinfo, quota, htrace, hcharged⟩
            exact .inl ⟨⟨attempt, by simp, by simp [Attempt.Succeeds, houtcome]⟩, rfl,
              ⟨hretry, by simp [FirstReturns, houtcome]⟩, hsettled⟩
        | _ =>
            rw [houtcome] at hlast
            cases hlast
            exact .inr ⟨by simp [Attempt.Succeeds, houtcome], henter,
              by simp [FirstReturns, houtcome, hretry]⟩
      · have hreturns : FirstReturns (attempt :: rest) := by
          simp [FirstReturns, houtcome]
        rcases ih hrest with ⟨⟨later, hlater, hsucceeds⟩, herr, -, hsettled⟩ |
          ⟨hfail, huntouched, herr⟩
        · exact .inl ⟨⟨later, List.mem_cons_of_mem _ hlater, hsucceeds⟩, herr, ⟨hretry, hreturns⟩,
            henter.settled hsettled⟩
        · refine .inr ⟨List.forall_mem_cons.2 ⟨by simp [Attempt.Succeeds, houtcome], hfail⟩,
            henter.trans huntouched, ?_⟩
          exact herr.trans (by simp [hretry, hreturns])

/-- What `Relay` notes as pre-consumed: nothing for a free model or a trusted payer. -/
def notedDeposit (cfg : RelaySettings F) (adm : Admission) (info : RelayInfo F) : ℤ :=
  if info.priceData.freeModel then 0
  else
    match adm.userQuota with
    | .error _ => 0
    | .ok userQuota =>
        if trusts cfg info userQuota adm.contextTokenQuota then 0
        else info.priceData.quotaToPreConsume

/-- An admitted request has logged nothing and is charged its deposit, unless that is negative. -/
structure Started (cfg : RelaySettings F) (adm : Admission) (db : DB) (info : RelayInfo F)
    (s : RelayState F) : Prop where
  trace : s.trace = []
  refunds : s.refunds = []
  noted : s.info = { info with finalPreConsumedQuota := notedDeposit cfg adm info }
  charged : Charged info.toPayer (max 0 (notedDeposit cfg adm info)) db s.db
  user : info.priceData.freeModel = true ∨ ∃ userQuota, adm.userQuota = .ok userQuota

theorem started_of_admitted {db : DB} {info : RelayInfo F} {start : RelayState F}
    (hstart : start = ⟨db, { info with finalPreConsumedQuota := 0 }, [], []⟩)
    (hadmitted : (if info.priceData.freeModel then .ok start
      else preConsumeQuota cfg start adm info.priceData.quotaToPreConsume) = .ok s) :
    Started cfg adm db info s := by
  subst hstart
  have hdeposit : notedDeposit cfg adm info = if info.priceData.freeModel then 0 else _ := rfl
  split at hadmitted
  case isTrue hfree =>
    cases hadmitted
    rw [if_pos hfree] at hdeposit
    exact ⟨rfl, rfl, by rw [hdeposit], by rw [hdeposit]; exact Charged.zero _ _, .inl hfree⟩
  case isFalse hpriced =>
    obtain ⟨userQuota, huser, hs, hcharged⟩ := preConsumeQuota_ok hadmitted
    have hinfo := congrArg RelayState.info hs
    dsimp only at hinfo
    rw [if_neg hpriced, huser] at hdeposit
    rw [hinfo] at hcharged
    exact ⟨congrArg RelayState.trace hs, congrArg RelayState.refunds hs,
      by rw [hdeposit]; exact hinfo, by rw [hdeposit]; exact hcharged, .inr ⟨userQuota, huser⟩⟩

/-- An admitted request runs the loop and then the deferred function. -/
theorem relay_ended {specificChannel refundFirst : Bool} {db : DB} {info : RelayInfo F}
    {attempts : List (Attempt F)}
    (hrun : relay cfg specificChannel refundFirst adm db info attempts = some (.ok s')) :
    ∃ s looped err, Started cfg adm db info s ∧
      relayLoop cfg specificChannel RetryParam.start true s none attempts = some (looped, err) ∧
        s' = relayDeferred cfg refundFirst looped err := by
  rw [relay] at hrun
  split at hrun
  case h_1 error hrefused => cases hrun
  case h_2 s hok =>
  obtain ⟨⟨looped, err⟩, hloop, hs'⟩ := Option.map_eq_some_iff.1 hrun
  exact ⟨s, looped, err, started_of_admitted rfl hok, hloop, (Except.ok.inj hs').symm⟩

/-- The state in which the loop starts: nothing billed yet but the pre-consumed quota. -/
structure Admitted (payer : Payer) (db : DB) (s : RelayState F) : Prop where
  trace : s.trace = []
  refunds : s.refunds = []
  paidBy : s.info.toPayer = payer
  charged : Charged payer s.info.finalPreConsumedQuota db s.db

omit [Float64 F] in
/-- An untouched state is charged what was pre-consumed. -/
theorem Admitted.untouched {payer : Payer} {db : DB} (hadmitted : Admitted payer db s)
    (huntouched : Untouched s s') : Admitted payer db s' := by
  refine ⟨huntouched.trace.trans hadmitted.trace, huntouched.refunds.trans hadmitted.refunds,
    huntouched.payer.trans hadmitted.paidBy, ?_⟩
  rw [huntouched.preConsumed, huntouched.db]
  exact hadmitted.charged

omit [Float64 F] in
/-- A settlement tops the pre-consumed quota up to the logged one. -/
theorem conserved_of_settled {payer : Payer} {db : DB} {attempts : List (Attempt F)}
    (hadmitted : Admitted payer db s) (hsettled : Settled s s')
    (hsucceeds : ∃ attempt ∈ attempts, attempt.Succeeds) : Conserved attempts payer db s' := by
  refine ⟨fun _ => ?_, fun hfails => ?_, hsettled.refunds.trans hadmitted.refunds⟩
  · obtain ⟨quota, htrace, hcharged⟩ := hsettled.charged
    rw [hadmitted.trace, List.nil_append] at htrace
    rw [hadmitted.paidBy] at hcharged
    have hboth := hadmitted.charged.trans hcharged
    have hamount : s.info.finalPreConsumedQuota + (quota - s.info.finalPreConsumedQuota) =
        quota := by omega
    rw [hamount] at hboth
    exact ⟨quota, htrace, hboth⟩
  · obtain ⟨attempt, hattempt, hsucceeded⟩ := hsucceeds
    exact absurd hsucceeded (hfails attempt hattempt)

/-- The deferred function of a failed request returns the pre-consumed quota. -/
theorem conserved_of_failed {payer : Payer} {db : DB} {attempts : List (Attempt F)}
    {refundFirst : Bool} {error : NewAPIError} (hadmitted : Admitted payer db s)
    (hfails : ∀ attempt ∈ attempts, ¬attempt.Succeeds) :
    Conserved attempts payer db (relayDeferred cfg refundFirst s (some error)) := by
  obtain ⟨hinfo, hran, fees, hlength, hfeeTrace, hcharged⟩ :=
    relayDeferred_failed hadmitted.refunds
  refine ⟨?_, fun _ => ⟨fees, hlength, ?_, ?_⟩, hran⟩
  · rintro ⟨attempt, hattempt, hsucceeded⟩
    exact absurd hsucceeded (hfails attempt hattempt)
  · rw [hinfo, hfeeTrace, hadmitted.trace, List.nil_append]
  · rw [hadmitted.paidBy] at hcharged
    have hboth := hadmitted.charged.trans hcharged
    have hamount : s.info.finalPreConsumedQuota + (fees.sum - s.info.finalPreConsumedQuota) =
        fees.sum := by omega
    rwa [hamount] at hboth

omit [Float64 F] in
/-- Without an error nothing is returned, which is right only where nothing was taken. -/
theorem conserved_of_kept_iff {payer : Payer} {db : DB} {attempts : List (Attempt F)}
    (hadmitted : Admitted payer db s) (hfails : ∀ attempt ∈ attempts, ¬attempt.Succeeds) :
    Conserved attempts payer db s ↔ s.info.finalPreConsumedQuota = 0 := by
  constructor
  · intro hconserved
    by_contra htaken
    obtain ⟨fees, -, htrace, -⟩ := hconserved.failed hfails
    rw [hadmitted.trace, if_neg htaken] at htrace
    simp at htrace
  · intro hzero
    refine ⟨?_, fun _ => ⟨[], by simp, ?_, ?_⟩, hadmitted.refunds⟩
    · rintro ⟨attempt, hattempt, hsucceeded⟩
      exact absurd hsucceeded (hfails attempt hattempt)
    · rw [hadmitted.trace, if_pos hzero]
      rfl
    · have hcharged := hadmitted.charged
      rwa [hzero] at hcharged

/-- A request notes no deposit exactly when nothing is pre-consumed. -/
theorem Started.deposit_eq_zero_iff {db : DB} {info : RelayInfo F}
    (hstarted : Started cfg adm db info s) :
    notedDeposit cfg adm info = 0 ↔ PreConsumesNothing cfg adm info := by
  unfold notedDeposit PreConsumesNothing
  by_cases hfree : info.priceData.freeModel = true
  · exact iff_of_true (if_pos hfree) (.inl hfree)
  · obtain ⟨userQuota, huser⟩ := hstarted.user.resolve_left hfree
    rw [if_neg hfree, or_iff_right hfree, huser]
    simp only [Except.ok.injEq, exists_eq_left']
    by_cases htrusts : trusts cfg info userQuota adm.contextTokenQuota = true
    · exact iff_of_true (if_pos htrusts) (.inl htrusts)
    · rw [if_neg htrusts, or_iff_right htrusts]

/-- An admitted request has been charged what it notes as pre-consumed. -/
theorem Started.admitted {db : DB} {info : RelayInfo F} (hstarted : Started cfg adm db info s)
    (hquota : 0 ≤ info.priceData.quotaToPreConsume) : Admitted info.toPayer db s := by
  have hdeposit : 0 ≤ notedDeposit cfg adm info := by
    unfold notedDeposit
    repeat' split
    all_goals omega
  have hcharged := hstarted.charged
  rw [Int.max_eq_right hdeposit] at hcharged
  refine ⟨hstarted.trace, hstarted.refunds, ?_, ?_⟩
  · rw [hstarted.noted]
  · rw [hstarted.noted]
    exact hcharged

/-- An admitted request keeps its books balanced exactly when it pre-consumes nothing, or the
loop makes an attempt and the first one returns. -/
theorem relay_conserves_iff {specificChannel refundFirst : Bool} {db : DB} {info : RelayInfo F}
    {attempts : List (Attempt F)} (hquota : 0 ≤ info.priceData.quotaToPreConsume)
    (hrun : relay cfg specificChannel refundFirst adm db info attempts = some (.ok s')) :
    Conserved attempts info.toPayer db s' ↔
      PreConsumesNothing cfg adm info ∨ (0 ≤ cfg.retryTimes ∧ FirstReturns attempts) := by
  obtain ⟨s, looped, err, hstarted, hloop, rfl⟩ := relay_ended hrun
  have hadmitted := hstarted.admitted hquota
  have hnoted : s.info.finalPreConsumedQuota = notedDeposit cfg adm info := by
    rw [hstarted.noted]
  rcases relayLoop_result hloop with
    ⟨hsucceeds, rfl, hmade, hsettled⟩ | ⟨hfails, huntouched, herr⟩
  · exact iff_of_true (conserved_of_settled hadmitted hsettled hsucceeds) (.inr hmade)
  · have hlooped := hadmitted.untouched huntouched
    cases err with
    | none =>
        -- no error is left: no attempt was made, or the first one panicked
        have hkept : ¬(0 ≤ cfg.retryTimes ∧ FirstReturns attempts) := fun hmade =>
          absurd (herr.2 (.inr hmade)) (by simp)
        rw [or_iff_left hkept, ← hstarted.deposit_eq_zero_iff, ← hnoted, ← huntouched.preConsumed]
        exact conserved_of_kept_iff hlooped hfails
    | some error =>
        have hmade : 0 ≤ cfg.retryTimes ∧ FirstReturns attempts :=
          (herr.1 (by simp)).resolve_left (by simp)
        exact iff_of_true (conserved_of_failed hlooped hfails) (.inr hmade)

/-- However a request runs and ends, it charges the user what it charges the token. -/
theorem relay_charged {specificChannel refundFirst : Bool} {db : DB} {info : RelayInfo F}
    {attempts : List (Attempt F)}
    (hrun : relay cfg specificChannel refundFirst adm db info attempts = some (.ok s')) :
    ∃ amount, Charged info.toPayer amount db s'.db := by
  obtain ⟨s, looped, err, hstarted, hloop, rfl⟩ := relay_ended hrun
  have htaken := hstarted.charged
  have hpayer : s.info.toPayer = info.toPayer := by
    rw [hstarted.noted]
  rcases relayLoop_result hloop with ⟨-, rfl, -, hsettled⟩ | ⟨-, huntouched, -⟩
  · obtain ⟨quota, -, hcharged⟩ := hsettled.charged
    rw [hpayer] at hcharged
    exact ⟨_, htaken.trans hcharged⟩
  · rw [← huntouched.db] at htaken
    cases err with
    | none => exact ⟨_, htaken⟩
    | some error =>
        obtain ⟨-, -, fees, -, -, hcharged⟩ :=
          relayDeferred_failed (huntouched.refunds.trans hstarted.refunds)
        rw [huntouched.payer, hpayer] at hcharged
        exact ⟨_, htaken.trans hcharged⟩

end

/-- A price of one quota for each token, with five pre-consumed. -/
def samplePriceData : PriceData Decimal where
  freeModel := false
  modelPrice := Decimal.ofInt 0
  modelRatio := Decimal.ofInt 1
  completionRatio := Decimal.ofInt 1
  cacheRatio := Decimal.ofInt 1
  cacheCreationRatio := Decimal.ofInt 1
  cacheCreation5mRatio := Decimal.ofInt 1
  cacheCreation1hRatio := Decimal.ofInt 1
  imageRatio := Decimal.ofInt 1
  otherRatios := []
  usePrice := false
  quotaToPreConsume := 5
  groupRatio := Decimal.ofInt 1

def sampleRelaySettings : RelaySettings Decimal where
  quotaPerUnit := Decimal.ofInt 500000
  webSearchPricePerThousand := fun _ _ => Decimal.ofInt 10
  fileSearchPricePerThousand := Decimal.ofInt 2
  geminiInputAudioPricePerMillionTokens := fun _ => Decimal.ofInt 0
  gptImage1PriceOnceCall := fun _ _ => Decimal.ofInt 0
  defaultModelRatio := fun _ => none
  completionRatio := fun _ => Decimal.ofInt 1
  audioRatio := fun _ => Decimal.ofInt 1
  audioCompletionRatio := fun _ => Decimal.ofInt 1
  retryTimes := 2
  automaticRetryStatusCodeRanges := [⟨500, 503⟩]
  violationDeductionEnabled := true
  violationDeductionAmount := Decimal.ofInt 1
  formatQuota := fun _ => ""
  maskSensitiveInfo := id

def sampleRelayInfo : RelayInfo Decimal where
  userId := 1
  tokenId := 2
  isPlayground := false
  tokenUnlimited := false
  channelId := 3
  channelType := 1
  estimatePromptTokens := 4
  finalPreConsumedQuota := 0
  priceData := samplePriceData

def sampleAdmission : Admission where
  userQuota := .ok 100
  contextTokenQuota := 50
  tokenRemainQuota := .ok 50

def sampleAttempt (outcome : AttemptOutcome Decimal) : Attempt Decimal where
  selection := .keep
  channelId := 3
  channelType := 1
  priceData := samplePriceData
  originModelName := "gpt-4o"
  outcome := outcome

/-- An upstream error that is retried, then a success of unknown usage. -/
def sampleAttempts : List (Attempt Decimal) :=
  [sampleAttempt (.failed (NewAPIError.newErrorWithStatusCode "busy" "bad_response" 500)),
    sampleAttempt (.succeeded (.postConsumeQuota none ⟨none, "", none⟩))]

theorem relay_conserves_retried :
    ∃ s', relay sampleRelaySettings false false sampleAdmission sampleDB sampleRelayInfo
        sampleAttempts = some (.ok s') ∧
      s'.trace = [.consumed 4] ∧ Conserved sampleAttempts sampleRelayInfo.toPayer sampleDB s' := by
  have hmade : (0 : ℤ) ≤ sampleRelaySettings.retryTimes ∧ FirstReturns sampleAttempts := by
    refine ⟨by decide, ?_⟩
    rintro ⟨⟩
  obtain ⟨s', hrun, htrace⟩ : ∃ s', relay sampleRelaySettings false false sampleAdmission sampleDB
      sampleRelayInfo sampleAttempts = some (.ok s') ∧ s'.trace = [.consumed 4] :=
    ⟨_, rfl, by decide⟩
  exact ⟨s', hrun, htrace, (relay_conserves_iff (by decide) hrun).2 (.inr hmade)⟩

/-- A first attempt that panics keeps what was pre-consumed. -/
theorem panicked_attempt_keeps_quota :
    ¬ ∀ (cfg : RelaySettings Decimal) (specificChannel refundFirst : Bool) (adm : Admission)
      (db : DB) (info : RelayInfo Decimal) (attempts : List (Attempt Decimal))
      (s' : RelayState Decimal), 0 ≤ info.priceData.quotaToPreConsume →
        relay cfg specificChannel refundFirst adm db info attempts = some (.ok s') →
          Conserved attempts info.toPayer db s' := by
  intro hclaim
  have hconserved := hclaim sampleRelaySettings false false sampleAdmission sampleDB
    sampleRelayInfo [sampleAttempt .panicked] _ (by decide) rfl
  have hfails : ∀ attempt ∈ [sampleAttempt .panicked], ¬attempt.Succeeds := by
    intro attempt hattempt
    obtain rfl := List.mem_singleton.1 hattempt
    exact id
  obtain ⟨fees, -, htrace, -⟩ := hconserved.failed hfails
  cases htrace

end NewApi.Model
