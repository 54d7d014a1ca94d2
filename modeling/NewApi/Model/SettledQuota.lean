import NewApi.Model.RelayBalance

/-!
# The quota that a request settles

A settlement logs one quota, which depends on the prices, the channel and the model name that the
last attempt leaves.  It is the only settlement of the request, and no refund or fee follows it.
-/

namespace NewApi.Model

open NewApi.Lib

section

variable {F : Type} [Float64 F]

/-- The usage of an estimated prompt. -/
def promptUsage (F : Type) (estimatePromptTokens : ℤ) : Usage F :=
  { Usage.empty with
    promptTokens := estimatePromptTokens
    totalTokens := estimatePromptTokens }

variable (cfg : PriceSettings F)

/-- The quota that a settlement logs. -/
def Settlement.quota (price : PriceData F) (channelType estimatePromptTokens : ℤ)
    (modelName : String) : Settlement F → ℤ
  | .postConsumeQuota usage ctx =>
      textQuota cfg price channelType modelName ctx
        (usage.getD (promptUsage F estimatePromptTokens))
  | .postClaudeConsumeQuota usage => claudeQuota cfg price channelType modelName usage
  | .postAudioConsumeQuota usage => audioQuota cfg price modelName usage

/-- The quota that an attempt settles, if it succeeds. -/
def Attempt.settledQuota (attempt : Attempt F) (estimatePromptTokens : ℤ) : Option ℤ :=
  match attempt.outcome with
  | .succeeded settlement =>
      some (settlement.quota cfg attempt.priceData attempt.channelType estimatePromptTokens
        attempt.originModelName)
  | _ => none

variable {cfg}

omit [Float64 F] in
theorem Attempt.succeeds_iff (attempt : Attempt F) :
    attempt.Succeeds ↔ ∃ settlement, attempt.outcome = .succeeded settlement := by
  unfold Attempt.Succeeds
  cases attempt.outcome with
  | succeeded settlement => exact iff_of_true trivial ⟨settlement, rfl⟩
  | _ =>
      refine iff_of_false id ?_
      rintro ⟨settlement, h⟩
      cases h

theorem Attempt.settledQuota_eq_some_iff {attempt : Attempt F} {estimatePromptTokens quota : ℤ} :
    attempt.settledQuota cfg estimatePromptTokens = some quota ↔
      ∃ settlement, attempt.outcome = .succeeded settlement ∧
        settlement.quota cfg attempt.priceData attempt.channelType estimatePromptTokens
          attempt.originModelName = quota := by
  unfold Attempt.settledQuota
  cases attempt.outcome with
  | succeeded settlement =>
      constructor
      · intro h
        exact ⟨settlement, rfl, Option.some.inj h⟩
      · rintro ⟨other, hother, h⟩
        rw [AttemptOutcome.succeeded.inj hother]
        exact congrArg some h
  | _ =>
      refine iff_of_false nofun ?_
      rintro ⟨settlement, h, -⟩
      cases h

/-- Where a quota is settled, the attempt has succeeded. -/
theorem Attempt.succeeds_of_settledQuota {attempt : Attempt F} {estimatePromptTokens quota : ℤ}
    (hquota : attempt.settledQuota cfg estimatePromptTokens = some quota) : attempt.Succeeds := by
  obtain ⟨settlement, houtcome, -⟩ := Attempt.settledQuota_eq_some_iff.1 hquota
  exact attempt.succeeds_iff.2 ⟨settlement, houtcome⟩

end

section

variable {F : Type} [Float64 F] {cfg : RelaySettings F}

/-- A settlement logs its quota. -/
theorem settlement_trace (settlement : Settlement F) (s : RelayState F) (modelName : String) :
    (settlement.run cfg s modelName).trace = s.trace ++
      [.consumed (settlement.quota cfg.toPriceSettings s.info.priceData s.info.channelType
        s.info.estimatePromptTokens modelName)] := by
  cases settlement with
  | postConsumeQuota usage ctx => rfl
  | postClaudeConsumeQuota usage => rfl
  | postAudioConsumeQuota usage => rfl

/-- The loop logs the quota of its last attempt, if that succeeds, and nothing else. -/
theorem relayLoop_trace {specificChannel first : Bool} {param : RetryParam} {s s' : RelayState F}
    {newAPIError err' : Option NewAPIError} {attempts : List (Attempt F)}
    (hloop : relayLoop cfg specificChannel param first s newAPIError attempts = some (s', err')) :
    s'.trace = s.trace ++ ((attempts.getLast?.bind fun attempt =>
      attempt.settledQuota cfg.toPriceSettings s.info.estimatePromptTokens).map .consumed).toList := by
  induction attempts generalizing param first s newAPIError with
  | nil =>
      rw [relayLoop] at hloop
      split at hloop
      case isTrue hretry => cases hloop
      case isFalse hretry =>
        cases hloop
        exact (List.append_nil _).symm
  | cons attempt rest ih =>
      obtain ⟨-, ⟨rfl, hlast⟩ | ⟨error, -, param', houtcome, -, hrest⟩⟩ := relayLoop_cons hloop
      · rw [List.getLast?_singleton, Option.bind_some]
        unfold Attempt.end at hlast
        unfold Attempt.settledQuota
        cases houtcome : attempt.outcome with
        | succeeded settlement =>
            rw [houtcome] at hlast
            cases hlast
            exact settlement_trace settlement (attempt.enter s) attempt.originModelName
        | _ =>
            rw [houtcome] at hlast
            cases hlast
            exact (List.append_nil _).symm
      · have htrace := ih hrest
        cases rest with
        | nil =>
            rw [htrace]
            simp [Attempt.settledQuota, houtcome, Attempt.enter]
        | cons next rest => exact htrace

/-- The loop reaches its last attempt by failures that are retried. -/
theorem relayLoop_last {specificChannel first : Bool} {param : RetryParam} {s : RelayState F}
    {newAPIError : Option NewAPIError} {attempts : List (Attempt F)} {attempt : Attempt F}
    {result : RelayState F × Option NewAPIError}
    (hloop : relayLoop cfg specificChannel param first s newAPIError (attempts ++ [attempt]) =
      some result) :
    (∀ earlier ∈ attempts, ∃ error, earlier.outcome = .failed error) ∧
      ∃ reachedParam reachedFirst reached reachedError,
        relayLoop cfg specificChannel reachedParam reachedFirst reached reachedError [attempt] =
            some result ∧ Untouched s reached ∧
          reached.info.estimatePromptTokens = s.info.estimatePromptTokens ∧
            (attempts = [] ∧ reachedError = newAPIError ∨
              ∃ earlier ∈ attempts, ∃ (error : NewAPIError) (retryTimes : ℤ),
                earlier.outcome = .failed error ∧
                  reachedError = some (error.normalizeViolationFeeError cfg.maskSensitiveInfo) ∧
                    shouldRetry cfg.automaticRetryStatusCodeRanges specificChannel
                      (error.normalizeViolationFeeError cfg.maskSensitiveInfo) retryTimes = true) := by
  induction attempts generalizing param first s newAPIError with
  | nil =>
      exact ⟨fun _ h => absurd h (List.not_mem_nil), param, first, s, newAPIError, hloop,
        ⟨rfl, rfl, rfl, rfl, rfl⟩, rfl, .inl ⟨rfl, rfl⟩⟩
  | cons earlier rest ih =>
      obtain ⟨-, ⟨hnil, -⟩ | ⟨error, retryTimes, param', houtcome, hagain, hrest⟩⟩ :=
        relayLoop_cons hloop
      · exact absurd hnil (List.append_ne_nil_of_right_ne_nil _ (List.cons_ne_nil _ _))
      · obtain ⟨hfailed, reachedParam, reachedFirst, reached, reachedError, hreached, huntouched,
          hestimate, herror⟩ := ih hrest
        refine ⟨List.forall_mem_cons.2 ⟨⟨error, houtcome⟩, hfailed⟩, reachedParam, reachedFirst,
          reached, reachedError, hreached, (enter_untouched earlier s).trans huntouched, hestimate,
          .inr ?_⟩
        rcases herror with ⟨-, rfl⟩ | ⟨later, hlater, hretried⟩
        · exact ⟨earlier, List.mem_cons_self, error, retryTimes, houtcome, rfl, hagain⟩
        · exact ⟨later, List.mem_cons_of_mem _ hlater, hretried⟩

/-- The deferred function settles nothing. -/
theorem relayDeferred_consumed {refundFirst : Bool} {s : RelayState F}
    {newAPIError : Option NewAPIError} {quota : ℤ} (hrefunds : s.refunds = []) :
    RelayEvent.consumed quota ∈ (relayDeferred cfg refundFirst s newAPIError).trace ↔
      RelayEvent.consumed quota ∈ s.trace := by
  cases newAPIError with
  | none => exact Iff.rfl
  | some error =>
      obtain ⟨-, -, fees, -, htrace, -⟩ := @relayDeferred_failed F _ cfg s
        refundFirst error hrefunds
      rw [htrace, List.mem_append, List.mem_append]
      constructor
      · intro h
        rcases h with (h | h) | h
        · exact h
        · split at h
          · cases h
          · cases List.mem_singleton.1 h
        · obtain ⟨fee, -, hfee⟩ := List.mem_map.1 h
          cases hfee
      · intro h
        exact .inl (.inl h)

/-- A request settles the quota of its last attempt, and no other. -/
theorem relay_consumed_iff {specificChannel refundFirst : Bool} {adm : Admission} {db : DB}
    {info : RelayInfo F} {attempts : List (Attempt F)} {s' : RelayState F}
    (hrun : relay cfg specificChannel refundFirst adm db info attempts = some (.ok s')) (quota : ℤ) :
    RelayEvent.consumed quota ∈ s'.trace ↔
      ∃ attempt, attempts.getLast? = some attempt ∧
        attempt.settledQuota cfg.toPriceSettings info.estimatePromptTokens = some quota := by
  obtain ⟨s, looped, err, hstarted, hloop, rfl⟩ := relay_ended hrun
  have hnone : looped.refunds = [] := by
    rcases relayLoop_result hloop with ⟨-, -, -, hsettled⟩ | ⟨-, huntouched, -⟩
    · exact hsettled.refunds.trans hstarted.refunds
    · exact huntouched.refunds.trans hstarted.refunds
  rw [relayDeferred_consumed hnone, relayLoop_trace hloop, hstarted.trace, hstarted.noted,
    List.nil_append, Option.mem_toList, Option.map_eq_some_iff]
  constructor
  · intro h
    obtain ⟨settled, hsettled, hquota⟩ := h
    cases hquota
    exact Option.bind_eq_some_iff.1 hsettled
  · intro h
    exact ⟨quota, Option.bind_eq_some_iff.2 h, rfl⟩

/-- A request whose last attempt succeeds logs the settlement and nothing else. -/
theorem relay_settled {specificChannel refundFirst : Bool} {adm : Admission} {db : DB}
    {info : RelayInfo F} {attempts : List (Attempt F)} {attempt : Attempt F} {s' : RelayState F}
    {quota : ℤ}
    (hrun : relay cfg specificChannel refundFirst adm db info attempts = some (.ok s'))
    (hlast : attempts.getLast? = some attempt)
    (hquota : attempt.settledQuota cfg.toPriceSettings info.estimatePromptTokens = some quota) :
    s'.trace = [.consumed quota] := by
  have hsucceeds := Attempt.succeeds_of_settledQuota hquota
  obtain ⟨s, looped, err, hstarted, hloop, rfl⟩ := relay_ended hrun
  rcases relayLoop_result hloop with ⟨-, rfl, -, -⟩ | ⟨hfails, -, -⟩
  · show looped.trace = _
    rw [relayLoop_trace hloop, hstarted.trace, hstarted.noted, hlast, Option.bind_some, hquota]
    rfl
  · exact absurd hsucceeds (hfails attempt (List.mem_of_getLast? hlast))

end

end NewApi.Model
