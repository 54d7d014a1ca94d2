import NewApi.Model.BatchUpdate
import NewApi.Model.RelayBalance

/-!
# Pre-consumption with writes that may fail

`PreConsumeQuota` takes the quota from the token and then from the user, each with a statement of
its own or, with batched updates, a record in a store.  What it leaves behind when one of them fails
is what the request ends with: `Relay` returns on the error before it defers a refund.
-/

namespace NewApi.Model

open NewApi.Lib

/-- The errors of the statements of `decreaseTokenQuota` and `decreaseUserQuota`, if
they are made. -/
structure WriteOutcomes where
  token : Option String
  user : Option String

/-- The database with the batch stores, and the relay info. -/
structure PreConsumeState (F : Type) where
  batch : BatchState
  info : RelayInfo F

section

variable {F : Type} [Float64 F] (cfg : RelaySettings F) (batchUpdateEnabled : Bool)
  (writes : WriteOutcomes)

namespace BatchState

/-- `DecreaseTokenQuota` and `DecreaseUserQuota`: a record, or a statement that may fail. -/
def decreaseQuota (s : BatchState) (type_ : BatchUpdateType) (id : ℕ) (quota : ℤ)
    (moved : DB) (failure : Option String) : BatchState × Option String :=
  if quota < 0 then (s, some "quota 不能为负数！")
  else if batchUpdateEnabled then (s.addNewRecord type_ id (-quota), none)
  else
    match failure with
    | some err => (s, some err)
    | none => ({ s with db := moved }, none)

def decreaseTokenQuota (s : BatchState) (id : ℕ) (quota : ℤ) : BatchState × Option String :=
  s.decreaseQuota batchUpdateEnabled .tokenQuota id quota (s.db.decreaseTokenQuota id quota)
    writes.token

def decreaseUserQuota (s : BatchState) (id : ℕ) (quota : ℤ) : BatchState × Option String :=
  s.decreaseQuota batchUpdateEnabled .userQuota id quota (s.db.decreaseUserQuota id quota)
    writes.user

end BatchState

/-- A statement that fails changes nothing, and a record cannot fail. -/
theorem BatchState.decreaseUserQuota_cases (s : BatchState) (id : ℕ) {quota : ℤ}
    (hpos : 0 < quota) :
    (∃ err, batchUpdateEnabled = false ∧ writes.user = some err ∧
        s.decreaseUserQuota batchUpdateEnabled writes id quota = (s, some err)) ∨
      (batchUpdateEnabled = true ∨ writes.user = none) ∧
        ∃ batch, s.decreaseUserQuota batchUpdateEnabled writes id quota = (batch, none) := by
  rw [BatchState.decreaseUserQuota]
  unfold BatchState.decreaseQuota
  rw [if_neg (by omega)]
  cases batchUpdateEnabled with
  | true => exact .inr ⟨.inl rfl, _, rfl⟩
  | false =>
      rw [if_neg Bool.false_ne_true]
      cases writes.user with
      | some err => exact .inl ⟨err, rfl, rfl, rfl⟩
      | none => exact .inr ⟨.inr rfl, _, rfl⟩

namespace PreConsumeState

/-- `PreConsumeTokenQuota`, with the writes it makes before an error. -/
def preConsumeTokenQuota (s : PreConsumeState F) (adm : Admission) (quota : ℤ) :
    PreConsumeState F × Option String :=
  if quota < 0 then (s, some "quota 不能为负数！")
  else if s.info.isPlayground then (s, none)
  else
    match adm.tokenRemainQuota with
    | .error err => (s, some err)
    | .ok remainQuota =>
        if !s.info.tokenUnlimited && remainQuota < quota then
          (s, some ("token quota is not enough, token remain quota: " ++
            cfg.formatQuota remainQuota ++ ", need quota: " ++ cfg.formatQuota quota))
        else
          let (batch, err) :=
            s.batch.decreaseTokenQuota batchUpdateEnabled writes s.info.tokenId quota
          ({ s with batch := batch }, err)

/-- `PreConsumeQuota`, with the writes it makes before an error. -/
def preConsumeQuota (s : PreConsumeState F) (adm : Admission) (preConsumedQuota : ℤ) :
    PreConsumeState F × Option NewAPIError :=
  match adm.userQuota with
  | .error err => (s, some (NewAPIError.newError err ErrorCodeQueryDataError).withSkipRetry)
  | .ok userQuota =>
      if userQuota ≤ 0 then
        (s, some (NewAPIError.newErrorWithStatusCode
          ("用户额度不足, 剩余额度: " ++ cfg.formatQuota userQuota)
          ErrorCodeInsufficientUserQuota 403).withSkipRetry.withNoRecordErrorLog)
      else if userQuota - preConsumedQuota < 0 then
        (s, some (NewAPIError.newErrorWithStatusCode
          ("预扣费额度失败, 用户剩余额度: " ++ cfg.formatQuota userQuota ++
            ", 需要预扣费额度: " ++ cfg.formatQuota preConsumedQuota)
          ErrorCodeInsufficientUserQuota 403).withSkipRetry.withNoRecordErrorLog)
      else
        let quota :=
          if trusts cfg s.info userQuota adm.contextTokenQuota then 0 else preConsumedQuota
        if 0 < quota then
          match s.preConsumeTokenQuota cfg batchUpdateEnabled writes adm quota with
          | (s, some err) =>
              (s, some (NewAPIError.newErrorWithStatusCode err
                ErrorCodePreConsumeTokenQuotaFailed 403).withSkipRetry.withNoRecordErrorLog)
          | (s, none) =>
              match s.batch.decreaseUserQuota batchUpdateEnabled writes s.info.userId quota with
              -- the token keeps the debit
              | (batch, some err) =>
                  ({ s with batch := batch },
                    some (NewAPIError.newError err "update_data_error").withSkipRetry)
              | (batch, none) =>
                  ({ batch := batch, info := { s.info with finalPreConsumedQuota := quota } }, none)
        else ({ s with info := { s.info with finalPreConsumedQuota := quota } }, none)

/-- The quota of the users and tokens, what is recorded of them, and the note of the request are as
before. -/
structure Untouched (s s' : PreConsumeState F) : Prop where
  userQuota : s'.batch.db.userQuota = s.batch.db.userQuota
  remainQuota : s'.batch.db.tokenRemainQuota = s.batch.db.tokenRemainQuota
  usedQuota : s'.batch.db.tokenUsedQuota = s.batch.db.tokenUsedQuota
  stores : s'.batch.batchUpdateStores = s.batch.batchUpdateStores
  noted : s'.info.finalPreConsumedQuota = s.info.finalPreConsumedQuota

/-- The token is found, and unlimited or not short of the quota. -/
def TokenHas (s : PreConsumeState F) (adm : Admission) (quota : ℤ) : Prop :=
  ∃ remainQuota, adm.tokenRemainQuota = .ok remainQuota ∧
    (s.info.tokenUnlimited = true ∨ quota ≤ remainQuota)

/-- The user is found, has the quota and is not trusted. -/
def UserHas (s : PreConsumeState F) (adm : Admission) (quota : ℤ) : Prop :=
  ∃ userQuota, adm.userQuota = .ok userQuota ∧ quota ≤ userQuota ∧
    trusts cfg s.info userQuota adm.contextTokenQuota = false

/-- The statement on the user fails after that on the token has been made. -/
def HalfDone (s : PreConsumeState F) (adm : Admission) (preConsumedQuota : ℤ) : Prop :=
  0 < preConsumedQuota ∧ s.UserHas cfg adm preConsumedQuota ∧ s.TokenHas adm preConsumedQuota ∧
    s.info.isPlayground = false ∧ batchUpdateEnabled = false ∧ writes.token = none ∧
    writes.user ≠ none

/-- The state after the statement on the token. -/
def debited (s : PreConsumeState F) (quota : ℤ) : PreConsumeState F :=
  { s with batch := { s.batch with db := s.batch.db.decreaseTokenQuota s.info.tokenId quota } }

/-- How the token part ends.  It changes nothing when it fails, which a token that has the quota
does only by its statement. -/
inductive TokenPart (s : PreConsumeState F) (adm : Admission) (quota : ℤ) :
    PreConsumeState F × Option String → Prop
  | failed (err : String) (htoken : s.info.isPlayground = false)
      (hwrite : s.TokenHas adm quota → batchUpdateEnabled = false ∧ writes.token ≠ none) :
      TokenPart s adm quota (s, some err)
  | playground (hplayground : s.info.isPlayground = true) : TokenPart s adm quota (s, none)
  | recorded (hhas : s.TokenHas adm quota) (htoken : s.info.isPlayground = false)
      (hbatch : batchUpdateEnabled = true) :
      TokenPart s adm quota
        ({ s with batch := s.batch.addNewRecord .tokenQuota s.info.tokenId (-quota) }, none)
  | written (hhas : s.TokenHas adm quota) (htoken : s.info.isPlayground = false)
      (hbatch : batchUpdateEnabled = false) (hwrite : writes.token = none) :
      TokenPart s adm quota (s.debited quota, none)

variable {s s' : PreConsumeState F} {adm : Admission}
  {quota preConsumedQuota : ℤ}

omit [Float64 F] in
theorem tokenPart (hpos : 0 < quota) :
    TokenPart batchUpdateEnabled writes s adm quota
      (s.preConsumeTokenQuota cfg batchUpdateEnabled writes adm quota) := by
  rw [preConsumeTokenQuota, if_neg (by omega)]
  cases hplayground : s.info.isPlayground with
  | true =>
      rw [if_pos rfl]
      exact .playground hplayground
  | false =>
      rw [if_neg Bool.false_ne_true]
      cases htoken : adm.tokenRemainQuota with
      | error err =>
          refine .failed err hplayground fun ⟨_, hok, _⟩ => ?_
          rw [htoken] at hok
          cases hok
      | ok remainQuota =>
          dsimp only
          split
          case isTrue hshort =>
            rw [Bool.and_eq_true, Bool.not_eq_true', decide_eq_true_iff] at hshort
            refine .failed _ hplayground fun ⟨_, hok, hhas⟩ => ?_
            obtain rfl := Except.ok.inj (htoken.symm.trans hok)
            rcases hhas with hunlimited | hle
            · rw [hunlimited] at hshort
              cases hshort.1
            · omega
          case isFalse henough =>
            have hhas : s.TokenHas adm quota := by
              refine ⟨remainQuota, htoken, ?_⟩
              cases hunlimited : s.info.tokenUnlimited with
              | true => exact .inl rfl
              | false =>
                  rw [hunlimited] at henough
                  refine .inr (Int.not_lt.1 fun hlt => henough ?_)
                  exact decide_eq_true hlt
            rw [BatchState.decreaseTokenQuota]
            unfold BatchState.decreaseQuota
            rw [if_neg (by omega)]
            cases hbatch : batchUpdateEnabled with
            | true => exact .recorded hhas hplayground rfl
            | false =>
                rw [if_neg Bool.false_ne_true]
                cases hwrite : writes.token with
                | some err =>
                    refine .failed err hplayground fun _ => ⟨rfl, ?_⟩
                    rw [hwrite]
                    exact Option.some_ne_none err
                | none => exact .written hhas hplayground rfl hwrite

/-- An error leaves everything as it was, or comes from the statement on the user. -/
theorem preConsumeQuota_error {err : NewAPIError}
    (h : s.preConsumeQuota cfg batchUpdateEnabled writes adm preConsumedQuota = (s', some err)) :
    s' = s ∨ s.HalfDone cfg batchUpdateEnabled writes adm preConsumedQuota := by
  rw [preConsumeQuota] at h
  cases huser : adm.userQuota with
  | error err =>
      rw [huser] at h
      exact .inl (Prod.mk.inj h).1.symm
  | ok userQuota =>
      rw [huser] at h
      dsimp only at h
      split at h
      case isTrue hempty => exact .inl (Prod.mk.inj h).1.symm
      case isFalse hsome =>
      split at h
      case isTrue hshort => exact .inl (Prod.mk.inj h).1.symm
      case isFalse henough =>
      cases htrusts : trusts cfg s.info userQuota adm.contextTokenQuota with
      | true =>
          rw [htrusts] at h
          cases h
      | false =>
          rw [htrusts, if_neg Bool.false_ne_true] at h
          split at h
          case isFalse hnothing => cases h
          case isTrue hpos =>
            have huserHas : s.UserHas cfg adm preConsumedQuota :=
              ⟨userQuota, huser, by omega, htrusts⟩
            have hpart : TokenPart batchUpdateEnabled writes s adm preConsumedQuota
                (s.preConsumeTokenQuota cfg batchUpdateEnabled writes adm preConsumedQuota) :=
              tokenPart cfg batchUpdateEnabled writes hpos
            generalize s.preConsumeTokenQuota cfg batchUpdateEnabled writes adm
              preConsumedQuota = part at h hpart
            cases hpart with
            | failed err htoken hwrite => exact .inl (Prod.mk.inj h).1.symm
            -- the playground has no token to debit
            | playground hplayground =>
                dsimp only at h
                obtain ⟨err, -, -, huserWrite⟩ | ⟨-, batch, huserWrite⟩ :=
                  s.batch.decreaseUserQuota_cases batchUpdateEnabled writes s.info.userId hpos
                · rw [huserWrite] at h
                  exact .inl (Prod.mk.inj h).1.symm
                · rw [huserWrite] at h
                  cases h
            -- what is recorded for a batch does not fail
            | recorded hhas htoken hbatch =>
                dsimp only at h
                obtain ⟨err, hnobatch, -⟩ | ⟨-, batch, huserWrite⟩ :=
                  (s.batch.addNewRecord .tokenQuota s.info.tokenId
                    (-preConsumedQuota)).decreaseUserQuota_cases batchUpdateEnabled writes
                      s.info.userId hpos
                · rw [hbatch] at hnobatch
                  cases hnobatch
                · rw [huserWrite] at h
                  cases h
            | written hhas htoken hbatch hwrite =>
                dsimp only at h
                obtain ⟨err, -, huser, -⟩ | ⟨-, batch, huserWrite⟩ :=
                  (s.debited preConsumedQuota).batch.decreaseUserQuota_cases batchUpdateEnabled
                    writes (s.debited preConsumedQuota).info.userId hpos
                · refine .inr ⟨hpos, huserHas, hhas, htoken, hbatch, hwrite, ?_⟩
                  rw [huser]
                  exact Option.some_ne_none err
                · rw [huserWrite] at h
                  cases h

/-- When the statement on the user fails alone, the token stays debited. -/
theorem preConsumeQuota_halfDone
    (h : s.HalfDone cfg batchUpdateEnabled writes adm preConsumedQuota) :
    ∃ err, s.preConsumeQuota cfg batchUpdateEnabled writes adm preConsumedQuota =
      (s.debited preConsumedQuota, some err) := by
  obtain ⟨hpos, ⟨userQuota, huser, hle, htrusts⟩, hhas, htoken, hbatch, hwrite, huserWrite⟩ := h
  have hpart : TokenPart batchUpdateEnabled writes s adm preConsumedQuota
      (s.preConsumeTokenQuota cfg batchUpdateEnabled writes adm preConsumedQuota) :=
    tokenPart cfg batchUpdateEnabled writes hpos
  rw [preConsumeQuota, huser]
  dsimp only
  rw [if_neg (by omega), if_neg (by omega), htrusts, if_neg Bool.false_ne_true, if_pos hpos]
  generalize
    s.preConsumeTokenQuota cfg batchUpdateEnabled writes adm preConsumedQuota = part at hpart ⊢
  cases hpart with
  | failed err htoken hfails => exact absurd hwrite (hfails hhas).2
  | playground hplayground =>
      rw [htoken] at hplayground
      cases hplayground
  | recorded hhas htoken hrecords =>
      rw [hbatch] at hrecords
      cases hrecords
  | written hhas htoken hbatch hwrite =>
      dsimp only
      obtain ⟨err, -, -, hfails⟩ | ⟨hmade, -⟩ :=
        (s.debited preConsumedQuota).batch.decreaseUserQuota_cases batchUpdateEnabled writes
          (s.debited preConsumedQuota).info.userId hpos
      · rw [hfails]
        exact ⟨_, rfl⟩
      · rcases hmade with hrecords | hnone
        · rw [hbatch] at hrecords
          cases hrecords
        · exact absurd hnone huserWrite

omit [Float64 F] in
theorem preConsumeTokenQuota_refines (hpos : 0 < quota) :
    s.preConsumeTokenQuota cfg false ⟨none, none⟩ adm quota =
      match Model.preConsumeTokenQuota cfg s.batch.db s.info adm quota with
      | .error err => (s, some err)
      | .ok db => ({ s with batch := { s.batch with db := db } }, none) := by
  have hguard : ¬ quota < 0 := by omega
  rw [PreConsumeState.preConsumeTokenQuota, Model.preConsumeTokenQuota, if_neg hguard, if_neg hguard]
  by_cases hplayground : s.info.isPlayground = true
  · rw [if_pos hplayground, if_pos hplayground]
  · rw [if_neg hplayground, if_neg hplayground]
    cases adm.tokenRemainQuota with
    | error err => rfl
    | ok remainQuota =>
        dsimp only
        by_cases hshort : (!s.info.tokenUnlimited && decide (remainQuota < quota)) = true
        · rw [if_pos hshort, if_pos hshort]
        · rw [if_neg hshort, if_neg hshort, DB.debitToken, DB.guarded, if_neg hguard,
            BatchState.decreaseTokenQuota]
          unfold BatchState.decreaseQuota
          rw [if_neg hguard]
          rfl

/-- While no statement fails, this is the pre-consumption of a synchronous request. -/
theorem preConsumeQuota_refines (r : RelayState F) (hdb : r.db = s.batch.db)
    (hinfo : r.info = s.info) :
    s.preConsumeQuota cfg false ⟨none, none⟩ adm preConsumedQuota =
      match Model.preConsumeQuota cfg r adm preConsumedQuota with
      | .error err => (s, some err)
      | .ok r' => ({ batch := { s.batch with db := r'.db }, info := r'.info }, none) := by
  obtain ⟨db, info, trace, refunds⟩ := r
  obtain rfl : db = s.batch.db := hdb
  obtain rfl : info = s.info := hinfo
  rw [PreConsumeState.preConsumeQuota, Model.preConsumeQuota]
  cases adm.userQuota with
  | error err => rfl
  | ok userQuota =>
      dsimp only
      by_cases hempty : userQuota ≤ 0
      · rw [if_pos hempty, if_pos hempty]
      · rw [if_neg hempty, if_neg hempty]
        by_cases hshort : userQuota - preConsumedQuota < 0
        · rw [if_pos hshort, if_pos hshort]
        · rw [if_neg hshort, if_neg hshort]
          generalize (if trusts cfg s.info userQuota adm.contextTokenQuota = true then 0
            else preConsumedQuota) = quota
          by_cases hpos : 0 < quota
          · have hguard : ¬ quota < 0 := by omega
            rw [if_pos hpos, if_pos hpos, preConsumeTokenQuota_refines cfg hpos]
            cases Model.preConsumeTokenQuota cfg s.batch.db s.info adm quota with
            | error err => rfl
            | ok db =>
                dsimp only
                rw [DB.debitUser, DB.guarded, if_neg hguard, BatchState.decreaseUserQuota]
                unfold BatchState.decreaseQuota
                rw [if_neg hguard]
                rfl
          · rw [if_neg hpos, if_neg hpos]

end PreConsumeState

/-- Pre-consumption is undone by its errors exactly when the statement on the user does
not fail alone. -/
theorem preConsumeQuota_atomic_iff (s : PreConsumeState F) (adm : Admission)
    (preConsumedQuota : ℤ) :
    (∀ s' err, s.preConsumeQuota cfg batchUpdateEnabled writes adm preConsumedQuota =
      (s', some err) →
        s.Untouched s') ↔
      ¬ s.HalfDone cfg batchUpdateEnabled writes adm preConsumedQuota := by
  constructor
  · intro hatomic hhalf
    obtain ⟨err, herror⟩ := PreConsumeState.preConsumeQuota_halfDone cfg
      batchUpdateEnabled writes hhalf
    have hremain := congrFun (hatomic _ _ herror).remainQuota s.info.tokenId
    have hdebited : (s.debited preConsumedQuota).batch.db.tokenRemainQuota s.info.tokenId =
        s.batch.db.tokenRemainQuota s.info.tokenId + -preConsumedQuota :=
      bump_self _ _ _
    have hpos := hhalf.1
    omega
  · intro hwhole s' err herror
    rcases PreConsumeState.preConsumeQuota_error cfg batchUpdateEnabled writes
      herror with rfl | hhalf
    · exact ⟨rfl, rfl, rfl, rfl, rfl⟩
    · exact absurd hhalf hwhole

/-- A request priced at 30, whose statement on the user fails, leaves the token with 20
of its 50. -/
theorem preConsumeQuota_not_atomic :
    ∃ s' err, PreConsumeState.preConsumeQuota sampleRelaySettings false ⟨none, some "timeout"⟩
        ⟨.start sampleDB, sampleRelayInfo⟩ sampleAdmission 30 = (s', some err) ∧
      s'.batch.db.tokenRemainQuota 2 = 20 ∧ s'.batch.db.userQuota 1 = 100 ∧
      ¬ PreConsumeState.Untouched ⟨.start sampleDB, sampleRelayInfo⟩ s' := by
  have hhalf : PreConsumeState.HalfDone sampleRelaySettings false ⟨none, some "timeout"⟩
      ⟨.start sampleDB, sampleRelayInfo⟩ sampleAdmission 30 := by
    refine ⟨by decide, ⟨100, rfl, by decide, by decide⟩, ⟨50, rfl, .inr (by decide)⟩, rfl, rfl, rfl, ?_⟩
    exact Option.some_ne_none _
  obtain ⟨err, herror⟩ := PreConsumeState.preConsumeQuota_halfDone sampleRelaySettings false _ hhalf
  refine ⟨_, err, herror, rfl, rfl, fun huntouched => ?_⟩
  have hremain := congrFun huntouched.remainQuota 2
  exact absurd hremain (by decide)

end

end NewApi.Model
