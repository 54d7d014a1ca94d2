import NewApi.Model.Database

/-!
# Charging a payer

A request is paid for by a user and, unless it comes from the playground, by the token it was
made with.  `PostConsumeQuota` moves both accounts by a signed amount; its specification is
one relation between the database before and after, which composes by adding the amounts.
-/

namespace NewApi.Model

/-- Who pays for a request. -/
structure Payer where
  userId : ℕ
  tokenId : ℕ
  isPlayground : Bool
deriving DecidableEq

/-- A quota movement refuses a negative amount, in every one of `DecreaseUserQuota`,
`IncreaseUserQuota`, `DecreaseTokenQuota` and `IncreaseTokenQuota`. -/
def DB.guarded (db : DB) (quota : ℤ) (moved : DB) : DB × Option String :=
  if quota < 0 then (db, some "quota 不能为负数！") else (moved, none)

namespace DB

/-- `DecreaseUserQuota`. -/
def debitUser (db : DB) (id : ℕ) (quota : ℤ) : DB × Option String :=
  db.guarded quota (db.decreaseUserQuota id quota)

/-- `IncreaseUserQuota`. -/
def creditUser (db : DB) (id : ℕ) (quota : ℤ) : DB × Option String :=
  db.guarded quota (db.increaseUserQuota id quota)

/-- `DecreaseTokenQuota`. -/
def debitToken (db : DB) (id : ℕ) (quota : ℤ) : DB × Option String :=
  db.guarded quota (db.decreaseTokenQuota id quota)

/-- `IncreaseTokenQuota`. -/
def creditToken (db : DB) (id : ℕ) (quota : ℤ) : DB × Option String :=
  db.guarded quota (db.increaseTokenQuota id quota)

/-- `PostConsumeQuota`: charge a positive amount, return a negative one. -/
def postConsumeQuota (db : DB) (payer : Payer) (quota : ℤ) : DB × Option String :=
  match if 0 < quota then db.debitUser payer.userId quota
      else db.creditUser payer.userId (-quota) with
  | (db, some err) => (db, some err)
  | (db, none) =>
      if payer.isPlayground then (db, none)
      else if 0 < quota then db.debitToken payer.tokenId quota
      else db.creditToken payer.tokenId (-quota)

end DB

/-- The payer has been charged the amount: it is gone from the user's quota and, unless the
request comes from the playground, from the token's remaining quota.  No other user or token
is touched. -/
structure Charged (payer : Payer) (amount : ℤ) (db db' : DB) : Prop where
  user : db'.userQuota = bump db.userQuota payer.userId (-amount)
  token : db'.tokenRemainQuota =
    if payer.isPlayground then db.tokenRemainQuota
    else bump db.tokenRemainQuota payer.tokenId (-amount)
  tokenUsed : db'.tokenUsedQuota =
    if payer.isPlayground then db.tokenUsedQuota
    else bump db.tokenUsedQuota payer.tokenId amount

namespace Charged

variable {payer : Payer} {first second : ℤ} {db db' db'' : DB}

theorem zero (payer : Payer) (db : DB) : Charged payer 0 db db :=
  ⟨by simp, by simp, by simp⟩

/-- Charges add up. -/
theorem trans (hfirst : Charged payer first db db') (hsecond : Charged payer second db' db'') :
    Charged payer (first + second) db db'' := by
  have hsum : -first + -second = -(first + second) := by omega
  refine ⟨?_, ?_, ?_⟩
  · rw [hsecond.user, hfirst.user, bump_bump, hsum]
  · rw [hsecond.token, hfirst.token]
    split
    case isTrue hplayground => rfl
    case isFalse htoken => rw [bump_bump, hsum]
  · rw [hsecond.tokenUsed, hfirst.tokenUsed]
    split
    case isTrue hplayground => rfl
    case isFalse htoken => rw [bump_bump]

/-- What the payer has been charged shows on the user's quota. -/
theorem unique (hfirst : Charged payer first db db') (hsecond : Charged payer second db db') :
    first = second := by
  have huser := congrFun (hfirst.user.symm.trans hsecond.user) payer.userId
  rw [bump_self, bump_self] at huser
  omega

theorem charged_iff (hfirst : Charged payer first db db') (second : ℤ) :
    Charged payer second db db' ↔ second = first := by
  constructor
  · intro hsecond
    exact hsecond.unique hfirst
  · intro heq
    rw [heq]
    exact hfirst

/-- The columns of used quota are no part of what the payer is charged. -/
theorem counted (hcharged : Charged payer first db db') (userId channelId : ℕ) (quota : ℤ) :
    Charged payer first db
      ((db'.updateUserUsedQuotaAndRequestCount userId quota 1).updateChannelUsedQuota channelId
        quota) :=
  ⟨hcharged.user, hcharged.token, hcharged.tokenUsed⟩

end Charged

namespace DB

/-- `PostConsumeQuota` never fails and charges the signed amount. -/
theorem postConsumeQuota_charged (db : DB) (payer : Payer) (quota : ℤ) :
    (db.postConsumeQuota payer quota).2 = none ∧
      Charged payer quota db (db.postConsumeQuota payer quota).1 := by
  rw [postConsumeQuota]
  by_cases hpos : 0 < quota
  · have hguard : ¬quota < 0 := by omega
    rw [if_pos hpos, debitUser, guarded, if_neg hguard]
    dsimp only
    cases hplayground : payer.isPlayground with
    | true => exact ⟨rfl, rfl, by rw [hplayground]; rfl, by rw [hplayground]; rfl⟩
    | false =>
        rw [if_neg (by simp), if_pos hpos, debitToken, guarded, if_neg hguard]
        exact ⟨rfl, rfl, by rw [hplayground]; rfl, by rw [hplayground]; rfl⟩
  · have hguard : ¬-quota < 0 := by omega
    have hneg : quota = - -quota := by omega
    rw [if_neg hpos, creditUser, guarded, if_neg hguard]
    dsimp only
    cases hplayground : payer.isPlayground with
    | true => exact ⟨rfl, rfl, by rw [hplayground]; rfl, by rw [hplayground]; rfl⟩
    | false =>
        rw [if_neg (by simp), if_neg hpos, creditToken, guarded, if_neg hguard]
        refine ⟨rfl, rfl, by rw [hplayground]; rfl, ?_⟩
        rw [hplayground]
        show bump db.tokenUsedQuota payer.tokenId (- -quota) = _
        rw [← hneg]
        rfl

end DB

/-- A database for examples: every user has 100 quota and every token 50. -/
def sampleDB : DB :=
  ⟨fun _ => 100, fun _ => 0, fun _ => 0, fun _ => 50, fun _ => 0, fun _ => 0⟩

end NewApi.Model
