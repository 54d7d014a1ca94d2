import Mathlib.Data.Int.Basic

/-!
# Quota columns of the database

The quota arithmetic of the gateway is carried by six integer columns of the `users`,
`tokens` and `channels` tables.  Each SQL statement of `model/user.go`, `model/token.go`
and `model/channel.go` that moves a quota is an atomic relative update of one row.
-/

namespace NewApi.Model

/-- Add an amount to one row of a column. -/
def bump (column : ℕ → ℤ) (id : ℕ) (amount : ℤ) : ℕ → ℤ :=
  fun row => if row = id then column row + amount else column row

theorem bump_apply (column : ℕ → ℤ) (id : ℕ) (amount : ℤ) (row : ℕ) :
    bump column id amount row = column row + if row = id then amount else 0 := by
  by_cases hrow : row = id <;> simp [bump, hrow]

@[simp] theorem bump_self (column : ℕ → ℤ) (id : ℕ) (amount : ℤ) :
    bump column id amount id = column id + amount := by
  simp [bump]

@[simp] theorem bump_zero (column : ℕ → ℤ) (id : ℕ) : bump column id 0 = column := by
  funext row
  simp [bump]

theorem bump_bump (column : ℕ → ℤ) (id : ℕ) (first second : ℤ) :
    bump (bump column id first) id second = bump column id (first + second) := by
  funext row
  by_cases hrow : row = id
  · simp [bump, hrow, Int.add_assoc]
  · simp [bump, hrow]

/-- The quota columns, each indexed by the primary key of its table. -/
structure DB where
  userQuota : ℕ → ℤ
  userUsedQuota : ℕ → ℤ
  userRequestCount : ℕ → ℤ
  tokenRemainQuota : ℕ → ℤ
  tokenUsedQuota : ℕ → ℤ
  channelUsedQuota : ℕ → ℤ

namespace DB

/-- `UPDATE users SET quota = quota + ?`. -/
@[simps]
def increaseUserQuota (db : DB) (id : ℕ) (quota : ℤ) : DB :=
  { db with
    userQuota := bump db.userQuota id quota }

/-- `UPDATE users SET quota = quota - ?`. -/
@[simps]
def decreaseUserQuota (db : DB) (id : ℕ) (quota : ℤ) : DB :=
  { db with
    userQuota := bump db.userQuota id (-quota) }

/-- `UPDATE tokens SET remain_quota = remain_quota + ?, used_quota = used_quota - ?`. -/
@[simps]
def increaseTokenQuota (db : DB) (id : ℕ) (quota : ℤ) : DB :=
  { db with
    tokenRemainQuota := bump db.tokenRemainQuota id quota
    tokenUsedQuota := bump db.tokenUsedQuota id (-quota) }

/-- `UPDATE tokens SET remain_quota = remain_quota - ?, used_quota = used_quota + ?`. -/
@[simps]
def decreaseTokenQuota (db : DB) (id : ℕ) (quota : ℤ) : DB :=
  { db with
    tokenRemainQuota := bump db.tokenRemainQuota id (-quota)
    tokenUsedQuota := bump db.tokenUsedQuota id quota }

/-- `UPDATE users SET used_quota = used_quota + ?, request_count = request_count + ?`. -/
@[simps]
def updateUserUsedQuotaAndRequestCount (db : DB) (id : ℕ) (quota count : ℤ) : DB :=
  { db with
    userUsedQuota := bump db.userUsedQuota id quota
    userRequestCount := bump db.userRequestCount id count }

/-- `UPDATE users SET used_quota = used_quota + ?`. -/
@[simps]
def updateUserUsedQuota (db : DB) (id : ℕ) (quota : ℤ) : DB :=
  { db with
    userUsedQuota := bump db.userUsedQuota id quota }

/-- `UPDATE users SET request_count = request_count + ?`. -/
@[simps]
def updateUserRequestCount (db : DB) (id : ℕ) (count : ℤ) : DB :=
  { db with
    userRequestCount := bump db.userRequestCount id count }

/-- `UPDATE channels SET used_quota = used_quota + ?`. -/
@[simps]
def updateChannelUsedQuota (db : DB) (id : ℕ) (quota : ℤ) : DB :=
  { db with
    channelUsedQuota := bump db.channelUsedQuota id quota }

end DB

end NewApi.Model
