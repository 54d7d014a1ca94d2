import NewApi.Lib.System
import NewApi.Model.QuotaMove

/-!
# The cached balance of a user

`GetUserQuota` admits requests by the quota cached in Redis.  The cached value is moved by
the goroutines of `IncreaseUserQuota` and `DecreaseUserQuota`, vanishes when the key
expires, and is filled again from the database row, which misses the deltas that are still
in the batch store.  The true balance is the database quota together with those deltas.
-/

namespace NewApi.Model

open NewApi.Lib

/-- A goroutine that fills the cache with a quota read from the database: the whole object
(`updateUserCache`), or the one field after a `TTL` command (`updateUserQuotaCache`). -/
inductive Refill where
  | setObj (quota : ℤ)
  | fieldTtl (quota : ℤ)
  | fieldExec (quota : ℤ)
  | finished
deriving DecidableEq, Repr

/-- The value a refill is about to write to the cache. -/
def Refill.written : Refill → Option ℤ
  | .setObj quota => some quota
  | .fieldExec quota => some quota
  | _ => none

/-- One user: the stored quota, the deltas in the batch store, the deltas that `batchUpdate`
calls have swapped out and not flushed, the cached quota (`none` without a key), and the
calls and refills in progress. -/
structure UserCacheState where
  dbQuota : ℤ
  batchStore : ℤ
  flushing : List ℤ
  cache : Option ℤ
  moves : List QuotaMove
  refills : List Refill
deriving DecidableEq, Repr

/-- The atomic actions: quota calls and their two halves, a `GetUserQuota` call with its
read and the commands of the refill it starts, the swap and the flush of `batchUpdate`, and
the expiry of the cached key. -/
inductive UserCacheAction where
  | increaseUserQuota (quota : ℤ) (db : Bool)
  | decreaseUserQuota (quota : ℤ)
  | dbStatement (move : ℕ)
  | cacheCommand (move : ℕ)
  | getUserQuota (fromDB : Bool)
  | refillCommand (refill : ℕ)
  | swapBatch
  | flushBatch (entry : ℕ) (ok : Bool)
  | expire

namespace UserCacheState

/-- `GetUserQuota`: a cache hit is answered from the cache; otherwise the row is read and a
goroutine is started that stores the value read. -/
def getUserQuota (s : UserCacheState) (fromDB : Bool) : ℤ × UserCacheState :=
  if fromDB then
    (s.dbQuota, { s with refills := s.refills ++ [.fieldTtl s.dbQuota] })
  else
    match s.cache with
    | some quota => (quota, s)
    | none => (s.dbQuota, { s with refills := s.refills ++ [.setObj s.dbQuota] })

/-- The statement of a quota call: on the row, or on the batch store. -/
def store (s : UserCacheState) (move : QuotaMove) : UserCacheState :=
  if move.batched then { s with batchStore := s.batchStore + move.delta }
  else { s with dbQuota := s.dbQuota + move.delta }

/-- The next Redis command of a refill. -/
def refillCommand (s : UserCacheState) (i : ℕ) : Refill → Option UserCacheState
  | .setObj quota => some { s with cache := some quota, refills := s.refills.set i .finished }
  | .fieldTtl quota =>
      if s.cache.isSome then some { s with refills := s.refills.set i (.fieldExec quota) }
      else some { s with refills := s.refills.set i .finished }
  | .fieldExec quota => some { s with cache := some quota, refills := s.refills.set i .finished }
  | .finished => none

/-- One action, with `BatchUpdateEnabled` as a parameter. -/
def step (batchUpdateEnabled : Bool) (s : UserCacheState) :
    UserCacheAction → Option UserCacheState
  | .increaseUserQuota quota db =>
      if quota < 0 then some s
      else some { s with moves := s.moves ++ [.begin_ quota (!db && batchUpdateEnabled)] }
  | .decreaseUserQuota quota =>
      if quota < 0 then some s
      else some { s with moves := s.moves ++ [.begin_ (-quota) batchUpdateEnabled] }
  | .dbStatement i => do
      let move ← s.moves[i]?
      if move.dbDone then none
      else some { s.store move with moves := s.moves.set i { move with dbDone := true } }
  | .cacheCommand i => do
      let move ← s.moves[i]?
      let (move', cache') ← move.cacheStep s.cache
      pure { s with cache := cache', moves := s.moves.set i move' }
  | .getUserQuota fromDB => some (s.getUserQuota fromDB).2
  | .refillCommand i => do
      let refill ← s.refills[i]?
      s.refillCommand i refill
  | .swapBatch => some { s with batchStore := 0, flushing := s.flushing ++ [s.batchStore] }
  | .flushBatch i ok => do
      let value ← s.flushing[i]?
      pure
        { s with
          dbQuota := if ok then s.dbQuota + value else s.dbQuota
          flushing := s.flushing.set i 0 }
  | .expire => some { s with cache := none }

end UserCacheState

/-- All operations on the quota of one user and its cached copy, interleaved. -/
def userCache (batchUpdateEnabled : Bool) : System UserCacheState UserCacheAction where
  step := UserCacheState.step batchUpdateEnabled

namespace UserCacheState

/-- The database quota plus all pending batch deltas. -/
def trueBalance (s : UserCacheState) : ℤ :=
  s.dbQuota + s.batchStore + total id s.flushing

/-- What a call still owes to the true balance.  An increase whose cache operation has ended
is not counted on: the cache may already show it. -/
def owed (move : QuotaMove) : ℤ :=
  if move.dbDone then 0
  else if move.cacheOp = .finished then min move.delta 0
  else move.delta

/-- What the cached quota may be at most. -/
def cacheSlack (s : UserCacheState) : ℤ :=
  slack owed s.trueBalance s.moves

/-- No refill writes more than the slack, an increase reaches the cache only after the true
balance, no `HINCRBY` revives a vanished key beyond the slack, and no flush of a positive
delta fails. -/
def NoStaleFill (s : UserCacheState) : UserCacheAction → Prop
  | .refillCommand i => ∀ quota ∈ s.refills[i]?.bind Refill.written, quota ≤ s.cacheSlack
  | .cacheCommand i =>
      match s.moves[i]? with
      | some move =>
          move.cacheOp = .exec →
            (move.delta ≤ 0 ∨ move.dbDone = true) ∧ (s.cache = none → 0 ≤ s.cacheSlack)
      | none => True
  | .flushBatch i false => s.flushing[i]?.getD 0 ≤ 0
  | _ => True

instance (s : UserCacheState) : DecidablePred s.NoStaleFill := fun a => by
  unfold NoStaleFill
  repeat' split
  all_goals infer_instance

/-- No asynchronous cache operation is pending. -/
def CacheQuiet (s : UserCacheState) : Prop :=
  (∀ move ∈ s.moves, move.cacheOp = .finished) ∧ ∀ refill ∈ s.refills, refill = .finished

instance (s : UserCacheState) : Decidable s.CacheQuiet :=
  inferInstanceAs (Decidable (_ ∧ _))

theorem owed_begin (delta : ℤ) (batched : Bool) :
    owed (QuotaMove.begin_ delta batched) = delta := rfl

theorem owed_le_delta {move : QuotaMove} (hdone : move.dbDone = false) :
    owed move ≤ move.delta := by
  simp only [owed, hdone, Bool.false_eq_true, if_false]
  split <;> omega

theorem owed_exec {move : QuotaMove} (hop : move.cacheOp = .ttl) :
    owed { move with cacheOp := .exec } = owed move := by
  simp [owed, hop]

theorem owed_finished {move : QuotaMove} (hop : move.cacheOp = .exec)
    (hpaid : move.delta ≤ 0 ∨ move.dbDone = true) :
    owed { move with cacheOp := .finished } = owed move := by
  rcases hpaid with hdelta | hdone
  · have hmin : min move.delta 0 = move.delta := by omega
    simp [owed, hop, hmin]
  · simp [owed, hdone]

/-- The cached quota is within the slack. -/
def CacheSound (s : UserCacheState) : Prop :=
  WithinSlack owed s.trueBalance s.cache s.moves

theorem store_trueBalance (s : UserCacheState) (move : QuotaMove) :
    (s.store move).trueBalance = s.trueBalance + move.delta := by
  unfold store
  split <;> simp only [trueBalance] <;> omega

@[simp] theorem store_cache (s : UserCacheState) (move : QuotaMove) :
    (s.store move).cache = s.cache := by
  unfold store
  split <;> rfl

section

variable {batchUpdateEnabled : Bool} {s s' : UserCacheState} {a : UserCacheAction}

/-- A refill that writes no more than the slack keeps the cached quota within it. -/
theorem refillCommand_sound {i : ℕ} {refill : Refill}
    (hfresh : ∀ quota, refill.written = some quota → quota ≤ s.cacheSlack)
    (hstep : s.refillCommand i refill = some s') (hsound : s.CacheSound) : s'.CacheSound := by
  cases refill with
  | setObj quota =>
      obtain rfl : _ = s' := by simpa [refillCommand] using hstep
      intro cached hcached
      obtain rfl : quota = cached := by simpa using hcached
      exact hfresh quota rfl
  | fieldTtl quota =>
      simp only [refillCommand] at hstep
      split at hstep
      · obtain rfl : _ = s' := by simpa using hstep
        exact hsound
      · obtain rfl : _ = s' := by simpa using hstep
        exact hsound
  | fieldExec quota =>
      obtain rfl : _ = s' := by simpa [refillCommand] using hstep
      intro cached hcached
      obtain rfl : quota = cached := by simpa using hcached
      exact hfresh quota rfl
  | finished => simp [refillCommand] at hstep

/-- Step lemma: under the condition the cached quota stays within the slack. -/
theorem step_sound (hstep : s.step batchUpdateEnabled a = some s') (hfresh : s.NoStaleFill a)
    (hsound : s.CacheSound) : s'.CacheSound := by
  cases a with
  | increaseUserQuota quota db =>
      simp only [step] at hstep
      split at hstep
      · obtain rfl : s = s' := by simpa using hstep
        exact hsound
      · obtain rfl : _ = s' := by simpa using hstep
        exact withinSlack_begin (owed_begin _ _) hsound
  | decreaseUserQuota quota =>
      simp only [step] at hstep
      split at hstep
      · obtain rfl : s = s' := by simpa using hstep
        exact hsound
      · obtain rfl : _ = s' := by simpa using hstep
        exact withinSlack_begin (owed_begin _ _) hsound
  | dbStatement i =>
      obtain ⟨move, hmove, hstep⟩ := Option.bind_eq_some_iff.1 hstep
      obtain ⟨hdone, rfl⟩ : move.dbDone = false ∧ _ = s' := by
        simpa using hstep
      have hpaid : owed move ≤ move.delta + owed { move with dbDone := true } := by
        simpa [owed] using owed_le_delta hdone
      have hstored := withinSlack_store hmove hpaid hsound
      rw [← store_trueBalance] at hstored
      exact hstored
  | cacheCommand i =>
      obtain ⟨move, hmove, hstep⟩ := Option.bind_eq_some_iff.1 hstep
      obtain ⟨⟨move', cache'⟩, hcache, hstep⟩ := Option.bind_eq_some_iff.1 hstep
      obtain rfl := Option.some.inj hstep
      have hwrite : move.cacheOp = .exec →
          (move.delta ≤ 0 ∨ move.dbDone = true) ∧ (s.cache = none → 0 ≤ s.cacheSlack) := by
        simpa only [NoStaleFill, hmove] using hfresh
      exact withinSlack_cacheStep hmove hcache owed_exec
        (fun hop => Int.le_of_eq (owed_finished hop (hwrite hop).1).symm)
        (fun hop hgone => (hwrite hop).2 hgone) hsound
  | getUserQuota fromDB =>
      obtain rfl : (s.getUserQuota fromDB).2 = s' := by simpa [step] using hstep
      unfold getUserQuota
      split
      · exact hsound
      · split <;> exact hsound
  | refillCommand i =>
      obtain ⟨refill, hrefill, hcommand⟩ := Option.bind_eq_some_iff.1 hstep
      refine refillCommand_sound (fun quota hquota => ?_) hcommand hsound
      exact hfresh quota (by simp [hrefill, hquota])
  | swapBatch =>
      obtain rfl : _ = s' := by simpa [step] using hstep
      intro cached hcached
      have hbound := hsound cached hcached
      simp only [slack, trueBalance, Pool.total_append, Pool.total_cons, Pool.total_nil,
        id] at hbound ⊢
      omega
  | flushBatch i ok =>
      obtain ⟨value, hvalue, hstep⟩ := Option.bind_eq_some_iff.1 hstep
      obtain rfl : _ = s' := by simpa using hstep
      intro cached hcached
      have hbound := hsound cached hcached
      simp only [slack, trueBalance, Pool.total_set hvalue, id] at hbound ⊢
      cases ok with
      | true =>
          simp only [if_true]
          omega
      | false =>
          have hlost : value ≤ 0 := by simpa [NoStaleFill, hvalue] using hfresh
          simp only [Bool.false_eq_true, if_false]
          omega
  | expire =>
      obtain rfl : _ = s' := by simpa [step] using hstep
      intro cached hcached
      simp at hcached

end

end UserCacheState

/-- A user nobody is working on, with an empty batch store. -/
def UserCacheState.start (dbQuota : ℤ) (cache : Option ℤ) : UserCacheState where
  dbQuota := dbQuota
  batchStore := 0
  flushing := []
  cache := cache
  moves := []
  refills := []

open UserCacheState

/-- Whenever no cache operation is pending, the quota used for admission is at most the true
balance, in every run without a stale fill. -/
theorem cached_quota_le_balance {batchUpdateEnabled : Bool} {dbQuota : ℤ} {cache : Option ℤ}
    {s' : UserCacheState} {as : List UserCacheAction}
    (hcache : ∀ cached, cache = some cached → cached ≤ dbQuota)
    (hfresh : (userCache batchUpdateEnabled).Along NoStaleFill (start dbQuota cache) as)
    (hrun : (userCache batchUpdateEnabled).run (start dbQuota cache) as = some s')
    (hquiet : s'.CacheQuiet) :
    ∀ cached, s'.cache = some cached → cached ≤ s'.trueBalance := by
  have hstart : (start dbQuota cache).CacheSound := by
    intro cached hcached
    simpa [slack, trueBalance, start] using hcache cached hcached
  have hsound : s'.CacheSound :=
    System.invariant_run (I := CacheSound)
      (fun hstep hfresh hsound => step_sound hstep hfresh hsound) hstart hfresh hrun
  have hqueued : total QuotaMove.queued s'.moves = 0 :=
    Pool.total_eq_zero fun move hmove => by simp [QuotaMove.queued, hquiet.1 move hmove]
  have howed : total owed s'.moves ≤ 0 :=
    Pool.total_nonpos fun move hmove => by
      simp only [owed, hquiet.1 move hmove, if_true]
      split <;> omega
  intro cached hcached
  have hbound := hsound cached hcached
  simp only [slack] at hbound
  omega

/-- A debit through the batch store with its cache update, a flush, an expiry and a refill
that do not overlap. -/
def orderlyCacheRun : List UserCacheAction :=
  [.decreaseUserQuota 30, .cacheCommand 0, .dbStatement 0, .cacheCommand 0, .swapBatch,
    .flushBatch 0 true, .expire, .getUserQuota false, .refillCommand 0]

theorem cached_quota_le_balance_orderly :
    ∃ s', (userCache true).run (start 100 (some 100)) orderlyCacheRun = some s' ∧
      ∀ cached, s'.cache = some cached → cached ≤ s'.trueBalance := by
  have hfresh : (userCache true).Along NoStaleFill (start 100 (some 100)) orderlyCacheRun := by
    decide
  exact ⟨_, rfl, cached_quota_le_balance (by simp) hfresh rfl (by decide)⟩

/-- The key has expired; a debit goes to the batch store, and a refill reads the row before
the flush. -/
def staleFillRun : List UserCacheAction :=
  [.expire, .decreaseUserQuota 30, .cacheCommand 0, .dbStatement 0, .getUserQuota false,
    .refillCommand 0]

/-- A refill that misses a pending batch delta shows more than the true balance. -/
theorem stale_fill_exceeds_balance :
    ¬ ∀ (batchUpdateEnabled : Bool) (dbQuota : ℤ) (cache : Option ℤ)
      (as : List UserCacheAction) (s' : UserCacheState),
      (∀ cached, cache = some cached → cached ≤ dbQuota) →
      (userCache batchUpdateEnabled).run (start dbQuota cache) as = some s' → s'.CacheQuiet →
        ∀ cached, s'.cache = some cached → cached ≤ s'.trueBalance := by
  intro hclaim
  have hbound := hclaim true 100 (some 100) staleFillRun _ (by simp) rfl (by decide) 100 rfl
  exact absurd hbound (by decide)

end NewApi.Model
