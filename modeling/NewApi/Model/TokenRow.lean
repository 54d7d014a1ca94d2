import NewApi.Lib.System
import NewApi.Lib.Decimal
import NewApi.Model.QuotaMove

/-!
# Status toggles and quota calls on one token

`UpdateToken` with `status_only` loads the token, changes its status, writes a column list
that includes `remain_quota`, and then stores the loaded copy in Redis from a goroutine.
Meanwhile `IncreaseTokenQuota` and `DecreaseTokenQuota` move the stored and the cached
remaining quota.  Every database statement and every Redis command is one action.
-/

namespace NewApi.Model

open NewApi.Lib

/-- The columns of the `tokens` table that `UpdateToken` looks at or that a quota call moves. -/
structure Token where
  status : ℤ
  expiredTime : ℤ
  remainQuota : ℤ
  unlimitedQuota : Bool
  usedQuota : ℤ
deriving DecidableEq, Repr

def TokenStatusEnabled : ℤ := 1
def TokenStatusDisabled : ℤ := 2
def TokenStatusExpired : ℤ := 3
def TokenStatusExhausted : ℤ := 4

/-- The request body of `UpdateToken`. -/
structure TokenBody where
  name : String
  status : ℤ
  expiredTime : ℤ
  remainQuota : ℤ
  unlimitedQuota : Bool
deriving DecidableEq, Repr

section

variable {F : Type} [Float64 F]

/-- The largest quota a token may be given. -/
def maxQuotaValue (quotaPerUnit : F) : ℤ :=
  Float64.toInt (Float64.ofInt 1000000000 * quotaPerUnit)

/-- `UpdateToken` up to its write: the checks on the body, then on the loaded token, and
the token it goes on to write, or the message it answers with. -/
def updateToken (quotaPerUnit : F) (statusOnly : Bool) (token : TokenBody) (now : ℤ)
    (cleanToken : Token) : Except String Token :=
  if 50 < token.name.utf8ByteSize then
    .error "令牌名称过长"
  else if token.unlimitedQuota = false ∧ token.remainQuota < 0 then
    .error "额度值不能为负数"
  else if token.unlimitedQuota = false ∧ maxQuotaValue quotaPerUnit < token.remainQuota then
    .error s!"额度值超出有效范围，最大值为 {maxQuotaValue quotaPerUnit}"
  else if token.status = TokenStatusEnabled ∧ cleanToken.status = TokenStatusExpired ∧
      cleanToken.expiredTime ≤ now ∧ cleanToken.expiredTime ≠ -1 then
    .error "令牌已过期，无法启用，请先修改令牌过期时间，或者设置为永不过期"
  else if token.status = TokenStatusEnabled ∧ cleanToken.status = TokenStatusExhausted ∧
      cleanToken.remainQuota ≤ 0 ∧ cleanToken.unlimitedQuota = false then
    .error "令牌可用额度已用尽，无法启用，请先修改令牌剩余额度，或者设置为无限额度"
  else if statusOnly then
    .ok { cleanToken with status := token.status }
  else
    .ok
      { cleanToken with
        expiredTime := token.expiredTime
        remainQuota := token.remainQuota
        unlimitedQuota := token.unlimitedQuota }

end

/-- `Token.Update`: the selected columns are written, `used_quota` is not among them. -/
def Token.update (row token : Token) : Token :=
  { token with usedQuota := row.usedQuota }

/-- An `UpdateToken` request after its checks: about to write, or about to store its copy in
the cache. -/
inductive TokenUpdate where
  | writing (cleanToken : Token)
  | caching (token : Token)
  | returned
deriving DecidableEq, Repr

/-- The stored row, the cached remaining quota (`none` without a key), and the requests and
quota calls in progress. -/
structure TokenState where
  row : Token
  cache : Option ℤ
  updates : List TokenUpdate
  moves : List QuotaMove
deriving DecidableEq, Repr

/-- The atomic actions: a request reads the row, the next write of a request (which may
fail), a quota call is made, its statement, its next Redis command, and the expiry of the
cached key. -/
inductive TokenAction where
  | updateToken (token : TokenBody) (now : ℤ)
  | advance (update : ℕ) (ok : Bool)
  | increaseTokenQuota (quota : ℤ)
  | decreaseTokenQuota (quota : ℤ)
  | dbStatement (move : ℕ)
  | cacheCommand (move : ℕ)
  | expire

namespace TokenState

/-- The statement of a quota call: `remain_quota` moves by the amount and `used_quota`
against it. -/
def moveRow (row : Token) (delta : ℤ) : Token :=
  { row with remainQuota := row.remainQuota + delta, usedQuota := row.usedQuota - delta }

/-- The next write of an `UpdateToken` request. -/
def advance (s : TokenState) (i : ℕ) (ok : Bool) : TokenUpdate → Option TokenState
  | .writing cleanToken =>
      if ok then
        some
          { s with
            row := s.row.update cleanToken
            updates := s.updates.set i (.caching cleanToken) }
      else
        some { s with updates := s.updates.set i .returned }
  | .caching token =>
      some
        { s with
          cache := if ok then some token.remainQuota else s.cache
          updates := s.updates.set i .returned }
  | .returned => none

def step {F : Type} [Float64 F] (quotaPerUnit : F) (s : TokenState) :
    TokenAction → Option TokenState
  | .updateToken token now =>
      match NewApi.Model.updateToken quotaPerUnit true token now s.row with
      | .error _ => some s
      | .ok cleanToken => some { s with updates := s.updates ++ [.writing cleanToken] }
  | .advance i ok => do
      let update ← s.updates[i]?
      s.advance i ok update
  | .increaseTokenQuota quota =>
      if quota < 0 then some s
      else some { s with moves := s.moves ++ [QuotaMove.begin_ quota false] }
  | .decreaseTokenQuota quota =>
      if quota < 0 then some s
      else some { s with moves := s.moves ++ [QuotaMove.begin_ (-quota) false] }
  | .dbStatement i => do
      let move ← s.moves[i]?
      if move.dbDone then none
      else
        some
          { s with
            row := moveRow s.row move.delta
            moves := s.moves.set i { move with dbDone := true } }
  | .cacheCommand i => do
      let move ← s.moves[i]?
      let (move', cache') ← move.cacheStep s.cache
      pure { s with cache := cache', moves := s.moves.set i move' }
  | .expire => some { s with cache := none }

end TokenState

/-- Any number of status toggles and quota calls on one token, interleaved. -/
def tokenRow {F : Type} [Float64 F] (quotaPerUnit : F) : System TokenState TokenAction where
  step := TokenState.step quotaPerUnit

namespace TokenState

/-- The change of the remaining quota that a call asks for; a negative amount is an error. -/
def delta (_ : TokenState) : TokenAction → ℤ
  | .increaseTokenQuota quota => if quota < 0 then 0 else quota
  | .decreaseTokenQuota quota => if quota < 0 then 0 else -quota
  | _ => 0

/-- What the cached remaining quota may be: the stored one with all unexecuted statements,
less the amounts the cache has not seen. -/
def cacheSlack (s : TokenState) : ℤ :=
  slack QuotaMove.outstanding s.row.remainQuota s.moves

/-- A request writes or caches the copy it holds only while that copy is current: the
written `remain_quota` is the stored one, the cached one is within the slack. -/
def CopyCurrent (s : TokenState) : TokenUpdate → Prop
  | .writing cleanToken => cleanToken.remainQuota = s.row.remainQuota
  | .caching token => token.remainQuota ≤ s.cacheSlack
  | .returned => True

instance (s : TokenState) : DecidablePred s.CopyCurrent := fun update => by
  cases update <;> unfold CopyCurrent <;> infer_instance

/-- No request uses a stale copy, and no `HINCRBY` revives a vanished key when that would
exceed the slack. -/
def NoStaleCopy (s : TokenState) : TokenAction → Prop
  | .advance i true => s.CopyCurrent (s.updates[i]?.getD .returned)
  | .cacheCommand i =>
      (s.moves[i]?.map QuotaMove.cacheOp).getD .finished = .exec → s.cache = none →
        0 ≤ s.cacheSlack
  | _ => True

instance (s : TokenState) : DecidablePred s.NoStaleCopy := fun a => by
  unfold NoStaleCopy
  split <;> infer_instance

/-- All requests and quota calls have ended. -/
def Ended (s : TokenState) : Prop :=
  (∀ update ∈ s.updates, update = .returned) ∧ ∀ move ∈ s.moves, move.Settled

instance (s : TokenState) : Decidable s.Ended :=
  inferInstanceAs (Decidable (_ ∧ _))

section

variable {F : Type} [Float64 F] {quotaPerUnit : F} {s s' : TokenState} {a : TokenAction}

/-- The stored remaining quota with the amounts of all unexecuted statements. -/
def promised (s : TokenState) : ℤ :=
  s.row.remainQuota + total QuotaMove.outstanding s.moves

/-- The cached remaining quota is within the slack. -/
def CacheSound (s : TokenState) : Prop :=
  WithinSlack QuotaMove.outstanding s.row.remainQuota s.cache s.moves

/-- A step adds an amount to the promised quota, and keeps the cached one within the slack. -/
def Keeps (s s' : TokenState) (amount : ℤ) : Prop :=
  s'.promised = s.promised + amount ∧ (s.CacheSound → s'.CacheSound)

theorem Keeps.refl (s : TokenState) : Keeps s s 0 :=
  ⟨(Int.add_zero _).symm, id⟩

/-- A request keeps both unless its copy is stale. -/
theorem advance_keeps {i : ℕ} {ok : Bool} {update : TokenUpdate}
    (hupdate : s.updates[i]? = some update) (hcurrent : s.NoStaleCopy (.advance i ok))
    (hstep : s.advance i ok update = some s') : Keeps s s' 0 := by
  cases update with
  | writing cleanToken =>
      cases ok with
      | false =>
          obtain rfl : _ = s' := by simpa [advance] using hstep
          exact Keeps.refl s
      | true =>
          obtain rfl : _ = s' := by simpa [advance] using hstep
          have hcopy : cleanToken.remainQuota = s.row.remainQuota := by
            simpa [NoStaleCopy, hupdate, CopyCurrent] using hcurrent
          exact ⟨by simp [promised, Token.update, hcopy],
            fun hsound => by simpa [CacheSound, Token.update, hcopy] using hsound⟩
  | caching token =>
      cases ok with
      | false =>
          obtain rfl : _ = s' := by simpa [advance] using hstep
          exact Keeps.refl s
      | true =>
          obtain rfl : _ = s' := by simpa [advance] using hstep
          have hcopy : token.remainQuota ≤ s.cacheSlack := by
            simpa [NoStaleCopy, hupdate, CopyCurrent] using hcurrent
          refine ⟨(Int.add_zero _).symm, fun _ cached hcached => ?_⟩
          obtain rfl : token.remainQuota = cached := by simpa using hcached
          exact hcopy
  | returned => simp [advance] at hstep

/-- A quota call begins with its whole amount outstanding. -/
theorem begin_keeps (s : TokenState) (amount : ℤ) :
    Keeps s { s with moves := s.moves ++ [QuotaMove.begin_ amount false] } amount := by
  refine ⟨?_, withinSlack_begin (QuotaMove.outstanding_begin _ _)⟩
  simp only [promised, Pool.total_append, Pool.total_cons, Pool.total_nil,
    QuotaMove.outstanding_begin]
  omega

/-- Step lemma: without a stale copy the promised quota moves by what a call asks for, and the cached
one stays within the slack. -/
theorem step_keeps (hstep : s.step quotaPerUnit a = some s') (hcurrent : s.NoStaleCopy a) :
    Keeps s s' (s.delta a) := by
  cases a with
  | updateToken token now =>
      simp only [step] at hstep
      split at hstep
      · obtain rfl : s = s' := by simpa using hstep
        exact Keeps.refl s
      · obtain rfl : _ = s' := by simpa using hstep
        exact Keeps.refl s
  | advance i ok =>
      obtain ⟨update, hupdate, hadvance⟩ := Option.bind_eq_some_iff.1 hstep
      exact advance_keeps hupdate hcurrent hadvance
  | increaseTokenQuota quota =>
      simp only [step] at hstep
      rw [delta]
      split at hstep
      case isTrue hneg =>
        obtain rfl : s = s' := by simpa using hstep
        rw [if_pos hneg]
        exact Keeps.refl s
      case isFalse hpos =>
        obtain rfl : _ = s' := by simpa using hstep
        rw [if_neg hpos]
        exact begin_keeps s quota
  | decreaseTokenQuota quota =>
      simp only [step] at hstep
      rw [delta]
      split at hstep
      case isTrue hneg =>
        obtain rfl : s = s' := by simpa using hstep
        rw [if_pos hneg]
        exact Keeps.refl s
      case isFalse hpos =>
        obtain rfl : _ = s' := by simpa using hstep
        rw [if_neg hpos]
        exact begin_keeps s (-quota)
  | dbStatement i =>
      obtain ⟨move, hmove, hstep⟩ := Option.bind_eq_some_iff.1 hstep
      obtain ⟨hdone, rfl⟩ : move.dbDone = false ∧ _ = s' := by
        simpa using hstep
      have houtstanding := QuotaMove.outstanding_of_not_done hdone
      have howed : move.outstanding ≤
          move.delta + QuotaMove.outstanding { move with dbDone := true } := by
        simp [houtstanding]
      refine ⟨?_, withinSlack_store hmove howed⟩
      simp only [promised, moveRow, delta, Pool.total_set hmove, QuotaMove.outstanding_done]
      omega
  | cacheCommand i =>
      obtain ⟨move, hmove, hstep⟩ := Option.bind_eq_some_iff.1 hstep
      obtain ⟨⟨move', cache'⟩, hcache, hstep⟩ := Option.bind_eq_some_iff.1 hstep
      obtain rfl := Option.some.inj hstep
      have hsame : move'.outstanding = move.outstanding := by
        rcases QuotaMove.cacheStep_cases hcache with
          ⟨-, -, rfl, -⟩ | ⟨-, -, rfl, -⟩ | ⟨-, rfl, -⟩ <;> simp
      have hfresh : move.cacheOp = .exec → s.cache = none → 0 ≤ s.cacheSlack := by
        simpa [NoStaleCopy, hmove] using hcurrent
      refine ⟨?_, withinSlack_cacheStep hmove hcache (by simp) (by simp) hfresh⟩
      simp only [promised, delta, Pool.total_set hmove]
      omega
  | expire =>
      obtain rfl : _ = s' := by simpa [step] using hstep
      exact ⟨(Int.add_zero _).symm, fun _ cached hcached => absurd hcached (by simp)⟩

end

end TokenState

/-- A token nobody is working on, with or without a cached copy. -/
def TokenState.start (row : Token) (cache : Option ℤ) : TokenState where
  row := row
  cache := cache
  updates := []
  moves := []

open TokenState

/-- Without a stale copy no debit is lost: once all requests and calls have ended, the
stored remaining quota is the initial one plus all deltas, and a cached one is not above
it. -/
theorem token_toggle_keeps_debits {F : Type} [Float64 F] {quotaPerUnit : F} {row : Token}
    {cache : Option ℤ} {s' : TokenState} {as : List TokenAction}
    (hcache : ∀ cached, cache = some cached → cached ≤ row.remainQuota)
    (hfresh : (tokenRow quotaPerUnit).Along NoStaleCopy (start row cache) as)
    (hrun : (tokenRow quotaPerUnit).run (start row cache) as = some s') (hended : s'.Ended) :
    s'.row.remainQuota =
        row.remainQuota + (tokenRow quotaPerUnit).tally delta (start row cache) as ∧
      ∀ cached, s'.cache = some cached → cached ≤ s'.row.remainQuota := by
  obtain ⟨-, hsettled⟩ := hended
  have hqueued : total QuotaMove.queued s'.moves = 0 :=
    Pool.total_eq_zero fun move hmove => QuotaMove.queued_of_settled (hsettled move hmove)
  have houtstanding : total QuotaMove.outstanding s'.moves = 0 :=
    Pool.total_eq_zero fun move hmove => QuotaMove.outstanding_of_settled (hsettled move hmove)
  constructor
  · have hpromised : s'.promised =
        (start row cache).promised +
          (tokenRow quotaPerUnit).tally delta (start row cache) as :=
      System.tally_run (I := fun _ => True) (f := promised) (fun _ _ h => h)
        (fun hstep hcurrent _ => (step_keeps hstep hcurrent).1) trivial hfresh hrun
    simpa [promised, start, houtstanding] using hpromised
  · have hstart : (start row cache).CacheSound := by
      intro cached hcached
      simpa [slack, start] using hcache cached hcached
    have hsound : s'.CacheSound :=
      System.invariant_run (I := CacheSound)
        (fun hstep hcurrent hsound => (step_keeps hstep hcurrent).2 hsound) hstart hfresh hrun
    intro cached hcached
    simpa [slack, hqueued, houtstanding] using hsound cached hcached

/-- An enabled token with quota 100 left. -/
def sampleToken : Token where
  status := TokenStatusEnabled
  expiredTime := -1
  remainQuota := 100
  unlimitedQuota := false
  usedQuota := 0

/-- The body of a request that disables the token. -/
def disableBody : TokenBody where
  name := ""
  status := TokenStatusDisabled
  expiredTime := -1
  remainQuota := 0
  unlimitedQuota := false

/-- A debit in which the cache is reached first, a toggle, and a refund begun during the
toggle and carried out after it. -/
def orderlyTokenRun : List TokenAction :=
  [.decreaseTokenQuota 30, .cacheCommand 0, .cacheCommand 0, .dbStatement 0,
    .updateToken disableBody 0, .advance 0 true, .advance 0 true, .increaseTokenQuota 5,
    .dbStatement 1, .cacheCommand 1, .cacheCommand 1]

theorem token_toggle_keeps_debits_orderly :
    ∃ s', (tokenRow (Decimal.ofInt 500000)).run (start sampleToken (some 100))
        orderlyTokenRun = some s' ∧
      s'.row.remainQuota = 75 ∧ ∀ cached, s'.cache = some cached → cached ≤ 75 := by
  have hfresh : (tokenRow (Decimal.ofInt 500000)).Along NoStaleCopy
      (start sampleToken (some 100)) orderlyTokenRun := by
    decide
  obtain ⟨hremain, hbound⟩ := token_toggle_keeps_debits
    (by simp [sampleToken]) hfresh rfl (by decide)
  exact ⟨_, rfl, hremain.trans (by decide), hbound⟩

/-- A toggle loads the token, a debit follows, and the toggle writes the old quota back. -/
def staleTokenRun : List TokenAction :=
  [.updateToken disableBody 0, .decreaseTokenQuota 30, .dbStatement 0, .cacheCommand 0,
    .cacheCommand 0, .advance 0 true, .advance 0 true]

/-- A toggle that overlaps a debit loses the debit. -/
theorem stale_toggle_loses_debit :
    ¬ ∀ (row : Token) (cache : Option ℤ) (as : List TokenAction) (s' : TokenState),
      (∀ cached, cache = some cached → cached ≤ row.remainQuota) →
      (tokenRow (Decimal.ofInt 500000)).run (start row cache) as = some s' → s'.Ended →
        s'.row.remainQuota =
          row.remainQuota +
            (tokenRow (Decimal.ofInt 500000)).tally delta (start row cache) as := by
  intro hclaim
  have hlost := hclaim sampleToken (some 100) staleTokenRun _ (by simp [sampleToken]) rfl
    (by decide)
  exact absurd hlost (by decide)

end NewApi.Model
