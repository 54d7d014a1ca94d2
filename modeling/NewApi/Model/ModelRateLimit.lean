import NewApi.Model.RateLimit
import NewApi.Model.TokenBucket

/-!
# The success limit of a user on both backends

`memoryRateLimitHandler` asks the limiter in memory under a check key, which counts every request
that it lets through, when it arrives.  `redisRateLimitHandler` looks at the list of the successful
requests, to which a request is added when it is over.  Both get the same requests of one user here,
on one clock, in milliseconds.
-/

namespace NewApi.Model

open NewApi.Lib

def totalKey (userId : String) : String :=
  "MRRL" ++ userId

def successKey (userId : String) : String :=
  "MRRLS" ++ userId

def checkKey (userId : String) : String :=
  successKey userId ++ "_check"

/-- The seconds of a clock in milliseconds. -/
def unix (now : ℤ) : ℤ :=
  now / 1000

/-- `Request` on the limiter with its history; `none` is a panic, which `Recovery` answers. -/
def RateLimitState.ask (s : RateLimitState) (key : String) (maxRequestNum duration now : ℤ) :
    RateLimitState × Option Bool :=
  match s.limiter.request key maxRequestNum duration now with
  | none => ({ s with clock := now }, none)
  | some (limiter, true) => (s.accept limiter ⟨key, maxRequestNum, duration, now⟩, some true)
  | some (_, false) => ({ s with clock := now }, some false)

/-- The limiter of the process, the requests of the user in `c.Next` with their success limit, and
those that the success limit has rejected. -/
structure MemoryHandler where
  limiter : RateLimitState
  running : ℕ → Option ℕ
  rejected : List ℕ

namespace MemoryHandler

/-- The second check of `memoryRateLimitHandler`. -/
def checkSuccess (duration : ℤ) (userId : String) (h : MemoryHandler) (id successMaxCount : ℕ)
    (now : ℤ) : MemoryHandler :=
  match h.limiter.ask (checkKey userId) successMaxCount duration (unix now) with
  | (limiter, some true) =>
      { h with limiter := limiter, running := Function.update h.running id (some successMaxCount) }
  | (limiter, some false) => { h with limiter := limiter, rejected := id :: h.rejected }
  | (limiter, none) => { h with limiter := limiter }

/-- `memoryRateLimitHandler` up to `c.Next`. -/
def arrive (duration : ℤ) (userId : String) (h : MemoryHandler)
    (id totalMaxCount successMaxCount : ℕ) (now : ℤ) : MemoryHandler :=
  if 0 < totalMaxCount then
    match h.limiter.ask (totalKey userId) totalMaxCount duration (unix now) with
    | (limiter, some true) =>
        { h with limiter := limiter }.checkSuccess duration userId id successMaxCount now
    | (limiter, _) => { h with limiter := limiter }
  else h.checkSuccess duration userId id successMaxCount now

/-- `memoryRateLimitHandler` after `c.Next`. -/
def complete (duration : ℤ) (userId : String) (h : MemoryHandler) (id status : ℕ) (now : ℤ) :
    MemoryHandler :=
  match h.running id with
  | none => h
  | some successMaxCount =>
      { h with
        running := Function.update h.running id none
        limiter :=
          if status < 400 then
            (h.limiter.ask (successKey userId) successMaxCount duration (unix now)).1
          else h.limiter }

end MemoryHandler

/-- The list under the success key, newest first, the time after which it is gone, and the bucket of
the user; `recorded` are all the times that were ever pushed. -/
structure RedisHandler where
  successTimes : List ℤ
  expireAt : ℤ
  bucket : Option TokenBucket
  running : ℕ → Option ℕ
  rejected : List ℕ
  recorded : List ℤ

/-- `int64(subTime) < duration` for two times in milliseconds. -/
def inRedisWindow (duration now time : ℤ) : Bool :=
  (now - time).tdiv 1000 < duration

namespace RedisHandler

/-- The list that Redis finds at a time. -/
def live (h : RedisHandler) (now : ℤ) : List ℤ :=
  if h.expireAt < now then [] else h.successTimes

/-- An index beyond the list gives a text that is no time, and `none`. -/
def checkRedisRateLimit (duration : ℤ) (h : RedisHandler) (maxCount : ℕ) (now : ℤ) :
    RedisHandler × Option Bool :=
  if maxCount = 0 then (h, some true)
  else if (h.live now).length < maxCount then (h, some true)
  else
    match (h.live now).getLast? with
    | none => (h, none)
    | some oldTime =>
        if inRedisWindow duration now oldTime then
          ({ h with expireAt := now + duration * 1000 }, some false)
        else (h, some true)

def recordRedisRequest (duration : ℤ) (h : RedisHandler) (maxCount : ℕ) (now : ℤ) : RedisHandler :=
  if maxCount = 0 then h
  else
    { h with
      successTimes := (now :: h.live now).take maxCount
      expireAt := now + duration * 1000
      recorded := now :: h.recorded }

/-- `redisRateLimitHandler` up to `c.Next`, which does nothing for a request that the total
limit has aborted. -/
def arrive (duration : ℤ) (h : RedisHandler) (id totalMaxCount successMaxCount : ℕ) (now : ℤ) :
    RedisHandler :=
  match h.checkRedisRateLimit duration successMaxCount now with
  | (h, none) => h
  | (h, some false) => { h with rejected := id :: h.rejected }
  | (h, some true) =>
      let running := Function.update h.running id (some successMaxCount)
      if 0 < totalMaxCount then
        let (bucket, allowed) :=
          rateLimitScript duration totalMaxCount (totalMaxCount * duration) (unix now) h.bucket
        { h with bucket := some bucket, running := if allowed then running else h.running }
      else { h with running := running }

/-- `redisRateLimitHandler` after `c.Next`. -/
def complete (duration : ℤ) (h : RedisHandler) (id status : ℕ) (now : ℤ) : RedisHandler :=
  match h.running id with
  | none => h
  | some successMaxCount =>
      let h := { h with running := Function.update h.running id none }
      if status < 400 then h.recordRedisRequest duration successMaxCount now else h

end RedisHandler

/-- The backends under the requests of one user, which have the numbers of their arrivals. -/
structure ModelRateLimitState where
  memory : MemoryHandler
  redis : RedisHandler
  arrivals : ℕ
  clock : ℤ

inductive ModelRateLimitAction where
  | arrive (totalMaxCount successMaxCount : ℕ) (now : ℤ)
  | complete (id status : ℕ) (now : ℤ)
  | clearExpiredItems (now : ℤ)

def ModelRateLimitAction.now : ModelRateLimitAction → ℤ
  | .arrive _ _ now => now
  | .complete _ _ now => now
  | .clearExpiredItems now => now

namespace ModelRateLimitState

def start (expirationDuration clock : ℤ) : ModelRateLimitState where
  memory := ⟨.start expirationDuration (unix clock), fun _ => none, []⟩
  redis := ⟨[], clock, none, fun _ => none, [], []⟩
  arrivals := 0
  clock := clock

def step (duration : ℤ) (userId : String) (s : ModelRateLimitState) :
    ModelRateLimitAction → Option ModelRateLimitState
  | .arrive totalMaxCount successMaxCount now =>
      if now < s.clock then none
      else
        some
          { memory := s.memory.arrive duration userId s.arrivals totalMaxCount successMaxCount now
            redis := s.redis.arrive duration s.arrivals totalMaxCount successMaxCount now
            arrivals := s.arrivals + 1
            clock := now }
  | .complete id status now =>
      if now < s.clock then none
      else
        some
          { s with
            memory := s.memory.complete duration userId id status now
            redis := s.redis.complete duration id status now
            clock := now }
  | .clearExpiredItems now =>
      if now < s.clock then none
      else
        (s.memory.limiter.step (.clearExpiredItems (unix now))).map fun limiter =>
          { s with memory := { s.memory with limiter := limiter }, clock := now }

end ModelRateLimitState

/-- Both backends under one sequence of requests. -/
def modelRateLimit (duration : ℤ) (userId : String) :
    System ModelRateLimitState ModelRateLimitAction where
  step := ModelRateLimitState.step duration userId

/-! ## What the backends tell of a request -/

/-- Memory has room for the request under the total limit, and none under the success limit. -/
def MemoryHandler.Blocks (duration : ℤ) (userId : String) (h : MemoryHandler)
    (totalMaxCount successMaxCount : ℕ) (now : ℤ) : Prop :=
  (0 < totalMaxCount →
      ¬ h.limiter.limiter.Blocks (totalKey userId) totalMaxCount duration (unix now)) ∧
    h.limiter.limiter.Blocks (checkKey userId) successMaxCount duration (unix now)

/-- There is a limit, the list is as long as it allows, and its oldest entry is in the window. -/
def RedisHandler.Blocks (duration : ℤ) (h : RedisHandler) (successMaxCount : ℕ) (now : ℤ) : Prop :=
  0 < successMaxCount ∧ successMaxCount ≤ (h.live now).length ∧
    ∃ oldest ∈ (h.live now).getLast?, inRedisWindow duration now oldest = true

namespace ModelRateLimitState

/-- Whether a request that arrives finds both stores to block it or neither. -/
def StoresAgree (duration : ℤ) (userId : String) (s : ModelRateLimitState) :
    ModelRateLimitAction → Prop
  | .arrive totalMaxCount successMaxCount now =>
      s.memory.Blocks duration userId totalMaxCount successMaxCount now ↔
        s.redis.Blocks duration successMaxCount now
  | _ => True

/-- All requests have these limits, and memory forgets no queue before its window is over. -/
def SameLimits (duration : ℤ) (totalMaxCount successMaxCount : ℕ) (s : ModelRateLimitState) :
    ModelRateLimitAction → Prop
  | .arrive otherTotal otherSuccess _ =>
      otherTotal = totalMaxCount ∧ otherSuccess = successMaxCount
  | .complete _ _ _ => True
  | .clearExpiredItems _ => duration ≤ s.memory.limiter.limiter.expirationDuration + 1

/-- What has to agree is how far back the limits count: that the total limit leaves room and
the last `successMaxCount` requests that memory has let through, at least one, have arrived
in the window; and that there is a limit and the last `successMaxCount` successes were over
in the window. -/
def CountsAgree (duration : ℤ) (userId : String) (s : ModelRateLimitState) :
    ModelRateLimitAction → Prop
  | .arrive totalMaxCount successMaxCount now =>
      ((0 < totalMaxCount → ∀ time ∈ (s.memory.limiter.times (totalKey userId))[totalMaxCount - 1]?,
          inWindow duration (unix now) time = false) ∧
        ∃ time ∈ (s.memory.limiter.times (checkKey userId))[max successMaxCount 1 - 1]?,
          inWindow duration (unix now) time = true) ↔
      0 < successMaxCount ∧
        ∃ time ∈ s.redis.recorded[successMaxCount - 1]?, inRedisWindow duration now time = true
  | _ => True

end ModelRateLimitState

section

variable {s s' : ModelRateLimitState} {a : ModelRateLimitAction} {userId key : String}
  {maxRequestNum duration now : ℤ} {id status totalMaxCount successMaxCount : ℕ}

/-! ## The handler in memory -/

theorem totalKey_ne_checkKey (userId : String) : totalKey userId ≠ checkKey userId := by
  intro hsame
  have hlength := congrArg String.length hsame
  rw [totalKey, checkKey, successKey] at hlength
  simp only [String.length_append] at hlength
  have hmark : "MRRLS".length = "MRRL".length + 1 := rfl
  omega

theorem successKey_ne_totalKey (userId : String) : successKey userId ≠ totalKey userId := by
  intro hsame
  have hlength := congrArg String.length hsame
  rw [totalKey, successKey, String.length_append, String.length_append] at hlength
  have hmark : "MRRLS".length = "MRRL".length + 1 := rfl
  omega

theorem successKey_ne_checkKey (userId : String) : successKey userId ≠ checkKey userId := by
  intro hsame
  have hlength := congrArg String.length hsame
  rw [checkKey, String.length_append] at hlength
  have hmark : "_check".length = 6 := rfl
  omega

namespace RateLimitState

variable {s : RateLimitState}

theorem ask_step (key : String) (maxRequestNum duration : ℤ) (hclock : s.clock ≤ now) :
    rateLimiter.step s (.request key maxRequestNum duration now) =
      some (s.ask key maxRequestNum duration now).1 := by
  show s.step (.request key maxRequestNum duration now) = _
  rw [step, if_neg (Int.not_lt.2 hclock), ask]
  cases hrequest : s.limiter.request key maxRequestNum duration now with
  | none => rfl
  | some result =>
      obtain ⟨limiter, allowed⟩ := result
      cases allowed with
      | true => rfl
      | false =>
          obtain rfl := (InMemoryRateLimiter.request_refused hrequest).1
          rfl

theorem ask_consistent (hs : s.Consistent) (key : String) (maxRequestNum duration : ℤ)
    (hclock : s.clock ≤ now) : (s.ask key maxRequestNum duration now).1.Consistent := by
  have hstep : s.step (.request key maxRequestNum duration now) =
      some (s.ask key maxRequestNum duration now).1 := ask_step key maxRequestNum duration hclock
  exact step_consistent hstep hs

theorem ask_clock (s : RateLimitState) (key : String) (maxRequestNum duration now : ℤ) :
    (s.ask key maxRequestNum duration now).1.clock = now := by
  rw [ask]
  split
  · rfl
  · rfl
  · rfl

/-- A limit that is not negative is answered as its queue tells. -/
theorem ask_answer (hs : s.Consistent) (key : String) (duration now : ℤ)
    (hpos : 0 ≤ maxRequestNum) :
    (s.limiter.Blocks key maxRequestNum duration now ∧
        ∃ limiter, s.ask key maxRequestNum duration now = (limiter, some false)) ∨
      (¬ s.limiter.Blocks key maxRequestNum duration now ∧
        ∃ limiter, s.ask key maxRequestNum duration now = (limiter, some true)) := by
  have hrefused := s.limiter.request_refused_iff key maxRequestNum duration now
  rw [ask]
  cases hrequest : s.limiter.request key maxRequestNum duration now with
  | none =>
      have hneg := (InMemoryRateLimiter.request_panics (hs.nonempty key) hrequest).2
      omega
  | some result =>
      obtain ⟨limiter, allowed⟩ := result
      rw [hrequest] at hrefused
      cases allowed with
      | true =>
          refine .inr ⟨fun hblocks => ?_, _, rfl⟩
          obtain ⟨l', hfalse⟩ := hrefused.2 hblocks
          cases hfalse
      | false => exact .inl ⟨hrefused.1 ⟨limiter, rfl⟩, _, rfl⟩

/-- To ask under one key changes no other queue. -/
theorem ask_blocks_of_ne {other : String} (hne : other ≠ key)
    (s : RateLimitState) (maxRequestNum duration now otherMax otherDuration later : ℤ) :
    (s.ask key maxRequestNum duration now).1.limiter.Blocks other otherMax otherDuration later ↔
      s.limiter.Blocks other otherMax otherDuration later := by
  have hqueue : (s.ask key maxRequestNum duration now).1.limiter.queue other =
      s.limiter.queue other := by
    rw [ask]
    cases hrequest : s.limiter.request key maxRequestNum duration now with
    | none => rfl
    | some result =>
        obtain ⟨limiter, allowed⟩ := result
        cases allowed with
        | false => rfl
        | true =>
            obtain ⟨dropped, kept, haccepts⟩ := InMemoryRateLimiter.request_accepted hrequest
            show limiter.queue other = _
            rw [haccepts.limiter, InMemoryRateLimiter.queue_put, if_neg hne]
  rw [InMemoryRateLimiter.Blocks, InMemoryRateLimiter.Blocks, hqueue]

end RateLimitState

namespace MemoryHandler

variable {h : MemoryHandler}

theorem checkSuccess_limiter (duration : ℤ) (userId : String) (h : MemoryHandler)
    (id successMaxCount : ℕ) (now : ℤ) :
    (h.checkSuccess duration userId id successMaxCount now).limiter =
      (h.limiter.ask (checkKey userId) successMaxCount duration (unix now)).1 := by
  rw [checkSuccess]
  split
  case h_1 limiter hask => rw [hask]
  case h_2 limiter hask => rw [hask]
  case h_3 limiter hask => rw [hask]

theorem checkSuccess_rejected (duration : ℤ) (userId : String) (hs : h.limiter.Consistent)
    (id successMaxCount : ℕ) (now : ℤ) :
    (h.limiter.limiter.Blocks (checkKey userId) successMaxCount duration (unix now) ∧
        (h.checkSuccess duration userId id successMaxCount now).rejected = id :: h.rejected) ∨
      (¬ h.limiter.limiter.Blocks (checkKey userId) successMaxCount duration (unix now) ∧
        (h.checkSuccess duration userId id successMaxCount now).rejected = h.rejected) := by
  obtain ⟨hblocks, limiter, hask⟩ | ⟨hroom, limiter, hask⟩ :=
    RateLimitState.ask_answer hs (checkKey userId) duration (unix now)
      (Int.natCast_nonneg successMaxCount)
  · refine .inl ⟨hblocks, ?_⟩
    rw [checkSuccess, hask]
  · refine .inr ⟨hroom, ?_⟩
    rw [checkSuccess, hask]

/-- Memory rejects for the success limit what has room under the total limit. -/
theorem arrive_rejected (duration : ℤ) (userId : String) (hs : h.limiter.Consistent)
    (hclock : h.limiter.clock ≤ unix now) (id totalMaxCount successMaxCount : ℕ) :
    (h.Blocks duration userId totalMaxCount successMaxCount now ∧
        (h.arrive duration userId id totalMaxCount successMaxCount now).rejected =
          id :: h.rejected) ∨
      (¬ h.Blocks duration userId totalMaxCount successMaxCount now ∧
        (h.arrive duration userId id totalMaxCount successMaxCount now).rejected = h.rejected) := by
  rw [arrive, MemoryHandler.Blocks]
  by_cases hlimited : 0 < totalMaxCount
  · rw [if_pos hlimited]
    obtain ⟨hblocks, limiter, hask⟩ | ⟨hroom, limiter, hask⟩ :=
      RateLimitState.ask_answer hs (totalKey userId) duration (unix now)
        (Int.natCast_nonneg totalMaxCount)
    · rw [hask]
      exact .inr ⟨fun hboth => hboth.1 hlimited hblocks, rfl⟩
    -- the call under the total key leaves the queue of the check key
    · have hs' := RateLimitState.ask_consistent hs (totalKey userId) totalMaxCount duration hclock
      have hother := RateLimitState.ask_blocks_of_ne (totalKey_ne_checkKey userId).symm h.limiter
        totalMaxCount duration (unix now) successMaxCount duration (unix now)
      rw [hask] at hs' hother ⊢
      obtain ⟨hblocks, hrejected⟩ | ⟨hfree, hrejected⟩ := checkSuccess_rejected
        (h := { h with limiter := limiter }) duration userId hs' id successMaxCount now
      · exact .inl ⟨⟨fun _ => hroom, hother.1 hblocks⟩, hrejected⟩
      · exact .inr ⟨fun hboth => hfree (hother.2 hboth.2), hrejected⟩
  · rw [if_neg hlimited]
    obtain ⟨hblocks, hrejected⟩ | ⟨hfree, hrejected⟩ :=
      checkSuccess_rejected duration userId hs id successMaxCount now
    · exact .inl ⟨⟨fun hpos => absurd hpos hlimited, hblocks⟩, hrejected⟩
    · exact .inr ⟨fun hboth => hfree hboth.2, hrejected⟩

/-- The limiter takes the calls of a request that arrives. -/
theorem arrive_calls (duration : ℤ) (userId : String) (hclock : h.limiter.clock ≤ unix now)
    (id totalMaxCount successMaxCount : ℕ) :
    ∃ calls, rateLimiter.run h.limiter calls =
        some (h.arrive duration userId id totalMaxCount successMaxCount now).limiter ∧
      ∀ call ∈ calls,
        call = .request (totalKey userId) totalMaxCount duration (unix now) ∨
          call = .request (checkKey userId) successMaxCount duration (unix now) := by
  rw [arrive]
  by_cases hlimited : 0 < totalMaxCount
  · rw [if_pos hlimited]
    have htotal := RateLimitState.ask_step (totalKey userId) totalMaxCount duration hclock
    have hclock' :=
      RateLimitState.ask_clock h.limiter (totalKey userId) totalMaxCount duration (unix now)
    split
    case h_1 limiter hask =>
      rw [hask] at htotal hclock'
      rw [checkSuccess_limiter]
      refine ⟨[.request (totalKey userId) totalMaxCount duration (unix now),
        .request (checkKey userId) successMaxCount duration (unix now)], ?_,
        List.forall_mem_cons.2 ⟨.inl rfl, List.forall_mem_singleton.2 (.inr rfl)⟩⟩
      have hsuccess := RateLimitState.ask_step (checkKey userId) successMaxCount duration
        (Int.le_of_eq hclock')
      rw [System.run, htotal]
      dsimp only
      rw [System.run, hsuccess]
      rfl
    case h_2 limiter _ _ hask =>
      rw [hask] at htotal
      refine ⟨[.request (totalKey userId) totalMaxCount duration (unix now)], ?_,
        List.forall_mem_singleton.2 (.inl rfl)⟩
      rw [System.run, htotal]
      rfl
  · rw [if_neg hlimited, checkSuccess_limiter]
    refine ⟨[.request (checkKey userId) successMaxCount duration (unix now)], ?_,
      List.forall_mem_singleton.2 (.inr rfl)⟩
    rw [System.run, RateLimitState.ask_step (checkKey userId) successMaxCount duration hclock]
    rfl

/-- The limiter takes at most the call under the success key when a request is over. -/
theorem complete_calls (duration : ℤ) (userId : String) (hclock : h.limiter.clock ≤ unix now)
    (id status : ℕ) :
    ∃ calls, rateLimiter.run h.limiter calls =
        some (h.complete duration userId id status now).limiter ∧
      ∀ call ∈ calls, ∃ successMaxCount : ℕ,
        call = .request (successKey userId) successMaxCount duration (unix now) := by
  rw [complete]
  cases h.running id with
  | none => exact ⟨[], rfl, nofun⟩
  | some successMaxCount =>
      dsimp only
      by_cases hsuccess : status < 400
      · rw [if_pos hsuccess]
        refine ⟨[.request (successKey userId) successMaxCount duration (unix now)], ?_,
          List.forall_mem_singleton.2 ⟨successMaxCount, rfl⟩⟩
        rw [System.run, RateLimitState.ask_step (successKey userId) successMaxCount duration hclock]
        rfl
      · rw [if_neg hsuccess]
        exact ⟨[], rfl, nofun⟩

end MemoryHandler

/-! ## The handler on Redis -/

theorem inRedisWindow_iff {time : ℤ} (hpast : time ≤ now) :
    inRedisWindow duration now time = true ↔ now - time < duration * 1000 := by
  rw [inRedisWindow, decide_eq_true_iff, Int.tdiv_eq_ediv_of_nonneg (by omega)]
  omega

namespace RedisHandler

variable {h : RedisHandler}

theorem checkRedisRateLimit_answer (duration : ℤ) (h : RedisHandler) (successMaxCount : ℕ)
    (now : ℤ) :
    (h.Blocks duration successMaxCount now ∧
        h.checkRedisRateLimit duration successMaxCount now =
          ({ h with expireAt := now + duration * 1000 }, some false)) ∨
      (¬ h.Blocks duration successMaxCount now ∧
        h.checkRedisRateLimit duration successMaxCount now = (h, some true)) := by
  rw [checkRedisRateLimit, RedisHandler.Blocks]
  by_cases hzero : successMaxCount = 0
  · rw [if_pos hzero]
    exact .inr ⟨fun hblocks => by omega, rfl⟩
  · rw [if_neg hzero]
    by_cases hroom : (h.live now).length < successMaxCount
    · rw [if_pos hroom]
      exact .inr ⟨fun hblocks => by omega, rfl⟩
    · rw [if_neg hroom]
      cases hlast : (h.live now).getLast? with
      | none =>
          rw [List.getLast?_eq_none_iff.1 hlast, List.length_nil] at hroom
          omega
      | some oldTime =>
          dsimp only
          cases hin : inRedisWindow duration now oldTime with
          | true => exact .inl ⟨⟨by omega, by omega, oldTime, rfl, hin⟩, rfl⟩
          | false =>
              refine .inr ⟨fun hblocks => ?_, rfl⟩
              obtain ⟨-, -, oldest, holdest, hin'⟩ := hblocks
              rw [Option.some.inj holdest] at hin
              rw [hin] at hin'
              cases hin'

/-- A request that arrives may be rejected, and its answer pays from the bucket; the
success list stays. -/
structure Arrives (duration : ℤ) (h h' : RedisHandler) (id successMaxCount : ℕ)
    (now : ℤ) : Prop where
  rejects : (h.Blocks duration successMaxCount now ∧ h'.rejected = id :: h.rejected ∧
      h.live now ≠ [] ∧ h'.expireAt = now + duration * 1000) ∨
    (¬ h.Blocks duration successMaxCount now ∧ h'.rejected = h.rejected ∧ h'.expireAt = h.expireAt)
  successTimes : h'.successTimes = h.successTimes
  recorded : h'.recorded = h.recorded
  running : h'.running = h.running ∨
    h'.running = Function.update h.running id (some successMaxCount)

theorem arrive_arrives (duration : ℤ) (h : RedisHandler) (id totalMaxCount successMaxCount : ℕ)
    (now : ℤ) :
    Arrives duration h (h.arrive duration id totalMaxCount successMaxCount now) id successMaxCount
      now := by
  rw [arrive]
  obtain ⟨hblocks, hcheck⟩ | ⟨hroom, hcheck⟩ :=
    h.checkRedisRateLimit_answer duration successMaxCount now
  · rw [hcheck]
    refine ⟨.inl ⟨hblocks, rfl, ?_, rfl⟩, rfl, rfl, .inl rfl⟩
    obtain ⟨hpos, hfull, -⟩ := hblocks
    exact List.ne_nil_of_length_pos (by omega)
  · rw [hcheck]
    dsimp only
    split
    case isFalse hunlimited => exact ⟨.inr ⟨hroom, rfl, rfl⟩, rfl, rfl, .inr rfl⟩
    case isTrue hlimited =>
      refine ⟨.inr ⟨hroom, rfl, rfl⟩, rfl, rfl, ?_⟩
      dsimp only
      split
      · exact .inr rfl
      · exact .inl rfl

/-- With one success limit, the list holds the last successes, as many as the limit says; what it
does not hold any more is older, or has left the window. -/
structure Steady (duration : ℤ) (successMaxCount : ℕ) (h : RedisHandler) (clock : ℤ) : Prop where
  running : ∀ id maxCount, h.running id = some maxCount → maxCount = successMaxCount
  past : ∀ time ∈ h.recorded, time ≤ clock
  lasting : ∀ time ∈ h.recorded, time + duration * 1000 ≤ h.expireAt
  short : h.successTimes.length ≤ successMaxCount
  held : ∃ rest, h.recorded = h.successTimes ++ rest ∧
    (h.successTimes.length < successMaxCount →
      ∀ time ∈ rest, time + duration * 1000 ≤ clock)

variable {clock : ℤ}

theorem Steady.tick (hs : h.Steady duration successMaxCount clock) (hclock : clock ≤ now) :
    h.Steady duration successMaxCount now := by
  obtain ⟨rest, hrecorded, hleft⟩ := hs.held
  refine ⟨hs.running, fun time htime => Int.le_trans (hs.past time htime) hclock, hs.lasting,
    hs.short, rest, hrecorded, fun hroom time htime => ?_⟩
  exact Int.le_trans (hleft hroom time htime) hclock

theorem Steady.arrive (hs : h.Steady duration successMaxCount clock) (hclock : clock ≤ now)
    {h' : RedisHandler} (harrives : Arrives duration h h' id successMaxCount now) :
    h'.Steady duration successMaxCount now := by
  obtain ⟨rest, hrecorded, hleft⟩ := hs.held
  refine ⟨fun other maxCount hrunning => ?_, fun time htime => ?_, fun time htime => ?_, ?_, rest, ?_,
    fun hroom time htime => ?_⟩
  · rcases harrives.running with hsame | hnew
    · rw [hsame] at hrunning
      exact hs.running other maxCount hrunning
    · rw [hnew] at hrunning
      by_cases hid : other = id
      · rw [hid, Function.update_self] at hrunning
        exact (Option.some.inj hrunning).symm
      · rw [Function.update_of_ne hid] at hrunning
        exact hs.running other maxCount hrunning
  · rw [harrives.recorded] at htime
    exact Int.le_trans (hs.past time htime) hclock
  · rw [harrives.recorded] at htime
    have hpast := hs.past time htime
    have hlasting := hs.lasting time htime
    rcases harrives.rejects with ⟨-, -, -, hexpire⟩ | ⟨-, -, hexpire⟩
    · omega
    · omega
  · rw [harrives.successTimes]
    exact hs.short
  · rw [harrives.recorded, harrives.successTimes]
    exact hrecorded
  · rw [harrives.successTimes] at hroom
    exact Int.le_trans (hleft hroom time htime) hclock

theorem Steady.record (hs : h.Steady duration successMaxCount clock) (hclock : clock ≤ now) :
    (h.recordRedisRequest duration successMaxCount now).Steady duration successMaxCount now := by
  rw [recordRedisRequest]
  split
  case isTrue hzero => exact hs.tick hclock
  case isFalse hpos =>
    obtain ⟨rest, hrecorded, hleft⟩ := hs.held
    have hpast : ∀ time ∈ now :: h.recorded, time ≤ now :=
      List.forall_mem_cons.2 ⟨Int.le_refl now, fun time htime =>
        Int.le_trans (hs.past time htime) hclock⟩
    refine ⟨hs.running, hpast, fun time htime => ?_, ?_, ?_⟩
    · have hle := hpast time htime
      show time + duration * 1000 ≤ now + duration * 1000
      omega
    · show ((now :: h.live now).take successMaxCount).length ≤ successMaxCount
      rw [List.length_take]
      exact Nat.min_le_left _ _
    · show ∃ rest, now :: h.recorded = (now :: h.live now).take successMaxCount ++ rest ∧
        (((now :: h.live now).take successMaxCount).length < successMaxCount →
          ∀ time ∈ rest, time + duration * 1000 ≤ now)
      rw [live]
      by_cases hexpired : h.expireAt < now
      · -- the list is gone, with all its entries out of the window
        rw [if_pos hexpired, List.take_of_length_le (by rw [List.length_singleton]; omega)]
        refine ⟨h.recorded, rfl, fun _ time htime => ?_⟩
        have hlasting := hs.lasting time htime
        omega
      · rw [if_neg hexpired]
        by_cases hroom : h.successTimes.length < successMaxCount
        -- with room nothing is trimmed, otherwise the list is as long as the limit
        · rw [List.take_of_length_le (by rw [List.length_cons]; omega)]
          refine ⟨rest, by rw [hrecorded, List.cons_append], fun _ time htime => ?_⟩
          exact Int.le_trans (hleft hroom time htime) hclock
        · refine ⟨(now :: h.successTimes).drop successMaxCount ++ rest, ?_, fun hshort => ?_⟩
          · rw [← List.append_assoc, List.take_append_drop, hrecorded, List.cons_append]
          · rw [List.length_take, List.length_cons] at hshort
            omega

theorem Steady.complete (hs : h.Steady duration successMaxCount clock) (hclock : clock ≤ now) :
    (h.complete duration id status now).Steady duration successMaxCount now := by
  rw [RedisHandler.complete]
  cases hrunning : h.running id with
  | none => exact hs.tick hclock
  | some maxCount =>
      obtain rfl := hs.running id maxCount hrunning
      have hover : Steady duration maxCount { h with running := Function.update h.running id none }
          clock := by
        refine ⟨fun other count hother => ?_, hs.past, hs.lasting, hs.short, hs.held⟩
        dsimp only at hother
        by_cases hid : other = id
        · rw [hid, Function.update_self] at hother
          cases hother
        · rw [Function.update_of_ne hid] at hother
          exact hs.running other count hother
      dsimp only
      split
      · exact hover.record hclock
      · exact hover.tick hclock

/-- A steady list blocks exactly while the success that the limit counts back to is
in the window. -/
theorem Steady.blocks_iff (hs : h.Steady duration successMaxCount clock) (hclock : clock ≤ now) :
    h.Blocks duration successMaxCount now ↔
      0 < successMaxCount ∧
        ∃ time ∈ h.recorded[successMaxCount - 1]?, inRedisWindow duration now time = true := by
  obtain ⟨rest, hrecorded, hleft⟩ := hs.held
  have hshort := hs.short
  rw [RedisHandler.Blocks, live]
  refine and_congr_right fun hpos => ?_
  have hin_iff : ∀ time ∈ h.recorded, inRedisWindow duration now time = true ↔
      now - time < duration * 1000 := fun time htime =>
    inRedisWindow_iff (Int.le_trans (hs.past time htime) hclock)
  by_cases hexpired : h.expireAt < now
  · rw [if_pos hexpired]
    refine iff_of_false (fun hblocks => ?_) ?_
    · rw [List.length_nil] at hblocks
      omega
    · rintro ⟨time, htime, hin⟩
      have hmem := List.mem_of_getElem? htime
      have hlasting := hs.lasting time hmem
      rw [hin_iff time hmem] at hin
      omega
  · rw [if_neg hexpired]
    by_cases hroom : h.successTimes.length < successMaxCount
    · -- the success that the limit counts back to is not in the list any more
      refine iff_of_false (fun hblocks => by omega) ?_
      rintro ⟨time, htime, hin⟩
      rw [hin_iff time (List.mem_of_getElem? htime)] at hin
      rw [hrecorded, List.getElem?_append_right (by omega)] at htime
      have hgone := hleft hroom time (List.mem_of_getElem? htime)
      omega
    · have hplace : h.recorded[successMaxCount - 1]? = h.successTimes.getLast? := by
        rw [hrecorded, List.getElem?_append_left (by omega), List.getLast?_eq_getElem?]
        congr 1
        omega
      rw [hplace]
      exact and_iff_right (Nat.le_of_not_lt hroom)

end RedisHandler

/-! ## Both backends -/

section

variable {n : ℕ} {xs ys xs' ys' : List ℕ} {p q : Prop}

/-- Of the numbers up to the newest, the newest may join. -/
theorem lt_of_rejected (hxs : ∀ id ∈ xs, id < n) (hx : p ∧ xs' = n :: xs ∨ ¬ p ∧ xs' = xs) :
    ∀ id ∈ xs', id < n + 1 := by
  intro id hid
  obtain ⟨-, rfl⟩ | ⟨-, rfl⟩ := hx
  · rcases List.mem_cons.1 hid with rfl | hold
    · omega
    · have hlt := hxs id hold
      omega
  · have hlt := hxs id hid
    omega

theorem mem_rejected_iff (hx : p ∧ xs' = n :: xs ∨ ¬ p ∧ xs' = xs) (id : ℕ) :
    id ∈ xs' ↔ id = n ∧ p ∨ id ∈ xs := by
  obtain ⟨hp, rfl⟩ | ⟨hp, rfl⟩ := hx
  · rw [List.mem_cons, and_iff_left hp]
  · exact ⟨.inr, fun hid => hid.resolve_left fun hnew => hp hnew.2⟩

theorem rejected_iff (hxs : ∀ id ∈ xs, id < n) (hys : ∀ id ∈ ys, id < n)
    (hx : p ∧ xs' = n :: xs ∨ ¬ p ∧ xs' = xs) (hy : q ∧ ys' = n :: ys ∨ ¬ q ∧ ys' = ys) :
    (∀ id, id ∈ xs' ↔ id ∈ ys') ↔ (∀ id, id ∈ xs ↔ id ∈ ys) ∧ (p ↔ q) := by
  have hfresh : n ∉ xs ∧ n ∉ ys := ⟨fun hid => by have := hxs n hid; omega,
    fun hid => by have := hys n hid; omega⟩
  constructor
  · intro hsame
    refine ⟨fun id => ?_, ?_⟩
    · by_cases hid : id = n
      · rw [hid]
        exact iff_of_false hfresh.1 hfresh.2
      · have hiff := hsame id
        rw [mem_rejected_iff hx, mem_rejected_iff hy] at hiff
        simpa [hid] using hiff
    · have hiff := hsame n
      rw [mem_rejected_iff hx, mem_rejected_iff hy] at hiff
      simpa [hfresh.1, hfresh.2] using hiff
  · rintro ⟨hsame, hiff⟩ id
    rw [mem_rejected_iff hx, mem_rejected_iff hy, hiff, hsame id]

end

namespace ModelRateLimitState

/-- The limiter fits its history, both backends know only requests that have arrived. -/
structure Consistent (s : ModelRateLimitState) : Prop where
  limiter : s.memory.limiter.Consistent
  clock : s.memory.limiter.clock ≤ unix s.clock
  memory : ∀ id ∈ s.memory.rejected, id < s.arrivals
  redis : ∀ id ∈ s.redis.rejected, id < s.arrivals

/-- The calls that the limiter takes in a step. -/
def MemoryCall (duration : ℤ) (userId : String) : ModelRateLimitAction → RateLimitAction → Prop
  | .arrive totalMaxCount successMaxCount now, call =>
      call = .request (totalKey userId) totalMaxCount duration (unix now) ∨
        call = .request (checkKey userId) successMaxCount duration (unix now)
  | .complete _ _ now, call => ∃ successMaxCount : ℕ,
      call = .request (successKey userId) successMaxCount duration (unix now)
  | .clearExpiredItems now, call => call = .clearExpiredItems (unix now)

theorem step_cases (hstep : (modelRateLimit duration userId).step s a = some s') :
    s.clock ≤ a.now ∧
      ((∃ totalMaxCount successMaxCount now, a = .arrive totalMaxCount successMaxCount now ∧
          s' =
            { memory := s.memory.arrive duration userId s.arrivals totalMaxCount successMaxCount now
              redis := s.redis.arrive duration s.arrivals totalMaxCount successMaxCount now
              arrivals := s.arrivals + 1
              clock := now }) ∨
        (∃ id status now, a = .complete id status now ∧
          s' =
            { s with
              memory := s.memory.complete duration userId id status now
              redis := s.redis.complete duration id status now
              clock := now }) ∨
        ∃ now limiter, a = .clearExpiredItems now ∧
          s.memory.limiter.step (.clearExpiredItems (unix now)) = some limiter ∧
          s' = { s with memory := { s.memory with limiter := limiter }, clock := now }) := by
  have hstep : s.step duration userId a = some s' := hstep
  cases a with
  | arrive totalMaxCount successMaxCount now =>
      rw [step] at hstep
      split at hstep
      case isTrue hback => cases hstep
      case isFalse hclock =>
        exact ⟨Int.not_lt.1 hclock, .inl ⟨_, _, _, rfl, (Option.some.inj hstep).symm⟩⟩
  | complete id status now =>
      rw [step] at hstep
      split at hstep
      case isTrue hback => cases hstep
      case isFalse hclock =>
        exact ⟨Int.not_lt.1 hclock, .inr (.inl ⟨_, _, _, rfl, (Option.some.inj hstep).symm⟩)⟩
  | clearExpiredItems now =>
      rw [step] at hstep
      split at hstep
      case isTrue hback => cases hstep
      case isFalse hclock =>
        obtain ⟨limiter, hsweep, rfl⟩ := Option.map_eq_some_iff.1 hstep
        exact ⟨Int.not_lt.1 hclock, .inr (.inr ⟨_, _, rfl, hsweep, rfl⟩)⟩

theorem step_clock (hstep : (modelRateLimit duration userId).step s a = some s') :
    s'.clock = a.now := by
  obtain ⟨-, ⟨_, _, _, rfl, rfl⟩ | ⟨_, _, _, rfl, rfl⟩ | ⟨_, _, rfl, -, rfl⟩⟩ := step_cases hstep
  · rfl
  · rfl
  · rfl

theorem unix_le {earlier later : ℤ} (hle : earlier ≤ later) : unix earlier ≤ unix later := by
  rw [unix, unix]
  omega

/-- What a step does to the limiter in memory, its calls do. -/
theorem step_calls (hstep : (modelRateLimit duration userId).step s a = some s')
    (hs : s.Consistent) :
    ∃ calls, rateLimiter.run s.memory.limiter calls = some s'.memory.limiter ∧
      ∀ call ∈ calls, MemoryCall duration userId a call := by
  obtain ⟨hclock, hcase⟩ := step_cases hstep
  have hnow := Int.le_trans hs.clock (unix_le hclock)
  obtain ⟨totalMaxCount, successMaxCount, now, rfl, rfl⟩ | ⟨id, status, now, rfl, rfl⟩ |
    ⟨now, limiter, rfl, hsweep, rfl⟩ := hcase
  · exact s.memory.arrive_calls duration userId hnow s.arrivals totalMaxCount successMaxCount
  · exact s.memory.complete_calls duration userId hnow id status
  · refine ⟨[.clearExpiredItems (unix now)], ?_, List.forall_mem_singleton.2 rfl⟩
    have hstep : rateLimiter.step s.memory.limiter (.clearExpiredItems (unix now)) =
        some limiter := hsweep
    rw [System.run, hstep]
    rfl

theorem memoryCall_now {call : RateLimitAction} (hcall : MemoryCall duration userId a call) :
    call.now = unix a.now := by
  cases a with
  | arrive totalMaxCount successMaxCount now =>
      rcases hcall with rfl | rfl
      · rfl
      · rfl
  | complete id status now =>
      obtain ⟨maxCount, rfl⟩ := hcall
      rfl
  | clearExpiredItems now =>
      obtain rfl := hcall
      rfl

/-- What a step does to the rejected requests. -/
theorem step_rejected (hstep : (modelRateLimit duration userId).step s a = some s')
    (hs : s.Consistent) :
    s'.memory.rejected = s.memory.rejected ∧ s'.redis.rejected = s.redis.rejected ∧
        s'.arrivals = s.arrivals ∧ s.StoresAgree duration userId a ∨
      ∃ totalMaxCount successMaxCount now, a = .arrive totalMaxCount successMaxCount now ∧
        s'.arrivals = s.arrivals + 1 ∧
        ((s.memory.Blocks duration userId totalMaxCount successMaxCount now ∧
            s'.memory.rejected = s.arrivals :: s.memory.rejected) ∨
          (¬ s.memory.Blocks duration userId totalMaxCount successMaxCount now ∧
            s'.memory.rejected = s.memory.rejected)) ∧
        ((s.redis.Blocks duration successMaxCount now ∧
            s'.redis.rejected = s.arrivals :: s.redis.rejected) ∨
          (¬ s.redis.Blocks duration successMaxCount now ∧
            s'.redis.rejected = s.redis.rejected)) := by
  obtain ⟨hclock, hcase⟩ := step_cases hstep
  have hnow := Int.le_trans hs.clock (unix_le hclock)
  obtain ⟨totalMaxCount, successMaxCount, now, rfl, rfl⟩ | ⟨id, status, now, rfl, rfl⟩ |
    ⟨now, limiter, rfl, hsweep, rfl⟩ := hcase
  · refine .inr ⟨totalMaxCount, successMaxCount, now, rfl, rfl,
      s.memory.arrive_rejected duration userId hs.limiter hnow s.arrivals totalMaxCount
        successMaxCount, ?_⟩
    rcases (s.redis.arrive_arrives duration s.arrivals totalMaxCount successMaxCount now).rejects with
      ⟨hblocks, hrejected, -⟩ | ⟨hroom, hrejected, -⟩
    · exact .inl ⟨hblocks, hrejected⟩
    · exact .inr ⟨hroom, hrejected⟩
  · refine .inl ⟨?_, ?_, rfl, trivial⟩
    · show (s.memory.complete duration userId id status now).rejected = _
      rw [MemoryHandler.complete]
      split
      · rfl
      · rfl
    · show (s.redis.complete duration id status now).rejected = _
      rw [RedisHandler.complete]
      split
      · rfl
      · dsimp only
        split
        · rw [RedisHandler.recordRedisRequest]
          split
          · rfl
          · rfl
        · rfl
  · exact .inl ⟨rfl, rfl, rfl, trivial⟩

theorem start_consistent (expirationDuration clock : ℤ) :
    (start expirationDuration clock).Consistent where
  limiter := RateLimitState.start_consistent _ _
  clock := Int.le_refl _
  memory _ hid := by cases hid
  redis _ hid := by cases hid

theorem step_consistent (hstep : (modelRateLimit duration userId).step s a = some s')
    (hs : s.Consistent) : s'.Consistent := by
  obtain ⟨calls, hrun, hcalls⟩ := step_calls hstep hs
  have hclock := step_clock hstep
  have hle := (step_cases hstep).1
  refine ⟨?_, ?_, ?_, ?_⟩
  · exact System.kept_run (I := RateLimitState.Consistent) RateLimitState.step_consistent hs.limiter
      hrun
  · rw [hclock]
    refine System.invariant_run (C := fun _ call => call.now = unix a.now)
      (I := fun t => t.clock ≤ unix a.now) (fun hstep hnow _ => ?_)
      (Int.le_trans hs.clock (unix_le hle))
      (System.along_of_forall_mem (fun call hcall => memoryCall_now (hcalls call hcall)) _) hrun
    rw [RateLimitState.step_clock hstep]
    exact Int.le_of_eq hnow
  · intro id hid
    obtain ⟨hmemory, -, harrivals, -⟩ | ⟨_, _, _, -, harrivals, hmemory, -⟩ :=
      step_rejected hstep hs
    · rw [hmemory] at hid
      rw [harrivals]
      exact hs.memory id hid
    · rw [harrivals]
      exact lt_of_rejected hs.memory hmemory id hid
  · intro id hid
    obtain ⟨-, hredis, harrivals, -⟩ | ⟨_, _, _, -, harrivals, -, hredis⟩ := step_rejected hstep hs
    · rw [hredis] at hid
      rw [harrivals]
      exact hs.redis id hid
    · rw [harrivals]
      exact lt_of_rejected hs.redis hredis id hid

/-- The backends go on to reject the same requests exactly when both stores block a
request or neither. -/
theorem step_agree (hstep : (modelRateLimit duration userId).step s a = some s')
    (hs : s.Consistent) :
    (∀ id, id ∈ s'.memory.rejected ↔ id ∈ s'.redis.rejected) ↔
      (∀ id, id ∈ s.memory.rejected ↔ id ∈ s.redis.rejected) ∧ s.StoresAgree duration userId a := by
  obtain ⟨hmemory, hredis, -, hagree⟩ | ⟨_, _, _, rfl, -, hmemory, hredis⟩ := step_rejected hstep hs
  · rw [hmemory, hredis]
    exact (and_iff_left hagree).symm
  · exact rejected_iff hs.memory hs.redis hmemory hredis

/-! ## Limits that do not change -/

/-- All three stores of the limits are steady. -/
structure Steady (duration : ℤ) (userId : String) (totalMaxCount successMaxCount : ℕ)
    (s : ModelRateLimitState) : Prop where
  total : s.memory.limiter.Steady (totalKey userId) totalMaxCount duration
  check : s.memory.limiter.Steady (checkKey userId) successMaxCount duration
  redis : s.redis.Steady duration successMaxCount s.clock

theorem start_steady (expirationDuration clock : ℤ) :
    (start expirationDuration clock).Steady duration userId totalMaxCount successMaxCount where
  total := RateLimitState.start_steady _ _
  check := RateLimitState.start_steady _ _
  redis := ⟨nofun, nofun, nofun, Nat.zero_le _, [], rfl, nofun⟩

/-- The calls of requests with the same limits keep the limit of a key of the user. -/
theorem limiter_steady {limiter limiter' : RateLimitState} {calls : List RateLimitAction}
    (hconsistent : limiter.Consistent) (hrun : rateLimiter.run limiter calls = some limiter')
    (hkeeps : ∀ call ∈ calls, ∀ t, RateLimitState.KeepsLimit key maxRequestNum duration t call)
    (hsteady : limiter.Steady key maxRequestNum duration) :
    limiter'.Steady key maxRequestNum duration :=
  (System.invariant_run
    (C := fun _ call => ∀ t, RateLimitState.KeepsLimit key maxRequestNum duration t call)
    (I := fun t => t.Consistent ∧ t.Steady key maxRequestNum duration)
    (fun {t _ _} hstep hkeeps ht => ⟨RateLimitState.step_consistent hstep ht.1,
      RateLimitState.step_steady hstep ht.1 (hkeeps t) ht.2⟩)
    ⟨hconsistent, hsteady⟩ (System.along_of_forall_mem hkeeps _) hrun).2

theorem step_steady (hstep : (modelRateLimit duration userId).step s a = some s')
    (hsame : s.SameLimits duration totalMaxCount successMaxCount a) (hs : s.Consistent)
    (hsteady : s.Steady duration userId totalMaxCount successMaxCount) :
    s'.Steady duration userId totalMaxCount successMaxCount := by
  obtain ⟨calls, hrun, hcalls⟩ := step_calls hstep hs
  obtain ⟨hclock, ⟨_, _, now, rfl, rfl⟩ | ⟨id, status, now, rfl, rfl⟩ |
    ⟨now, limiter, rfl, hsweep, rfl⟩⟩ := step_cases hstep
  · obtain ⟨rfl, rfl⟩ := hsame
    refine ⟨limiter_steady hs.limiter hrun (fun call hcall t => ?_) hsteady.total,
      limiter_steady hs.limiter hrun (fun call hcall t => ?_) hsteady.check,
      hsteady.redis.arrive hclock (s.redis.arrive_arrives ..)⟩
    · rcases hcalls call hcall with rfl | rfl
      · exact fun _ => ⟨rfl, rfl⟩
      · exact fun heq => absurd heq.symm (totalKey_ne_checkKey userId)
    · rcases hcalls call hcall with rfl | rfl
      · exact fun heq => absurd heq (totalKey_ne_checkKey userId)
      · exact fun _ => ⟨rfl, rfl⟩
  · refine ⟨limiter_steady hs.limiter hrun (fun call hcall t => ?_) hsteady.total,
      limiter_steady hs.limiter hrun (fun call hcall t => ?_) hsteady.check,
      hsteady.redis.complete hclock⟩
    · obtain ⟨_, rfl⟩ := hcalls call hcall
      exact fun heq => absurd heq (successKey_ne_totalKey userId)
    · obtain ⟨_, rfl⟩ := hcalls call hcall
      exact fun heq => absurd heq (successKey_ne_checkKey userId)
  · exact ⟨RateLimitState.step_steady hsweep hs.limiter hsame hsteady.total,
      RateLimitState.step_steady hsweep hs.limiter hsame hsteady.check,
      hsteady.redis.tick hclock⟩

/-- Steady stores block as far back as their limits count. -/
theorem storesAgree_iff_countsAgree (hs : s.Consistent)
    (hsteady : s.Steady duration userId totalMaxCount successMaxCount) (hclock : s.clock ≤ a.now)
    (hsame : s.SameLimits duration totalMaxCount successMaxCount a) :
    s.StoresAgree duration userId a ↔ s.CountsAgree duration userId a := by
  cases a with
  | complete id status now => exact Iff.rfl
  | clearExpiredItems now => exact Iff.rfl
  | arrive otherTotal otherSuccess now =>
      obtain ⟨rfl, rfl⟩ := hsame
      have hclock : s.clock ≤ now := hclock
      have hnow := Int.le_trans hs.clock (unix_le hclock)
      have hplace : ∀ maxCount : ℕ, (max (maxCount : ℤ) 1 - 1).toNat = max maxCount 1 - 1 := by
        intro maxCount
        omega
      -- a total limit of 0 is not asked
      have htotal : (0 < otherTotal →
            ¬ s.memory.limiter.limiter.Blocks (totalKey userId) otherTotal duration (unix now)) ↔
          (0 < otherTotal →
            ∀ time ∈ (s.memory.limiter.times (totalKey userId))[otherTotal - 1]?,
              inWindow duration (unix now) time = false) := by
        refine forall_congr' fun hpos => ?_
        have hlast : max otherTotal 1 - 1 = otherTotal - 1 := by omega
        rw [hsteady.total.blocks_iff hs.limiter hnow, hplace, hlast]
        simp
      rw [StoresAgree, CountsAgree, hsteady.redis.blocks_iff hclock, MemoryHandler.Blocks, htotal,
        hsteady.check.blocks_iff hs.limiter hnow, hplace]

end ModelRateLimitState

/-- Both backends reject the same requests for the success limit exactly when each that arrives
finds both stores to block it or neither.  With limits that do not change these tell how far the
limits count back. -/
theorem success_limits_agree_iff (duration : ℤ) (userId : String) (expirationDuration clock : ℤ)
    {as : List ModelRateLimitAction} {s' : ModelRateLimitState}
    (hrun : (modelRateLimit duration userId).run (.start expirationDuration clock) as = some s') :
    ((∀ id, id ∈ s'.memory.rejected ↔ id ∈ s'.redis.rejected) ↔
        (modelRateLimit duration userId).Along (ModelRateLimitState.StoresAgree duration userId)
          (.start expirationDuration clock) as) ∧
      ∀ totalMaxCount successMaxCount,
        (modelRateLimit duration userId).Along
            (ModelRateLimitState.SameLimits duration totalMaxCount successMaxCount)
            (.start expirationDuration clock) as →
          ((∀ id, id ∈ s'.memory.rejected ↔ id ∈ s'.redis.rejected) ↔
            (modelRateLimit duration userId).Along
              (ModelRateLimitState.CountsAgree duration userId)
              (.start expirationDuration clock) as) := by
  have hagree := System.run_iff_along
    (P := fun s : ModelRateLimitState => ∀ id, id ∈ s.memory.rejected ↔ id ∈ s.redis.rejected)
    ModelRateLimitState.step_consistent ModelRateLimitState.step_agree
    (ModelRateLimitState.start_consistent expirationDuration clock) hrun
  have hstores : (∀ id, id ∈ s'.memory.rejected ↔ id ∈ s'.redis.rejected) ↔
      (modelRateLimit duration userId).Along (ModelRateLimitState.StoresAgree duration userId)
        (.start expirationDuration clock) as :=
    hagree.trans (and_iff_right fun _ => Iff.rfl)
  refine ⟨hstores, fun totalMaxCount successMaxCount hsame => hstores.trans ?_⟩
  refine System.along_congr
    (I := fun s => s.Consistent ∧ s.Steady duration userId totalMaxCount successMaxCount)
    (fun hstep hsame hs => ⟨ModelRateLimitState.step_consistent hstep hs.1,
      ModelRateLimitState.step_steady hstep hsame hs.1 hs.2⟩)
    (fun hstep hsame hs => ModelRateLimitState.storesAgree_iff_countsAgree hs.1 hs.2
      (ModelRateLimitState.step_cases hstep).1 hsame)
    ⟨ModelRateLimitState.start_consistent _ _, ModelRateLimitState.start_steady _ _⟩ hsame hrun

/-- Two successes use up a limit of two, and a minute later there is room again. -/
def twoSuccesses : List ModelRateLimitAction :=
  [.arrive 0 2 0, .complete 0 200 0, .arrive 0 2 1000, .complete 1 200 1000, .arrive 0 2 2000,
    .arrive 0 2 61000]

theorem success_limits_agree_iff_two :
    ∃ s', (modelRateLimit 60 "1").run (.start 60 0) twoSuccesses = some s' ∧
      s'.memory.rejected = [2] ∧ s'.redis.rejected = [2] ∧
        (modelRateLimit 60 "1").Along (ModelRateLimitState.StoresAgree 60 "1") (.start 60 0)
          twoSuccesses ∧
        (modelRateLimit 60 "1").Along (ModelRateLimitState.CountsAgree 60 "1") (.start 60 0)
          twoSuccesses := by
  obtain ⟨s', hrun, hmemory, hredis⟩ : ∃ s',
      (modelRateLimit 60 "1").run (.start 60 0) twoSuccesses = some s' ∧
        s'.memory.rejected = [2] ∧ s'.redis.rejected = [2] :=
    ⟨_, rfl, rfl, rfl⟩
  have hsame : ∀ id, id ∈ s'.memory.rejected ↔ id ∈ s'.redis.rejected := by
    rw [hmemory, hredis]
    exact fun _ => Iff.rfl
  have hlimits : (modelRateLimit 60 "1").Along (ModelRateLimitState.SameLimits 60 0 2) (.start 60 0)
      twoSuccesses :=
    ⟨⟨rfl, rfl⟩, trivial, ⟨rfl, rfl⟩, trivial, ⟨rfl, rfl⟩, ⟨rfl, rfl⟩, trivial⟩
  obtain ⟨hstores, hcounts⟩ := success_limits_agree_iff 60 "1" 60 0 hrun
  exact ⟨s', hrun, hmemory, hredis, hstores.1 hsame, (hcounts 0 2 hlimits).1 hsame⟩

/-- A failed request uses up the limit in memory, and the limit zero is a limit there. -/
theorem success_limits_differ :
    (∃ s', (modelRateLimit 60 "1").run (.start 60 0)
        [.arrive 0 1 0, .complete 0 500 1000, .arrive 0 1 2000] = some s' ∧
      1 ∈ s'.memory.rejected ∧ 1 ∉ s'.redis.rejected) ∧
      ∃ s', (modelRateLimit 60 "1").run (.start 60 0) [.arrive 0 0 0, .arrive 0 0 1000] = some s' ∧
        1 ∈ s'.memory.rejected ∧ 1 ∉ s'.redis.rejected := by
  refine ⟨⟨_, rfl, ?_, ?_⟩, ⟨_, rfl, ?_, ?_⟩⟩
  · exact List.mem_singleton.2 rfl
  · exact List.not_mem_nil
  · exact List.mem_singleton.2 rfl
  · exact List.not_mem_nil

end

end NewApi.Model
