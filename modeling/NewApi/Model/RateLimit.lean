import NewApi.Lib.System
import NewApi.Lib.Window

/-!
# The rate limiter in memory

`InMemoryRateLimiter` keeps a queue of call times for each key.  `Request` compares the length of
the queue with the limit of the call and its oldest entry with the duration of the call, and a
goroutine removes the queues that nobody has used for a while.  Limit and duration may be others in
every call, so that the queue need not hold the calls of the window.
-/

namespace NewApi.Model

open NewApi.Lib

/-- The times in seconds, oldest first. -/
structure InMemoryRateLimiter where
  store : String → Option (List ℤ)
  expirationDuration : ℤ

namespace InMemoryRateLimiter

def init (expirationDuration : ℤ) : InMemoryRateLimiter where
  store _ := none
  expirationDuration := expirationDuration

def put (l : InMemoryRateLimiter) (key : String) (queue : List ℤ) : InMemoryRateLimiter :=
  { l with store := Function.update l.store key (some queue) }

/-- One turn of `clearExpiredItems`. -/
def clearExpiredItems (l : InMemoryRateLimiter) (now : ℤ) : InMemoryRateLimiter :=
  { l with
    store := fun key =>
      (l.store key).filter fun queue =>
        match queue.getLast? with
        | none => false
        | some newest => now - newest ≤ l.expirationDuration }

/-- `Request` at the time `now`: the limiter afterwards and the answer.  A negative limit makes no
queue, and an empty queue has no oldest entry: both panic. -/
def request (l : InMemoryRateLimiter) (key : String) (maxRequestNum duration now : ℤ) :
    Option (InMemoryRateLimiter × Bool) :=
  match l.store key with
  | none => if maxRequestNum < 0 then none else some (l.put key [now], true)
  | some queue =>
      if (queue.length : ℤ) < maxRequestNum then some (l.put key (queue ++ [now]), true)
      else
        match queue with
        | [] => none
        | oldest :: rest =>
            if duration ≤ now - oldest then some (l.put key (rest ++ [now]), true)
            else some (l, false)

/-- The queue of a key; one that is not stored has no entries. -/
def queue (l : InMemoryRateLimiter) (key : String) : List ℤ :=
  (l.store key).getD []

/-- The queue is as long as the limit allows, or longer. -/
def full (l : InMemoryRateLimiter) (key : String) (maxRequestNum : ℤ) : Bool :=
  (l.store key).any fun queue => maxRequestNum ≤ queue.length

end InMemoryRateLimiter

/-- A call that was accepted, with its limit and its duration. -/
structure AcceptedCall where
  key : String
  maxRequestNum : ℤ
  duration : ℤ
  time : ℤ
deriving DecidableEq

/-- The limiter, the time of the last action, and the accepted calls, newest first. -/
structure RateLimitState where
  limiter : InMemoryRateLimiter
  clock : ℤ
  accepted : List AcceptedCall

inductive RateLimitAction where
  | request (key : String) (maxRequestNum duration now : ℤ)
  | clearExpiredItems (now : ℤ)

def RateLimitAction.now : RateLimitAction → ℤ
  | .request _ _ _ now => now
  | .clearExpiredItems now => now

namespace RateLimitState

def start (expirationDuration clock : ℤ) : RateLimitState where
  limiter := .init expirationDuration
  clock := clock
  accepted := []

/-- The clock does not go back, and the goroutine runs only with a positive expiration.  A request
that panics leaves the limiter as it was. -/
def step (s : RateLimitState) : RateLimitAction → Option RateLimitState
  | .request key maxRequestNum duration now =>
      if now < s.clock then none
      else
        match s.limiter.request key maxRequestNum duration now with
        | none => some { s with clock := now }
        | some (limiter, allowed) =>
            some
              { limiter := limiter
                clock := now
                accepted :=
                  if allowed then ⟨key, maxRequestNum, duration, now⟩ :: s.accepted
                  else s.accepted }
  | .clearExpiredItems now =>
      if now < s.clock ∨ s.limiter.expirationDuration ≤ 0 then none
      else some { s with limiter := s.limiter.clearExpiredItems now, clock := now }

end RateLimitState

/-- The limiter under calls and sweeps. -/
def rateLimiter : System RateLimitState RateLimitAction where
  step := RateLimitState.step

/-- The time lies in the window of a call. -/
def inWindow (duration now time : ℤ) : Bool :=
  now - time < duration

/-- Each accepted call is one of at most as many with its key as its limit says, in the seconds
of its duration. -/
def WithinLimits : List AcceptedCall → Prop
  | [] => True
  | call :: earlier =>
      ((earlier.countP fun e => e.key = call.key && inWindow call.duration call.time e.time : ℕ) : ℤ) +
          1 ≤ call.maxRequestNum ∧
        WithinLimits earlier

instance : DecidablePred WithinLimits
  | [] => inferInstanceAs (Decidable True)
  | _ :: earlier =>
      have := instDecidablePredListAcceptedCallWithinLimits earlier
      inferInstanceAs (Decidable (_ ∧ WithinLimits earlier))

namespace RateLimitState

/-- The times of the accepted calls with a key, newest first. -/
def times (s : RateLimitState) (key : String) : List ℤ :=
  (s.accepted.filter fun call => call.key = key).map AcceptedCall.time

/-- The times that are not in the queue any more. -/
def forgotten (s : RateLimitState) (key : String) : List ℤ :=
  (s.times key).drop (s.limiter.queue key).length

/-- A call finds what it needs in the queue.  A full queue whose oldest entry has left the window is
not so much longer than the limit that the entry which counts is still in it; otherwise the
forgotten calls of the window leave room for those in the queue and this one. -/
def QueueTells (s : RateLimitState) : RateLimitAction → Prop
  | .request key maxRequestNum duration now =>
      let queue := s.limiter.queue key
      if s.limiter.full key maxRequestNum then
        (∀ oldest ∈ queue.head?, inWindow duration now oldest = false) →
          1 ≤ maxRequestNum ∧
            ∀ time ∈ queue[queue.length - maxRequestNum.toNat]?, inWindow duration now time = false
      else
        0 ≤ maxRequestNum → ((s.forgotten key).countP (inWindow duration now) : ℤ) +
          queue.length < maxRequestNum
  | .clearExpiredItems _ => True

end RateLimitState

section

variable {l l' : InMemoryRateLimiter} {key other : String} {maxRequestNum duration now : ℤ}
  {s s' : RateLimitState} {a : RateLimitAction}

/-! ## One call of the limiter -/

namespace InMemoryRateLimiter

theorem queue_put (l : InMemoryRateLimiter) (key : String) (queue : List ℤ) (other : String) :
    (l.put key queue).queue other = if other = key then queue else l.queue other := by
  rw [InMemoryRateLimiter.queue, put]
  dsimp only
  split
  case isTrue hsame => rw [hsame, Function.update_self, Option.getD_some]
  case isFalse hother =>
    rw [Function.update_of_ne hother]
    rfl

/-- An accepted call is appended.  Where the queue was full, its oldest entry has left the window
and is dropped. -/
structure Accepts (l l' : InMemoryRateLimiter) (key : String) (maxRequestNum duration now : ℤ)
    (dropped kept : List ℤ) : Prop where
  queue : l.queue key = dropped ++ kept
  limiter : l' = l.put key (kept ++ [now])
  room : l.full key maxRequestNum = false →
    dropped = [] ∧ 0 ≤ maxRequestNum ∧ (kept = [] ∨ (kept.length : ℤ) < maxRequestNum)
  leaves : l.full key maxRequestNum = true → maxRequestNum ≤ (l.queue key).length ∧
    ∃ oldest, dropped = [oldest] ∧ inWindow duration now oldest = false

theorem request_accepted (h : l.request key maxRequestNum duration now = some (l', true)) :
    ∃ dropped kept, Accepts l l' key maxRequestNum duration now dropped kept := by
  rw [request] at h
  cases hstore : l.store key with
  | none =>
      rw [hstore] at h
      dsimp only at h
      split at h
      case isTrue hneg => cases h
      case isFalse hpos =>
        have hfull : l.full key maxRequestNum = false := by rw [full, hstore]; rfl
        obtain rfl := (Prod.mk.inj (Option.some.inj h)).1
        refine ⟨[], [], ?_, rfl, fun _ => ⟨rfl, by omega, .inl rfl⟩, fun htrue => ?_⟩
        · rw [InMemoryRateLimiter.queue, hstore]
          rfl
        · rw [hfull] at htrue
          cases htrue
  | some queue =>
      have hqueue : l.queue key = queue := by rw [InMemoryRateLimiter.queue, hstore]; rfl
      have hfull : l.full key maxRequestNum = decide (maxRequestNum ≤ queue.length) := by
        rw [full, hstore]
        rfl
      rw [hstore] at h
      dsimp only at h
      split at h
      case isTrue hroom =>
        obtain rfl := (Prod.mk.inj (Option.some.inj h)).1
        refine ⟨[], queue, hqueue, rfl, fun _ => ⟨rfl, by omega, .inr hroom⟩, fun htrue => ?_⟩
        rw [hfull, decide_eq_true_iff] at htrue
        omega
      case isFalse hroom =>
        cases queue with
        | nil => cases h
        | cons oldest rest =>
            dsimp only at h
            split at h
            case isTrue hold =>
              obtain rfl := (Prod.mk.inj (Option.some.inj h)).1
              refine ⟨[oldest], rest, hqueue, rfl, fun hfalse => ?_,
                fun _ => ⟨?_, oldest, rfl, ?_⟩⟩
              · rw [hfull, decide_eq_false_iff_not] at hfalse
                omega
              · rw [hqueue]
                omega
              · rw [inWindow, decide_eq_false_iff_not]
                omega
            case isFalse hnew => cases h

/-- A call is refused while the oldest entry of a full queue is in the window. -/
theorem request_refused (h : l.request key maxRequestNum duration now = some (l', false)) :
    l' = l ∧ l.full key maxRequestNum = true ∧
      ∃ oldest ∈ (l.queue key).head?, inWindow duration now oldest = true := by
  rw [request] at h
  cases hstore : l.store key with
  | none =>
      rw [hstore] at h
      dsimp only at h
      split at h
      · cases h
      · cases h
  | some queue =>
      have hqueue : l.queue key = queue := by rw [InMemoryRateLimiter.queue, hstore]; rfl
      rw [hstore] at h
      dsimp only at h
      split at h
      case isTrue hroom => cases h
      case isFalse hroom =>
        cases queue with
        | nil => cases h
        | cons oldest rest =>
            dsimp only at h
            split at h
            case isTrue hold => cases h
            case isFalse hnew =>
              have hfull : maxRequestNum ≤ ((oldest :: rest).length : ℤ) := by omega
              refine ⟨(Prod.mk.inj (Option.some.inj h)).1.symm, ?_, oldest, ?_, ?_⟩
              · rw [full, hstore]
                exact decide_eq_true hfull
              · rw [hqueue]
                rfl
              · rw [inWindow, decide_eq_true_iff]
                omega

/-- Only a negative limit panics while no empty queue is stored. -/
theorem request_panics (hstored : l.store key ≠ some [])
    (h : l.request key maxRequestNum duration now = none) :
    l.full key maxRequestNum = false ∧ maxRequestNum < 0 := by
  rw [request] at h
  cases hstore : l.store key with
  | none =>
      rw [hstore] at h
      dsimp only at h
      split at h
      case isTrue hneg => exact ⟨by rw [full, hstore]; rfl, hneg⟩
      case isFalse hpos => cases h
  | some queue =>
      rw [hstore] at h
      dsimp only at h
      split at h
      case isTrue hroom => cases h
      case isFalse hroom =>
        cases queue with
        | nil => exact absurd hstore hstored
        | cons oldest rest =>
            dsimp only at h
            split at h
            · cases h
            · cases h

/-- A sweep keeps a queue or forgets it, which it does only with the expired ones. -/
theorem clearExpiredItems_store (l : InMemoryRateLimiter) (key : String) :
    (l.clearExpiredItems now).store key = l.store key ∨
      (l.clearExpiredItems now).store key = none ∧
        ∀ newest ∈ (l.queue key).getLast?, l.expirationDuration < now - newest := by
  rw [clearExpiredItems, InMemoryRateLimiter.queue]
  dsimp only
  cases hstore : l.store key with
  | none => exact .inl rfl
  | some queue =>
      rw [Option.filter_some, Option.getD_some]
      cases hlast : queue.getLast? with
      | none => exact .inr ⟨rfl, nofun⟩
      | some newest =>
          dsimp only
          by_cases hkept : now - newest ≤ l.expirationDuration
          · exact .inl (if_pos (decide_eq_true hkept))
          · refine .inr ⟨if_neg (by simpa using hkept), fun other hother => ?_⟩
            obtain rfl := Option.some.inj hother
            exact Int.not_le.1 hkept

theorem length_of_full (hfull : l.full key maxRequestNum = true) :
    maxRequestNum ≤ (l.queue key).length := by
  rw [full] at hfull
  rw [InMemoryRateLimiter.queue]
  cases hstore : l.store key with
  | none =>
      rw [hstore] at hfull
      cases hfull
  | some queue =>
      rw [hstore] at hfull
      exact of_decide_eq_true hfull

theorem length_of_not_full (hpos : 1 ≤ maxRequestNum) (hfull : l.full key maxRequestNum = false) :
    ((l.queue key).length : ℤ) < maxRequestNum := by
  rw [full] at hfull
  rw [InMemoryRateLimiter.queue]
  cases hstore : l.store key with
  | none => exact hpos
  | some queue =>
      rw [hstore] at hfull
      exact Int.not_le.1 (of_decide_eq_false hfull)

/-- A call is refused when its queue is full and the oldest entry in the window. -/
def Blocks (l : InMemoryRateLimiter) (key : String) (maxRequestNum duration now : ℤ) : Prop :=
  maxRequestNum ≤ (l.queue key).length ∧
    ∃ oldest ∈ (l.queue key).head?, inWindow duration now oldest = true

theorem request_refused_iff (l : InMemoryRateLimiter) (key : String)
    (maxRequestNum duration now : ℤ) :
    (∃ l', l.request key maxRequestNum duration now = some (l', false)) ↔
      l.Blocks key maxRequestNum duration now := by
  constructor
  · rintro ⟨l', h⟩
    obtain ⟨-, hfull, holdest⟩ := request_refused h
    exact ⟨length_of_full hfull, holdest⟩
  · rintro ⟨hfull, oldest, holdest, hin⟩
    rw [InMemoryRateLimiter.queue] at hfull holdest
    rw [inWindow, decide_eq_true_iff] at hin
    refine ⟨l, ?_⟩
    rw [request]
    cases hstore : l.store key with
    | none =>
        rw [hstore] at holdest
        cases holdest
    | some queue =>
        rw [hstore, Option.getD_some] at hfull holdest
        dsimp only
        rw [if_neg (by omega)]
        cases queue with
        | nil => cases holdest
        | cons first rest =>
            obtain rfl := Option.some.inj holdest
            exact if_neg (by omega)

end InMemoryRateLimiter

/-! ## The queue and the history -/

namespace RateLimitState

/-- The queues are the newest calls of their keys, in the order of time. -/
structure Consistent (s : RateLimitState) : Prop where
  remembers : ∀ key, s.times key = (s.limiter.queue key).reverse ++ s.forgotten key
  sorted : ∀ key, (s.times key).Pairwise (· ≥ ·)
  bounded : ∀ key, ∀ time ∈ s.times key, time ≤ s.clock
  nonempty : ∀ key, s.limiter.store key ≠ some []

theorem start_consistent (expirationDuration clock : ℤ) :
    (start expirationDuration clock).Consistent where
  remembers _ := rfl
  sorted _ := List.Pairwise.nil
  bounded _ _ htime := by cases htime
  nonempty _ := nofun

/-- The forgotten times are told by any splitting that has the queue in front. -/
theorem forgotten_of_times {rest : List ℤ}
    (htimes : s.times key = (s.limiter.queue key).reverse ++ rest) : s.forgotten key = rest := by
  rw [forgotten, htimes]
  exact List.drop_left' List.length_reverse

/-- The later state has the same accepted calls, and has forgotten some queues. -/
theorem Consistent.forget (hs : s.Consistent) (haccepted : s'.accepted = s.accepted)
    (hclock : s.clock ≤ s'.clock)
    (hstore : ∀ key, s'.limiter.store key = s.limiter.store key ∨ s'.limiter.store key = none) :
    s'.Consistent := by
  have htimes : ∀ key, s'.times key = s.times key := by
    intro key
    rw [times, haccepted]
    rfl
  refine ⟨fun key => ?_, fun key => ?_, fun key time htime => ?_, fun key => ?_⟩
  -- a forgotten queue leaves all its times behind
  · rcases hstore key with hsame | hnone
    · have hqueue : s'.limiter.queue key = s.limiter.queue key := by
        rw [InMemoryRateLimiter.queue, hsame]
        rfl
      have hrest := hs.remembers key
      rw [← hqueue, ← htimes] at hrest
      rw [forgotten_of_times hrest]
      exact hrest
    · have hqueue : s'.limiter.queue key = [] := by
        rw [InMemoryRateLimiter.queue, hnone]
        rfl
      rw [forgotten, hqueue]
      rfl
  · rw [htimes]
    exact hs.sorted key
  · rw [htimes] at htime
    exact Int.le_trans (hs.bounded key time htime) hclock
  · rcases hstore key with hsame | hnone
    · rw [hsame]
      exact hs.nonempty key
    · rw [hnone]
      exact nofun

/-- The state after an accepted call. -/
def accept (s : RateLimitState) (limiter : InMemoryRateLimiter) (call : AcceptedCall) :
    RateLimitState where
  limiter := limiter
  clock := call.time
  accepted := call :: s.accepted

theorem times_accept (s : RateLimitState) (limiter : InMemoryRateLimiter) (call : AcceptedCall)
    (key : String) :
    (s.accept limiter call).times key =
      if call.key = key then call.time :: s.times key else s.times key := by
  show ((call :: s.accepted).filter fun e => e.key = key).map AcceptedCall.time = _
  rw [List.filter_cons]
  by_cases hsame : call.key = key
  · rw [if_pos hsame, if_pos (decide_eq_true hsame)]
    rfl
  · rw [if_neg hsame, if_neg (by simpa using hsame)]
    rfl

theorem queue_accept {limiter : InMemoryRateLimiter} {call : AcceptedCall} {dropped kept : List ℤ}
    (haccepts : s.limiter.Accepts limiter call.key call.maxRequestNum call.duration call.time
      dropped kept) (key : String) :
    (s.accept limiter call).limiter.queue key =
      if key = call.key then kept ++ [call.time] else s.limiter.queue key := by
  show limiter.queue key = _
  rw [haccepts.limiter, InMemoryRateLimiter.queue_put]

/-- The entry that a call drops from the queue is forgotten. -/
theorem Consistent.remembers_accept (hs : s.Consistent) {limiter : InMemoryRateLimiter}
    {call : AcceptedCall} {dropped kept : List ℤ}
    (haccepts : s.limiter.Accepts limiter call.key call.maxRequestNum call.duration call.time
      dropped kept) (key : String) :
    (s.accept limiter call).times key =
      ((s.accept limiter call).limiter.queue key).reverse ++
        ((if call.key = key then dropped.reverse else []) ++ s.forgotten key) := by
  rw [times_accept, queue_accept haccepts, hs.remembers key]
  by_cases hsame : call.key = key
  · rw [if_pos hsame, if_pos hsame, if_pos hsame.symm, ← hsame, haccepts.queue, List.reverse_append,
      List.reverse_append]
    simp
  · rw [if_neg hsame, if_neg hsame, if_neg (Ne.symm hsame)]
    rfl

theorem Consistent.accept (hs : s.Consistent) {limiter : InMemoryRateLimiter} {call : AcceptedCall}
    {dropped kept : List ℤ} (hclock : s.clock ≤ call.time)
    (haccepts : s.limiter.Accepts limiter call.key call.maxRequestNum call.duration call.time
      dropped kept) :
    (s.accept limiter call).Consistent := by
  refine ⟨fun key => ?_, fun key => ?_, fun key time htime => ?_, fun key => ?_⟩
  · have hrest := hs.remembers_accept haccepts key
    rw [forgotten_of_times hrest]
    exact hrest
  · rw [times_accept]
    split
    · refine List.pairwise_cons.2 ⟨fun time htime => ?_, hs.sorted key⟩
      exact Int.le_trans (hs.bounded key time htime) hclock
    · exact hs.sorted key
  · rw [times_accept] at htime
    split at htime
    · rcases List.mem_cons.1 htime with rfl | hold
      · exact Int.le_refl _
      · exact Int.le_trans (hs.bounded key time hold) hclock
    · exact Int.le_trans (hs.bounded key time htime) hclock
  · show limiter.store key ≠ some []
    rw [haccepts.limiter, InMemoryRateLimiter.put]
    dsimp only
    by_cases hsame : key = call.key
    · rw [hsame, Function.update_self]
      simp
    · rw [Function.update_of_ne hsame]
      exact hs.nonempty key

/-- What a call does: it is accepted, or nothing but the clock changes. -/
theorem step_request (hstep : s.step (.request key maxRequestNum duration now) = some s') :
    s.clock ≤ now ∧
      ((∃ limiter, s.limiter.request key maxRequestNum duration now = some (limiter, true) ∧
          s' = s.accept limiter ⟨key, maxRequestNum, duration, now⟩) ∨
        (s.limiter.request key maxRequestNum duration now = none ∨
            ∃ limiter, s.limiter.request key maxRequestNum duration now = some (limiter, false)) ∧
          s' = { s with clock := now }) := by
  rw [step] at hstep
  split at hstep
  case isTrue hback => cases hstep
  case isFalse hclock =>
    refine ⟨Int.not_lt.1 hclock, ?_⟩
    cases hrequest : s.limiter.request key maxRequestNum duration now with
    | none =>
        rw [hrequest] at hstep
        exact .inr ⟨.inl rfl, (Option.some.inj hstep).symm⟩
    | some result =>
        obtain ⟨limiter, allowed⟩ := result
        rw [hrequest] at hstep
        cases allowed with
        | true => exact .inl ⟨limiter, rfl, (Option.some.inj hstep).symm⟩
        | false =>
            obtain rfl := (InMemoryRateLimiter.request_refused hrequest).1
            exact .inr ⟨.inr ⟨_, rfl⟩, (Option.some.inj hstep).symm⟩

theorem step_clearExpiredItems (hstep : s.step (.clearExpiredItems now) = some s') :
    s.clock ≤ now ∧ s' = { s with limiter := s.limiter.clearExpiredItems now, clock := now } := by
  rw [step] at hstep
  split at hstep
  case isTrue hoff => cases hstep
  case isFalse hon => exact ⟨Int.not_lt.1 fun h => hon (.inl h), (Option.some.inj hstep).symm⟩

theorem step_clock (hstep : s.step a = some s') : s'.clock = a.now := by
  cases a with
  | request key maxRequestNum duration now =>
      obtain ⟨-, ⟨limiter, -, rfl⟩ | ⟨-, rfl⟩⟩ := step_request hstep
      · rfl
      · rfl
  | clearExpiredItems now =>
      obtain ⟨-, rfl⟩ := step_clearExpiredItems hstep
      rfl

theorem step_consistent (hstep : s.step a = some s') (hs : s.Consistent) : s'.Consistent := by
  cases a with
  | request key maxRequestNum duration now =>
      obtain ⟨hclock, ⟨limiter, hrequest, rfl⟩ | ⟨-, rfl⟩⟩ := step_request hstep
      · obtain ⟨dropped, kept, haccepts⟩ := InMemoryRateLimiter.request_accepted hrequest
        exact hs.accept hclock haccepts
      · exact hs.forget rfl hclock fun key => .inl rfl
  | clearExpiredItems now =>
      obtain ⟨hclock, rfl⟩ := step_clearExpiredItems hstep
      exact hs.forget rfl hclock fun key =>
        (InMemoryRateLimiter.clearExpiredItems_store _ key).imp_right And.left

/-! ## The window of a call -/

theorem isWindow_inWindow {times : List ℤ} (hsorted : times.Pairwise (· ≥ ·)) (duration now : ℤ) :
    IsWindow (inWindow duration now) times := by
  refine hsorted.imp fun {newer older} hle hin => ?_
  rw [inWindow, decide_eq_true_iff] at hin ⊢
  omega

theorem countP_times (s : RateLimitState) (key : String) (p : ℤ → Bool) :
    (s.accepted.countP fun e => e.key = key && p e.time) = (s.times key).countP p := by
  rw [times, List.countP_map, List.countP_filter]
  exact List.countP_congr fun e _ => by simp [and_comm]

/-- An accepted call is within its limit exactly when the queue tells. -/
theorem queueTells_iff (hs : s.Consistent) {limiter : InMemoryRateLimiter}
    (hrequest : s.limiter.request key maxRequestNum duration now = some (limiter, true)) :
    (((s.times key).countP (inWindow duration now) : ℕ) : ℤ) + 1 ≤ maxRequestNum ↔
      s.QueueTells (.request key maxRequestNum duration now) := by
  obtain ⟨dropped, kept, haccepts⟩ := InMemoryRateLimiter.request_accepted hrequest
  have hwindow := isWindow_inWindow (hs.sorted key) duration now
  rw [hs.remembers key] at hwindow ⊢
  rw [hwindow.countP_append, List.length_reverse, QueueTells]
  -- a queue with room drops nothing, a full one its oldest entry, which has left the window
  cases hfull : s.limiter.full key maxRequestNum with
  | false =>
      obtain ⟨hdropped, hpos, hroom⟩ := haccepts.room hfull
      have hkept : s.limiter.queue key = kept := by rw [haccepts.queue, hdropped, List.nil_append]
      rw [if_neg Bool.false_ne_true, forall_prop_of_true hpos, hkept]
      split
      case isTrue hnone =>
        have hle : kept.reverse.countP (inWindow duration now) ≤ kept.length := by
          rw [← List.length_reverse]
          exact List.countP_le_length
        rw [hnone]
        rcases hroom with rfl | hroom
        · simp only [List.reverse_nil, List.countP_nil, List.length_nil]
          omega
        · exact iff_of_true (by omega) (by omega)
      case isFalse hsome => omega
  | true =>
      obtain ⟨hfits, oldest, hdropped, hleft⟩ := haccepts.leaves hfull
      have hhead : (s.limiter.queue key).head? = some oldest := by
        rw [haccepts.queue, hdropped]
        rfl
      -- what is forgotten is older than the oldest entry
      have hforgotten : (s.forgotten key).countP (inWindow duration now) = 0 := by
        rw [haccepts.queue, hdropped, List.singleton_append, List.reverse_cons, List.append_assoc] at hwindow
        have holder : IsWindow (inWindow duration now) (oldest :: s.forgotten key) :=
          (List.pairwise_append.1 hwindow).2.1
        exact holder.countP_eq_zero hleft
      have hnewer : IsWindow (inWindow duration now) (s.limiter.queue key).reverse :=
        (List.pairwise_append.1 hwindow).1
      have hpremise : ∀ time ∈ (s.limiter.queue key).head?, inWindow duration now time = false := by
        intro time htime
        obtain rfl := Option.some.inj (hhead.symm.trans htime)
        exact hleft
      rw [if_pos hforgotten, if_pos rfl, forall_prop_of_true hpremise]
      by_cases hpos : 1 ≤ maxRequestNum
      -- newest first, the window is a prefix, and its length is told by one entry
      · have hplace : (s.limiter.queue key)[(s.limiter.queue key).length - maxRequestNum.toNat]? =
            (s.limiter.queue key).reverse[(maxRequestNum - 1).toNat]? := by
          rw [List.getElem?_reverse (by omega)]
          congr 1
          omega
        rw [hplace, ← hnewer.countP_le_iff]
        omega
      · exact iff_of_false (by omega) fun h => hpos h.1

theorem step_withinLimits (hstep : s.step a = some s') (hs : s.Consistent) :
    WithinLimits s'.accepted ↔ WithinLimits s.accepted ∧ s.QueueTells a := by
  cases a with
  | clearExpiredItems now =>
      obtain ⟨-, rfl⟩ := step_clearExpiredItems hstep
      exact (and_iff_left trivial).symm
  | request key maxRequestNum duration now =>
      obtain ⟨-, ⟨limiter, hrequest, rfl⟩ | ⟨hrequest, rfl⟩⟩ := step_request hstep
      · rw [← queueTells_iff hs hrequest, and_comm, ← countP_times]
        rfl
      · refine (and_iff_left ?_).symm
        rw [QueueTells]
        rcases hrequest with hpanics | ⟨limiter, hrefused⟩
        · obtain ⟨hfull, hneg⟩ := InMemoryRateLimiter.request_panics (hs.nonempty key) hpanics
          rw [hfull, if_neg Bool.false_ne_true]
          exact fun hpos => absurd hpos (by omega)
        · obtain ⟨-, hfull, oldest, holdest, hin⟩ := InMemoryRateLimiter.request_refused hrefused
          rw [hfull, if_pos rfl]
          intro hleft
          rw [hleft oldest holdest] at hin
          cases hin

end RateLimitState

/-- The limiter keeps every accepted call within its limit exactly when every call finds in the
queue what it needs. -/
theorem rate_limits_hold_iff (expirationDuration clock : ℤ) {as : List RateLimitAction}
    {s' : RateLimitState}
    (hrun : rateLimiter.run (.start expirationDuration clock) as = some s') :
    WithinLimits s'.accepted ↔
      rateLimiter.Along RateLimitState.QueueTells (.start expirationDuration clock) as := by
  rw [System.run_iff_along (P := fun s => WithinLimits s.accepted) RateLimitState.step_consistent
    RateLimitState.step_withinLimits (RateLimitState.start_consistent _ _) hrun]
  exact ⟨And.right, fun halong => ⟨trivial, halong⟩⟩

/-- The calls of two users, with a limit that is raised and a sweep. -/
def twoUsers : List RateLimitAction :=
  [.request "MRRLS1" 2 60 0, .request "MRRLS2" 1 60 30, .request "MRRLS1" 2 60 40,
    .request "MRRLS1" 2 60 59, .clearExpiredItems 60, .request "MRRLS1" 3 60 61]

theorem rate_limits_hold_iff_two_users :
    ∃ s', rateLimiter.run (.start 1200 0) twoUsers = some s' ∧
      s'.accepted.map AcceptedCall.time = [61, 40, 30, 0] ∧ WithinLimits s'.accepted ∧
        rateLimiter.Along RateLimitState.QueueTells (.start 1200 0) twoUsers := by
  obtain ⟨s', hrun, htimes, hlimits⟩ : ∃ s', rateLimiter.run (.start 1200 0) twoUsers = some s' ∧
      s'.accepted.map AcceptedCall.time = [61, 40, 30, 0] ∧ WithinLimits s'.accepted :=
    ⟨_, rfl, by decide, by decide⟩
  exact ⟨s', hrun, htimes, hlimits, (rate_limits_hold_iff 1200 0 hrun).1 hlimits⟩

/-- A limit that was lowered, the limit zero, and a sweep that expires the queue before its
window is over. -/
theorem rate_limits_exceeded :
    (∃ s', rateLimiter.run (.start 1200 0)
        [.request "MRRLS1" 3 60 0, .request "MRRLS1" 3 60 59, .request "MRRLS1" 3 60 59,
          .request "MRRLS1" 1 60 60] = some s' ∧ ¬ WithinLimits s'.accepted) ∧
      (∃ s', rateLimiter.run (.start 1200 0) [.request "MRRLS1" 0 60 0] = some s' ∧
        ¬ WithinLimits s'.accepted) ∧
      ∃ s', rateLimiter.run (.start 1200 0)
        [.request "MRRLS1" 1 3600 0, .clearExpiredItems 1201, .request "MRRLS1" 1 3600 1202] =
          some s' ∧
          ¬ WithinLimits s'.accepted := by
  refine ⟨⟨_, rfl, ?_⟩, ⟨_, rfl, ?_⟩, ⟨_, rfl, ?_⟩⟩
  · decide
  · decide
  · decide

/-! ## A limit that does not change -/

namespace RateLimitState

/-- The queue of a key is no longer than its limit, and what it does not hold any more has left the
window. -/
structure Steady (s : RateLimitState) (key : String) (maxRequestNum duration : ℤ) : Prop where
  short : ((s.limiter.queue key).length : ℤ) ≤ max maxRequestNum 1
  left : ∀ time ∈ s.forgotten key, inWindow duration s.clock time = false

/-- The calls with the key have all this limit and this duration, and the queues do not expire
before the window is over. -/
def KeepsLimit (key : String) (maxRequestNum duration : ℤ) (s : RateLimitState) :
    RateLimitAction → Prop
  | .request other otherMax otherDuration _ =>
      other = key → otherMax = maxRequestNum ∧ otherDuration = duration
  | .clearExpiredItems _ => duration ≤ s.limiter.expirationDuration + 1

theorem inWindow_of_le {later time : ℤ} (hle : now ≤ later)
    (hleft : inWindow duration now time = false) :
    inWindow duration later time = false := by
  rw [inWindow, decide_eq_false_iff_not] at hleft ⊢
  omega

theorem start_steady (expirationDuration clock : ℤ) :
    (start expirationDuration clock).Steady key maxRequestNum duration where
  short := by
    show (0 : ℤ) ≤ max maxRequestNum 1
    omega
  left _ htime := by cases htime

theorem Steady.accept (hs : s.Consistent) (hsteady : s.Steady key maxRequestNum duration)
    {limiter : InMemoryRateLimiter} {call : AcceptedCall}
    (hclock : s.clock ≤ call.time)
    (hrequest : s.limiter.request call.key call.maxRequestNum call.duration call.time =
      some (limiter, true))
    (hkeeps : call.key = key → call.maxRequestNum = maxRequestNum ∧ call.duration = duration) :
    (s.accept limiter call).Steady key maxRequestNum duration := by
  obtain ⟨dropped, kept, haccepts⟩ := InMemoryRateLimiter.request_accepted hrequest
  have hforgotten := forgotten_of_times (hs.remembers_accept haccepts key)
  have hleft : ∀ time ∈ s.forgotten key, inWindow duration call.time time = false :=
    fun time htime => inWindow_of_le hclock (hsteady.left time htime)
  by_cases hsame : call.key = key
  -- a call under another key leaves the queue of this one
  · obtain ⟨hmax, hduration⟩ := hkeeps hsame
    have hshort := hsteady.short
    have hqueue := haccepts.queue
    rw [hsame] at hqueue
    rw [hqueue, List.length_append] at hshort
    have hdropped : ∀ time ∈ dropped, inWindow duration call.time time = false := by
      intro time htime
      cases hfull : s.limiter.full call.key call.maxRequestNum with
      | false =>
          rw [(haccepts.room hfull).1] at htime
          cases htime
      | true =>
          obtain ⟨-, oldest, hone, hold⟩ := haccepts.leaves hfull
          rw [hone] at htime
          rw [List.mem_singleton.1 htime, ← hduration]
          exact hold
    refine ⟨?_, ?_⟩
    · rw [queue_accept haccepts, if_pos hsame.symm, List.length_append, List.length_singleton]
      cases hfull : s.limiter.full call.key call.maxRequestNum with
      | false =>
          obtain ⟨-, -, hroom⟩ := haccepts.room hfull
          rcases hroom with rfl | hroom
          · rw [List.length_nil]
            omega
          · omega
      | true =>
          obtain ⟨-, oldest, hone, -⟩ := haccepts.leaves hfull
          rw [hone, List.length_singleton] at hshort
          omega
    · rw [hforgotten, if_pos hsame]
      intro time htime
      rcases List.mem_append.1 htime with hnew | hold
      · exact hdropped time (List.mem_reverse.1 hnew)
      · exact hleft time hold
  · refine ⟨?_, ?_⟩
    · rw [queue_accept haccepts, if_neg (Ne.symm hsame)]
      exact hsteady.short
    · rw [hforgotten, if_neg hsame, List.nil_append]
      exact hleft

theorem Steady.tick (hsteady : s.Steady key maxRequestNum duration) (hclock : s.clock ≤ now) :
    Steady { s with clock := now } key maxRequestNum duration :=
  ⟨hsteady.short, fun time htime => inWindow_of_le hclock (hsteady.left time htime)⟩

theorem Steady.clearExpiredItems (hs : s.Consistent) (hsteady : s.Steady key maxRequestNum duration)
    (hclock : s.clock ≤ now) (hexpires : duration ≤ s.limiter.expirationDuration + 1) :
    Steady { s with limiter := s.limiter.clearExpiredItems now, clock := now } key maxRequestNum
      duration := by
  rcases InMemoryRateLimiter.clearExpiredItems_store s.limiter key with hsame | ⟨hnone, hexpired⟩
  · have hqueue : (s.limiter.clearExpiredItems now).queue key = s.limiter.queue key := by
      rw [InMemoryRateLimiter.queue, hsame]
      rfl
    refine ⟨?_, fun time htime => ?_⟩
    · rw [hqueue]
      exact hsteady.short
    · rw [forgotten, hqueue] at htime
      exact inWindow_of_le hclock (hsteady.left time htime)
  · have hqueue : (s.limiter.clearExpiredItems now).queue key = [] := by
      rw [InMemoryRateLimiter.queue, hnone]
      rfl
    refine ⟨?_, fun time htime => ?_⟩
    · rw [hqueue, List.length_nil]
      omega
    · have htimes : time ∈ s.times key := List.mem_of_mem_drop htime
      rw [hs.remembers key] at htimes
      rcases List.mem_append.1 htimes with hheld | hold
      · have hsorted := hs.sorted key
        rw [hs.remembers key] at hsorted
        -- the newest entry has expired, and the others are older
        cases hheld' : (s.limiter.queue key).reverse with
        | nil =>
            rw [hheld'] at hheld
            cases hheld
        | cons newest older =>
            rw [hheld', List.cons_append] at hsorted
            have hnewest := hexpired newest (by rw [← List.head?_reverse, hheld']; rfl)
            have hle : time ≤ newest := by
              rw [hheld'] at hheld
              rcases List.mem_cons.1 hheld with rfl | holder
              · exact Int.le_refl _
              · exact (List.pairwise_cons.1 hsorted).1 time (List.mem_append_left _ holder)
            rw [inWindow, decide_eq_false_iff_not]
            show ¬ now - time < duration
            omega
      · exact inWindow_of_le hclock (hsteady.left time hold)

/-- A steady limit refuses exactly while the call that it counts back to is in the window. -/
theorem Steady.blocks_iff (hs : s.Consistent) (hsteady : s.Steady key maxRequestNum duration)
    (hclock : s.clock ≤ now) :
    s.limiter.Blocks key maxRequestNum duration now ↔
      ∃ time ∈ (s.times key)[(max maxRequestNum 1 - 1).toNat]?,
        inWindow duration now time = true := by
  have hshort := hsteady.short
  have hplace : ((s.limiter.queue key).length : ℤ) = max maxRequestNum 1 →
      (s.times key)[(max maxRequestNum 1 - 1).toNat]? = (s.limiter.queue key).head? := by
    intro hlength
    rw [hs.remembers key, List.getElem?_append_left (by rw [List.length_reverse]; omega),
      List.getElem?_reverse (by omega), List.head?_eq_getElem?]
    congr 1
    omega
  constructor
  · rintro ⟨hfull, oldest, holdest, hin⟩
    have hsome : 0 < (s.limiter.queue key).length :=
      List.length_pos_of_mem (List.mem_of_mem_head? holdest)
    rw [hplace (by omega)]
    exact ⟨oldest, holdest, hin⟩
  · rintro ⟨time, htime, hin⟩
    by_cases hlength : ((s.limiter.queue key).length : ℤ) = max maxRequestNum 1
    · rw [hplace hlength] at htime
      exact ⟨by omega, time, htime, hin⟩
    · -- a shorter queue has forgotten that call, which has left the window
      have hforgotten : time ∈ s.forgotten key := by
        rw [hs.remembers key, List.getElem?_append_right (by rw [List.length_reverse]; omega)] at htime
        exact List.mem_of_getElem? htime
      rw [inWindow_of_le hclock (hsteady.left time hforgotten)] at hin
      cases hin

theorem step_steady (hstep : s.step a = some s') (hs : s.Consistent)
    (hkeeps : s.KeepsLimit key maxRequestNum duration a)
    (hsteady : s.Steady key maxRequestNum duration) : s'.Steady key maxRequestNum duration := by
  cases a with
  | request other otherMax otherDuration now =>
      obtain ⟨hclock, ⟨limiter, hrequest, rfl⟩ | ⟨-, rfl⟩⟩ := step_request hstep
      · exact hsteady.accept hs hclock hrequest hkeeps
      · exact hsteady.tick hclock
  | clearExpiredItems now =>
      obtain ⟨hclock, rfl⟩ := step_clearExpiredItems hstep
      exact hsteady.clearExpiredItems hs hclock hkeeps

theorem Steady.queueTells (hsteady : s.Steady key maxRequestNum duration) (hpos : 1 ≤ maxRequestNum)
    (hclock : s.clock ≤ now) : s.QueueTells (.request key maxRequestNum duration now) := by
  have hshort := hsteady.short
  rw [QueueTells]
  cases hfull : s.limiter.full key maxRequestNum with
  | true =>
      have hlength := InMemoryRateLimiter.length_of_full hfull
      have hfirst : (s.limiter.queue key).length - maxRequestNum.toNat = 0 := by omega
      rw [if_pos rfl, hfirst, ← List.head?_eq_getElem?]
      exact fun hleft => ⟨hpos, hleft⟩
  | false =>
      have hlength := InMemoryRateLimiter.length_of_not_full hpos hfull
      have hleft : (s.forgotten key).countP (inWindow duration now) = 0 := by
        rw [List.countP_eq_zero]
        intro time htime hin
        rw [inWindow_of_le hclock (hsteady.left time htime)] at hin
        cases hin
      rw [if_neg Bool.false_ne_true, hleft]
      exact fun _ => by omega

end RateLimitState

/-- The limiter keeps positive limits that do not change, when no queue expires before its
window is over. -/
theorem fixed_limits_hold (expirationDuration clock : ℤ) (maxOf durationOf : String → ℤ)
    (hpos : ∀ key, 1 ≤ maxOf key) {as : List RateLimitAction}
    (hrun : rateLimiter.run (.start expirationDuration clock) as = some s')
    (hkeeps : rateLimiter.Along
      (fun s a => ∀ key, RateLimitState.KeepsLimit key (maxOf key) (durationOf key) s a)
      (.start expirationDuration clock) as) : WithinLimits s'.accepted := by
  have hinvariant : s'.Consistent ∧ (∀ key, s'.Steady key (maxOf key) (durationOf key)) ∧
      WithinLimits s'.accepted := by
    refine System.invariant_run (I := fun s : RateLimitState => s.Consistent ∧
      (∀ key, s.Steady key (maxOf key) (durationOf key)) ∧ WithinLimits s.accepted)
        ?_ ?_ hkeeps hrun
    · intro s a s' hstep hkeeps hs
      refine ⟨RateLimitState.step_consistent hstep hs.1, fun key =>
        RateLimitState.step_steady hstep hs.1 (hkeeps key) (hs.2.1 key), ?_⟩
      refine (RateLimitState.step_withinLimits hstep hs.1).2 ⟨hs.2.2, ?_⟩
      cases a with
      | clearExpiredItems now => trivial
      | request key maxRequestNum duration now =>
          obtain ⟨rfl, rfl⟩ := hkeeps key rfl
          exact (hs.2.1 key).queueTells (hpos key) (RateLimitState.step_request hstep).1
    · exact ⟨RateLimitState.start_consistent _ _, fun _ => RateLimitState.start_steady _ _, trivial⟩
  exact hinvariant.2.2

end

end NewApi.Model
