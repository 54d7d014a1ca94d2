import NewApi.Lib.System
import Mathlib.Data.List.Count
import Mathlib.Tactic.Linarith
import Mathlib.Tactic.Ring

/-!
# The token bucket of the total limit

`rate_limit.lua` fills a bucket at a rate and lets a call pass that finds as many tokens as it
requests.  `redisRateLimitHandler` gives a request the price `duration` and the bucket room for
`totalMaxCount` requests, which it fills in `duration` seconds.  The bucket begins full, so that its
burst and what flows in during the burst's period come on top of each other.
-/

namespace NewApi.Model

open NewApi.Lib

/-- The hash that the script keeps under its key. -/
structure TokenBucket where
  tokens : ℤ
  lastTime : ℤ

/-- `rate_limit.lua`: the bucket afterwards and whether the call is allowed. -/
def rateLimitScript (requested rate capacity nowInSeconds : ℤ) (bucket : Option TokenBucket) :
    TokenBucket × Bool :=
  let tokens :=
    match bucket with
    | none => capacity
    | some bucket => min capacity (bucket.tokens + (nowInSeconds - bucket.lastTime) * rate)
  if requested ≤ tokens then (⟨tokens - requested, nowInSeconds⟩, true)
  else (⟨tokens, nowInSeconds⟩, false)

/-- The bucket of a user, the time of the last call, and the times of the allowed
calls, newest first. -/
structure TotalLimitState where
  bucket : Option TokenBucket
  clock : ℤ
  allowed : List ℤ

namespace TotalLimitState

def start (clock : ℤ) : TotalLimitState where
  bucket := none
  clock := clock
  allowed := []

/-- A call of `redisRateLimitHandler` at a time that is not before the last one. -/
def step (totalMaxCount duration : ℤ) (s : TotalLimitState) (now : ℤ) : Option TotalLimitState :=
  if now < s.clock then none
  else
    let (bucket, allowed) :=
      rateLimitScript duration totalMaxCount (totalMaxCount * duration) now s.bucket
    some
      { bucket := some bucket
        clock := now
        allowed := if allowed then now :: s.allowed else s.allowed }

end TotalLimitState

/-- The calls of one user under a total limit. -/
def totalLimit (totalMaxCount duration : ℤ) : System TotalLimitState ℤ where
  step := TotalLimitState.step totalMaxCount duration

/-- The time lies in the `duration` seconds that begin with `first`. -/
def inSpan (first duration time : ℤ) : Bool :=
  first ≤ time ∧ time < first + duration

/-- The bucket holds between none and `capacity` tokens, and any `duration` seconds have at most
`totalMaxCount` allowed calls. -/
structure TotalLimitState.Limited (totalMaxCount duration : ℤ) (s : TotalLimitState) : Prop where
  tokens : ∀ bucket ∈ s.bucket, 0 ≤ bucket.tokens ∧ bucket.tokens ≤ totalMaxCount * duration
  total : ∀ first, (s.allowed.countP (inSpan first duration) : ℤ) ≤ totalMaxCount

section

variable {totalMaxCount duration now first : ℤ} {s s' : TotalLimitState}

/-! ## What a call finds in the bucket -/

/-- The tokens that a call at the time `now` finds. -/
def TotalLimitState.found (totalMaxCount duration : ℤ) (s : TotalLimitState) (now : ℤ) : ℤ :=
  match s.bucket with
  | none => totalMaxCount * duration
  | some bucket =>
      min (totalMaxCount * duration) (bucket.tokens + (now - bucket.lastTime) * totalMaxCount)

theorem rateLimitScript_found (s : TotalLimitState) :
    rateLimitScript duration totalMaxCount (totalMaxCount * duration) now s.bucket =
      if duration ≤ s.found totalMaxCount duration now then
        (⟨s.found totalMaxCount duration now - duration, now⟩, true)
      else (⟨s.found totalMaxCount duration now, now⟩, false) :=
  rfl

/-- A call pays from the tokens that it finds, or leaves them. -/
theorem step_totalLimit (hstep : (totalLimit totalMaxCount duration).step s now = some s') :
    s.clock ≤ now ∧
      ((duration ≤ s.found totalMaxCount duration now ∧
          s' = ⟨some ⟨s.found totalMaxCount duration now - duration, now⟩, now, now :: s.allowed⟩) ∨
        (s.found totalMaxCount duration now < duration ∧
          s' = ⟨some ⟨s.found totalMaxCount duration now, now⟩, now, s.allowed⟩)) := by
  unfold totalLimit at hstep
  dsimp only at hstep
  rw [TotalLimitState.step, rateLimitScript_found] at hstep
  split at hstep
  case isTrue hback => cases hstep
  case isFalse hclock =>
    refine ⟨Int.not_lt.1 hclock, ?_⟩
    by_cases hpays : duration ≤ s.found totalMaxCount duration now
    · rw [if_pos hpays] at hstep
      exact .inl ⟨hpays, (Option.some.inj hstep).symm⟩
    · rw [if_neg hpays] at hstep
      exact .inr ⟨Int.not_le.1 hpays, (Option.some.inj hstep).symm⟩

namespace TotalLimitState

/-- What the allowed calls since some second have paid and what is left in the bucket was in it
then, or has flowed in since. -/
structure Accounted (totalMaxCount duration : ℤ) (s : TotalLimitState) : Prop where
  past : ∀ time ∈ s.allowed, time ≤ s.clock
  current : ∀ bucket ∈ s.bucket, bucket.lastTime = s.clock
  fresh : s.bucket = none → s.allowed = []
  tokens : ∀ bucket ∈ s.bucket, 0 ≤ bucket.tokens ∧ bucket.tokens ≤ totalMaxCount * duration
  spent : ∀ bucket ∈ s.bucket, ∀ first ≤ s.clock,
    (s.allowed.countP (first ≤ ·) : ℤ) * duration + bucket.tokens ≤
      totalMaxCount * duration + totalMaxCount * (s.clock - first)

theorem start_accounted (clock : ℤ) : (start clock).Accounted totalMaxCount duration where
  past _ htime := by cases htime
  current _ hbucket := by cases hbucket
  fresh _ := rfl
  tokens _ hbucket := by cases hbucket
  spent _ hbucket := by cases hbucket

variable (hcount : 0 < totalMaxCount) (hduration : 0 ≤ duration)

include hcount hduration

theorem Accounted.found_bounds (hs : s.Accounted totalMaxCount duration) (hclock : s.clock ≤ now) :
    0 ≤ s.found totalMaxCount duration now ∧
      s.found totalMaxCount duration now ≤ totalMaxCount * duration := by
  have hcapacity : 0 ≤ totalMaxCount * duration := Int.mul_nonneg hcount.le hduration
  rw [found]
  cases hbucket : s.bucket with
  | none => exact ⟨hcapacity, Int.le_refl _⟩
  | some bucket =>
      have htokens := (hs.tokens bucket hbucket).1
      have hlast := hs.current bucket hbucket
      have hflow : 0 ≤ (now - bucket.lastTime) * totalMaxCount :=
        Int.mul_nonneg (by omega) hcount.le
      show 0 ≤ min _ _ ∧ min _ _ ≤ _
      omega

/-- The account of the calls since `first` when the next call comes. -/
theorem Accounted.found_spent (hs : s.Accounted totalMaxCount duration) (hclock : s.clock ≤ now)
    (hfirst : first ≤ now) :
    (s.allowed.countP (first ≤ ·) : ℤ) * duration + s.found totalMaxCount duration now ≤
      totalMaxCount * duration + totalMaxCount * (now - first) := by
  have hle := (hs.found_bounds hcount hduration hclock).2
  have hflow : 0 ≤ totalMaxCount * (now - first) := Int.mul_nonneg hcount.le (by omega)
  by_cases hknown : first ≤ s.clock ∧ s.bucket ≠ none
  · obtain ⟨bucket, hbucket⟩ := Option.ne_none_iff_exists'.1 hknown.2
    have hspent := hs.spent bucket hbucket first hknown.1
    have hlast := hs.current bucket hbucket
    have hfound : s.found totalMaxCount duration now ≤
        bucket.tokens + (now - s.clock) * totalMaxCount := by
      rw [found, hbucket, ← hlast]
      exact Int.min_le_right _ _
    nlinarith
  · -- no call was allowed since `first`
    have hnone : s.allowed.countP (first ≤ ·) = 0 := by
      rw [List.countP_eq_zero]
      intro time htime hsince
      rw [decide_eq_true_iff] at hsince
      by_cases hbucket : s.bucket = none
      · rw [hs.fresh hbucket] at htime
        cases htime
      · have hpast := hs.past time htime
        exact hknown ⟨by omega, hbucket⟩
    rw [hnone]
    omega

theorem step_accounted (hstep : (totalLimit totalMaxCount duration).step s now = some s')
    (hs : s.Accounted totalMaxCount duration) : s'.Accounted totalMaxCount duration := by
  obtain ⟨hclock, hcase⟩ := step_totalLimit hstep
  have hbounds := hs.found_bounds hcount hduration hclock
  have hspent : ∀ first ≤ now, _ := fun first hfirst =>
    hs.found_spent hcount hduration hclock hfirst
  have hpast : ∀ time ∈ s.allowed, time ≤ now := fun time htime =>
    Int.le_trans (hs.past time htime) hclock
  rcases hcase with ⟨hpays, rfl⟩ | ⟨hlacks, rfl⟩
  · refine ⟨List.forall_mem_cons.2 ⟨Int.le_refl _, hpast⟩, ?_, nofun, ?_, ?_⟩
    · intro bucket hbucket
      obtain rfl := Option.some.inj hbucket
      rfl
    · intro bucket hbucket
      obtain rfl := Option.some.inj hbucket
      dsimp only
      omega
    -- what the call pays is what it adds to the allowed ones
    · intro bucket hbucket first hfirst
      obtain rfl := Option.some.inj hbucket
      have hbefore := hspent first hfirst
      have hcons : (now :: s.allowed).countP (first ≤ ·) = s.allowed.countP (first ≤ ·) + 1 :=
        List.countP_cons_of_pos (decide_eq_true hfirst)
      dsimp only
      rw [hcons, Int.natCast_add, Int.add_mul]
      omega
  · refine ⟨hpast, ?_, nofun, ?_, ?_⟩
    · intro bucket hbucket
      obtain rfl := Option.some.inj hbucket
      rfl
    · intro bucket hbucket
      obtain rfl := Option.some.inj hbucket
      exact hbounds
    · intro bucket hbucket first hfirst
      obtain rfl := Option.some.inj hbucket
      exact hspent first hfirst

theorem step_span (hstep : (totalLimit totalMaxCount duration).step s now = some s')
    (hs : s.Accounted totalMaxCount duration)
    (hspans : ∀ first, (s.allowed.countP (inSpan first duration) : ℤ) * duration ≤
      totalMaxCount * (2 * duration - 1)) (first : ℤ) :
    (s'.allowed.countP (inSpan first duration) : ℤ) * duration ≤
      totalMaxCount * (2 * duration - 1) := by
  obtain ⟨hclock, ⟨hpays, rfl⟩ | ⟨hlacks, rfl⟩⟩ := step_totalLimit hstep
  · dsimp only
    cases hin : inSpan first duration now with
    | false =>
        rw [List.countP_cons_of_neg (by rw [hin]; exact Bool.false_ne_true)]
        exact hspans first
    | true =>
        rw [List.countP_cons_of_pos hin]
        rw [inSpan, decide_eq_true_iff] at hin
        -- the span has not ended yet, so that it holds all the calls since it began
        have hsince : s.allowed.countP (inSpan first duration) ≤ s.allowed.countP (first ≤ ·) := by
          refine List.countP_mono_left fun time _ htime => ?_
          rw [inSpan, decide_eq_true_iff] at htime
          exact decide_eq_true htime.1
        have hspent := hs.found_spent hcount hduration hclock hin.1
        have hrest : totalMaxCount * (now - first) ≤ totalMaxCount * (duration - 1) :=
          Int.mul_le_mul_of_nonneg_left (by omega) hcount.le
        have hmul : (s.allowed.countP (inSpan first duration) : ℤ) * duration ≤
            (s.allowed.countP (first ≤ ·) : ℤ) * duration :=
          Int.mul_le_mul_of_nonneg_right (by omega) hduration
        have htotal : totalMaxCount * (2 * duration - 1) =
            totalMaxCount * duration + totalMaxCount * (duration - 1) := by ring
        rw [htotal, Int.natCast_add, Int.add_mul]
        omega
  · exact hspans first

omit hcount hduration in
theorem run_accounted (hcount : 0 < totalMaxCount) (hduration : 0 ≤ duration) (clock : ℤ)
    {calls : List ℤ} (hrun : (totalLimit totalMaxCount duration).run (start clock) calls = some s') :
    s'.Accounted totalMaxCount duration :=
  System.kept_run (step_accounted hcount hduration) (start_accounted clock) hrun

omit hcount hduration in
/-- The burst of a full bucket and the refill of a period: less than twice the limit
in any period. -/
theorem allowed_in_span (hcount : 0 < totalMaxCount) (hduration : 0 < duration) (clock : ℤ)
    {calls : List ℤ} (hrun : (totalLimit totalMaxCount duration).run (start clock) calls = some s')
    (first : ℤ) :
    (s'.allowed.countP (inSpan first duration) : ℤ) * duration ≤
      totalMaxCount * (2 * duration - 1) := by
  refine (System.kept_run
    (I := fun s => s.Accounted totalMaxCount duration ∧
      ∀ first, (s.allowed.countP (inSpan first duration) : ℤ) * duration ≤
        totalMaxCount * (2 * duration - 1))
    (fun hstep hs => ⟨step_accounted hcount hduration.le hstep hs.1,
      step_span hcount hduration.le hstep hs.1 hs.2⟩)
    ⟨start_accounted clock, fun first => ?_⟩ hrun).2 first
  show (0 : ℤ) * duration ≤ _
  nlinarith

end TotalLimitState

/-! ## When the limit holds -/

theorem step_pays (hclock : s.clock ≤ now)
    (hpays : duration ≤ s.found totalMaxCount duration now) :
    (totalLimit totalMaxCount duration).step s now =
      some ⟨some ⟨s.found totalMaxCount duration now - duration, now⟩, now, now :: s.allowed⟩ := by
  unfold totalLimit
  dsimp only
  rw [TotalLimitState.step, rateLimitScript_found, if_neg (by omega), if_pos hpays]
  rfl

/-- The state after some calls at the time zero. -/
def burst (totalMaxCount duration : ℤ) (calls : ℕ) : TotalLimitState where
  bucket := some ⟨totalMaxCount * duration - calls * duration, 0⟩
  clock := 0
  allowed := List.replicate calls 0

theorem burst_succ (totalMaxCount duration : ℤ) (calls : ℕ) :
    burst totalMaxCount duration (calls + 1) =
      ⟨some ⟨totalMaxCount * duration - calls * duration - duration, 0⟩, 0,
        0 :: List.replicate calls 0⟩ := by
  have htokens : totalMaxCount * duration - ((calls + 1 : ℕ) : ℤ) * duration =
      totalMaxCount * duration - calls * duration - duration := by
    rw [Int.natCast_add, Int.add_mul]
    omega
  rw [burst, htokens]
  rfl

/-- The calls of a burst pass while the bucket lasts. -/
theorem run_burst (hduration : 0 ≤ duration) (rest : List ℤ) (n k : ℕ)
    (hfit : ((k + n : ℕ) : ℤ) ≤ totalMaxCount) :
    (totalLimit totalMaxCount duration).run (burst totalMaxCount duration k)
        (List.replicate n 0 ++ rest) =
      (totalLimit totalMaxCount duration).run (burst totalMaxCount duration (k + n)) rest := by
  induction n generalizing k with
  | zero => rfl
  | succ n ih =>
      have hroom : ((k + 1 : ℕ) : ℤ) * duration ≤ totalMaxCount * duration :=
        Int.mul_le_mul_of_nonneg_right (by omega) hduration
      rw [Int.natCast_add, Int.add_mul] at hroom
      have hfound : (burst totalMaxCount duration k).found totalMaxCount duration 0 =
          totalMaxCount * duration - k * duration := by
        have hspent : 0 ≤ (k : ℤ) * duration := Int.mul_nonneg (by omega) hduration
        show min _ (totalMaxCount * duration - k * duration + (0 - 0) * totalMaxCount) = _
        rw [Int.sub_self, Int.zero_mul]
        omega
      have hstep : (totalLimit totalMaxCount duration).step (burst totalMaxCount duration k) 0 =
          some (burst totalMaxCount duration (k + 1)) := by
        rw [step_pays (Int.le_refl 0) (by rw [hfound]; omega), hfound, burst_succ]
        rfl
      rw [List.replicate_succ, List.cons_append, System.run, hstep]
      dsimp only
      rw [ih (k + 1) (by omega), Nat.add_right_comm, Nat.add_assoc]

/-- With room for two requests and a period of two seconds, one more call passes in the last second
of the period that began with a full burst. -/
theorem burst_exceeds (hcount : 2 ≤ totalMaxCount) (hduration : 2 ≤ duration) :
    ∃ calls s', (totalLimit totalMaxCount duration).run (.start 0) calls = some s' ∧
      totalMaxCount < (s'.allowed.countP (inSpan 0 duration) : ℤ) := by
  obtain ⟨n, hn⟩ : ∃ n : ℕ, totalMaxCount = (1 + n : ℕ) := ⟨(totalMaxCount - 1).toNat, by omega⟩
  have hfirst : (totalLimit totalMaxCount duration).step (.start 0) 0 =
      some (burst totalMaxCount duration 1) := by
    have hpays : duration ≤ totalMaxCount * duration := by nlinarith
    rw [step_pays (Int.le_refl 0) hpays, burst_succ, Int.natCast_zero, Int.zero_mul, Int.sub_zero]
    rfl
  -- the burst has emptied the bucket, and all but a second of the period refills it
  have hrefilled : (burst totalMaxCount duration (1 + n)).found totalMaxCount
    duration (duration - 1) =
      (duration - 1) * totalMaxCount := by
    show min _ (totalMaxCount * duration - ((1 + n : ℕ) : ℤ) * duration +
      (duration - 1 - 0) * totalMaxCount) = _
    rw [← hn, Int.sub_self, Int.zero_add, Int.sub_zero]
    exact Int.min_eq_right (by nlinarith)
  have hpays : duration ≤ (duration - 1) * totalMaxCount := by nlinarith
  refine ⟨0 :: (List.replicate n 0 ++ [duration - 1]),
    ⟨some ⟨(duration - 1) * totalMaxCount - duration, duration - 1⟩, duration - 1,
      (duration - 1) :: List.replicate (1 + n) 0⟩, ?_, ?_⟩
  · rw [System.run, hfirst]
    dsimp only
    have hlate : (burst totalMaxCount duration (1 + n)).clock ≤ duration - 1 := by
      show 0 ≤ duration - 1
      omega
    rw [run_burst (by omega) _ n 1 (by omega), System.run,
      step_pays hlate (by rw [hrefilled]; exact hpays), hrefilled]
    rfl
  · have hzero : inSpan 0 duration 0 = true := decide_eq_true (by omega)
    have hlast : inSpan 0 duration (duration - 1) = true := decide_eq_true (by omega)
    rw [List.countP_cons_of_pos hlast, List.countP_replicate, if_pos hzero]
    omega

theorem nonneg_of_limited (hcount : 0 < totalMaxCount)
    (hlimited : ∀ clock calls s', (totalLimit totalMaxCount duration).run (.start clock) calls = some s' →
      s'.Limited totalMaxCount duration) : 0 ≤ duration := by
  by_contra hneg
  obtain ⟨s', hstep⟩ :
      ∃ s', (totalLimit totalMaxCount duration).step (.start 0) 0 = some s' := ⟨_, rfl⟩
  have hrun : (totalLimit totalMaxCount duration).run (.start 0) [0] = some s' := by
    rw [System.run, hstep]
    rfl
  have htokens := (hlimited 0 [0] s' hrun).tokens
  have hfull : totalMaxCount * duration < 0 := by nlinarith
  obtain ⟨-, ⟨-, rfl⟩ | ⟨-, rfl⟩⟩ := step_totalLimit hstep
  · have hpaid : totalMaxCount * duration - duration ≤ totalMaxCount * duration := (htokens _ rfl).2
    omega
  · have hleft : 0 ≤ totalMaxCount * duration := (htokens _ rfl).1
    omega

/-- Calls without a price are in no period, and find an empty bucket that is full. -/
theorem limited_of_zero (hcount : 0 < totalMaxCount) (hs : s.Accounted totalMaxCount 0) :
    s.Limited totalMaxCount 0 := by
  refine ⟨hs.tokens, fun first => ?_⟩
  have hnone : s.allowed.countP (inSpan first 0) = 0 := by
    rw [List.countP_eq_zero]
    intro time _ hin
    rw [inSpan, decide_eq_true_iff] at hin
    omega
  rw [hnone]
  omega

/-- A total limit holds over every sequence of calls exactly when it allows a single request or its
period is at most one second. -/
theorem total_limit_holds_iff (hcount : 0 < totalMaxCount) :
    (∀ clock calls s', (totalLimit totalMaxCount duration).run (.start clock) calls = some s' →
        s'.Limited totalMaxCount duration) ↔
      0 ≤ duration ∧ (totalMaxCount = 1 ∨ duration ≤ 1) := by
  constructor
  · intro hlimited
    refine ⟨nonneg_of_limited hcount hlimited, ?_⟩
    by_contra hboth
    have htwo : 2 ≤ totalMaxCount := by omega
    have hlong : 2 ≤ duration := by omega
    obtain ⟨calls, s', hrun, hexceeds⟩ := burst_exceeds htwo hlong
    have htotal := (hlimited 0 calls s' hrun).total 0
    omega
  · rintro ⟨hnonneg, hcase⟩ clock calls s' hrun
    have haccounted := TotalLimitState.run_accounted hcount hnonneg clock hrun
    by_cases hzero : duration = 0
    · obtain rfl := hzero
      exact limited_of_zero hcount haccounted
    · refine ⟨haccounted.tokens, fun first => ?_⟩
      have hspan := TotalLimitState.allowed_in_span hcount (by omega) clock hrun first
      by_contra hmore
      have hpaid : (totalMaxCount + 1) * duration ≤
          (s'.allowed.countP (inSpan first duration) : ℤ) * duration :=
        Int.mul_le_mul_of_nonneg_right (by omega) hnonneg
      rcases hcase with rfl | hshort
      · omega
      · obtain rfl : duration = 1 := by omega
        omega

theorem total_limit_holds_iff_one :
    (0 : ℤ) ≤ 60 ∧
      ∀ clock calls s', (totalLimit 1 60).run (.start clock) calls = some s' → s'.Limited 1 60 := by
  have hduration : (0 : ℤ) ≤ 60 := by decide
  exact ⟨hduration, (total_limit_holds_iff (by decide)).2 ⟨hduration, .inl rfl⟩⟩

/-- Two requests a minute: three are allowed within a minute. -/
theorem total_limit_exceeded :
    ∃ s', (totalLimit 2 60).run (.start 0) [0, 0, 59] = some s' ∧ s'.allowed = [59, 0, 0] ∧
      ¬ s'.Limited 2 60 := by
  refine ⟨_, rfl, by decide, fun hlimited => ?_⟩
  have htotal := hlimited.total 0
  revert htotal
  decide

end

end NewApi.Model
