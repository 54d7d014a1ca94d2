import NewApi.Lib.System
import NewApi.Model.ChannelAffinity

/-!
# Failures of a channel with affinity

Failures are counted in a cache next to the entry of an affinity key: a failure reads the count and
then stores the next one, or deletes the entry and the count when the limit is reached; a success
stores the entry and deletes the count.  Requests that end at the same time take these steps in any
order.
-/

namespace NewApi.Model

open NewApi.Lib NewApi.Lib.Strings

namespace AffinityFailures

/-! ## The steps of the reports -/

/-- The entry and the failures since the last success or removal, if every report were one step. -/
structure Due where
  entry : Option ℤ
  failures : ℤ
deriving DecidableEq

namespace Due

/-- A failure is counted, and at the limit the entry is removed. -/
def failure (maxFailures : ℤ) (due : Due) : Due :=
  if due.failures + 1 ≥ maxFailures then ⟨none, 0⟩ else ⟨due.entry, due.failures + 1⟩

def success (channelID : ℤ) : Due :=
  ⟨some channelID, 0⟩

end Due

/-- What the caches have under one affinity key, the reports under way, and what is due to the
reports recorded so far. Of a report under way there is the count that a failure has read, or that
the count is still to be deleted. -/
structure ReportState where
  entry : Option ℤ
  count : Option ℤ
  reading : List ℤ
  clearing : ℕ
  due : Due
deriving DecidableEq

def ReportState.initial (entry : Option ℤ) : ReportState where
  entry := entry
  count := none
  reading := []
  clearing := 0
  due := ⟨entry, 0⟩

/-- The accesses of `IncrementAffinityFail` and `RecordChannelAffinity` to the caches. -/
inductive ReportStep
  | getCount
  | setCount (currentCount : ℤ)
  | deleteEntry (currentCount : ℤ)
  | setEntry
  | deleteCount
deriving DecidableEq

/-- A failure is recorded with its write, a success with the entry that it stores. -/
def step (maxFailures channelID : ℤ) (s : ReportState) : ReportStep → Option ReportState
  | .getCount => some { s with reading := s.count.getD 0 :: s.reading }
  | .setCount currentCount =>
      if currentCount ∈ s.reading ∧ ¬ currentCount + 1 ≥ maxFailures then
        some { s with
          count := some (currentCount + 1)
          reading := s.reading.erase currentCount
          due := s.due.failure maxFailures }
      else none
  | .deleteEntry currentCount =>
      if currentCount ∈ s.reading ∧ currentCount + 1 ≥ maxFailures then
        some { s with
          entry := none
          reading := s.reading.erase currentCount
          clearing := s.clearing + 1
          due := s.due.failure maxFailures }
      else none
  | .setEntry =>
      some { s with
        entry := some channelID
        clearing := s.clearing + 1
        due := .success channelID }
  | .deleteCount =>
      if s.clearing > 0 then some { s with count := none, clearing := s.clearing - 1 } else none

def system (maxFailures channelID : ℤ) : System ReportState ReportStep where
  step := step maxFailures channelID

/-- The entry is the one that is due, and where no count is still to be deleted the count is that of
the failures since the last success or removal. -/
structure Kept (s : ReportState) : Prop where
  entry : s.entry = s.due.entry
  count : s.clearing = 0 → s.count.getD 0 = s.due.failures

/-- The write of a report is not out of date. -/
def Timely (maxFailures : ℤ) (s : ReportState) : ReportStep → Prop
  | .getCount => True
  | .setCount currentCount =>
      if s.due.failures + 1 ≥ maxFailures then s.entry = none ∧ s.clearing ≠ 0
      else s.clearing = 0 → currentCount = s.due.failures
  | .deleteEntry _ => s.due.failures + 1 ≥ maxFailures ∨ s.entry = none
  | .setEntry => True
  | .deleteCount => s.clearing = 1 → s.due.failures = 0

instance (maxFailures : ℤ) (s : ReportState) : ∀ action, Decidable (Timely maxFailures s action)
  | .getCount => inferInstanceAs (Decidable True)
  | .setCount currentCount =>
      inferInstanceAs (Decidable (if s.due.failures + 1 ≥ maxFailures then
        s.entry = none ∧ s.clearing ≠ 0 else s.clearing = 0 → currentCount = s.due.failures))
  | .deleteEntry _ =>
      inferInstanceAs (Decidable (s.due.failures + 1 ≥ maxFailures ∨ s.entry = none))
  | .setEntry => inferInstanceAs (Decidable True)
  | .deleteCount => inferInstanceAs (Decidable (s.clearing = 1 → s.due.failures = 0))

/-- No count is negative. -/
structure Counts (s : ReportState) : Prop where
  count : 0 ≤ s.count.getD 0
  reading : ∀ n ∈ s.reading, 0 ≤ n

section

variable {maxFailures channelID currentCount : ℤ} {s s' : ReportState} {action : ReportStep}

theorem counts_initial (entry : Option ℤ) : Counts (.initial entry) :=
  ⟨le_refl 0, fun _ hn => absurd hn List.not_mem_nil⟩

theorem kept_initial (entry : Option ℤ) : Kept (.initial entry) :=
  ⟨rfl, fun _ => rfl⟩

theorem counts_step (hstep : step maxFailures channelID s action = some s') (hs : Counts s) :
    Counts s' := by
  have herase : ∀ m n, n ∈ s.reading.erase m → 0 ≤ n := fun m n hn =>
    hs.reading n (List.mem_of_mem_erase hn)
  cases action with
  | getCount =>
      cases hstep
      exact ⟨hs.count, List.forall_mem_cons.2 ⟨hs.count, hs.reading⟩⟩
  | setCount currentCount =>
      rw [step, Option.ite_none_right_eq_some] at hstep
      obtain ⟨⟨hread, -⟩, hsame⟩ := hstep
      cases hsame
      have hnonneg := hs.reading currentCount hread
      exact ⟨show 0 ≤ currentCount + 1 by omega, herase currentCount⟩
  | deleteEntry currentCount =>
      rw [step, Option.ite_none_right_eq_some] at hstep
      cases hstep.2
      exact ⟨hs.count, herase currentCount⟩
  | setEntry =>
      cases hstep
      exact ⟨hs.count, hs.reading⟩
  | deleteCount =>
      rw [step, Option.ite_none_right_eq_some] at hstep
      cases hstep.2
      exact ⟨le_refl 0, hs.reading⟩

theorem timely_setCount_of_limit (hlimit : s.due.failures + 1 ≥ maxFailures) :
    Timely maxFailures s (.setCount currentCount) ↔ s.entry = none ∧ s.clearing ≠ 0 := by
  simp only [Timely, if_pos hlimit]

theorem timely_setCount_of_not_limit (hlimit : ¬ s.due.failures + 1 ≥ maxFailures) :
    Timely maxFailures s (.setCount currentCount) ↔
      (s.clearing = 0 → currentCount = s.due.failures) := by
  simp only [Timely, if_neg hlimit]

/-- The count of a failure that stays below the limit is kept exactly if it has been read in time.
-/
theorem kept_setCount_iff (hkept : Kept s) (hread : 0 ≤ currentCount) {reading : List ℤ} :
    Kept { s with
        count := some (currentCount + 1)
        reading := reading
        due := s.due.failure maxFailures } ↔
      Timely maxFailures s (.setCount currentCount) := by
  obtain ⟨hentry, -⟩ := hkept
  by_cases hlimit : s.due.failures + 1 ≥ maxFailures
  · have hdue : s.due.failure maxFailures = ⟨none, 0⟩ := if_pos hlimit
    rw [timely_setCount_of_limit hlimit]
    constructor
    · intro hkept
      obtain ⟨hnone, hzero⟩ := hkept
      rw [hdue] at hnone hzero
      refine ⟨hnone, fun hclear => ?_⟩
      have hsum : currentCount + 1 = 0 := hzero hclear
      omega
    · intro htimely
      refine ⟨?_, fun hclear => absurd hclear htimely.2⟩
      show s.entry = (s.due.failure maxFailures).entry
      rw [hdue, htimely.1]
  · have hdue : s.due.failure maxFailures = ⟨s.due.entry, s.due.failures + 1⟩ := if_neg hlimit
    rw [timely_setCount_of_not_limit hlimit]
    constructor
    · intro hkept hclear
      have hsum : currentCount + 1 = (s.due.failure maxFailures).failures := hkept.count hclear
      rw [hdue] at hsum
      show currentCount = s.due.failures
      have hsum : currentCount + 1 = s.due.failures + 1 := hsum
      omega
    · intro htimely
      refine ⟨?_, fun hclear => ?_⟩
      · show s.entry = (s.due.failure maxFailures).entry
        rw [hdue, hentry]
      · show currentCount + 1 = (s.due.failure maxFailures).failures
        rw [hdue, htimely hclear]

/-- A removal is kept exactly if the limit is reached or there is no entry. -/
theorem kept_deleteEntry_iff (hkept : Kept s) {reading : List ℤ} :
    Kept { s with
        entry := none
        reading := reading
        clearing := s.clearing + 1
        due := s.due.failure maxFailures } ↔
      Timely maxFailures s (.deleteEntry currentCount) := by
  obtain ⟨hentry, -⟩ := hkept
  show _ ↔ s.due.failures + 1 ≥ maxFailures ∨ s.entry = none
  by_cases hlimit : s.due.failures + 1 ≥ maxFailures
  · have hdue : s.due.failure maxFailures = ⟨none, 0⟩ := if_pos hlimit
    refine iff_of_true ⟨?_, fun hclear => absurd hclear (Nat.succ_ne_zero _)⟩ (.inl hlimit)
    show none = (s.due.failure maxFailures).entry
    rw [hdue]
  · have hdue : s.due.failure maxFailures = ⟨s.due.entry, s.due.failures + 1⟩ := if_neg hlimit
    rw [or_iff_right hlimit]
    constructor
    · intro hkept
      have hnone : none = (s.due.failure maxFailures).entry := hkept.entry
      rw [hdue] at hnone
      rw [hentry]
      exact hnone.symm
    · intro hnone
      refine ⟨?_, fun hclear => absurd hclear (Nat.succ_ne_zero _)⟩
      show none = (s.due.failure maxFailures).entry
      rw [hdue, ← hnone, hentry]

/-- A step keeps what is due exactly if it is timely. -/
theorem kept_step_iff (hstep : step maxFailures channelID s action = some s') (hs : Counts s)
    (hkept : Kept s) : Kept s' ↔ Timely maxFailures s action := by
  cases action with
  | getCount =>
      cases hstep
      exact iff_of_true ⟨hkept.entry, hkept.count⟩ trivial
  | setCount currentCount =>
      rw [step, Option.ite_none_right_eq_some] at hstep
      obtain ⟨⟨hread, -⟩, hsame⟩ := hstep
      cases hsame
      exact kept_setCount_iff hkept (hs.reading currentCount hread)
  | deleteEntry currentCount =>
      rw [step, Option.ite_none_right_eq_some] at hstep
      cases hstep.2
      exact kept_deleteEntry_iff hkept
  | setEntry =>
      cases hstep
      exact iff_of_true ⟨rfl, fun hclear => absurd hclear (Nat.succ_ne_zero _)⟩ trivial
  | deleteCount =>
      rw [step, Option.ite_none_right_eq_some] at hstep
      obtain ⟨hpending, hsame⟩ := hstep
      cases hsame
      constructor
      · intro hkept' hlast
        exact (hkept'.count (show s.clearing - 1 = 0 by omega)).symm
      · intro htimely
        refine ⟨hkept.entry, fun hclear => ?_⟩
        have hlast : s.clearing = 1 := by
          have hclear : s.clearing - 1 = 0 := hclear
          omega
        exact (htimely hlast).symm

/-- In a run of reports, the entry and the count are in all states what is due exactly if all writes
are timely. -/
theorem reports_kept_iff (maxFailures channelID : ℤ) (entry : Option ℤ) (steps : List ReportStep)
    (after : ReportState)
    (hrun : (system maxFailures channelID).run (.initial entry) steps = some after) :
    (∀ before later s, steps = before ++ later →
        (system maxFailures channelID).run (.initial entry) before = some s → Kept s) ↔
      (system maxFailures channelID).Along (Timely maxFailures) (.initial entry) steps :=
  System.states_iff_along (fun hstep hs => counts_step hstep hs)
    (fun hstep hs hkept => kept_step_iff hstep hs hkept) (counts_initial entry)
    (kept_initial entry) hrun

/-! ## Concurrent failures and reports in turn -/

/-- Of two failures that read the count at the same time, one is lost. -/
theorem concurrent_failures_are_lost :
    ∃ s, (system 2 9).run (.initial (some 7)) [.getCount, .getCount, .setCount 0, .setCount 0] =
      some s ∧ ¬ Kept s := by
  refine ⟨⟨some 7, some 1, [], 0, ⟨none, 0⟩⟩, by decide, ?_⟩
  intro hkept
  cases hkept.entry

/-- Two failures one after the other remove the entry. -/
theorem failures_in_turn_are_kept :
    (system 2 9).run (.initial (some 7))
        [.getCount, .setCount 0, .getCount, .deleteEntry 1, .deleteCount] =
      some ⟨none, none, [], 0, ⟨none, 0⟩⟩ ∧ Kept ⟨none, none, [], 0, ⟨none, 0⟩⟩ := by
  have hrun : (system 2 9).run (.initial (some 7))
      [.getCount, .setCount 0, .getCount, .deleteEntry 1, .deleteCount] =
        some ⟨none, none, [], 0, ⟨none, 0⟩⟩ := by decide
  have hkept := (reports_kept_iff 2 9 (some 7)
    [.getCount, .setCount 0, .getCount, .deleteEntry 1, .deleteCount] _ hrun).2 (by decide)
  exact ⟨hrun, hkept _ [] _ rfl hrun⟩

inductive Report
  | failure
  | success

def Due.after (maxFailures channelID : ℤ) (due : Due) : Report → Due
  | .failure => due.failure maxFailures
  | .success => .success channelID

/-- The steps of a report, for a count that it reads. -/
def reportSteps (maxFailures currentCount : ℤ) : Report → List ReportStep
  | .failure =>
      if currentCount + 1 ≥ maxFailures then [.getCount, .deleteEntry currentCount, .deleteCount]
      else [.getCount, .setCount currentCount]
  | .success => [.setEntry, .deleteCount]

/-- Each report takes all its steps before the next one. -/
def stepsInTurn (maxFailures channelID : ℤ) (due : Due) : List Report → List ReportStep
  | [] => []
  | report :: reports =>
      reportSteps maxFailures due.failures report ++
        stepsInTurn maxFailures channelID (due.after maxFailures channelID report) reports

/-- No report is under way. -/
structure Quiet (s : ReportState) : Prop where
  kept : Kept s
  reading : s.reading = []
  clearing : s.clearing = 0

variable (maxFailures channelID) in
theorem quiet_report (report : Report) (hs : Quiet s) :
    ∃ s', (system maxFailures channelID).run s
        (reportSteps maxFailures s.due.failures report) = some s' ∧
      (system maxFailures channelID).Along (Timely maxFailures) s
        (reportSteps maxFailures s.due.failures report) ∧
      Quiet s' ∧ s'.due = s.due.after maxFailures channelID report := by
  obtain ⟨entry, count, reading, clearing, due⟩ := s
  obtain ⟨⟨hentry, hcount⟩, hreading, hclearing⟩ := hs
  obtain rfl : entry = due.entry := hentry
  obtain rfl : reading = [] := hreading
  obtain rfl : clearing = 0 := hclearing
  have hcount : count.getD 0 = due.failures := hcount rfl
  cases report with
  | success =>
      exact ⟨⟨some channelID, none, [], 0, .success channelID⟩, rfl,
        ⟨trivial, fun _ => rfl, trivial⟩, ⟨⟨rfl, fun _ => rfl⟩, rfl, rfl⟩, rfl⟩
  | failure =>
      by_cases hlimit : due.failures + 1 ≥ maxFailures
      · have hdue : due.failure maxFailures = ⟨none, 0⟩ := if_pos hlimit
        refine ⟨⟨none, none, [], 0, ⟨none, 0⟩⟩, ?_, ?_, ⟨⟨rfl, fun _ => rfl⟩, rfl, rfl⟩, hdue.symm⟩
        · simp [reportSteps, hlimit, System.run, system, step, hcount, hdue]
        · simp [reportSteps, hlimit, System.Along, system, step, hcount, hdue, Timely]
      · have hdue : due.failure maxFailures = ⟨due.entry, due.failures + 1⟩ := if_neg hlimit
        refine ⟨⟨due.entry, some (due.failures + 1), [], 0, ⟨due.entry, due.failures + 1⟩⟩, ?_, ?_,
          ⟨⟨rfl, fun _ => rfl⟩, rfl, rfl⟩, hdue.symm⟩
        · simp [reportSteps, hlimit, System.run, system, step, hcount, hdue]
        · simp [reportSteps, hlimit, System.Along, system, step, hcount, hdue, Timely]

/-- Reports in turn keep what is due. -/
theorem quiet_stepsInTurn (reports : List Report) (hs : Quiet s) :
    ∃ s', (system maxFailures channelID).run s
        (stepsInTurn maxFailures channelID s.due reports) = some s' ∧
      (system maxFailures channelID).Along (Timely maxFailures) s
        (stepsInTurn maxFailures channelID s.due reports) ∧
      Quiet s' ∧ s'.due = reports.foldl (Due.after maxFailures channelID) s.due := by
  induction reports generalizing s with
  | nil => exact ⟨s, rfl, trivial, hs, rfl⟩
  | cons report reports ih =>
      obtain ⟨t, hrun, halong, hquiet, hdue⟩ :=
        quiet_report maxFailures channelID report hs
      obtain ⟨s', hrest, hlater, hquiet', hdue'⟩ := ih hquiet
      rw [hdue] at hrest hlater hdue'
      refine ⟨s', ?_, System.along_of_append hrun halong hlater, hquiet', hdue'⟩
      rw [stepsInTurn, System.run_append hrun]
      exact hrest

end

/-! ## The reports of the code -/

open ChannelAffinity

section

variable {S : Type} {caches : AffinityCaches S} {setting : ChannelAffinitySetting}
  {context : ChannelAffinityMeta} {contextChannelID channelID : ℤ} {state : AffinityState S}
  {s : ReportState}

def CacheResult.value? : CacheResult → Option ℤ
  | .found value => some value
  | .missing => none
  | .failed => none

/-- The caches have the entry and the count of the state under the key. -/
structure Cells (caches : AffinityCaches S) (cacheKey : String) (state : AffinityState S)
    (s : ReportState) : Prop where
  entry : CacheResult.value? (caches.affinity.get state.affinity cacheKey) = s.entry
  count : CacheResult.value? (caches.failures.get state.failures cacheKey) = s.count

theorem Cells.currentCount_eq {cacheKey : String} (hcells : Cells caches cacheKey state s) :
    currentCount caches state cacheKey = s.count.getD 0 := by
  obtain ⟨-, hcount⟩ := hcells
  rw [← hcount, currentCount]
  cases caches.failures.get state.failures cacheKey <;> rfl

/-- The caches keep their values, and the key is one of both. -/
structure Usable (caches : AffinityCaches S) (cacheKey : String) : Prop where
  affinity : caches.affinity.backend.Documented
  failures : caches.failures.backend.Documented
  affinityKey : caches.affinity.ns.fullKey cacheKey ≠ ""
  failuresKey : caches.failures.ns.fullKey cacheKey ≠ ""

/-- A failure that is alone takes the steps of its report. -/
theorem incrementAffinityFail_steps (hcaches : Usable caches context.cacheKey)
    (henabled : setting.enabled = true) (hmax : 0 < setting.maxFailures)
    (hrange : InInt64 setting.maxFailures) (hkey : context.cacheKey ≠ "")
    (hcells : Cells caches context.cacheKey state s) (hcount : 0 ≤ s.count.getD 0) :
    ∃ s', (system setting.maxFailures channelID).run s
        (reportSteps setting.maxFailures (s.count.getD 0) .failure) = some s' ∧
      Cells caches context.cacheKey
        (incrementAffinityFail caches setting (some context) state) s' := by
  have hcontext : getChannelAffinityContext (some context) =
      some (context.cacheKey, context.ttlSeconds) := if_neg hkey
  have hguard : ¬ (!setting.enabled || setting.maxFailures ≤ 0) = true := by
    rw [henabled]
    simp only [Bool.not_true, Bool.false_or, decide_eq_true_eq]
    omega
  rw [incrementAffinityFail, if_neg hguard, hcontext]
  simp only [hcells.currentCount_eq]
  by_cases hlimit : s.count.getD 0 + 1 ≥ setting.maxFailures
  · rw [if_pos hlimit]
    refine ⟨{ s with
      entry := none
      count := none
      due := s.due.failure setting.maxFailures }, ?_, ⟨?_, ?_⟩⟩
    · simp [reportSteps, hlimit, System.run, system, step]
    · show CacheResult.value? (caches.affinity.get _ _) = none
      rw [HybridCache.get_deleteMany hcaches.affinity]
      rfl
    · show CacheResult.value? (caches.failures.get _ _) = none
      rw [HybridCache.get_deleteMany hcaches.failures]
      rfl
  · rw [if_neg hlimit]
    refine ⟨{ s with
      count := some (s.count.getD 0 + 1)
      due := s.due.failure setting.maxFailures }, ?_, ⟨hcells.entry, ?_⟩⟩
    · simp [reportSteps, hlimit, System.run, system, step]
    · have hnext : InInt64 (s.count.getD 0 + 1) := by
        unfold InInt64 at hrange ⊢
        omega
      show CacheResult.value? (caches.failures.get _ _) = some (s.count.getD 0 + 1)
      rw [HybridCache.get_setWithTTL hcaches.failures hnext (effectiveTTL_pos _)
        hcaches.failuresKey rfl]
      rfl

/-- A success that is alone takes the steps of its report. -/
theorem recordChannelAffinity_steps (hcaches : Usable caches context.cacheKey)
    (henabled : setting.enabled = true) (hmax : 0 < setting.maxFailures)
    (hkey : context.cacheKey ≠ "") (hid : 0 < channelID)
    (hrange : InInt64 (recordedChannel setting contextChannelID channelID)) :
    ∃ s', (system setting.maxFailures (recordedChannel setting contextChannelID channelID)).run s
        (reportSteps setting.maxFailures (s.count.getD 0) .success) = some s' ∧
      Cells caches context.cacheKey
        (recordChannelAffinity caches setting (some context) contextChannelID channelID state)
        s' := by
  have hcontext : getChannelAffinityContext (some context) =
      some (context.cacheKey, context.ttlSeconds) := if_neg hkey
  have hguard : ¬ (!setting.enabled || setting.maxFailures ≤ 0) = true := by
    rw [henabled]
    simp only [Bool.not_true, Bool.false_or, decide_eq_true_eq]
    omega
  refine ⟨{ s with
    entry := some (recordedChannel setting contextChannelID channelID)
    count := none
    due := .success (recordedChannel setting contextChannelID channelID) }, ?_, ⟨?_, ?_⟩⟩
  · simp [reportSteps, System.run, system, step]
  · rw [recordChannelAffinity_affinity henabled hid hkey,
      HybridCache.get_setWithTTL hcaches.affinity hrange (effectiveTTL_pos _) hcaches.affinityKey
        rfl]
    rfl
  · have hfailures : (recordChannelAffinity caches setting (some context) contextChannelID channelID
        state).failures = caches.failures.deleteMany state.failures [context.cacheKey] := by
      simp only [recordChannelAffinity, if_neg (show ¬ channelID ≤ 0 by omega), henabled, hcontext,
        clearAffinityFailCount, Bool.not_true, Bool.false_eq_true, if_false, Bool.false_or,
        decide_eq_true_eq, if_neg (show ¬ setting.maxFailures ≤ 0 by omega)]
    rw [hfailures, HybridCache.get_deleteMany hcaches.failures]
    rfl

end

end AffinityFailures

end NewApi.Model
