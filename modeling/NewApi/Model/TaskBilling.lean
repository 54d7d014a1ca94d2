import NewApi.Model.TaskLedger

/-!
# Refunds and settlements of asynchronous tasks

A failed task has been refunded its charge exactly once and a successful one is settled at
most once in every run that stays on the paths which tie a terminal status to its movement:
the invariant is that neither a row nor a copy in memory is unfinished once its bill has a
movement on it.
-/

namespace NewApi.Model

open NewApi.Lib

/-- What the bill of a task says when its terminal status and its movement belong together. -/
structure TaskSettledOnce (e : Billed Task) : Prop where
  failed : e.row.status = TaskStatusFailure →
    e.bill.refunds = e.bill.refundDue ∧ e.bill.resettlements = []
  refundedOnce : e.bill.refunds = [] ∨ e.bill.refunds = e.bill.refundDue
  resettledOnce : e.bill.resettlements = [] ∨ ∃ quota : ℤ, e.bill.resettlements =
    [{ actualQuota := quota, quotaDelta := quota - e.bill.charged }]
  exclusive : e.bill.refunds = [] ∨ e.bill.resettlements = []

/-- The recorded quota, in a row or a copy of it, is the charge until the task is refunded or
settled. -/
def FairQuota (row : Task) (e : Billed Task) : Prop :=
  row.quota = e.bill.charged ∨ ¬e.bill.Untouched

/-- A row that the poller may still select has not been refunded or settled. -/
structure FairTask (e : Billed Task) : Prop extends TaskSettledOnce e where
  nonneg : 0 ≤ e.bill.charged
  quota : FairQuota e.row e
  unfinished : e.row.unfinished = true → e.bill.Untouched

/-- A copy that is unfinished in memory belongs to a task that has not been refunded or
settled, whatever its row says. -/
structure FairTaskCopy (row : Task) (e : Billed Task) : Prop where
  quota : FairQuota row e
  unfinished : row.unfinished = true → e.bill.Untouched
  suno : row.platform = TaskPlatformSuno → row.unfinished = true ∨ row.progress = "100%"

theorem FairQuota.untouched {row : Task} {e : Billed Task} (hquota : FairQuota row e)
    (huntouched : e.bill.Untouched) : row.quota = e.bill.charged :=
  hquota.resolve_right fun htouched => htouched huntouched

/-- The quota of the bill stays, and what is on it stays on it. -/
theorem FairQuota.entry {row : Task} {e : Billed Task} (hquota : FairQuota row e)
    (result : PollResult Task) (db : DB) : FairQuota row (result.entry db e) := by
  rcases hquota with hcharged | htouched
  · left
    rw [result.entry_charged]
    exact hcharged
  · exact .inr (PollResult.entry_touched htouched)

theorem Task.finished_of_progress {task : Task} (hprogress : task.progress = "100%") :
    task.unfinished = false := by
  simp [Task.unfinished, hprogress]

theorem Task.finished_of_success {task : Task} (hstatus : task.status = TaskStatusSuccess) :
    task.unfinished = false := by
  simp [Task.unfinished, hstatus]

theorem Task.finished_of_failure {task : Task} (hstatus : task.status = TaskStatusFailure) :
    task.unfinished = false := by
  simp [Task.unfinished, hstatus]

/-- An item that leaves the task failed fails it. -/
theorem SunoItem.fails_of_merged (item : SunoItem) {task : Task}
    (hstatus : (task.merge item).status = TaskStatusFailure) : item.fails task = true := by
  simp [SunoItem.fails, hstatus]

/-- The rows that a bulk update may fail without a refund. -/
def Task.FailsFree (task : Task) : Prop :=
  task.status = TaskStatusFailure ∨ (task.unfinished = true ∧ task.quota = 0)

instance : DecidablePred Task.FailsFree := fun _ => inferInstanceAs (Decidable (_ ∨ _))

namespace FairTask

variable {e : Billed Task}

/-- A submitted task. -/
theorem submitted {row : Task} {payer : Payer} {quota : ℤ}
    (hstatus : row.status ≠ TaskStatusFailure)
    (hrow : row.quota = quota) (hquota : 0 ≤ quota) :
    FairTask { row := row, bill := .submitted payer quota } where
  failed := fun hfailure => absurd hfailure hstatus
  refundedOnce := .inl rfl
  resettledOnce := .inl rfl
  exclusive := .inl rfl
  nonneg := hquota
  quota := .inl hrow
  unfinished := fun _ => Bill.submitted_untouched payer quota

/-- A row may be failed in bulk if it has failed before or was free. -/
theorem failFree {row : Task} (hfair : FairTask e) (hrow : e.row.FailsFree)
    (hstatus : row.status = TaskStatusFailure) (hquota : FairQuota row e) :
    FairTask { e with row := row } := by
  have hfailed : e.bill.refunds = e.bill.refundDue ∧ e.bill.resettlements = [] := by
    rcases hrow with hfailure | ⟨hunfinished, hfree⟩
    · exact hfair.failed hfailure
    · have huntouched := hfair.unfinished hunfinished
      rw [Bill.refundDue_of_free ((hfair.quota.untouched huntouched).symm.trans hfree)]
      exact huntouched
  refine ⟨⟨fun _ => hfailed, hfair.refundedOnce, hfair.resettledOnce, hfair.exclusive⟩,
    hfair.nonneg, hquota, fun hunfinished => ?_⟩
  rw [Task.finished_of_failure hstatus] at hunfinished
  exact absurd hunfinished Bool.false_ne_true

/-- A poll without a movement may save a finished row that has not failed. -/
theorem keep {result : PollResult Task} {db : DB} (hfair : FairTask e)
    (hmovement : result.movement = none)
    (hquota : FairQuota result.row e)
    (hrow : result.saved = true →
      result.row.unfinished = false ∧ result.row.status ≠ TaskStatusFailure) :
    FairTask (result.entry db e) := by
  cases hsaved : result.saved with
  | false =>
      rw [PollResult.entry_same hmovement hsaved]
      exact hfair
  | true =>
      obtain ⟨hfinished, hstatus⟩ := hrow hsaved
      rw [PollResult.entry_written hmovement hsaved]
      refine ⟨⟨fun hfailure => absurd hfailure hstatus, hfair.refundedOnce, hfair.resettledOnce,
        hfair.exclusive⟩, hfair.nonneg, hquota, fun hunfinished => ?_⟩
      exact absurd (hfinished.symm.trans hunfinished) Bool.false_ne_true

end FairTask

/-- What polling an unfinished copy comes to: no movement, and then only a free task is saved
as failed; the refund together with a saved terminal row; or the settlement together with a
saved success. -/
inductive PollOutcome (task : Task) (result : PollResult Task) : Prop
  | still (hmovement : result.movement = none) (hquota : result.row.quota = task.quota)
      (hfailure : result.saved = true → result.row.status = TaskStatusFailure → task.quota = 0)
  | refunded (hmovement : result.movement = some (.refund task.userId task.quota))
      (hquota : task.quota ≠ 0) (hsaved : result.saved = true)
      (hfinished : result.row.unfinished = false)
  | resettled (quota : ℤ)
      (hmovement : result.movement = some (.resettle task.userId task.channelId
        { actualQuota := quota, quotaDelta := quota - task.quota }))
      (hsaved : result.saved = true) (hstatus : result.row.status = TaskStatusSuccess)

/-- The bill takes at most one movement, because it is only made while the bill is
untouched. -/
theorem PollOutcome.fair {task : Task} {result : PollResult Task} {e : Billed Task}
    (houtcome : PollOutcome task result) (hfair : FairTask e) (hcopy : FairTaskCopy task e)
    (htask : task.unfinished = true) (db : DB) :
    FairTask (result.entry db e) ∧ FairQuota result.row (result.entry db e) ∧
      (result.row.unfinished = true → (result.entry db e).bill.Untouched) := by
  have huntouched := hcopy.unfinished htask
  have hquota := hcopy.quota.untouched huntouched
  have hcharged := result.entry_charged db e
  have hnonneg : 0 ≤ (result.entry db e).bill.charged := by
    rw [hcharged]
    exact hfair.nonneg
  cases houtcome with
  | still hmovement hsame hfailure =>
      have hbill := result.entry_still hmovement db e
      have hstill : (result.entry db e).bill.Untouched := by
        rw [hbill]
        exact huntouched
      have hrecorded : FairQuota result.row (result.entry db e) := by
        left
        rw [hcharged, hsame, hquota]
      refine ⟨?_, hrecorded, fun _ => hstill⟩
      cases hsaved : result.saved with
      | false =>
          rw [result.entry_same hmovement hsaved]
          exact hfair
      | true =>
          have hrow := result.entry_saved hsaved db e
          refine ⟨⟨fun hstatus => ?_, .inl hstill.1, .inl hstill.2, .inl hstill.1⟩, hnonneg, ?_,
            fun _ => hstill⟩
          · have hfree : (result.entry db e).bill.charged = 0 := by
              rw [hcharged, ← hquota]
              exact hfailure hsaved (hrow ▸ hstatus)
            rw [Bill.refundDue_of_free hfree]
            exact hstill
          · rw [hrow]
            exact hrecorded
  | refunded hmovement hpaid hsaved hfinished =>
      have hrow := result.entry_saved hsaved db e
      have hamount : 0 ≤ task.quota := by
        rw [hquota]
        exact hfair.nonneg
      have hbill := PollResult.entry_moved hmovement (Movement.run_refund _ hamount db) e
      have htouched : ¬(result.entry db e).bill.Untouched := by
        rw [hbill]
        exact Movement.note_touched _ _
      have hrefunds : (result.entry db e).bill.refunds = (result.entry db e).bill.refundDue := by
        rw [Bill.refundDue_of_charged (by rw [hcharged, ← hquota]; exact hpaid), hcharged, hbill]
        show e.bill.refunds ++ [task.quota] = [e.bill.charged]
        rw [huntouched.1, hquota]
        rfl
      have hresettlements : (result.entry db e).bill.resettlements = [] := by
        rw [hbill]
        exact huntouched.2
      refine ⟨⟨⟨fun _ => ⟨hrefunds, hresettlements⟩, .inr hrefunds, .inl hresettlements,
        .inr hresettlements⟩, hnonneg, .inr htouched, fun hunfinished => ?_⟩, .inr htouched,
        fun hunfinished => ?_⟩
      · rw [hrow, hfinished] at hunfinished
        exact absurd hunfinished Bool.false_ne_true
      · exact absurd (hfinished.symm.trans hunfinished) Bool.false_ne_true
  | resettled quota hmovement hsaved hstatus =>
      have hrow := result.entry_saved hsaved db e
      have hfinished := Task.finished_of_success hstatus
      have hbill := PollResult.entry_moved hmovement (Movement.run_resettle _ _ _ db) e
      have htouched : ¬(result.entry db e).bill.Untouched := by
        rw [hbill]
        exact Movement.note_touched _ _
      have hrefunds : (result.entry db e).bill.refunds = [] := by
        rw [hbill]
        exact huntouched.1
      have hresettlements : (result.entry db e).bill.resettlements =
          [{ actualQuota := quota, quotaDelta := quota - (result.entry db e).bill.charged }] := by
        rw [hcharged, hbill]
        show e.bill.resettlements ++ [_] = _
        rw [huntouched.2, hquota]
        rfl
      refine ⟨⟨⟨fun hfailure => ?_, .inl hrefunds, .inr ⟨quota, hresettlements⟩, .inl hrefunds⟩,
        hnonneg, .inr htouched, fun hunfinished => ?_⟩, .inr htouched, fun hunfinished => ?_⟩
      · rw [hrow, hstatus] at hfailure
        exact absurd hfailure (by decide)
      · rw [hrow, hfinished] at hunfinished
        exact absurd hunfinished Bool.false_ne_true
      · exact absurd (hfinished.symm.trans hunfinished) Bool.false_ne_true

section

variable {F : Type} [Float64 F] (cfg : TaskSettings F)

/-- The response settles the task at another quota than the recorded one. -/
def resettles (task : Task) (resp : VideoResponse) : Bool :=
  resp.info.status = TaskStatusSuccess &&
    match actualQuota cfg { task with data := resp.data } resp.info resp.userGroup with
    | none => false
    | some quota => quota ≠ task.quota

theorem TaskInfo.orFailed_eq {info : TaskInfo} {status : String}
    (hstatus : info.orFailed.status = status) (hother : status ≠ TaskStatusFailure) :
    info.orFailed = info := by
  rw [TaskInfo.orFailed] at hstatus ⊢
  split at hstatus
  case isTrue hempty => exact absurd hstatus.symm hother
  case isFalse hreported => exact if_neg hreported

theorem updateVideoSingleTask_outcome {task : Task} {resp : VideoResponse} {ok : Bool}
    (htask : task.unfinished = true) (hok : resettles cfg task resp = true → ok = true) :
    PollOutcome task (updateVideoSingleTask cfg task resp ok) := by
  rw [updateVideoSingleTask]
  dsimp only
  split_ifs with hsubmitted hqueued hprogress hsuccess hfailure hrefund
  · exact .still rfl rfl fun _ hstatus => absurd (hsubmitted.symm.trans hstatus) (by decide)
  · exact .still rfl rfl fun _ hstatus => absurd (hqueued.symm.trans hstatus) (by decide)
  · exact .still rfl rfl fun _ hstatus => absurd hstatus (by decide : TaskStatusInProgress ≠ _)
  · have hinfo := TaskInfo.orFailed_eq hsuccess (by decide)
    rw [hinfo] at hsuccess ⊢
    have hnotFailed : TaskStatusSuccess ≠ TaskStatusFailure := by decide
    rw [resettles, hsuccess] at hok
    rw [settleVideoTask]
    change (_ && match actualQuota cfg (Task.succeed { task with data := resp.data } resp.info resp.now)
      resp.info resp.userGroup with | none => false | some quota => decide (quota ≠ task.quota)) = true →
      ok = true at hok
    cases hactual : actualQuota cfg (Task.succeed { task with data := resp.data } resp.info resp.now)
        resp.info resp.userGroup with
    | none => exact .still rfl rfl fun _ hstatus => absurd hstatus hnotFailed
    | some quota =>
        dsimp only
        split
        case isTrue hexact => exact .still rfl rfl fun _ hstatus => absurd hstatus hnotFailed
        case isFalse hdelta =>
          refine .resettled quota rfl (hok ?_) rfl
          have hother : quota ≠ task.quota := fun hsame => hdelta (by rw [hsame]; exact Int.sub_self _)
          rw [hactual]
          simp [hother]
  · exact .refunded rfl hrefund.1 hrefund.2.2 (Task.finished_of_progress rfl)
  · refine .still rfl rfl fun hsaved _ => ?_
    by_contra hquota
    refine hrefund ⟨hquota, fun hfailed => ?_, hsaved⟩
    rw [Task.finished_of_failure hfailed] at htask
    exact absurd htask Bool.false_ne_true
  · exact .still rfl rfl fun hsaved => absurd hsaved Bool.false_ne_true

omit [Float64 F]

/-- An item that fails a task refunds it, if it is not free. -/
theorem updateSunoTask_outcome {task : Task} {item : SunoItem} {err ok : Bool}
    (hrefund : checkTaskNeedUpdate cfg task item = true → item.fails task = true →
      task.quota ≠ 0 → err = false ∧ ok = true) :
    PollOutcome task (updateSunoTask cfg task item err ok) := by
  rw [updateSunoTask]
  split
  case isTrue hskip => exact .still rfl rfl fun hsaved => absurd hsaved Bool.false_ne_true
  case isFalse hupdate =>
    have hneed : checkTaskNeedUpdate cfg task item = true := by simpa using hupdate
    by_cases hpays : item.fails task = true ∧ task.quota ≠ 0
    · obtain ⟨rfl, rfl⟩ := hrefund hneed hpays.1 hpays.2
      refine .refunded ?_ hpays.2 rfl (Task.finished_of_progress ?_)
      · simp [hpays.1, hpays.2]
      · simp [Task.assigned, hpays.1]
    · have hstays : ¬(item.fails task && !err && decide (task.quota ≠ 0)) = true := by
        intro hrefunds
        simp only [Bool.and_eq_true, decide_eq_true_eq] at hrefunds
        exact hpays ⟨hrefunds.1.1, hrefunds.2⟩
      refine .still (if_neg hstays) rfl fun _ hstatus => ?_
      by_contra hquota
      exact hpays ⟨item.fails_of_merged hstatus, hquota⟩

theorem updateSunoTask_quota (task : Task) (item : SunoItem) (err ok : Bool) :
    (updateSunoTask cfg task item err ok).row.quota = task.quota := by
  rw [updateSunoTask]
  split <;> rfl

/-- A finished progress stays. -/
theorem updateSunoTask_done {task : Task} (item : SunoItem) (err ok : Bool)
    (htask : task.progress = "100%") :
    (updateSunoTask cfg task item err ok).row.progress = "100%" := by
  rw [updateSunoTask]
  split
  case isTrue hskip => exact htask
  case isFalse hupdate =>
    dsimp only [Task.assigned]
    split
    case isTrue hends => rfl
    case isFalse hopen => exact htask

/-- The copy of a Suno task that is no longer unfinished shows it in its progress. -/
theorem updateSunoTask_progress {task : Task} (item : SunoItem) (err ok : Bool)
    (htask : task.unfinished = true ∨ task.progress = "100%") :
    (updateSunoTask cfg task item err ok).row.unfinished = true ∨
      (updateSunoTask cfg task item err ok).row.progress = "100%" := by
  rcases htask with hunfinished | hprogress
  · rw [updateSunoTask]
    split
    case isTrue hskip => exact .inl hunfinished
    case isFalse hupdate =>
      dsimp only [Task.assigned]
      split
      case isTrue hends => exact .inr rfl
      case isFalse hgoes =>
        left
        simp only [Bool.or_eq_true, decide_eq_true_eq, not_or, SunoItem.fails] at hgoes
        obtain ⟨⟨-, hfailure⟩, hsuccess⟩ := hgoes
        simp only [Task.unfinished, Bool.and_eq_true, decide_eq_true_eq] at hunfinished ⊢
        refine ⟨⟨hunfinished.1.1, hfailure⟩, ?_⟩
        show (if item.status ≠ "" then item.status else task.status) ≠ TaskStatusSuccess
        split
        case isTrue hreported => exact hsuccess
        case isFalse hsilent => exact hunfinished.2
  · exact .inr (updateSunoTask_done cfg item err ok hprogress)

/-- A later item of a finished Suno task that does not fail it leaves its bill alone. -/
theorem updateSunoTask_finished {task : Task} {item : SunoItem} {e : Billed Task} (err ok : Bool)
    (hfair : FairTask e) (hquota : FairQuota task e) (htask : task.progress = "100%")
    (hgoes : checkTaskNeedUpdate cfg task item = true → item.fails task = false) (db : DB) :
    FairTask ((updateSunoTask cfg task item err ok).entry db e) := by
  cases hneed : checkTaskNeedUpdate cfg task item with
  | false =>
      have hskip : updateSunoTask cfg task item err ok = .skip task := by
        rw [updateSunoTask, hneed]
        rfl
      rw [hskip, PollResult.entry_same rfl rfl]
      exact hfair
  | true =>
      have hstays := hgoes hneed
      have hprogress := updateSunoTask_done cfg item err ok htask
      rw [updateSunoTask, hneed, hstays] at hprogress ⊢
      refine hfair.keep rfl hquota fun _ => ⟨Task.finished_of_progress hprogress, fun hstatus => ?_⟩
      rw [item.fails_of_merged hstatus] at hstays
      exact absurd hstays.symm Bool.false_ne_true

end

/-- A fetch may write a row if it does not take a finished task back, and fails only a task
that has failed before or was free. -/
def Task.MayWrite (old new : Task) : Prop :=
  (new.unfinished = true → old.unfinished = true) ∧
    (new.status = TaskStatusFailure → old.FailsFree)

instance (old new : Task) : Decidable (old.MayWrite new) :=
  inferInstanceAs (Decidable (_ ∧ _))

theorem FairTask.write {row : Task} {e : Billed Task} (hfair : FairTask e)
    (hquota : FairQuota row e) (hwrite : e.row.MayWrite row) : FairTask { e with row := row } := by
  by_cases hstatus : row.status = TaskStatusFailure
  · exact hfair.failFree (hwrite.2 hstatus) hstatus hquota
  · exact ⟨⟨fun hfailure => absurd hfailure hstatus, hfair.refundedOnce, hfair.resettledOnce,
      hfair.exclusive⟩, hfair.nonneg, hquota, fun hunfinished =>
      hfair.unfinished (hwrite.1 hunfinished)⟩

namespace TaskState

/-- The rows that a bulk update touches have failed before or were free. -/
def BulkFailsFree (s : TaskState) (p : ℕ → Task → Bool) : Prop :=
  ∀ e ∈ s.tasks.entries.zipIdx, p e.2 e.1.row = true → e.1.row.FailsFree

instance (s : TaskState) (p : ℕ → Task → Bool) : Decidable (s.BulkFailsFree p) :=
  inferInstanceAs (Decidable (∀ e ∈ s.tasks.entries.zipIdx, _))

section

variable {F : Type} [Float64 F]

/-- The step stays on the paths that move quota together with a terminal status: charges are
not negative; bulk updates and fetches fail only tasks that need no refund, and fetches take
no finished task back; an item or a result that moves quota meets an unfinished copy, and
the update of its row does not fail. -/
def SettlesOnce (cfg : TaskSettings F) (s : TaskState) : TaskAction F → Prop
  | .submit req => 0 ≤ taskQuota cfg req
  | .failNullTasks platform ok =>
      ok = true → s.BulkFailsFree fun id _ => (s.nullTaskIds platform).contains id
  | .failChannelTasks platform channelId ok =>
      ok = true ∧ platform ≠ TaskPlatformMidjourney →
        s.BulkFailsFree fun _ task => (s.channelTaskIds platform channelId).contains task.taskId
  | .sunoItem item ok =>
      match s.lookup TaskPlatformSuno item.taskId with
      | none => True
      | some (_, copy) =>
          checkTaskNeedUpdate cfg copy.row item = true → item.fails copy.row = true →
            copy.row.unfinished = true ∧ (copy.row.quota ≠ 0 → s.sunoErr = false ∧ ok = true)
  | .videoResult platform taskId resp ok =>
      match s.lookup platform taskId with
      | none => True
      | some (_, copy) =>
          copy.row.unfinished = true ∧ (resettles cfg copy.row resp = true → ok = true)
  | .fetchWrite i channelType info ok =>
      match s.fetches[i]?, fetchWrites channelType info ok with
      | some copy, some info =>
          match s.tasks.entries[copy.id]? with
          | none => True
          | some e => e.row.MayWrite (copy.row.fetched info)
      | _, _ => True
  | _ => True

instance (cfg : TaskSettings F) (s : TaskState) : DecidablePred (s.SettlesOnce cfg) := fun a => by
  unfold SettlesOnce
  split
  · infer_instance
  · infer_instance
  · infer_instance
  · split <;> infer_instance
  · split <;> infer_instance
  · split
    · split <;> infer_instance
    · infer_instance
  · infer_instance

end

/-- The invariant of the task table. -/
structure Fair (s : TaskState) : Prop where
  tasks : Table.Sound FairTask FairTaskCopy s.tasks
  fetches : Table.Backed FairQuota s.tasks.entries s.fetches

theorem fair_start (db : DB) : Fair (start db) :=
  ⟨Table.Sound.empty, by simp [Table.Backed, start]⟩

/-- Rows are failed in bulk. -/
theorem Fair.bulk {s : TaskState} {p : ℕ → Task → Bool} {f : Task → Task} (hfair : Fair s)
    (hstatus : ∀ task, (f task).status = TaskStatusFailure)
    (hquota : ∀ task, (f task).quota = task.quota) (hfree : s.BulkFailsFree p) :
    Fair { s with tasks := s.tasks.updateWhere p f } := by
  refine ⟨hfair.tasks.updateWhere ?_ ?_, ?_⟩
  · intro id e hentry hp hrow
    have hrecorded := hrow.quota
    rw [FairQuota, ← hquota e.row] at hrecorded
    exact hrow.failFree (hfree (e, id) (List.mem_zipIdx_iff_getElem?.mpr hentry) hp)
      (hstatus e.row) hrecorded
  · intro id e row hentry hp hcopy
    exact ⟨hcopy.quota, hcopy.unfinished, hcopy.suno⟩
  · refine hfair.fetches.mapIdx fun copy _ e _ hfetch => ?_
    split
    case isTrue hp => exact hfetch
    case isFalse hp => exact hfetch

/-- A poll keeps the invariant if it keeps it for the row and the copy it works on. -/
theorem Fair.poll {s : TaskState} {i : ℕ} {copy : Copy Task} {result : PollResult Task}
    (hfair : Fair s) (hcopy : s.tasks.copies[i]? = some copy)
    (hresult : ∀ e, FairTask e → FairTaskCopy copy.row e →
      FairTask (result.entry s.db e) ∧ FairTaskCopy result.row (result.entry s.db e)) :
    Fair (s.poll i copy result) := by
  obtain ⟨e, hentry, hold⟩ := hfair.tasks.copies copy (List.mem_of_getElem? hcopy)
  obtain ⟨hrow, hnew⟩ := hresult e (hfair.tasks.entries e (List.mem_of_getElem? hentry)) hold
  refine ⟨hfair.tasks.poll hcopy hentry hrow hnew, ?_⟩
  refine hfair.fetches.mapIdx fun fetch _ e' _ hfetch => ?_
  split
  case isTrue hsame => exact hfetch.entry result s.db
  case isFalse hother => exact hfetch

section

variable {F : Type} [Float64 F] {cfg : TaskSettings F} {s s' : TaskState}

theorem Fair.submit (hfair : Fair s) {req : TaskSubmit F} (hquota : 0 ≤ taskQuota cfg req) :
    Fair (s.submit cfg req) := by
  rw [TaskState.submit]
  dsimp only
  have hstatus : TaskStatusNotStart ≠ TaskStatusFailure := by decide
  split
  case h_1 userQuota taskId data huser hresponse =>
    split_ifs with hshort hinsert hfree
    · exact hfair
    · exact hfair
    · exact ⟨hfair.tasks.insert (.submitted hstatus rfl hquota), hfair.fetches.append _⟩
    · exact ⟨hfair.tasks.insert (.submitted hstatus rfl hquota), hfair.fetches.append _⟩
  case h_2 => exact hfair

theorem Fair.sunoItem (hfair : Fair s) {item : SunoItem} {ok : Bool}
    (hcond : s.SettlesOnce cfg (.sunoItem item ok)) : Fair (s.sunoItem cfg item ok) := by
  rw [SettlesOnce] at hcond
  rw [TaskState.sunoItem]
  cases hlookup : s.lookup TaskPlatformSuno item.taskId with
  | none => exact ⟨hfair.tasks.drop, hfair.fetches⟩
  | some found =>
      obtain ⟨i, copy⟩ := found
      obtain ⟨hcopy, hplatform⟩ := lookup_some hlookup
      rw [hlookup] at hcond
      have hpolled : Fair (s.poll i copy (updateSunoTask cfg copy.row item s.sunoErr ok)) := by
        refine hfair.poll hcopy fun e hrow hold => ?_
        have hsuno := hold.suno hplatform
        by_cases hunfinished : copy.row.unfinished = true
        · have houtcome : PollOutcome copy.row (updateSunoTask cfg copy.row item s.sunoErr ok) :=
            updateSunoTask_outcome cfg fun hneed hfails => (hcond hneed hfails).2
          obtain ⟨hentry, hquota, hopen⟩ := houtcome.fair hrow hold hunfinished s.db
          exact ⟨hentry, hquota, hopen, fun _ =>
            updateSunoTask_progress cfg item s.sunoErr ok hsuno⟩
        · -- the task has been finished in this round: a second item for it
          have hdone : copy.row.progress = "100%" := hsuno.resolve_left hunfinished
          have hgoes : checkTaskNeedUpdate cfg copy.row item = true →
              item.fails copy.row = false := by
            intro hneed
            by_contra hfails
            exact hunfinished (hcond hneed (by simpa using hfails)).1
          have hprogress := updateSunoTask_done cfg item s.sunoErr ok hdone
          have hquota : FairQuota (updateSunoTask cfg copy.row item s.sunoErr ok).row e := by
            rw [FairQuota, updateSunoTask_quota]
            exact hold.quota
          refine ⟨updateSunoTask_finished cfg s.sunoErr ok hrow hold.quota hdone hgoes s.db,
            hquota.entry _ s.db, fun hopen => ?_, fun _ => .inr hprogress⟩
          rw [Task.finished_of_progress hprogress] at hopen
          exact absurd hopen Bool.false_ne_true
      exact ⟨hpolled.tasks, hpolled.fetches⟩

theorem Fair.videoResult (hfair : Fair s) {platform taskId : String} {resp : VideoResponse}
    {ok : Bool} (hplatform : platform ≠ TaskPlatformSuno)
    (hcond : s.SettlesOnce cfg (.videoResult platform taskId resp ok)) :
    Fair (s.videoResult cfg platform taskId resp ok) := by
  rw [SettlesOnce] at hcond
  rw [TaskState.videoResult]
  cases hlookup : s.lookup platform taskId with
  | none => exact hfair
  | some found =>
      obtain ⟨i, copy⟩ := found
      obtain ⟨hcopy, hsame⟩ := lookup_some hlookup
      rw [hlookup] at hcond
      obtain ⟨hunfinished, hok⟩ := hcond
      refine hfair.poll hcopy fun e hrow hold => ?_
      have houtcome := updateVideoSingleTask_outcome cfg hunfinished hok
      obtain ⟨hentry, hquota, hopen⟩ := houtcome.fair hrow hold hunfinished s.db
      refine ⟨hentry, hquota, hopen, fun hsuno => ?_⟩
      rw [(updateVideoSingleTask_keeps cfg copy.row resp ok).platform, hsame] at hsuno
      exact absurd hsuno hplatform

theorem Fair.fetchRead (hfair : Fair s) (userId : ℕ) (taskId : String) :
    Fair (s.fetchRead userId taskId) := by
  rw [TaskState.fetchRead]
  split
  case isTrue hempty => exact hfair
  case isFalse hid =>
    refine ⟨hfair.tasks, ?_⟩
    intro copy hcopy
    rcases List.mem_append.mp hcopy with hold | hnew
    · exact hfair.fetches copy hold
    · obtain ⟨e, hentry, hrow, -⟩ := Table.mem_selectWhere (List.mem_of_mem_take hnew)
      refine ⟨e, hentry, ?_⟩
      rw [hrow]
      exact (hfair.tasks.entries e (List.mem_of_getElem? hentry)).quota

theorem Fair.fetchWrite {i : ℕ} {copy : Copy Task} {channelType : ℤ} {info : Option TaskInfo}
    {ok : Bool} (hfair : Fair s) (hcopy : s.fetches[i]? = some copy)
    (hcond : s.SettlesOnce cfg (.fetchWrite i channelType info ok)) :
    Fair (s.fetchWrite i copy (fetchWrites channelType info ok)) := by
  have herase : ∀ t : TaskState, Fair t → Fair { t with fetches := t.fetches.eraseIdx i } :=
    fun t hfair => ⟨hfair.tasks, fun other hother =>
      hfair.fetches other ((List.eraseIdx_sublist _ _).subset hother)⟩
  rw [SettlesOnce, hcopy] at hcond
  cases hwrites : fetchWrites channelType info ok with
  | none => exact herase s hfair
  | some info =>
      obtain ⟨e, hentry, hfetch⟩ := hfair.fetches copy (List.mem_of_getElem? hcopy)
      rw [hwrites] at hcond
      dsimp only at hcond
      rw [hentry] at hcond
      have htasks : Table.Sound FairTask FairTaskCopy
          (s.tasks.save copy.id (copy.row.fetched info)) := by
        rw [Table.save]
        refine hfair.tasks.updateWhere ?_ ?_
        · intro id e' hentry' hid hrow
          obtain rfl : id = copy.id := by simpa using hid
          obtain rfl : e = e' := Option.some.inj (hentry.symm.trans hentry')
          exact hrow.write hfetch hcond
        · intro id e' row hentry' hid hold
          exact ⟨hold.quota, hold.unfinished, hold.suno⟩
      have hfetches : Table.Backed FairQuota
          (s.tasks.save copy.id (copy.row.fetched info)).entries s.fetches := by
        refine hfair.fetches.mapIdx fun other _ e' _ hother => ?_
        split
        case isTrue hid => exact hother
        case isFalse hid => exact hother
      have hsaved : Fair { s with tasks := s.tasks.save copy.id (copy.row.fetched info) } :=
        ⟨htasks, hfetches⟩
      exact herase _ hsaved

/-- A step on the conditioned paths keeps the invariant. -/
theorem step_fair {a : TaskAction F} (hstep : step cfg s a = some s') (hcond : s.SettlesOnce cfg a)
    (hfair : Fair s) : Fair s' := by
  cases step_effect hstep with
  | submit req => exact hfair.submit hcond
  | selectTasks =>
      refine ⟨hfair.tasks.select (List.take_sublist _ _) fun e _ hunfinished hrow => ?_,
        hfair.fetches⟩
      exact ⟨hrow.quota, hrow.unfinished, fun _ => .inl hunfinished⟩
  | failNullTasks platform => exact hfair.bulk (fun _ => rfl) (fun _ => rfl) (hcond rfl)
  | failChannelTasks platform channelId hplatform =>
      exact hfair.bulk (fun _ => rfl) (fun _ => rfl) (hcond (by simpa using hplatform))
  | idle a hidle => exact hfair
  | sunoResponse => exact ⟨hfair.tasks, hfair.fetches⟩
  | sunoItem item ok => exact hfair.sunoItem hcond
  | videoResult platform taskId resp ok hsuno hmidjourney => exact hfair.videoResult hsuno hcond
  | fetchRead userId taskId => exact hfair.fetchRead userId taskId
  | fetchWrite i copy channelType info ok hcopy => exact hfair.fetchWrite hcopy hcond

end

end TaskState

open TaskState

/-- In a run on the conditioned paths the quota columns have moved by what is on the bills,
and every task is refunded or settled once. -/
theorem task_refunded_or_settled_once {F : Type} [Float64 F] {cfg : TaskSettings F} {db : DB}
    {as : List (TaskAction F)} {s' : TaskState}
    (honce : (taskSystem cfg).Along (SettlesOnce cfg) (start db) as)
    (hrun : (taskSystem cfg).run (start db) as = some s') :
    Booked db s'.db [] s'.tasks.bills ∧ ∀ e ∈ s'.tasks.entries, TaskSettledOnce e := by
  have hfair : Fair s' :=
    System.invariant_run (I := Fair) (fun hstep hcond hfair => step_fair hstep hcond hfair)
      (fair_start db) honce hrun
  refine ⟨(tasks_booked hrun).2, fun e he => ?_⟩
  exact (hfair.tasks.entries e he).toTaskSettledOnce

/-- One unit is worth 10 quota, and tokens are billed at the ratio 2. -/
def sampleTaskSettings : TaskSettings Decimal where
  quotaPerUnit := Decimal.ofInt 10
  taskQueryLimit := 1000
  modelPrice := fun _ => some (Decimal.ofInt 1)
  defaultModelPrice := fun _ => none
  modelRatio := fun _ => (Decimal.ofInt 2, true)
  groupRatio := fun _ => Decimal.ofInt 1
  groupGroupRatio := fun _ _ => none
  taskPricePatches := []
  dataModel := fun data => some data
  marshalData := fun data => data.toList.map Char.toNat

def sampleTaskSubmit (platform taskId : String) : TaskSubmit Decimal where
  payer := { userId := 7, tokenId := 3, isPlayground := false }
  platform := platform
  modelName := "model"
  usingGroup := "default"
  userGroup := "default"
  channelId := 2
  otherRatios := []
  userQuota := some 100
  response := some (taskId, "model")
  inserted := true
  now := 100

def sampleSunoFailure : SunoItem where
  taskId := "song"
  status := TaskStatusFailure
  failReason := "rejected"
  submitTime := 100
  startTime := 110
  finishTime := 120
  data := "{}"

def sampleVideoSuccess : VideoResponse where
  info :=
    { status := TaskStatusSuccess, reason := "", url := "http", progress := "100%"
      totalTokens := 10 }
  data := "model"
  now := 130
  userGroup := none

/-- A Suno task that fails, with the item delivered twice, and a video task that succeeds and
costs 10 more than it was charged. -/
def orderlyTaskRun : List (TaskAction Decimal) :=
  [.submit (sampleTaskSubmit TaskPlatformSuno "song"), .submit (sampleTaskSubmit "24" "clip"),
    .selectTasks, .sunoResponse, .sunoItem sampleSunoFailure true,
    .sunoItem sampleSunoFailure true, .videoResult "24" "clip" sampleVideoSuccess true,
    .selectTasks]

theorem task_refunded_or_settled_once_orderly :
    ∃ s', (taskSystem sampleTaskSettings).run (start sampleDB) orderlyTaskRun = some s' ∧
      s'.db.userQuota 7 = sampleDB.userQuota 7 - 20 ∧
      ∀ e ∈ s'.tasks.entries, TaskSettledOnce e := by
  have honce : (taskSystem sampleTaskSettings).Along (SettlesOnce sampleTaskSettings)
      (start sampleDB) orderlyTaskRun := by
    decide
  obtain ⟨-, hsettled⟩ := task_refunded_or_settled_once honce rfl
  exact ⟨_, rfl, by decide, hsettled⟩

/-- The channel of a task is deleted while the task is polled. -/
def deletedChannelRun : List (TaskAction Decimal) :=
  [.submit (sampleTaskSubmit "24" "clip"), .selectTasks, .failChannelTasks "24" 2 true]

/-- The bulk update of a deleted channel fails a task without refunding it. -/
theorem deleted_channel_keeps_quota :
    ¬ ∀ (cfg : TaskSettings Decimal) (db : DB) (as : List (TaskAction Decimal)) (s' : TaskState),
      (taskSystem cfg).run (start db) as = some s' →
      ∀ e ∈ s'.tasks.entries, TaskSettledOnce e := by
  intro hclaim
  have hsettled := hclaim sampleTaskSettings sampleDB deletedChannelRun _ rfl _
    (List.mem_cons_self ..)
  exact absurd (hsettled.failed rfl).1 (by decide)

end NewApi.Model
