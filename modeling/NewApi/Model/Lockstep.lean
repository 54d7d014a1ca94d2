import NewApi.Model.Gateway

/-!
# The accounts of user and token

Everything that goes through `PostConsumeQuota` or `PreConsumeQuota` moves the accounts of the
user and of the token together; the refunds and settlements of the polling loops move the
user's account alone.
-/

namespace NewApi.Model

open NewApi.Lib

namespace Bill

/-- The bill takes from the token what it takes from the user. -/
def InStep (bill : Bill) : Prop :=
  bill.payer.isPlayground = false → bill.tokenNet = bill.userNet

/-- The polling loops have not moved the bill of a request that a token pays for. -/
def Still (bill : Bill) : Prop :=
  bill.payer.isPlayground = false → bill.Untouched

/-- A bill is in step exactly if the polling loops have paid back what they have charged. -/
theorem inStep_iff (bill : Bill) : bill.InStep ↔
    (bill.payer.isPlayground = false →
      bill.refunds.sum = total Resettlement.quotaDelta bill.resettlements) := by
  refine forall_congr' fun htoken => ?_
  rw [tokenNet, htoken, if_neg Bool.false_ne_true, userNet]
  omega

theorem Still.inStep {bill : Bill} (hstill : bill.Still) : bill.InStep := by
  rw [inStep_iff]
  intro htoken
  rw [(hstill htoken).1, (hstill htoken).2]
  rfl

theorem submitted_still (payer : Payer) (charged : ℤ) : (submitted payer charged).Still :=
  fun _ => submitted_untouched payer charged

end Bill

/-! ## Polls that move nothing -/

namespace Table

variable {R : Type}

/-- The row was submitted from the playground. -/
def playground (table : Table R) (id : ℕ) : Bool :=
  table.entries[id]?.any fun e => e.bill.payer.isPlayground

def Still (table : Table R) : Prop :=
  ∀ bill ∈ table.bills, bill.Still

section

variable {table : Table R}

theorem Still.insert (hstill : table.Still) (row : R) (payer : Payer) (charged : ℤ) :
    (table.insert row (.submitted payer charged)).Still := by
  intro bill hbill
  rw [insert_bills] at hbill
  rcases List.mem_append.mp hbill with hold | hnew
  · exact hstill bill hold
  · rw [List.mem_singleton.mp hnew]
    exact Bill.submitted_still payer charged

theorem Still.updateWhere (hstill : table.Still) (p : ℕ → R → Bool) (f : R → R) :
    (table.updateWhere p f).Still := by
  intro bill hbill
  rw [updateWhere_bills] at hbill
  exact hstill bill hbill

/-- A poll that moves nothing, unless the playground pays, leaves the bills in step. -/
theorem Still.poll (hstill : table.Still) {db : DB} (i : ℕ) {copy : Copy R}
    {result : PollResult R} (hresult : table.playground copy.id = false →
      (result.run db).2 = false) :
    (table.poll db i copy result).2.Still := by
  intro bill hbill htoken
  obtain ⟨e', he', rfl⟩ := List.mem_map.mp hbill
  obtain ⟨id, hid, rfl⟩ := List.mem_mapIdx.mp he'
  have hold : table.entries[id].bill.Still :=
    hstill _ (List.mem_map.mpr ⟨_, List.getElem_mem hid, rfl⟩)
  split at htoken
  case isFalse hother =>
    rw [if_neg hother]
    exact hold htoken
  case isTrue hsame =>
    rw [result.entry_payer] at htoken
    have hpays : table.playground copy.id = false := by
      rw [playground, ← hsame, List.getElem?_eq_getElem hid]
      exact htoken
    have hbill : (result.entry db table.entries[id]).bill = table.entries[id].bill := by
      rw [PollResult.entry, hresult hpays]
      rfl
    rw [if_pos hsame, hbill]
    exact hold htoken

end

end Table

theorem PollResult.run_still {R : Type} {result : PollResult R} (hmovement : result.movement = none)
    (db : DB) : (result.run db).2 = false := by
  rw [run, hmovement]

/-- A refund of a negative amount is refused. -/
theorem Movement.run_refused (userId : ℕ) {quota : ℤ} (hquota : quota < 0) (db : DB) :
    ((Movement.refund userId quota).run db).2 = false := by
  rw [Movement.run, DB.creditUser, DB.guarded, if_pos hquota]

section

variable {F : Type} [Float64 F]

/-- The item refunds the task. -/
def SunoItem.refunds (cfg : TaskSettings F) (item : SunoItem) (task : Task) (err : Bool) : Bool :=
  checkTaskNeedUpdate cfg task item && item.fails task && !err && 0 < task.quota

/-- The response refunds the task. -/
def VideoResponse.refunds (resp : VideoResponse) (task : Task) (ok : Bool) : Bool :=
  resp.info.orFailed.status = TaskStatusFailure && task.status ≠ TaskStatusFailure && ok &&
    0 < task.quota

/-- The report refunds the row. -/
def MidjourneyDto.refunds (cfg : MidjourneySettings F) (item : MidjourneyDto) (task : Midjourney)
    (now : ℤ) (ok : Bool) : Bool :=
  checkMjTaskNeedUpdate cfg task (item.orTimeout task now) && (item.orTimeout task now).fails &&
    ok && 0 < task.quota

end

section

variable {F : Type} [Float64 F]

omit [Float64 F] in
theorem updateSunoTask_still {cfg : TaskSettings F} {task : Task} {item : SunoItem} {err : Bool}
    (ok : Bool) (hrefunds : item.refunds cfg task err = false) (db : DB) :
    ((updateSunoTask cfg task item err ok).run db).2 = false := by
  rw [updateSunoTask]
  split
  case isTrue hskip => rfl
  case isFalse hupdate =>
    have hneed : checkTaskNeedUpdate cfg task item = true := by simpa using hupdate
    by_cases hrefund : (item.fails task && !err && decide (task.quota ≠ 0)) = true
    · -- the refund that is attempted is of a negative quota
      simp only [Bool.and_eq_true, decide_eq_true_eq] at hrefund
      obtain ⟨⟨hfails, herr⟩, hquota⟩ := hrefund
      have hneg : task.quota < 0 := by
        simp only [SunoItem.refunds, hneed, hfails, herr, Bool.true_and, decide_eq_false_iff_not]
          at hrefunds
        omega
      rw [PollResult.run]
      simp only [hfails, herr, hquota, ne_eq, not_false_eq_true, decide_true, Bool.and_self, if_true]
      exact Movement.run_refused _ hneg db
    · exact PollResult.run_still (if_neg hrefund) db

theorem settleVideoTask_still {cfg : TaskSettings F} {task : Task}
    {resp : VideoResponse} {ok : Bool}
    (hstatus : resp.info.status = TaskStatusSuccess)
    (hresettles : resettles cfg task resp = false) :
    (settleVideoTask cfg (Task.succeed { task with data := resp.data } resp.info resp.now) resp.info
      resp.userGroup ok).movement = none := by
  have hactual : actualQuota cfg (Task.succeed { task with data := resp.data } resp.info resp.now)
      resp.info resp.userGroup =
        actualQuota cfg { task with data := resp.data } resp.info resp.userGroup := rfl
  rw [settleVideoTask, hactual]
  rw [resettles, hstatus] at hresettles
  cases hquota : actualQuota cfg { task with data := resp.data } resp.info resp.userGroup with
  | none => rfl
  | some quota =>
      rw [hquota] at hresettles
      have hsame : quota = task.quota := by simpa using hresettles
      exact congrArg PollResult.movement (if_pos (by rw [hsame]; exact Int.sub_self _))

theorem updateVideoSingleTask_still {cfg : TaskSettings F} {task : Task} {resp : VideoResponse}
    {ok : Bool} (hresettles : resettles cfg task resp = false)
    (hrefunds : resp.refunds task ok = false) (db : DB) :
    ((updateVideoSingleTask cfg task resp ok).run db).2 = false := by
  rw [updateVideoSingleTask]
  dsimp only
  split_ifs with hsubmitted hqueued hprogress hsuccess hfailure hrefund
  · rfl
  · rfl
  · rfl
  · have hinfo := TaskInfo.orFailed_eq hsuccess (by decide)
    rw [hinfo] at hsuccess ⊢
    exact PollResult.run_still (settleVideoTask_still hsuccess hresettles) db
  · -- the refund that is attempted is of a negative quota
    have hneg : task.quota < 0 := by
      have hquota := hrefund.1
      simp only [VideoResponse.refunds, hfailure, hrefund.2.1, hrefund.2.2, ne_eq,
        not_false_eq_true, decide_true, Bool.true_and, decide_eq_false_iff_not] at hrefunds
      omega
    exact Movement.run_refused _ hneg db
  · rfl
  · rfl

omit [Float64 F] in
theorem updateMidjourneyTask_still {cfg : MidjourneySettings F} {task : Midjourney}
    {item : MidjourneyDto} {now : ℤ} {ok : Bool} (hrefunds : item.refunds cfg task now ok = false)
    (db : DB) : ((updateMidjourneyTask cfg task item now ok).run db).2 = false := by
  rw [updateMidjourneyTask]
  split
  case isTrue hskip => rfl
  case isFalse hupdate =>
    have hneed : checkMjTaskNeedUpdate cfg task (item.orTimeout task now) = true := by
      simpa using hupdate
    by_cases hrefund : (item.orTimeout task now).fails ∧ task.quota ≠ 0 ∧ ok = true
    · -- the refund that is attempted is of a negative quota
      obtain ⟨hfails, hquota, rfl⟩ := hrefund
      have hneg : task.quota < 0 := by
        simp only [MidjourneyDto.refunds, hneed, hfails, Bool.true_and, decide_eq_false_iff_not]
          at hrefunds
        omega
      rw [PollResult.run]
      simp only [hfails, hquota, ne_eq, not_false_eq_true, and_self, if_true]
      exact Movement.run_refused _ hneg db
    · exact PollResult.run_still (if_neg hrefund) db

end

/-! ## Runs that keep the accounts in step -/

namespace TaskState

variable {F : Type} [Float64 F] {cfg : TaskSettings F} {s s' : TaskState}

/-- The poller moves no quota of a task that a token pays for. -/
def MovesNothing (cfg : TaskSettings F) (s : TaskState) : TaskAction F → Prop
  | .sunoItem item _ =>
      match s.lookup TaskPlatformSuno item.taskId with
      | none => True
      | some (_, copy) =>
          s.tasks.playground copy.id = false → item.refunds cfg copy.row s.sunoErr = false
  | .videoResult platform taskId resp ok =>
      platform ≠ TaskPlatformSuno → platform ≠ TaskPlatformMidjourney →
        match s.lookup platform taskId with
        | none => True
        | some (_, copy) =>
            s.tasks.playground copy.id = false →
              resettles cfg copy.row resp = false ∧ resp.refunds copy.row ok = false
  | _ => True

instance (cfg : TaskSettings F) (s : TaskState) : DecidablePred (s.MovesNothing cfg)
  | .sunoItem item _ => by
      dsimp only [MovesNothing]
      exact match s.lookup TaskPlatformSuno item.taskId with
        | none => inferInstanceAs (Decidable True)
        | some (_, _) => inferInstanceAs (Decidable (_ → _))
  | .videoResult platform taskId _ _ => by
      dsimp only [MovesNothing]
      exact match s.lookup platform taskId with
        | none => inferInstanceAs (Decidable (_ → _ → True))
        | some (_, _) => inferInstanceAs (Decidable (_ → _ → _ → _ ∧ _))
  | .submit _ | .selectTasks | .failNullTasks .. | .failChannelTasks .. | .sunoResponse
  | .fetchRead .. | .fetchWrite .. => inferInstanceAs (Decidable True)

theorem submit_still (hstill : s.tasks.Still) (req : TaskSubmit F) :
    (s.submit cfg req).tasks.Still := by
  rw [submit]
  dsimp only
  split
  case h_1 userQuota taskId data huser hresponse =>
    split_ifs with hshort hinsert hfree
    · exact hstill
    · exact hstill
    · exact hstill.insert _ _ _
    · exact hstill.insert _ _ _
  case h_2 => exact hstill

theorem sunoItem_still (hstill : s.tasks.Still) {item : SunoItem} {ok : Bool}
    (hcond : s.MovesNothing cfg (.sunoItem item ok)) : (s.sunoItem cfg item ok).tasks.Still := by
  rw [MovesNothing] at hcond
  rw [sunoItem]
  cases hlookup : s.lookup TaskPlatformSuno item.taskId with
  | none => exact hstill
  | some found =>
      obtain ⟨i, copy⟩ := found
      rw [hlookup] at hcond
      exact hstill.poll i fun htoken => updateSunoTask_still ok (hcond htoken) s.db

theorem videoResult_still (hstill : s.tasks.Still) {platform taskId : String} {resp : VideoResponse}
    {ok : Bool} (hsuno : platform ≠ TaskPlatformSuno)
    (hmidjourney : platform ≠ TaskPlatformMidjourney)
    (hcond : s.MovesNothing cfg (.videoResult platform taskId resp ok)) :
    (s.videoResult cfg platform taskId resp ok).tasks.Still := by
  have hpoll := hcond hsuno hmidjourney
  rw [videoResult]
  cases hlookup : s.lookup platform taskId with
  | none => exact hstill
  | some found =>
      obtain ⟨i, copy⟩ := found
      rw [hlookup] at hpoll
      exact hstill.poll i fun htoken =>
        updateVideoSingleTask_still (hpoll htoken).1 (hpoll htoken).2 s.db

/-- Only the polls of single copies can move a bill. -/
theorem step_still {a : TaskAction F} (hstep : step cfg s a = some s')
    (hcond : s.MovesNothing cfg a)
    (hstill : s.tasks.Still) : s'.tasks.Still := by
  cases step_effect hstep with
  | submit req => exact submit_still hstill req
  | selectTasks => exact hstill
  | failNullTasks platform => exact hstill.updateWhere _ _
  | failChannelTasks platform channelId hplatform => exact hstill.updateWhere _ _
  | idle a hidle => exact hstill
  | sunoResponse => exact hstill
  | sunoItem item ok => exact sunoItem_still hstill hcond
  | videoResult platform taskId resp ok hsuno hmidjourney =>
      exact videoResult_still hstill hsuno hmidjourney hcond
  | fetchRead userId taskId =>
      rw [fetchRead]
      split
      case isTrue hempty => exact hstill
      case isFalse hid => exact hstill
  | fetchWrite i copy channelType info ok hcopy =>
      cases hwrites : fetchWrites channelType info ok with
      | none => exact hstill
      | some info => exact hstill.updateWhere _ _

end TaskState

namespace MidjourneyState

variable {F : Type} [Float64 F] {cfg : MidjourneySettings F} {s s' : MidjourneyState}

/-- The poller moves no quota of a submission that a token pays for. -/
def MovesNothing (cfg : MidjourneySettings F) (s : MidjourneyState) : MidjourneyAction → Prop
  | .pollItem item now ok =>
      match s.lookup item.mjId with
      | none => True
      | some (_, copy) =>
          s.midjourneys.playground copy.id = false → item.refunds cfg copy.row now ok = false
  | _ => True

instance (cfg : MidjourneySettings F) (s : MidjourneyState) :
    DecidablePred (s.MovesNothing cfg)
  | .pollItem item _ _ => by
      dsimp only [MovesNothing]
      exact match s.lookup item.mjId with
        | none => inferInstanceAs (Decidable True)
        | some (_, _) => inferInstanceAs (Decidable (_ → _))
  | .submit _ | .swapFace _ | .notify .. | .selectMidjourneys | .failNullMidjourneys _
  | .failChannelMidjourneys .. => inferInstanceAs (Decidable True)

/-- Nothing has moved the bill of a row or of a submission without a row. -/
structure Still (s : MidjourneyState) : Prop where
  midjourneys : s.midjourneys.Still
  rowless : ∀ bill ∈ s.rowless, bill.Still

theorem Still.record (hstill : s.Still) (req : MidjourneySubmit) (row : Option Midjourney)
    (quota : ℤ) (charged : Bool) : (s.record req row quota charged).Still := by
  cases row with
  | some row => cases charged <;> exact ⟨hstill.midjourneys.insert _ _ _, hstill.rowless⟩
  | none =>
      have hrowless : ∀ amount, ∀ bill ∈ s.rowless ++ [.submitted req.payer amount],
        bill.Still := by
        intro amount bill hbill
        rcases List.mem_append.mp hbill with hold | hnew
        · exact hstill.rowless bill hold
        · rw [List.mem_singleton.mp hnew]
          exact Bill.submitted_still _ _
      cases charged <;> exact ⟨hstill.midjourneys, hrowless _⟩

theorem Still.updateWhere (hstill : s.Still) (p : ℕ → Midjourney → Bool)
    (f : Midjourney → Midjourney) :
    { s with midjourneys := s.midjourneys.updateWhere p f : MidjourneyState }.Still :=
  ⟨hstill.midjourneys.updateWhere p f, hstill.rowless⟩

omit [Float64 F] in
theorem Still.pollItem (hstill : s.Still) {item : MidjourneyDto} {now : ℤ} {ok : Bool}
    (hcond : s.MovesNothing cfg (.pollItem item now ok)) : (s.pollItem cfg item now ok).Still := by
  rw [MovesNothing] at hcond
  rw [MidjourneyState.pollItem]
  cases hlookup : s.lookup item.mjId with
  | none => exact ⟨hstill.midjourneys, hstill.rowless⟩
  | some found =>
      obtain ⟨i, copy⟩ := found
      rw [hlookup] at hcond
      exact ⟨hstill.midjourneys.poll i fun htoken => updateMidjourneyTask_still (hcond htoken) s.db,
        hstill.rowless⟩

/-- Only the polls of single copies can move a bill. -/
theorem step_still {a : MidjourneyAction} (hstep : step cfg s a = some s')
    (hcond : s.MovesNothing cfg a) (hstill : s.Still) : s'.Still := by
  cases step_effect hstep with
  | submit req =>
      rw [submit]
      dsimp only
      split
      case h_1 hresponse => exact hstill
      case h_2 resp hresponse =>
        split_ifs with hafford hpanic hinserted
        · exact hstill
        · exact hstill.record ..
        · exact hstill.record ..
        · exact hstill.record ..
  | swapFace req =>
      rw [swapFace]
      dsimp only
      split
      case h_1 hresponse => exact hstill
      case h_2 resp hresponse =>
        split_ifs with hafford hinserted
        · exact hstill
        · exact hstill.record ..
        · exact hstill.record ..
  | notify item =>
      rw [notify]
      split
      case h_1 hnone => exact hstill
      case h_2 copy hcopy => exact hstill.updateWhere _ _
  | selectMidjourneys => exact ⟨hstill.midjourneys, hstill.rowless⟩
  | failNullMidjourneys => exact hstill.updateWhere _ _
  | failChannelMidjourneys channelId => exact hstill.updateWhere _ _
  | idle a => exact hstill
  | pollItem item now ok => exact hstill.pollItem hcond

end MidjourneyState

namespace Gateway

section

variable {F : Type} [Float64 F] {cfg : GatewaySettings F} {s s' : Gateway}

/-- The step is not a poll that refunds or settles a request that a token pays for. -/
def StaysInStep (cfg : GatewaySettings F) (s : Gateway) : GatewayAction F → Prop
  | .task a => s.toTaskState.MovesNothing cfg.task a
  | .midjourney a => s.toMidjourneyState.MovesNothing cfg.midjourney a
  | _ => True

instance (cfg : GatewaySettings F) (s : Gateway) : DecidablePred (s.StaysInStep cfg) := fun a => by
  unfold StaysInStep
  split <;> infer_instance

/-- Nothing has moved a bill that a token pays for. -/
structure Still (s : Gateway) : Prop where
  requests : ∀ bill ∈ s.requests, bill.Still
  tasks : s.tasks.Still
  midjourney : s.toMidjourneyState.Still

theorem still_start (db : DB) : Still (start db) :=
  ⟨by simp [start], by simp [Table.Still, Table.bills, start, TaskState.start, Table.empty],
    ⟨by simp [Table.Still, Table.bills, start, Table.empty], by simp [start]⟩⟩

theorem Still.endRequest (hstill : Still s) (payer : Payer) (db : DB) :
    Still (s.endRequest payer db) := by
  refine ⟨fun bill hbill => ?_, hstill.tasks, ⟨hstill.midjourney.midjourneys,
    hstill.midjourney.rowless⟩⟩
  rcases List.mem_append.mp hbill with hold | hnew
  · exact hstill.requests bill hold
  · rw [List.mem_singleton.mp hnew]
    exact Bill.submitted_still _ _

theorem Still.inStep (hstill : Still s) : ∀ bill ∈ s.bills, bill.InStep := by
  intro bill hbill
  rcases List.mem_append.mp hbill with hfirst | hmidjourney
  · rcases List.mem_append.mp hfirst with hrequest | htask
    · exact (hstill.requests bill hrequest).inStep
    · exact (hstill.tasks bill htask).inStep
  · rcases List.mem_append.mp hmidjourney with hrow | hrowless
    · exact (hstill.midjourney.midjourneys bill hrow).inStep
    · exact (hstill.midjourney.rowless bill hrowless).inStep

theorem step_still {a : GatewayAction F} (hstep : step cfg s a = some s')
    (hcond : s.StaysInStep cfg a) (hstill : Still s) : Still s' := by
  cases a with
  | relay specificChannel refundFirst adm info attempts =>
      simp only [step] at hstep
      split at hstep
      case h_1 hpending => cases hstep
      case h_2 error hrefused =>
        obtain rfl := Option.some.inj hstep
        exact hstill
      case h_3 r hended =>
        obtain rfl := Option.some.inj hstep
        exact hstill.endRequest _ _
  | preWssConsumeQuota payer quota =>
      obtain rfl := Option.some.inj hstep
      exact hstill.endRequest _ _
  | task a =>
      obtain ⟨t, htask, rfl⟩ := Option.map_eq_some_iff.mp hstep
      exact ⟨hstill.requests, TaskState.step_still htask hcond hstill.tasks,
        ⟨hstill.midjourney.midjourneys, hstill.midjourney.rowless⟩⟩
  | midjourney a =>
      obtain ⟨m, hmidjourney, rfl⟩ := Option.map_eq_some_iff.mp hstep
      have hstill' := MidjourneyState.step_still hmidjourney hcond hstill.midjourney
      exact ⟨hstill.requests, hstill.tasks, ⟨hstill'.midjourneys, hstill'.rowless⟩⟩

end

end Gateway

open Gateway

/-- In a run whose polls neither refund nor settle, the columns have moved by what is on the
bills, and every bill takes from the token what it takes from the user. -/
theorem accounts_move_in_step {F : Type} [Float64 F] {cfg : GatewaySettings F} {db : DB}
    {as : List (GatewayAction F)} {s' : Gateway}
    (halong : (gateway cfg).Along (StaysInStep cfg) (start db) as)
    (hrun : (gateway cfg).run (start db) as = some s') :
    Booked db s'.db [] s'.bills ∧ ∀ bill ∈ s'.bills, bill.InStep := by
  have hstill : Still s' :=
    System.invariant_run (I := Still) (fun hstep hcond hstill => step_still hstep hcond hstill)
      (still_start db) halong hrun
  exact ⟨(gateway_booked hrun).2, hstill.inStep⟩

def sampleGatewaySettings : GatewaySettings Decimal where
  relay := sampleRelaySettings
  task := sampleTaskSettings
  midjourney := sampleMidjourneySettings

/-- The poller sees a task that still runs. -/
def sampleVideoProgress : VideoResponse where
  info :=
    { status := TaskStatusInProgress, reason := "", url := "", progress := "50%", totalTokens := 0 }
  data := "{}"
  now := 120
  userGroup := none

def sampleVideoFailure : VideoResponse where
  info :=
    { status := TaskStatusFailure, reason := "rejected", url := "", progress := "100%"
      totalTokens := 0 }
  data := "{}"
  now := 130
  userGroup := none

/-- A relay request, a response of a realtime session, a task and a Midjourney job that are
polled while they run. -/
def orderlyGatewayRun : List (GatewayAction Decimal) :=
  [.relay false false sampleAdmission sampleRelayInfo sampleAttempts,
    .preWssConsumeQuota { userId := 7, tokenId := 3, isPlayground := false } 5,
    .task (.submit (sampleTaskSubmit "24" "clip")), .task .selectTasks,
    .midjourney (.submit (sampleMidjourneySubmit "IMAGINE" 1 "job")),
    .midjourney .selectMidjourneys,
    .task (.videoResult "24" "clip" sampleVideoProgress true),
    .midjourney (.pollItem (sampleMidjourneyDto "100%" "SUCCESS") 2000 true)]

theorem accounts_move_in_step_orderly :
    ∃ s', (gateway sampleGatewaySettings).run (start sampleDB) orderlyGatewayRun = some s' ∧
      s'.bills.map Bill.charged = [4, 5, 10, 10] ∧ ∀ bill ∈ s'.bills, bill.InStep := by
  have halong : (gateway sampleGatewaySettings).Along (StaysInStep sampleGatewaySettings)
      (start sampleDB) orderlyGatewayRun := by
    decide
  obtain ⟨-, hinStep⟩ := accounts_move_in_step halong rfl
  exact ⟨_, rfl, by decide, hinStep⟩

/-- A video task fails upstream and is refunded by the poller. -/
def refundedTaskRun : List (GatewayAction Decimal) :=
  [.task (.submit (sampleTaskSubmit "24" "clip")), .task .selectTasks,
    .task (.videoResult "24" "clip" sampleVideoFailure true)]

/-- The refund of a failed task goes to the user, and the token keeps paying. -/
theorem poller_refunds_user_alone :
    ¬ ∀ (cfg : GatewaySettings Decimal) (db : DB) (as : List (GatewayAction Decimal))
      (s' : Gateway), (gateway cfg).run (start db) as = some s' →
      ∀ bill ∈ s'.bills, bill.InStep := by
  intro hclaim
  have hinStep := hclaim sampleGatewaySettings sampleDB refundedTaskRun _ rfl _
    (List.mem_cons_self ..)
  exact absurd (hinStep rfl) (by decide)

end NewApi.Model
