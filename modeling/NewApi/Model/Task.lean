import Mathlib.Data.List.Sort
import NewApi.Lib.Decimal
import NewApi.Lib.Strings
import NewApi.Lib.System
import NewApi.Model.Table

/-!
# Asynchronous video and Suno tasks

`RelayTaskSubmit` inserts a task and charges it; a loop polls the unfinished tasks and ends
them, and a user who fetches a video task may write its row too.  One action of the system
is one step of these programs: the poller's `SELECT`, its treatment of the tasks without an
upstream id, of a channel that is gone, of one item or result of an upstream response, and
the two halves of a fetch.
-/

namespace NewApi.Model

open NewApi.Lib NewApi.Lib.Strings

def TaskStatusNotStart : String := "NOT_START"
def TaskStatusSubmitted : String := "SUBMITTED"
def TaskStatusQueued : String := "QUEUED"
def TaskStatusInProgress : String := "IN_PROGRESS"
def TaskStatusFailure : String := "FAILURE"
def TaskStatusSuccess : String := "SUCCESS"

def TaskPlatformSuno : String := "suno"
def TaskPlatformMidjourney : String := "mj"

def ChannelTypeGemini : ℤ := 24
def ChannelTypeVertexAi : ℤ := 41

/-- The columns of a task that the polling code reads or writes. -/
structure Task where
  taskId : String
  platform : String
  userId : ℕ
  group : String
  channelId : ℕ
  quota : ℤ
  status : String
  failReason : String
  submitTime : ℤ
  startTime : ℤ
  finishTime : ℤ
  progress : String
  data : String
deriving DecidableEq

/-- `relaycommon.TaskInfo`: what an upstream response says about a video task. -/
structure TaskInfo where
  status : String
  reason : String
  url : String
  progress : String
  totalTokens : ℤ

/-- `dto.SunoDataResponse`. -/
structure SunoItem where
  taskId : String
  status : String
  failReason : String
  submitTime : ℤ
  startTime : ℤ
  finishTime : ℤ
  data : String

/-- The settings that submission and polling read, and two JSON functions: the string under
`"model"` in the data of a task, and the bytes of the marshalled data. -/
structure TaskSettings (F : Type) where
  quotaPerUnit : F
  taskQueryLimit : ℕ
  modelPrice : String → Option F
  defaultModelPrice : String → Option F
  modelRatio : String → F × Bool
  groupRatio : String → F
  groupGroupRatio : String → String → Option F
  taskPricePatches : List String
  dataModel : String → Option String
  marshalData : String → List ℕ

/-- A submission: who pays, what is asked for, the user's quota as it was read, the upstream
task id and data when the upstream accepted, and whether the row could be inserted. -/
structure TaskSubmit (F : Type) where
  payer : Payer
  platform : String
  modelName : String
  usingGroup : String
  userGroup : String
  channelId : ℕ
  otherRatios : List F
  userQuota : Option ℤ
  response : Option (String × String)
  inserted : Bool
  now : ℤ

/-- The response to the poll of a video task.  `userGroup` is the group of the task's user,
where that user can be read. -/
structure VideoResponse where
  info : TaskInfo
  data : String
  now : ℤ
  userGroup : Option String

/-- The condition of `GetAllUnFinishSyncTasks`. -/
def Task.unfinished (task : Task) : Bool :=
  task.progress ≠ "100%" && task.status ≠ TaskStatusFailure && task.status ≠ TaskStatusSuccess

section

variable {F : Type} [Float64 F] (cfg : TaskSettings F)

/-- What `RelayTaskSubmit` charges for the task. -/
def taskQuota (req : TaskSubmit F) : ℤ :=
  let modelPrice :=
    match cfg.modelPrice req.modelName with
    | some modelPrice => modelPrice
    | none =>
        (cfg.defaultModelPrice req.modelName).getD (Float64.ofInt 1 / Float64.ofInt 10)
  let ratio :=
    match cfg.groupGroupRatio req.userGroup req.usingGroup with
    | some userGroupRatio => modelPrice * userGroupRatio
    | none => modelPrice * cfg.groupRatio req.usingGroup
  let ratio :=
    if cfg.taskPricePatches.contains req.modelName then ratio
    else
      req.otherRatios.foldl
        (fun ratio ra => if Float64.eq (Float64.ofInt 1) ra then ratio else ratio * ra) ratio
  Float64.toInt (ratio * cfg.quotaPerUnit)

/-- `InitTask`, completed by the upstream's answer. -/
def initTask (req : TaskSubmit F) (quota : ℤ) (taskId data : String) : Task where
  taskId := taskId
  platform := req.platform
  userId := req.payer.userId
  group := req.usingGroup
  channelId := req.channelId
  quota := quota
  status := TaskStatusNotStart
  failReason := ""
  submitTime := req.now
  startTime := 0
  finishTime := 0
  progress := "0%"
  data := data

/-- `TaskInfo` in the response to a video task says nothing about its status. -/
def TaskInfo.orFailed (info : TaskInfo) : TaskInfo :=
  if info.status = "" then
    { status := TaskStatusFailure, reason := "upstream returned empty status", url := "",
      progress := "", totalTokens := 0 }
  else info

/-- The recomputed quota of a successful task, if it is billed by its tokens. -/
def actualQuota (task : Task) (info : TaskInfo) (userGroup : Option String) : Option ℤ :=
  if info.totalTokens ≤ 0 then none
  else
    match cfg.dataModel task.data with
    | none => none
    | some modelName =>
        let ratio := cfg.modelRatio modelName
        if modelName = "" then none
        else if !(ratio.2 && Float64.lt (Float64.ofInt 0) ratio.1) then none
        else
          let group := if task.group = "" then userGroup.getD "" else task.group
          if group = "" then none
          else
            let finalGroupRatio := (cfg.groupGroupRatio group group).getD (cfg.groupRatio group)
            some (Float64.toInt (Float64.ofInt info.totalTokens * ratio.1 * finalGroupRatio))

/-- The progress that the response reports wins over the one its status stands for. -/
def Task.report (task : Task) (progress : String) : Task :=
  { task with
    progress := if progress ≠ "" then progress else task.progress }

def Task.proceed (task : Task) (now : ℤ) : Task :=
  { task with
    status := TaskStatusInProgress
    progress := "30%"
    startTime := if task.startTime = 0 then now else task.startTime }

/-- The row of a successful video task before it is billed. -/
def Task.succeed (task : Task) (info : TaskInfo) (now : ℤ) : Task :=
  { task with
    status := TaskStatusSuccess
    progress := "100%"
    finishTime := if task.finishTime = 0 then now else task.finishTime
    failReason :=
      if hasPrefix info.url "data:" && 5 < info.url.length then task.failReason else info.url }

def Task.fail (task : Task) (reason : String) (now : ℤ) : Task :=
  { task with
    status := TaskStatusFailure
    progress := "100%"
    finishTime := if task.finishTime = 0 then now else task.finishTime
    failReason := reason }

/-- The charge or return of the difference to the recomputed quota. -/
def settleVideoTask (task : Task) (info : TaskInfo) (userGroup : Option String) (ok : Bool) :
    PollResult Task :=
  match actualQuota cfg task info userGroup with
  | none => { row := task.report info.progress, movement := none, saved := ok }
  | some quota =>
      if quota - task.quota = 0 then
        { row := task.report info.progress, movement := none, saved := ok }
      else
        { row := { task with quota := quota }.report info.progress
          movement :=
            some (.resettle task.userId task.channelId
              { actualQuota := quota, quotaDelta := quota - task.quota })
          saved := ok }

/-- `updateVideoSingleTask` from the parsed response on; `ok` says whether `task.Update`
succeeds. -/
def updateVideoSingleTask (task : Task) (resp : VideoResponse) (ok : Bool) : PollResult Task :=
  let preStatus := task.status
  let info := resp.info.orFailed
  let task := { task with data := resp.data }
  if info.status = TaskStatusSubmitted then
    { row := { task with status := info.status, progress := "10%" }.report info.progress
      movement := none, saved := ok }
  else if info.status = TaskStatusQueued then
    { row := { task with status := info.status, progress := "20%" }.report info.progress
      movement := none, saved := ok }
  else if info.status = TaskStatusInProgress then
    { row := (task.proceed resp.now).report info.progress
      movement := none, saved := ok }
  else if info.status = TaskStatusSuccess then
    settleVideoTask cfg (task.succeed info resp.now) info resp.userGroup ok
  else if info.status = TaskStatusFailure then
    -- an update that fails takes the refund back
    let shouldRefund := task.quota ≠ 0 ∧ preStatus ≠ TaskStatusFailure ∧ ok = true
    { row := task.fail info.reason resp.now
      movement := if shouldRefund then some (.refund task.userId task.quota) else none
      saved := ok }
  else
    -- unknown status: only the copy in memory has changed
    .skip { task with status := info.status }

/-- `checkTaskNeedUpdate`; the marshalled data are compared as sorted bytes. -/
def checkTaskNeedUpdate (oldTask : Task) (newTask : SunoItem) : Bool :=
  oldTask.submitTime ≠ newTask.submitTime ||
    oldTask.startTime ≠ newTask.startTime ||
    oldTask.finishTime ≠ newTask.finishTime ||
    oldTask.status ≠ newTask.status ||
    oldTask.failReason ≠ newTask.failReason ||
    ((oldTask.status = TaskStatusFailure || oldTask.status = TaskStatusSuccess) &&
      oldTask.progress ≠ "100%") ||
    (cfg.marshalData oldTask.data).insertionSort (· ≤ ·) ≠
      (cfg.marshalData newTask.data).insertionSort (· ≤ ·)

/-- The fields that an item of a Suno response overwrites. -/
def Task.merge (task : Task) (item : SunoItem) : Task :=
  { task with
    status := if item.status ≠ "" then item.status else task.status
    failReason := if item.failReason ≠ "" then item.failReason else task.failReason
    submitTime := if item.submitTime ≠ 0 then item.submitTime else task.submitTime
    startTime := if item.startTime ≠ 0 then item.startTime else task.startTime
    finishTime := if item.finishTime ≠ 0 then item.finishTime else task.finishTime }

/-- The item ends the task as failed. -/
def SunoItem.fails (item : SunoItem) (task : Task) : Bool :=
  item.failReason ≠ "" || (task.merge item).status = TaskStatusFailure

/-- The assignments of `updateSunoTaskAll`. -/
def Task.assigned (task : Task) (item : SunoItem) : Task :=
  { task.merge item with
    progress :=
      if item.fails task || item.status = TaskStatusSuccess then "100%"
      else (task.merge item).progress
    data := item.data }

/-- The body of the loop over the items of a Suno response.  `err` is the error that the
item before left behind. -/
def updateSunoTask (task : Task) (item : SunoItem) (err ok : Bool) : PollResult Task :=
  if !checkTaskNeedUpdate cfg task item then .skip task
  else
    { row := task.assigned item
      movement :=
        if item.fails task && !err && task.quota ≠ 0 then some (.refund task.userId task.quota)
        else none
      saved := ok }

/-- What a fetch writes into the copy of the row that it has read. -/
def Task.fetched (task : Task) (info : TaskInfo) : Task :=
  { task with
    status := if info.status ≠ "" then info.status else task.status
    progress := if info.progress ≠ "" then info.progress else task.progress
    failReason :=
      if info.url ≠ "" && !hasPrefix info.url "data:" then info.url else task.failReason }

end

/-- The tasks with the poller's copies, whether the polling goroutine is alive, the error
variable of `updateSunoTaskAll`, and the rows that fetches have read and not yet written. -/
structure TaskState where
  db : DB
  tasks : Table Task
  taskPolling : Bool
  sunoErr : Bool
  fetches : List (Copy Task)

inductive TaskAction (F : Type) where
  | submit (req : TaskSubmit F)
  | selectTasks
  | failNullTasks (platform : String) (ok : Bool)
  | failChannelTasks (platform : String) (channelId : ℕ) (ok : Bool)
  | sunoResponse
  | sunoItem (item : SunoItem) (ok : Bool)
  | videoResult (platform taskId : String) (resp : VideoResponse) (ok : Bool)
  | fetchRead (userId : ℕ) (taskId : String)
  | fetchWrite (i : ℕ) (channelType : ℤ) (info : Option TaskInfo) (ok : Bool)

namespace TaskState

/-- `taskM[taskId]` of a platform: the last copy with that upstream id. -/
def lookup (s : TaskState) (platform taskId : String) : Option (ℕ × Copy Task) :=
  Pool.lastMatch
    (fun copy => copy.row.platform = platform && copy.row.taskId = taskId && taskId ≠ "")
    s.tasks.copies

def poll (s : TaskState) (i : ℕ) (copy : Copy Task) (result : PollResult Task) : TaskState :=
  let polled := s.tasks.poll s.db i copy result
  { s with db := polled.1, tasks := polled.2 }

/-- The primary keys of the selected tasks of a platform that have no upstream id. -/
def nullTaskIds (s : TaskState) (platform : String) : List ℕ :=
  (s.tasks.copies.filter fun copy =>
    copy.row.platform = platform && copy.row.taskId = "").map Copy.id

/-- The upstream ids of the selected tasks of a platform on a channel. -/
def channelTaskIds (s : TaskState) (platform : String) (channelId : ℕ) : List String :=
  (s.tasks.copies.filter fun copy =>
    copy.row.platform = platform && copy.row.channelId = channelId &&
      copy.row.taskId ≠ "").map fun copy => copy.row.taskId

/-- The text that a task is failed with when its channel is gone. -/
def channelGone (platform : String) (channelId : ℕ) : String :=
  if platform = TaskPlatformSuno then
    "获取渠道信息失败，请联系管理员，渠道ID：" ++ toString channelId
  else
    "Failed to get channel info, channel ID: " ++ toString channelId

section

variable {F : Type} [Float64 F] (cfg : TaskSettings F)

/-- `RelayTaskSubmit`: the row is inserted, then the deferred function charges the task. -/
def submit (s : TaskState) (req : TaskSubmit F) : TaskState :=
  let quota := taskQuota cfg req
  match req.userQuota, req.response with
  | some userQuota, some (taskId, data) =>
      if userQuota - quota < 0 then s
      else if !req.inserted then s
      else
        let db := (s.db.postConsumeQuota req.payer quota).1
        { s with
          db :=
            if quota ≠ 0 then
              (db.updateUserUsedQuotaAndRequestCount req.payer.userId quota 1).updateChannelUsedQuota
                req.channelId quota
            else db
          tasks := s.tasks.insert (initTask req quota taskId data) (.submitted req.payer quota) }
  | _, _ => s

def failNullTasks (s : TaskState) (platform : String) : TaskState :=
  { s with
    tasks :=
      s.tasks.updateWhere (fun id _ => (s.nullTaskIds platform).contains id) fun task =>
        { task with status := TaskStatusFailure, progress := "100%" } }

def failChannelTasks (s : TaskState) (platform : String) (channelId : ℕ) : TaskState :=
  { s with
    tasks :=
      s.tasks.updateWhere
        (fun _ task => (s.channelTaskIds platform channelId).contains task.taskId) fun task =>
        { task with
          failReason := channelGone platform channelId
          status := TaskStatusFailure
          progress := "100%" } }

/-- The next item of a Suno response.  An item for a task that was not selected makes
`checkTaskNeedUpdate` panic, which ends the polling goroutine. -/
def sunoItem (s : TaskState) (item : SunoItem) (ok : Bool) : TaskState :=
  match s.lookup TaskPlatformSuno item.taskId with
  | none => { s with tasks := { s.tasks with copies := [] }, taskPolling := false }
  | some (i, copy) =>
      { s.poll i copy (updateSunoTask cfg copy.row item s.sunoErr ok) with
        sunoErr := if checkTaskNeedUpdate cfg copy.row item then !ok else s.sunoErr }

def videoResult (s : TaskState) (platform taskId : String) (resp : VideoResponse) (ok : Bool) :
    TaskState :=
  match s.lookup platform taskId with
  | none => s
  | some (i, copy) => s.poll i copy (updateVideoSingleTask cfg copy.row resp ok)

/-- `GetByTaskId`: the first row of the user with that upstream id. -/
def fetchRead (s : TaskState) (userId : ℕ) (taskId : String) : TaskState :=
  if taskId = "" then s
  else
    { s with
      fetches :=
        s.fetches ++
          ((s.tasks.selectWhere fun task => task.userId = userId && task.taskId = taskId).take 1) }

/-- Whether a fetch writes the row: only for Gemini and Vertex channels whose response was
parsed. -/
def fetchWrites (channelType : ℤ) (info : Option TaskInfo) (ok : Bool) : Option TaskInfo :=
  if (channelType = ChannelTypeGemini || channelType = ChannelTypeVertexAi) && ok then info
  else none

def fetchWrite (s : TaskState) (i : ℕ) (copy : Copy Task) (info : Option TaskInfo) : TaskState :=
  { s with
    fetches := s.fetches.eraseIdx i
    tasks :=
      match info with
      | none => s.tasks
      | some info => s.tasks.save copy.id (copy.row.fetched info) }

def step (s : TaskState) : TaskAction F → Option TaskState
  | .submit req => some (s.submit cfg req)
  | .selectTasks =>
      if s.taskPolling then
        some
          { s with
            tasks :=
              { s.tasks with
                copies := (s.tasks.selectWhere Task.unfinished).take cfg.taskQueryLimit } }
      else none
  | .failNullTasks platform ok => if ok then some (s.failNullTasks platform) else some s
  | .failChannelTasks platform channelId ok =>
      if ok && platform ≠ TaskPlatformMidjourney then some (s.failChannelTasks platform channelId)
      else some s
  | .sunoResponse => some { s with sunoErr := false }
  | .sunoItem item ok => if s.taskPolling then some (s.sunoItem cfg item ok) else none
  | .videoResult platform taskId resp ok =>
      if platform = TaskPlatformSuno ∨ platform = TaskPlatformMidjourney then some s
      else some (s.videoResult cfg platform taskId resp ok)
  | .fetchRead userId taskId => some (s.fetchRead userId taskId)
  | .fetchWrite i channelType info ok => do
      let copy ← s.fetches[i]?
      some (s.fetchWrite i copy (fetchWrites channelType info ok))

end

/-- No task has been submitted. -/
def start (db : DB) : TaskState where
  db := db
  tasks := .empty
  taskPolling := true
  sunoErr := false
  fetches := []

end TaskState

/-- The task system: submissions, the polling loop and fetches, interleaved. -/
def taskSystem {F : Type} [Float64 F] (cfg : TaskSettings F) : System TaskState (TaskAction F) where
  step := TaskState.step cfg

end NewApi.Model
