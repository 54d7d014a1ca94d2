import NewApi.Lib.Decimal
import NewApi.Lib.System
import NewApi.Model.Table

/-!
# Midjourney tasks

`RelayMidjourneySubmit` and `RelaySwapFace` store a row with its price and charge the user
when the upstream accepts; the upstream reports progress through `RelayMidjourneyNotify`, and
a loop polls the rows that are not at 100%.  One action of the system is a submission, a
notification, or one step of the loop.
-/

namespace NewApi.Model

open NewApi.Lib

def MjActionInPaint : String := "INPAINT"
def MjActionCustomZoom : String := "CUSTOM_ZOOM"
def MjActionUpload : String := "UPLOAD"

/-- The columns of a row that submission, notification and polling read, and those that they
compare with a report of the upstream. -/
structure Midjourney where
  code : ℤ
  userId : ℕ
  mjId : String
  promptEn : String
  state : String
  submitTime : ℤ
  startTime : ℤ
  finishTime : ℤ
  imageUrl : String
  videoUrl : String
  videoUrls : String
  status : String
  progress : String
  failReason : String
  channelId : ℕ
  quota : ℤ
deriving DecidableEq

/-- `dto.MidjourneyDto`: the state of a task as the upstream reports it. -/
structure MidjourneyDto where
  mjId : String
  promptEn : String
  state : String
  submitTime : ℤ
  startTime : ℤ
  finishTime : ℤ
  imageUrl : String
  videoUrl : String
  videoUrls : Option (List String)
  status : String
  progress : String
  failReason : String

/-- `dto.MidjourneyResponse` with its HTTP status; the properties are the image URL and the
status, where both are strings. -/
structure MidjourneyResponse where
  statusCode : ℤ
  code : ℤ
  description : String
  properties : Option (String × String)
  result : String

/-- The settings that price a submission, and the JSON text of a list of video URLs. -/
structure MidjourneySettings (F : Type) where
  quotaPerUnit : F
  modelPrice : String → Option F
  defaultModelPrice : String → Option F
  groupRatio : String → F
  groupGroupRatio : String → String → Option F
  marshalVideoUrls : Option (List String) → String

/-- A submission that is about to be priced: who pays, the action, the channel of the request
context and that of the relay info, the user's quota as it was read, the response when the
upstream gives one, whether the channel can be read, and whether the row can be inserted. -/
structure MidjourneySubmit where
  payer : Payer
  action : String
  modelName : String
  usingGroup : String
  userGroup : String
  channelId : ℕ
  infoChannelId : ℕ
  userQuota : Option ℤ
  response : Option MidjourneyResponse
  channelFound : Bool
  inserted : Bool
  now : ℤ

/-- The row is selected by `GetAllUnFinishTasks`. -/
def Midjourney.unfinished (task : Midjourney) : Bool :=
  task.progress ≠ "100%"

/-- The row stands as failed for good. -/
def Midjourney.failed (task : Midjourney) : Bool :=
  task.progress = "100%" && task.status = "FAILURE"

section

variable {F : Type} [Float64 F] (cfg : MidjourneySettings F)

/-- `ModelPriceHelperPerCall`. -/
def modelPriceHelperPerCall (req : MidjourneySubmit) : ℤ :=
  let groupRatio :=
    (cfg.groupGroupRatio req.userGroup req.usingGroup).getD (cfg.groupRatio req.usingGroup)
  let modelPrice :=
    match cfg.modelPrice req.modelName with
    | some modelPrice => modelPrice
    | none =>
        (cfg.defaultModelPrice req.modelName).getD (Float64.ofInt 1 / Float64.ofInt 10)
  Float64.toInt (modelPrice * cfg.quotaPerUnit * groupRatio)

/-- The row of a submission as it is first filled. -/
def newMidjourney (req : MidjourneySubmit) (resp : MidjourneyResponse) (quota : ℤ) :
    Midjourney where
  code := resp.code
  userId := req.payer.userId
  mjId := resp.result
  promptEn := ""
  state := ""
  submitTime := req.now
  startTime := 0
  finishTime := 0
  imageUrl := ""
  videoUrl := ""
  videoUrls := ""
  status := ""
  progress := "0%"
  failReason := ""
  channelId := req.channelId
  quota := quota

/-- Submitted (1), present already (21) or queued (22). -/
def MidjourneyResponse.accepted (resp : MidjourneyResponse) : Bool :=
  resp.code = 1 || resp.code = 21 || resp.code = 22

/-- Code 21 with the properties of a finished task. -/
def MidjourneyResponse.present (resp : MidjourneyResponse) : Option (String × String) :=
  if resp.code = 21 then resp.properties else none

/-- What a response with code 21 says about the task. -/
def Midjourney.fillPresent (task : Midjourney) (resp : MidjourneyResponse) (now : ℤ) : Midjourney :=
  match resp.present with
  | none => task
  | some (imageUrl, status) =>
      if status = "SUCCESS" then
        { task with
          imageUrl := imageUrl, status := status, progress := "100%", startTime := now
          finishTime := now }
      else { task with imageUrl := imageUrl, status := status }

/-- The code after a finished task has turned 21 into 1. -/
def MidjourneyResponse.finalCode (resp : MidjourneyResponse) : ℤ :=
  match resp.present with
  | some (_, "SUCCESS") => 1
  | _ => resp.code

/-- The row that `RelayMidjourneySubmit` inserts. -/
def submittedMidjourney (req : MidjourneySubmit) (resp : MidjourneyResponse) (quota : ℤ) :
    Midjourney :=
  let task := newMidjourney req resp quota
  let task := if !resp.accepted then { task with failReason := resp.description } else task
  let task := task.fillPresent resp req.now
  if resp.finalCode = 1 ∧ req.action = MjActionUpload then
    { task with progress := "100%", status := "SUCCESS" }
  else task

/-- An action that is paid for. -/
def MidjourneySubmit.consumesQuota (req : MidjourneySubmit) : Bool :=
  req.action ≠ MjActionInPaint && req.action ≠ MjActionCustomZoom

/-- The user can pay the price, as far as it is asked for. -/
def MidjourneySubmit.affords (req : MidjourneySubmit) (consumeQuota : Bool) (quota : ℤ) : Bool :=
  match req.userQuota with
  | none => false
  | some userQuota => !(consumeQuota && userQuota - quota < 0)

/-- `checkMjTaskNeedUpdate`. -/
def checkMjTaskNeedUpdate (oldTask : Midjourney) (newTask : MidjourneyDto) : Bool :=
  oldTask.code ≠ 1 ||
    oldTask.progress ≠ newTask.progress ||
    oldTask.promptEn ≠ newTask.promptEn ||
    oldTask.state ≠ newTask.state ||
    oldTask.submitTime ≠ newTask.submitTime ||
    oldTask.startTime ≠ newTask.startTime ||
    oldTask.finishTime ≠ newTask.finishTime ||
    oldTask.imageUrl ≠ newTask.imageUrl ||
    oldTask.status ≠ newTask.status ||
    oldTask.failReason ≠ newTask.failReason ||
    (oldTask.progress ≠ "100%" && newTask.failReason ≠ "") ||
    oldTask.videoUrl ≠ newTask.videoUrl ||
    if newTask.videoUrls.getD [] ≠ [] then
      decide (oldTask.videoUrls ≠ cfg.marshalVideoUrls newTask.videoUrls)
    else decide (oldTask.videoUrls ≠ "")

/-- The columns that a report overwrites, in a notification as in a poll. -/
def Midjourney.overwrite (task : Midjourney) (item : MidjourneyDto) : Midjourney :=
  { task with
    progress := item.progress
    promptEn := item.promptEn
    state := item.state
    submitTime := item.submitTime
    startTime := item.startTime
    finishTime := item.finishTime
    imageUrl := item.imageUrl
    videoUrl := item.videoUrl
    status := item.status
    failReason := item.failReason }

/-- The row after a notification. -/
def Midjourney.notified (task : Midjourney) (item : MidjourneyDto) : Midjourney :=
  { task.overwrite item with
    videoUrls := cfg.marshalVideoUrls item.videoUrls }

/-- The row after a poll, before it is looked at for a failure. -/
def Midjourney.polled (task : Midjourney) (item : MidjourneyDto) : Midjourney :=
  { task.overwrite item with
    code := 1
    videoUrls :=
      if item.videoUrls.getD [] ≠ [] then cfg.marshalVideoUrls item.videoUrls else "" }

/-- A task that runs for more than an hour counts as failed. -/
def MidjourneyDto.orTimeout (item : MidjourneyDto) (task : Midjourney) (now : ℤ) : MidjourneyDto :=
  if 3600000 < now - task.submitTime ∧ task.progress ≠ "100%" then
    { item with failReason := "上游任务超时（超过1小时）", status := "FAILURE" }
  else item

/-- The report fails the task. -/
def MidjourneyDto.fails (item : MidjourneyDto) : Bool :=
  (item.progress ≠ "100%" && item.failReason ≠ "") ||
    (item.progress = "100%" && item.status = "FAILURE")

/-- The assignments of `UpdateMidjourneyTaskBulk`. -/
def Midjourney.assigned (task : Midjourney) (item : MidjourneyDto) : Midjourney :=
  { task.polled cfg item with
    progress := if item.fails then "100%" else (task.polled cfg item).progress }

/-- The body of the loop over the reports of a polled channel; `ok` says whether
`task.Update` succeeds. -/
def updateMidjourneyTask (task : Midjourney) (item : MidjourneyDto) (now : ℤ) (ok : Bool) :
    PollResult Midjourney :=
  let item := item.orTimeout task now
  if !checkMjTaskNeedUpdate cfg task item then .skip task
  else
    { row := task.assigned cfg item
      movement :=
        if item.fails ∧ task.quota ≠ 0 ∧ ok = true then some (.refund task.userId task.quota)
        else none
      saved := ok }

end

/-- The rows with the poller's copies, whether the polling goroutine is alive, and the charges
of submissions that left no row. -/
structure MidjourneyState where
  db : DB
  midjourneys : Table Midjourney
  mjPolling : Bool
  rowless : List Bill

inductive MidjourneyAction where
  | submit (req : MidjourneySubmit)
  | swapFace (req : MidjourneySubmit)
  | notify (item : MidjourneyDto) (ok : Bool)
  | selectMidjourneys
  | failNullMidjourneys (ok : Bool)
  | failChannelMidjourneys (channelId : ℕ) (ok : Bool)
  | pollItem (item : MidjourneyDto) (now : ℤ) (ok : Bool)

namespace MidjourneyState

/-- What the deferred function of a submission does when it charges. -/
def charge (db : DB) (req : MidjourneySubmit) (quota : ℤ) : DB :=
  ((db.postConsumeQuota req.payer quota).1.updateUserUsedQuotaAndRequestCount req.payer.userId
    quota 1).updateChannelUsedQuota req.infoChannelId quota

/-- A submission ends with its row inserted or not and with its price charged or not. -/
def record (s : MidjourneyState) (req : MidjourneySubmit) (row : Option Midjourney) (quota : ℤ)
    (charged : Bool) : MidjourneyState :=
  let bill := Bill.submitted req.payer (if charged then quota else 0)
  let s := if charged then { s with db := charge s.db req quota } else s
  match row with
  | some row => { s with midjourneys := s.midjourneys.insert row bill }
  | none => { s with rowless := s.rowless ++ [bill] }

section

variable {F : Type} [Float64 F] (cfg : MidjourneySettings F)

/-- `RelayMidjourneySubmit` from the price on.  A response with code 3 for a channel that
cannot be read ends in a panic, which still runs the deferred function. -/
def submit (s : MidjourneyState) (req : MidjourneySubmit) : MidjourneyState :=
  let quota := modelPriceHelperPerCall cfg req
  let consumeQuota := req.consumesQuota
  match req.response with
  | none => s
  | some resp =>
      if !req.affords consumeQuota quota then s
      else if resp.code = 3 ∧ req.channelFound = false then
        s.record req none quota (consumeQuota && resp.statusCode = 200)
      else
        let row := submittedMidjourney req resp quota
        s.record req (if req.inserted then some row else none) quota
          (consumeQuota && resp.accepted && resp.statusCode = 200)

/-- `RelaySwapFace` from the price on. -/
def swapFace (s : MidjourneyState) (req : MidjourneySubmit) : MidjourneyState :=
  let quota := modelPriceHelperPerCall cfg req
  match req.response with
  | none => s
  | some resp =>
      if !req.affords true quota then s
      else
        let row := { newMidjourney req resp quota with startTime := req.now }
        s.record req (if req.inserted then some row else none) quota
          (resp.statusCode = 200 && resp.code = 1)

/-- `RelayMidjourneyNotify`: overwrite the first row with the reported id. -/
def notify (s : MidjourneyState) (item : MidjourneyDto) : MidjourneyState :=
  match (s.midjourneys.selectWhere fun task => task.mjId = item.mjId).head? with
  | none => s
  | some copy =>
      { s with midjourneys := s.midjourneys.save copy.id (copy.row.notified cfg item) }

/-- The primary keys of the selected rows without an upstream id. -/
def nullTaskIds (s : MidjourneyState) : List ℕ :=
  (s.midjourneys.copies.filter fun copy => copy.row.mjId = "").map Copy.id

/-- The upstream ids of the selected rows on a channel. -/
def channelTaskIds (s : MidjourneyState) (channelId : ℕ) : List String :=
  (s.midjourneys.copies.filter fun copy =>
    copy.row.channelId = channelId && copy.row.mjId ≠ "").map fun copy => copy.row.mjId

def failNullMidjourneys (s : MidjourneyState) : MidjourneyState :=
  { s with
    midjourneys :=
      s.midjourneys.updateWhere (fun id _ => s.nullTaskIds.contains id) fun task =>
        { task with status := "FAILURE", progress := "100%" } }

def failChannelMidjourneys (s : MidjourneyState) (channelId : ℕ) : MidjourneyState :=
  { s with
    midjourneys :=
      s.midjourneys.updateWhere
        (fun _ task => (s.channelTaskIds channelId).contains task.mjId) fun task =>
        { task with
          failReason := "获取渠道信息失败，请联系管理员，渠道ID：" ++ toString channelId
          status := "FAILURE"
          progress := "100%" } }

/-- `taskM[mjId]`. -/
def lookup (s : MidjourneyState) (mjId : String) : Option (ℕ × Copy Midjourney) :=
  Pool.lastMatch (fun copy => copy.row.mjId = mjId && mjId ≠ "") s.midjourneys.copies

def poll (s : MidjourneyState) (i : ℕ) (copy : Copy Midjourney) (result : PollResult Midjourney) :
    MidjourneyState :=
  let polled := s.midjourneys.poll s.db i copy result
  { s with db := polled.1, midjourneys := polled.2 }

/-- The next report of a polled channel.  A report about a task that was not selected ends the
polling goroutine with a nil dereference. -/
def pollItem (s : MidjourneyState) (item : MidjourneyDto) (now : ℤ) (ok : Bool) :
    MidjourneyState :=
  match s.lookup item.mjId with
  | none => { s with midjourneys := { s.midjourneys with copies := [] }, mjPolling := false }
  | some (i, copy) => s.poll i copy (updateMidjourneyTask cfg copy.row item now ok)

def step (s : MidjourneyState) : MidjourneyAction → Option MidjourneyState
  | .submit req => some (s.submit cfg req)
  | .swapFace req => some (s.swapFace cfg req)
  | .notify item ok => if ok then some (s.notify cfg item) else some s
  | .selectMidjourneys =>
      if s.mjPolling then
        some
          { s with
            midjourneys :=
              { s.midjourneys with copies := s.midjourneys.selectWhere Midjourney.unfinished } }
      else none
  | .failNullMidjourneys ok => if ok then some s.failNullMidjourneys else some s
  | .failChannelMidjourneys channelId ok =>
      if ok then some (s.failChannelMidjourneys channelId) else some s
  | .pollItem item now ok => if s.mjPolling then some (s.pollItem cfg item now ok) else none

end

/-- Nothing has been submitted. -/
def start (db : DB) : MidjourneyState where
  db := db
  midjourneys := .empty
  mjPolling := true
  rowless := []

/-- The bills of all submissions. -/
def bills (s : MidjourneyState) : List Bill :=
  s.midjourneys.bills ++ s.rowless

end MidjourneyState

/-- The Midjourney system: submissions, notifications and the polling loop, interleaved. -/
def midjourneySystem {F : Type} [Float64 F] (cfg : MidjourneySettings F) :
    System MidjourneyState MidjourneyAction where
  step := MidjourneyState.step cfg

end NewApi.Model
