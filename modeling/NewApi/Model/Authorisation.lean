import NewApi.Lib.Strings
import NewApi.Model.Distribute

/-!
# The channels a request is sent to

The first attempt has the channel of the middleware, a retry selects again.  `Relay` retries as long
as its loop goes on, `RelayTask` sends first and then loops, and a Midjourney request has one
attempt.  A request that follows up on a task goes to the channel of the task instead; a Suno request
that continues a clip records the task when it is validated, and so goes there from its second
attempt on.
-/

namespace NewApi.Model

open NewApi.Lib NewApi.Lib.Choice

/-- A channel is looked up, with these random numbers and this entry of the affinity cache. -/
structure Selecting where
  lookup : ChannelLookup
  rand : String → ℕ → Rand
  preferredChannelID : Option ℤ

/-- What a turn of the loop of `Relay` finds. -/
structure RelayTurn where
  lookup : ChannelLookup
  rand : String → ℕ → Rand
  setupContextForSelectedChannel : Channel → Option NewAPIError
  bodyErr : Option (String × Bool)
  handler : ℤ → Option NewAPIError

def RelayTurn.retry (turn : RelayTurn) : RetryTurn where
  source := turn.lookup.source turn.rand
  setupContextForSelectedChannel := turn.setupContextForSelectedChannel
  bodyErr := turn.bodyErr
  handler := turn.handler

/-! ## Tasks -/

structure TaskError where
  code : String
  statusCode : ℤ
  localError : Bool

def shouldRetryTaskRelay (specificChannel : Bool) (taskErr : Option TaskError)
    (retryTimes : ℕ) : Bool :=
  match taskErr with
  | none => false
  | some taskErr =>
      if retryTimes = 0 then false
      else if specificChannel then false
      else if taskErr.statusCode = 429 then true
      else if taskErr.statusCode = 307 then true
      else if taskErr.statusCode.tdiv 100 = 5 then
        decide (taskErr.statusCode ≠ 504 ∧ taskErr.statusCode ≠ 524)
      else if taskErr.statusCode = 400 then false
      else if taskErr.statusCode = 408 then false
      else if taskErr.localError then false
      else decide (taskErr.statusCode.tdiv 100 ≠ 2)

/-- What an attempt of `RelayTask` finds: besides the channels the channel of a task of the user, the
row of that channel, the error of the next key of it, the error of the validation and that of the
submission to a channel. -/
structure TaskTurn where
  lookup : ChannelLookup
  rand : String → ℕ → Rand
  setupContextForSelectedChannel : Channel → Option NewAPIError
  bodyErr : Option TaskError
  getByTaskId : String → Except String (Option ℤ)
  getChannelById : ℤ → Option Channel
  keyErr : Option TaskError
  validateErr : Option TaskError
  submit : ℤ → Option TaskError

def TaskTurn.retry (turn : TaskTurn) : RetryTurn where
  source := turn.lookup.source turn.rand
  setupContextForSelectedChannel := turn.setupContextForSelectedChannel
  bodyErr := none
  handler _ := none

/-- The tasks that a request names: a remix in its path, a Suno request that continues a clip in
its body. -/
structure TaskRequest where
  remixVideoID : Option String
  continuedTaskID : Option String

/-- The channel that a task is to be sent to, with that of the original task if there is one. -/
structure TaskTarget where
  channelId : ℤ
  originChannelId : Option ℤ

/-- The original task takes the place of the selected channel. -/
def TaskTurn.target (turn : TaskTurn) (originTaskID : String) (channelId : ℤ) :
    Except TaskError TaskTarget :=
  if originTaskID = "" then .ok ⟨channelId, none⟩
  else
    match turn.getByTaskId originTaskID with
    | .error _ => .error ⟨"get_origin_task_failed", 500, false⟩
    | .ok none => .error ⟨"task_not_exist", 400, true⟩
    | .ok (some originChannelId) =>
        if originChannelId = channelId then .ok ⟨channelId, some originChannelId⟩
        else
          match turn.getChannelById originChannelId with
          | none => .error ⟨"channel_not_found", 400, true⟩
          | some channel =>
              if channel.status ≠ ChannelStatusEnabled then
                .error ⟨"task_channel_disable", 400, true⟩
              else
                match turn.keyErr with
                | some keyErr => .error keyErr
                | none => .ok ⟨originChannelId, some originChannelId⟩

/-- Without an original task the target is the selected channel, with one it is the task's. -/
theorem TaskTurn.target_spec {turn : TaskTurn} {originTaskID : String} {channelId : ℤ}
    {target : TaskTarget} (htarget : turn.target originTaskID channelId = .ok target) :
    originTaskID = "" ∧ target.originChannelId = none ∧ target.channelId = channelId ∨
      originTaskID ≠ "" ∧ target.originChannelId = some target.channelId := by
  rw [TaskTurn.target] at htarget
  split at htarget
  case isTrue horigin =>
    obtain rfl := Except.ok.inj htarget
    exact .inl ⟨horigin, rfl, rfl⟩
  case isFalse horigin =>
    refine .inr ⟨horigin, ?_⟩
    split at htarget
    · cases htarget
    · cases htarget
    case h_3 originChannelId _ =>
      split at htarget
      case isTrue hsame =>
        obtain rfl := Except.ok.inj htarget
        exact congrArg some hsame
      case isFalse =>
        split at htarget
        · cases htarget
        · split at htarget
          · cases htarget
          · split at htarget
            · cases htarget
            · obtain rfl := Except.ok.inj htarget
              rfl

/-- How a submission ends: the task that `RelayInfo` names from then on, the target that is in the
context, whether the task is sent to it, and the error. -/
structure TaskSubmission where
  originTaskID : String
  target : Option TaskTarget
  sent : Bool
  taskErr : Option TaskError

def TaskSubmission.event (result : TaskSubmission) : Option TaskTarget :=
  if result.sent then result.target else none

/-- `RelayTaskSubmit`, where `RelayInfo` names the original task.  The validation comes after the
task has been looked up. -/
def relayTaskSubmit (request : TaskRequest) (turn : TaskTurn) (originTaskID : String)
    (channelId : ℤ) : TaskSubmission :=
  if request.remixVideoID.any fun videoID => Strings.trimSpace videoID = "" then
    ⟨originTaskID, none, false, some ⟨"invalid_request", 400, true⟩⟩
  else
    let originTaskID := request.remixVideoID.getD originTaskID
    match turn.target originTaskID channelId with
    | .error taskErr => ⟨originTaskID, none, false, some taskErr⟩
    | .ok target =>
        match turn.validateErr with
        | some taskErr => ⟨originTaskID, some target, false, some taskErr⟩
        | none =>
            ⟨request.continuedTaskID.getD originTaskID, some target, true,
              turn.submit target.channelId⟩

/-- A task that is sent has passed the lookup of the original task. -/
theorem target_of_relayTaskSubmit {request : TaskRequest} {turn : TaskTurn} {originTaskID : String}
    {channelId : ℤ} {target : TaskTarget}
    (hsent : target ∈ (relayTaskSubmit request turn originTaskID channelId).event) :
    turn.target (request.remixVideoID.getD originTaskID) channelId = .ok target := by
  rw [relayTaskSubmit] at hsent
  split at hsent
  · cases hsent
  · dsimp only at hsent
    split at hsent
    · cases hsent
    case h_2 reached htarget =>
      split at hsent
      · cases hsent
      · obtain rfl := Option.some.inj hsent
        exact htarget

/-- A remix of a video without an id is refused. -/
theorem not_blank_of_relayTaskSubmit {videoID originTaskID : String}
    {continuedTaskID : Option String} {turn : TaskTurn} {channelId : ℤ} {target : TaskTarget}
    (hsent : target ∈
      (relayTaskSubmit ⟨some videoID, continuedTaskID⟩ turn originTaskID channelId).event) :
    videoID ≠ "" := by
  rintro rfl
  have hrefused :
      (relayTaskSubmit ⟨some "", continuedTaskID⟩ turn originTaskID channelId).event = none := rfl
  rw [hrefused] at hsent
  cases hsent

/-- A request that names no task leaves none behind. -/
theorem relayTaskSubmit_originTaskID {request : TaskRequest} {turn : TaskTurn}
    {originTaskID : String} {channelId : ℤ} (hremix : request.remixVideoID = none)
    (hcontinued : request.continuedTaskID = none) :
    (relayTaskSubmit request turn originTaskID channelId).originTaskID = originTaskID := by
  rw [relayTaskSubmit, hremix, hcontinued, Option.any_none, if_neg Bool.false_ne_true]
  dsimp only [Option.getD_none]
  split
  · rfl
  · split
    · rfl
    · rfl

structure TaskRelayState where
  retry : RetryState
  originTaskID : String
  taskErr : Option TaskError

namespace TaskRelayState

/-- The context after an attempt has the channel of its target. -/
def submitted (s : TaskRelayState) (result : TaskSubmission) : TaskRelayState where
  retry :=
    { s.retry with
      channelMeta := true
      ctx := { s.retry.ctx with
        channelId := (result.target.map (·.channelId)).getD s.retry.ctx.channelId } }
  originTaskID := result.originTaskID
  taskErr := result.taskErr

/-- The attempt before the loop. -/
def enter (task : TaskRequest) (turn : TaskTurn) (ctx : RetryContext) : TaskRelayState :=
  submitted ⟨.enter ctx, "", none⟩ (relayTaskSubmit task turn "" ctx.channelId)

/-- One turn of the loop; its event is the target that the task is sent to, if it is. -/
def attempt (cfg : RetrySettings) (request : RetryRequest) (task : TaskRequest)
    (s : TaskRelayState) (turn : TaskTurn) : Turn TaskRelayState (Option TaskTarget) :=
  match s.retry.getChannel cfg request turn.retry with
  | (.error _, retry) =>
      .leave ⟨retry, s.originTaskID, some ⟨"get_channel_failed", 500, true⟩⟩ none
  | (.ok channelId, retry) =>
      match turn.bodyErr with
      | some bodyErr => .leave ⟨retry, s.originTaskID, some bodyErr⟩ none
      | none =>
          let result := relayTaskSubmit task turn s.originTaskID channelId
          let s := submitted ⟨retry, s.originTaskID, none⟩ result
          .again { s with retry := { s.retry with param := s.retry.param.increaseRetry } }
            result.event

variable {cfg : RetrySettings} {request : RetryRequest} {task : TaskRequest}
  {s s' : TaskRelayState} {turn : TaskTurn} {event : Option TaskTarget}

/-- A turn that goes on has selected a channel and submitted the task. -/
theorem attempt_again (hturn : s.attempt cfg request task turn = .again s' event) :
    ∃ channelId reached id, s.retry.getChannel cfg request turn.retry = (.ok channelId, reached) ∧
      event = (relayTaskSubmit task turn s.originTaskID channelId).event ∧
        s'.originTaskID = (relayTaskSubmit task turn s.originTaskID channelId).originTaskID ∧
          s'.retry.channelMeta = true ∧ s'.retry.ctx = { reached.ctx with channelId := id } := by
  rw [attempt] at hturn
  split at hturn
  · cases hturn
  case h_2 channelId reached hchannel =>
    split at hturn
    · cases hturn
    · cases hturn
      exact ⟨channelId, reached, _, hchannel, rfl, rfl, rfl, rfl⟩

/-- A turn that leaves the loop submits nothing. -/
theorem attempt_leave : s.attempt cfg request task turn ≠ .leave s' (some event) := by
  intro hturn
  rw [attempt] at hturn
  split at hturn
  · cases hturn
  · split at hturn
    · cases hturn
    · cases hturn

end TaskRelayState

/-- The loop of `RelayTask`. -/
def relayTaskLoop (cfg : RetrySettings) (request : RetryRequest) (task : TaskRequest) :
    Loop TaskRelayState TaskTurn (Option TaskTarget) where
  guard s := shouldRetryTaskRelay s.retry.ctx.specificChannel s.taskErr cfg.retryTimes &&
    decide (s.retry.param.retry < cfg.retryTimes)
  turn := TaskRelayState.attempt cfg request task

/-! ## Midjourney -/

/-- The channel of a Midjourney request: an action on a task goes to the channel of the task. -/
def midjourneyChannel (originChannelId : Option ℤ) (getChannelById : ℤ → Option Channel)
    (channelId : ℤ) : Option ℤ :=
  match originChannelId with
  | none => some channelId
  | some originChannelId =>
      match getChannelById originChannelId with
      | none => none
      | some channel => if channel.status ≠ ChannelStatusEnabled then none else some originChannelId

/-! ## Requests -/

namespace ApiRequest

variable {F : Type}

/-- What a request is: one of `Relay`, a task that may continue a clip of a task, a remix of a
video, or a Midjourney request, which may be an action on a task of a channel. -/
inductive Kind
  | relay
  | task (continuedTaskID : Option String)
  | remix (videoID : String)
  | midjourney (originChannelId : Option ℤ)

/-- The attempt follows up on a task: of a request that continues a clip every one but the
first. -/
def Kind.FollowsUp (attempt : ℕ) : Kind → Prop
  | relay => False
  | task continuedTaskID => continuedTaskID.isSome = true ∧ attempt ≠ 0
  | remix _ => True
  | midjourney originChannelId => originChannelId.isSome = true

/-- An attempt is sent to a target, with the channels as they were when its channel was selected. -/
structure Sending where
  attempt : ℕ
  lookup : ChannelLookup
  target : TaskTarget

/-- What the first attempt of a task and those of the loop of `RelayTask` are sent to. -/
def taskSendings (first : ChannelLookup) (turns : ℕ → TaskTurn) (start : Option TaskTarget)
    (sent : List (Option TaskTarget)) : List Sending :=
  start.toList.map (⟨0, first, ·⟩) ++
    (sent.mapIdx fun i event => event.toList.map (⟨i + 1, (turns i).lookup, ·⟩)).flatten

/-- What the attempts of a request are sent to. -/
inductive Sends (cfg : RoutingSettings F) (req : ApiRequest) : Kind → List Sending → Prop
  | relay {first : Selecting} {turns : ℕ → RelayTurn} {usingGroup : String} {d : Distributed}
      {tried : List TriedChannel} {last : RetryState} (hauth : req.tokenAuth cfg = .ok usingGroup)
      (hdistribute : req.distribute cfg first.lookup first.rand first.preferredChannelID usingGroup = .ok d)
      (hends : (retryLoop cfg.retry req.retryRequest).Ends (fun n => (turns n).retry) 0 (.enter d.ctx)
        tried last) :
      Sends cfg req .relay (tried.mapIdx fun i tried =>
        ⟨i, if i = 0 then first.lookup else (turns i).lookup, tried.channelId, none⟩)
  | task {first : Selecting} {continuedTaskID : Option String} {start : TaskTurn}
      {turns : ℕ → TaskTurn} {usingGroup : String} {d : Distributed}
      {sent : List (Option TaskTarget)} {last : TaskRelayState}
      (hauth : req.tokenAuth cfg = .ok usingGroup)
      (hdistribute : req.distribute cfg first.lookup first.rand first.preferredChannelID usingGroup = .ok d)
      (hends : (relayTaskLoop cfg.retry req.retryRequest ⟨none, continuedTaskID⟩).Ends turns 0
        (.enter ⟨none, continuedTaskID⟩ start d.ctx) sent last) :
      Sends cfg req (.task continuedTaskID) (taskSendings first.lookup turns
        (relayTaskSubmit ⟨none, continuedTaskID⟩ start "" d.ctx.channelId).event sent)
  | remix {videoID : String} {continuedTaskID : Option String} {start : TaskTurn}
      {turns : ℕ → TaskTurn} {usingGroup originModelName : String}
      {sent : List (Option TaskTarget)} {last : TaskRelayState}
      (hauth : req.tokenAuth cfg = .ok usingGroup) (hmodel : req.modelName = "")
      (hlimits : req.modelLimitsEnabled = true →
        formatMatchingModelName req.modelName ∈ req.getModelLimitsMap)
      (hends : (relayTaskLoop cfg.retry ⟨req.relayTokenGroup, originModelName⟩
          ⟨some videoID, continuedTaskID⟩).Ends turns 0
        (.enter ⟨some videoID, continuedTaskID⟩ start req.context) sent last) :
      Sends cfg req (.remix videoID) (taskSendings start.lookup turns
        (relayTaskSubmit ⟨some videoID, continuedTaskID⟩ start "" req.context.channelId).event sent)
  | midjourney {first : Selecting} {usingGroup : String} {d : Distributed}
      {originChannelId : Option ℤ} {getChannelById : ℤ → Option Channel}
      (hauth : req.tokenAuth cfg = .ok usingGroup)
      (hdistribute : req.distribute cfg first.lookup first.rand first.preferredChannelID usingGroup =
        .ok d) :
      Sends cfg req (.midjourney originChannelId)
        ((midjourneyChannel originChannelId getChannelById d.ctx.channelId).toList.map
          (⟨0, first.lookup, ·, originChannelId⟩))

/-- The channel is enabled for the model and a group that the request may be served by and the user
may use; a user without a group has the one without a name.  The model is one of the token's. -/
structure Authorised (cfg : RoutingSettings F) (req : ApiRequest) (lookup : ChannelLookup)
    (channelId : ℤ) : Prop where
  group : ∃ group, lookup.Enabled group req.modelName channelId ∧ req.ServedBy cfg group ∧
    (group ∈ cfg.getUserUsableGroups req.userGroup ∨ req.userGroup = "" ∧
      req.tokenGroup = "" ∧ group = "")
  limits : req.modelLimitsEnabled = true →
    formatMatchingModelName req.modelName ∈ req.getModelLimitsMap

variable {cfg : RoutingSettings F} {req : ApiRequest} {first : Selecting} {usingGroup : String}
  {d : Distributed}

/-- The user may use every group that serves the request. -/
theorem usable_of_servedBy {group : String} (hauth : req.tokenAuth cfg = .ok usingGroup)
    (hserved : req.ServedBy cfg group) :
    group ∈ cfg.getUserUsableGroups req.userGroup ∨
      req.userGroup = "" ∧ req.tokenGroup = "" ∧ group = "" := by
  rw [ServedBy] at hserved
  split at hserved
  · exact Or.inl (cfg.getUserAutoGroup_subset hserved)
  · subst hserved
    rw [relayTokenGroup]
    split
    case isTrue htoken =>
      by_cases huser : req.userGroup = ""
      · exact Or.inr ⟨huser, htoken, huser⟩
      · exact Or.inl (cfg.mem_getUserUsableGroups huser)
    case isFalse htoken =>
      rw [tokenAuth, if_pos htoken] at hauth
      split at hauth
      · cases hauth
      case isFalse husable => exact Or.inl (not_not.1 husable)

/-- A channel that a selection for the request has found is one that the request may be sent to. -/
theorem DistributedFrom.authorised {lookup : ChannelLookup} {group : String} {channelId : ℤ}
    (hauth : req.tokenAuth cfg = .ok usingGroup) (hfrom : DistributedFrom cfg first.lookup req d)
    (henabled : lookup.Enabled group req.modelName channelId) (hserved : req.ServedBy cfg group) :
    req.Authorised cfg lookup channelId :=
  ⟨⟨group, henabled, hserved, usable_of_servedBy hauth hserved⟩, hfrom.limits⟩

/-! ## Both loops -/

/-- What holds when the loop of `Relay` tests its guard for the `n`-th time: only the first attempt
has the channel of the middleware. -/
structure Ready (req : ApiRequest) (d : Distributed) (n : ℕ) (s : RetryState) : Prop where
  carries : req.Carries s.ctx
  first : n = 0 → s.channelMeta = false ∧ s.ctx = d.ctx
  later : n ≠ 0 → s.channelMeta = true

theorem Ready.getChannel_authorised {turns : ℕ → RelayTurn} {n : ℕ}
    {s s' : RetryState} {channelId : ℤ}
    (hauth : req.tokenAuth cfg = .ok usingGroup) (hfrom : DistributedFrom cfg first.lookup req d)
    (hready : Ready req d n s)
    (hchannel : s.getChannel cfg.retry req.retryRequest (turns n).retry = (.ok channelId, s')) :
    req.Authorised cfg (if n = 0 then first.lookup else (turns n).lookup) channelId ∧
      req.Carries s'.ctx := by
  -- only the first turn has the channel of the middleware
  by_cases hn : n = 0
  · obtain ⟨hmeta, hctx⟩ := hready.first hn
    rw [getChannel_first hmeta, hctx] at hchannel
    cases hchannel
    rw [if_pos hn, hfrom.channelId]
    exact ⟨hfrom.authorised hauth hfrom.enabled hfrom.served, hready.carries⟩
  · rw [if_neg hn]
    obtain ⟨henabled, hserved, -, hcarries⟩ :=
      getChannel_from (hready.later hn) hready.carries rfl hchannel
    exact ⟨hfrom.authorised hauth henabled hserved, hcarries⟩

/-- Every attempt of `Relay`. -/
theorem relay_authorised {turns : ℕ → RelayTurn} {tried : List TriedChannel} {last : RetryState}
    (hauth : req.tokenAuth cfg = .ok usingGroup) (hfrom : DistributedFrom cfg first.lookup req d)
    (hends : (retryLoop cfg.retry req.retryRequest).Ends (fun n => (turns n).retry) 0 (.enter d.ctx)
      tried last) (i : ℕ) (attempt : TriedChannel) (hattempt : tried[i]? = some attempt) :
    req.Authorised cfg (if i = 0 then first.lookup else (turns i).lookup) attempt.channelId := by
  obtain ⟨fuel, hexec⟩ := hends
  have hevents := Loop.exec_events (I := Ready req d)
    (Q := fun n attempt =>
      req.Authorised cfg (if n = 0 then first.lookup else (turns n).lookup) attempt.channelId)
    (fun hready _ hturn => by
      obtain ⟨channelId, reached, newAPIError, hchannel, rfl, rfl⟩ := RetryState.attempt_again hturn
      obtain ⟨hauthorised, hcarries⟩ := hready.getChannel_authorised hauth hfrom hchannel
      exact ⟨⟨⟨hcarries.userGroup, hcarries.fixed⟩, fun hn => absurd hn (Nat.succ_ne_zero _),
        fun _ => rfl⟩, hauthorised⟩)
    (fun hready _ hturn => by
      obtain ⟨channelId, reached, hchannel, rfl⟩ := RetryState.attempt_leave hturn
      exact (hready.getChannel_authorised hauth hfrom hchannel).1)
    ⟨hfrom.carries, fun _ => ⟨rfl, rfl⟩, fun hn => absurd rfl hn⟩ hexec
  have hresult := hevents i attempt hattempt
  rwa [Nat.zero_add] at hresult

/-- The channel is authorised, unless the attempt follows up on a task and goes to its channel. -/
def Permitted (cfg : RoutingSettings F) (req : ApiRequest) (kind : Kind) (attempt : ℕ)
    (lookup : ChannelLookup) (target : TaskTarget) : Prop :=
  match target.originChannelId with
  | none => req.Authorised cfg lookup target.channelId
  | some originChannelId => kind.FollowsUp attempt ∧ target.channelId = originChannelId

/-- A submission of a task, on a channel that the request may be sent to.  Where it replaces the
channel, `RelayInfo` names a task, which only a request that continues a clip has left there. -/
theorem task_permitted {continuedTaskID : Option String} {turn : TaskTurn} {attempt : ℕ}
    {originTaskID : String} {channelId : ℤ} {lookup : ChannelLookup} {target : TaskTarget}
    (hauthorised : req.Authorised cfg lookup channelId)
    (hnamed : originTaskID ≠ "" → continuedTaskID.isSome = true ∧ attempt ≠ 0)
    (hsent : target ∈ (relayTaskSubmit ⟨none, continuedTaskID⟩ turn originTaskID channelId).event) :
    req.Permitted cfg (.task continuedTaskID) attempt lookup target := by
  rw [Permitted]
  obtain ⟨horigin, hchannel⟩ | ⟨horigin, hchannel⟩ :=
    TaskTurn.target_spec (target_of_relayTaskSubmit hsent)
  · rw [hchannel.1, hchannel.2]
    exact hauthorised
  · rw [hchannel]
    exact ⟨hnamed horigin, rfl⟩

/-- Every submission of the loop of `RelayTask`. -/
theorem relayTask_permitted {continuedTaskID : Option String} {start : TaskTurn}
    {turns : ℕ → TaskTurn} {sent : List (Option TaskTarget)} {last : TaskRelayState}
    (hauth : req.tokenAuth cfg = .ok usingGroup) (hfrom : DistributedFrom cfg first.lookup req d)
    (hends : (relayTaskLoop cfg.retry req.retryRequest ⟨none, continuedTaskID⟩).Ends turns 0
      (.enter ⟨none, continuedTaskID⟩ start d.ctx) sent last) (i : ℕ) (event : Option TaskTarget)
    (hevent : sent[i]? = some event) :
    ∀ target ∈ event,
      req.Permitted cfg (.task continuedTaskID) (i + 1) (turns i).lookup target := by
  obtain ⟨fuel, hexec⟩ := hends
  have hleft : ∀ (turn : TaskTurn) (originTaskID : String) (channelId : ℤ),
      (continuedTaskID = none → originTaskID = "") → continuedTaskID = none →
        (relayTaskSubmit ⟨none, continuedTaskID⟩ turn originTaskID channelId).originTaskID = "" :=
    fun turn originTaskID channelId hbefore hnone =>
      (relayTaskSubmit_originTaskID rfl hnone).trans (hbefore hnone)
  have hevents := Loop.exec_events
    (I := fun _ s => (req.Carries s.retry.ctx ∧ s.retry.channelMeta = true) ∧
      (continuedTaskID = none → s.originTaskID = ""))
    (Q := fun n event => ∀ target ∈ event,
      req.Permitted cfg (.task continuedTaskID) (n + 1) (turns n).lookup target)
    (fun hready _ hturn => by
      obtain ⟨channelId, reached, id, hchannel, rfl, hnamed, hmeta, hctx⟩ :=
        TaskRelayState.attempt_again hturn
      obtain ⟨henabled, hserved, -, hcarries⟩ :=
        getChannel_from hready.1.2 hready.1.1 rfl hchannel
      refine ⟨⟨⟨?_, hmeta⟩, ?_⟩, ?_⟩
      · rw [hctx]
        exact ⟨hcarries.userGroup, hcarries.fixed⟩
      · rw [hnamed]
        exact hleft _ _ _ hready.2
      · intro target htarget
        refine task_permitted (hfrom.authorised hauth henabled hserved) (fun hnamed => ?_) htarget
        exact ⟨Option.isSome_iff_ne_none.2 fun hnone => hnamed (hready.2 hnone),
          Nat.succ_ne_zero _⟩)
    (fun _ _ hturn => absurd hturn TaskRelayState.attempt_leave)
    ⟨⟨⟨hfrom.carries.userGroup, hfrom.carries.fixed⟩, rfl⟩, hleft _ _ _ fun _ => rfl⟩ hexec
  have hresult := hevents i event hevent
  rwa [Nat.zero_add] at hresult

/-- A remix is sent to the channel of the original task. -/
theorem remix_permitted {videoID : String} {continuedTaskID : Option String} {turn : TaskTurn}
    {originTaskID : String} {attempt : ℕ} {channelId : ℤ} {lookup : ChannelLookup}
    {target : TaskTarget}
    (hsent : target ∈
      (relayTaskSubmit ⟨some videoID, continuedTaskID⟩ turn originTaskID channelId).event) :
    req.Permitted cfg (.remix videoID) attempt lookup target := by
  rw [Permitted]
  obtain ⟨hblank, -⟩ | ⟨-, hchannel⟩ :=
    TaskTurn.target_spec (target_of_relayTaskSubmit hsent)
  · exact absurd hblank (not_blank_of_relayTaskSubmit hsent)
  · rw [hchannel]
    exact ⟨trivial, rfl⟩

theorem remix_sent {videoID : String} {continuedTaskID : Option String} {start : TaskTurn}
    {turns : ℕ → TaskTurn} {request : RetryRequest} {ctx : RetryContext}
    {sent : List (Option TaskTarget)} {last : TaskRelayState}
    (hends : (relayTaskLoop cfg.retry request ⟨some videoID, continuedTaskID⟩).Ends turns 0
      (.enter ⟨some videoID, continuedTaskID⟩ start ctx) sent last) (i : ℕ)
    (event : Option TaskTarget) (hevent : sent[i]? = some event) :
    ∀ target ∈ event, req.Permitted cfg (.remix videoID) (i + 1) (turns i).lookup target := by
  obtain ⟨fuel, hexec⟩ := hends
  have hevents := Loop.exec_events (I := fun _ _ => True)
    (Q := fun n event => ∀ target ∈ event,
      req.Permitted cfg (.remix videoID) (n + 1) (turns n).lookup target)
    (fun _ _ hturn => by
      obtain ⟨channelId, reached, id, -, rfl, -⟩ := TaskRelayState.attempt_again hturn
      exact ⟨trivial, fun target htarget => remix_permitted htarget⟩)
    (fun _ _ hturn => absurd hturn TaskRelayState.attempt_leave) trivial hexec
  have hresult := hevents i event hevent
  rwa [Nat.zero_add] at hresult

theorem eq_of_midjourneyChannel {originChannelId channelId sentTo : ℤ} {row : ℤ → Option Channel}
    (hsent : sentTo ∈ midjourneyChannel (some originChannelId) row channelId) :
    sentTo = originChannelId := by
  rw [midjourneyChannel] at hsent
  split at hsent
  · cases hsent
  · split at hsent
    · cases hsent
    · exact (Option.some.inj hsent).symm

/-- What a task is sent to in its first attempt or in one of the loop. -/
theorem mem_taskSendings {lookup : ChannelLookup} {turns : ℕ → TaskTurn}
    {start : Option TaskTarget} {sent : List (Option TaskTarget)} {entry : Sending}
    (hentry : entry ∈ taskSendings lookup turns start sent) :
    (∃ target ∈ start, entry = ⟨0, lookup, target⟩) ∨
      ∃ i event, sent[i]? = some event ∧
        ∃ target ∈ event, entry = ⟨i + 1, (turns i).lookup, target⟩ := by
  rcases List.mem_append.1 hentry with hfirst | hlater
  · obtain ⟨target, htarget, rfl⟩ := List.mem_map.1 hfirst
    exact .inl ⟨target, Option.mem_toList.1 htarget, rfl⟩
  · obtain ⟨entries, hentries, hmem⟩ := List.mem_flatten.1 hlater
    obtain ⟨i, hi, rfl⟩ := List.mem_mapIdx.1 hentries
    obtain ⟨target, htarget, rfl⟩ := List.mem_map.1 hmem
    exact .inr ⟨i, sent[i], List.getElem?_eq_getElem hi, target, Option.mem_toList.1 htarget, rfl⟩

end ApiRequest

open ApiRequest

/-- Every attempt of a request goes to a channel that the request is authorised for when the channel
is selected, unless it follows up on a task and goes to the channel of the task. -/
theorem attempts_authorised {F : Type} {cfg : RoutingSettings F} {req : ApiRequest}
    {kind : Kind} {sends : List Sending} (hsends : req.Sends cfg kind sends) :
    ∀ sent ∈ sends,
      match sent.target.originChannelId with
      | none => req.Authorised cfg sent.lookup sent.target.channelId
      | some originChannelId =>
          kind.FollowsUp sent.attempt ∧ sent.target.channelId = originChannelId := by
  intro entry hentry
  cases hsends with
  | relay hauth hdistribute hends =>
      have hfrom := distribute_from (req.tokenAuth_eq cfg hauth) hdistribute
      obtain ⟨i, hi, rfl⟩ := List.mem_mapIdx.1 hentry
      exact relay_authorised hauth hfrom hends i _ (List.getElem?_eq_getElem hi)
  | task hauth hdistribute hends =>
      have hfrom := distribute_from (req.tokenAuth_eq cfg hauth) hdistribute
      obtain ⟨target, htarget, rfl⟩ | ⟨i, event, hevent, target, htarget, rfl⟩ :=
        mem_taskSendings hentry
      · refine task_permitted (hfrom.channelId ▸ ?_) (fun hnamed => absurd rfl hnamed) htarget
        exact hfrom.authorised hauth hfrom.enabled hfrom.served
      · exact relayTask_permitted hauth hfrom hends i event hevent target htarget
  | remix hauth hmodel hlimits hends =>
      obtain ⟨target, htarget, rfl⟩ | ⟨i, event, hevent, target, htarget, rfl⟩ :=
        mem_taskSendings hentry
      · exact remix_permitted htarget
      · exact remix_sent hends i event hevent target htarget
  | midjourney hauth hdistribute =>
      rename_i originChannelId _
      have hfrom := distribute_from (req.tokenAuth_eq cfg hauth) hdistribute
      obtain ⟨id, hid, rfl⟩ := List.mem_map.1 hentry
      cases originChannelId with
      | none =>
          obtain rfl := Option.some.inj (Option.mem_toList.1 hid)
          show req.Authorised cfg _ _
          rw [hfrom.channelId]
          exact hfrom.authorised hauth hfrom.enabled hfrom.served
      | some originChannelId =>
          exact ⟨rfl, eq_of_midjourneyChannel (Option.mem_toList.1 hid)⟩

def sampleRoutingSettings : RoutingSettings ℚ where
  retryTimes := 1
  automaticRetryStatusCodeRanges := [⟨500, 599⟩]
  maskSensitiveInfo text := text
  autoGroups := ["default"]
  userUsableGroups := ["default", "vip"]
  groupSpecialUsableGroup _ := none
  groupRatio _ := some 1
  groupGroupRatio _ _ := none

def sampleApiRequest (tokenGroup modelName : String) : ApiRequest where
  userGroup := "default"
  tokenGroup := tokenGroup
  crossGroupRetry := false
  modelLimitsEnabled := false
  modelLimits := ""
  modelName := modelName

/-- Only the group `default` has a channel. -/
def sampleLookup : ChannelLookup :=
  .database sampleChannelTable (sampleCachedChannel 1 false).abilities

theorem attempts_authorised_o3 :
    (sampleApiRequest "" "o3").Authorised sampleRoutingSettings sampleLookup 1 := by
  have hsends : (sampleApiRequest "" "o3").Sends sampleRoutingSettings .relay
      [⟨0, sampleLookup, 1, none⟩] :=
    @Sends.relay ℚ sampleRoutingSettings (sampleApiRequest "" "o3")
      ⟨sampleLookup, fun _ _ => constRand 0, none⟩
      (fun _ => ⟨sampleLookup, fun _ _ => constRand 0, fun _ => none, none, fun _ => none⟩)
      "default" ⟨sampleCachedChannel 1 false, "default",
        { (sampleApiRequest "" "o3").context with channelId := 1 }⟩
      [⟨1, none, none⟩] _ rfl rfl ⟨2, rfl⟩
  exact attempts_authorised hsends _ (List.mem_singleton_self _)

/-- An attempt of a task of channel 1, whose rows are those of the sample. -/
def sampleTaskTurn : TaskTurn where
  lookup := sampleLookup
  rand _ _ := constRand 0
  setupContextForSelectedChannel _ := none
  bodyErr := none
  getByTaskId _ := .ok (some 1)
  getChannelById id := sampleLookup.cacheGetChannel id
  keyErr := none
  validateErr := none
  submit _ := none

/-- A remix with a token of a group without channels goes to the channel of the original task. -/
theorem remix_not_authorised :
    ∃ sends, (sampleApiRequest "vip" "").Sends sampleRoutingSettings (.remix "video_1") sends ∧
      ∃ sent ∈ sends, ∀ modelName,
        ¬(sampleApiRequest "vip" modelName).Authorised sampleRoutingSettings sent.lookup
          sent.target.channelId := by
  have hsends : (sampleApiRequest "vip" "").Sends sampleRoutingSettings (.remix "video_1")
      [⟨0, sampleLookup, 1, some 1⟩] :=
    @Sends.remix ℚ sampleRoutingSettings (sampleApiRequest "vip" "") "video_1" none sampleTaskTurn
      (fun _ => sampleTaskTurn) "vip" "sora-2" [] _ rfl rfl (fun h => absurd h Bool.false_ne_true)
      ⟨1, rfl⟩
  refine ⟨_, hsends, _, List.mem_singleton_self _, fun modelName hauthorised => ?_⟩
  obtain ⟨group, henabled, hserved, -⟩ := hauthorised.group
  obtain rfl : group = "vip" := hserved
  obtain ⟨model, -, ability, hability, -⟩ := henabled
  have hgroups : ∀ ability ∈ (sampleCachedChannel 1 false).abilities,
      ability.group = "default" := by
    decide
  obtain ⟨hmem, hkey⟩ := List.mem_filter.1 hability
  rw [hgroups ability hmem] at hkey
  simp at hkey

end NewApi.Model
