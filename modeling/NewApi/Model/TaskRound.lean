import Mathlib.Data.List.Dedup
import NewApi.Model.PollRound
import NewApi.Model.TaskLedger

/-!
# One round of the task poller

`UpdateTaskBulk` groups the unfinished tasks by platform and channel and indexes those of one
platform by their upstream id, whatever their channel.  A round is the list of steps that follow
from the selection and the answers of the channels; each is an action of the task system, tagged
with the channel that it comes from.
-/

namespace NewApi.Model

open NewApi.Lib

def Task.key (task : Task) : TaskKey where
  platform := task.platform
  taskId := task.taskId
  channelId := task.channelId
  userId := task.userId

/-- The key that `taskM` of a platform has the entry of an upstream id for. -/
def TaskKey.named (platform taskId : String) (task : TaskKey) : Bool :=
  task.platform = platform && task.taskId = taskId && taskId ≠ ""

/-- How the visit of a channel with video tasks goes; every upstream id is asked for on its own. -/
inductive VideoAnswer
  | channelGone (ok : Bool)
  | results (results : ℕ → Option (VideoResponse × Bool))

inductive TaskRoundStep
  | failNullTasks (platform : String) (ok : Bool)
  | visit (platform : String) (channelId : ℕ) (taskIds : List String)
  | channelGone (platform : String) (channelId : ℕ) (ok : Bool)
  | noBaseURL
  | sunoResponse
  | sunoItem (channelId : ℕ) (item : SunoItem) (ok : Bool)
  | videoResult (platform : String) (channelId : ℕ) (taskId : String) (resp : VideoResponse)
      (ok : Bool)

/-- What a round meets: the order of its maps, the answers, and whether `GetTaskAdaptor` knows the
platform. -/
structure TaskAnswers where
  platforms : MapOrder String
  channels : String → MapOrder ℕ
  nullOk : String → Bool
  suno : ℕ → ChannelAnswer (SunoItem × Bool)
  hasAdaptor : String → Bool
  video : String → ℕ → VideoAnswer

/-- `updateSunoTaskAll`.  A base URL that is nil is dereferenced. -/
def sunoVisit (channelId : ℕ) (taskIds : List String) :
    ChannelAnswer (SunoItem × Bool) → List TaskRoundStep
  | .channelGone ok =>
      [.visit TaskPlatformSuno channelId taskIds, .channelGone TaskPlatformSuno channelId ok]
  | .noBaseURL => [.noBaseURL]
  | .failed => [.visit TaskPlatformSuno channelId taskIds]
  | .items items =>
      .visit TaskPlatformSuno channelId taskIds :: .sunoResponse ::
        items.map fun item => .sunoItem channelId item.1 item.2

/-- `updateVideoTaskAll`. -/
def videoVisit (platform : String) (channelId : ℕ) (taskIds : List String) (hasAdaptor : Bool) :
    VideoAnswer → List TaskRoundStep
  | .channelGone ok =>
      [.visit platform channelId taskIds, .channelGone platform channelId ok]
  | .results results =>
      if hasAdaptor then
        .visit platform channelId taskIds ::
          taskIds.zipIdx.filterMap fun taskId => (results taskId.2).map fun result =>
            .videoResult platform channelId taskId.1 result.1 result.2
      else []

namespace TaskState

/-- The platforms of the selected tasks. -/
def platforms (s : TaskState) : List String :=
  (s.tasks.copies.map fun copy => copy.row.platform).dedup

/-- The channels of the selected tasks of a platform that have an upstream id. -/
def channelIds (s : TaskState) (platform : String) : List ℕ :=
  ((s.tasks.copies.filter fun copy =>
    copy.row.platform = platform && copy.row.taskId ≠ "").map fun copy => copy.row.channelId).dedup

/-- The task that `taskM` of the platform has under the upstream id. -/
def taken (s : TaskState) (platform taskId : String) : Option TaskKey :=
  lastNamed Task.key (TaskKey.named platform taskId) s.tasks.copies

/-- The task that a response is applied to, if there is one. -/
def applies (s : TaskState) (platform : String) (channelId : ℕ) (taskId : String) : List Applied :=
  (s.lookup platform taskId).toList.map fun found =>
    ⟨channelId, taskId, found.2.id, found.2.row.key⟩

end TaskState

namespace TaskAnswers

variable (answers : TaskAnswers) (s : TaskState)

/-- `UpdateTaskByPlatform` on one channel; Midjourney tasks are not polled here. -/
def visit (platform : String) (channelId : ℕ) : List TaskRoundStep :=
  let taskIds := s.channelTaskIds platform channelId
  if platform = TaskPlatformMidjourney then []
  else if platform = TaskPlatformSuno then sunoVisit channelId taskIds (answers.suno channelId)
  else videoVisit platform channelId taskIds (answers.hasAdaptor platform)
    (answers.video platform channelId)

/-- The steps of the round after the selection. -/
def steps : List TaskRoundStep :=
  (answers.platforms.order s.platforms).flatMap fun platform =>
    .failNullTasks platform (answers.nullOk platform) ::
      ((answers.channels platform).order (s.channelIds platform)).flatMap (answers.visit s platform)

end TaskAnswers

section

variable {F : Type} [Float64 F] (cfg : TaskSettings F)

/-- One step of a round. -/
def taskRoundStep (p : Polling TaskState) : TaskRoundStep → Option (Polling TaskState)
  | .failNullTasks platform ok =>
      p.goOn TaskState.taskPolling (TaskState.step cfg p.state (.failNullTasks platform ok)) []
  | .visit .. => some p
  | .channelGone platform channelId ok =>
      p.goOn TaskState.taskPolling (TaskState.step cfg p.state (.failChannelTasks platform channelId ok))
        (if ok && platform ≠ TaskPlatformMidjourney then
          goneTasks Task.key p.state.tasks.entries channelId
            (p.state.channelTaskIds platform channelId)
        else [])
  | .noBaseURL => none
  | .sunoResponse => p.goOn TaskState.taskPolling (TaskState.step cfg p.state .sunoResponse) []
  | .sunoItem channelId item ok =>
      p.goOn TaskState.taskPolling (TaskState.step cfg p.state (.sunoItem item ok))
        (p.state.applies TaskPlatformSuno channelId item.taskId)
  | .videoResult platform channelId taskId resp ok =>
      p.goOn TaskState.taskPolling (TaskState.step cfg p.state (.videoResult platform taskId resp ok))
        (if platform = TaskPlatformSuno ∨ platform = TaskPlatformMidjourney then []
        else p.state.applies platform channelId taskId)

def taskRound : System (Polling TaskState) TaskRoundStep where
  step := taskRoundStep cfg

variable {cfg} {p p' : Polling TaskState} {s s' : TaskState} {step : TaskRoundStep} {db₀ : DB}
  {table₀ : Table Task}

omit [Float64 F] in
theorem updateSunoTask_key (task : Task) (item : SunoItem) (err ok : Bool) :
    (updateSunoTask cfg task item err ok).row.key = task.key := by
  rw [updateSunoTask]
  split <;> rfl

theorem updateVideoSingleTask_key (task : Task) (resp : VideoResponse) (ok : Bool) :
    (updateVideoSingleTask cfg task resp ok).row.key = task.key := by
  rw [updateVideoSingleTask]
  dsimp only
  split_ifs
  · rfl
  · rfl
  · rfl
  · rw [settleVideoTask]
    split
    · rfl
    · split <;> rfl
  · rfl
  · rfl
  · rfl

/-- A task that is looked up is one of the copies, and it has that platform and upstream id. -/
theorem TaskState.lookup_key {platform taskId : String} {i : ℕ} {copy : Copy Task}
    (hlookup : s.lookup platform taskId = some (i, copy)) :
    s.tasks.copies[i]? = some copy ∧ copy.row.platform = platform ∧ copy.row.taskId = taskId ∧
      taskId ≠ "" := by
  obtain ⟨hcopy, hmatch⟩ := Pool.lastMatch_some hlookup
  simp only [Bool.and_eq_true, decide_eq_true_eq] at hmatch
  exact ⟨hcopy, hmatch.1.1, hmatch.1.2, hmatch.2⟩

/-- The upstream ids of a channel are those that the round began with. -/
theorem TaskState.channelTaskIds_eq {copies : List (Copy Task)}
    (hcopies : s.tasks.copies.map (fun copy => copy.row.key) = copies.map fun copy => copy.row.key)
    (platform : String) (channelId : ℕ) : s.channelTaskIds platform channelId =
      ((copies.filter fun copy => copy.row.platform = platform && copy.row.channelId = channelId &&
        copy.row.taskId ≠ "").map fun copy => copy.row.taskId) := by
  have hids : ∀ copies : List (Copy Task), ((copies.filter fun copy =>
      copy.row.platform = platform && copy.row.channelId = channelId &&
        copy.row.taskId ≠ "").map fun copy => copy.row.taskId) =
      (((copies.map fun copy => copy.row.key).filter fun task =>
        task.platform = platform && task.channelId = channelId && task.taskId ≠ "").map
          TaskKey.taskId) := by
    intro copies
    rw [List.filter_map, List.map_map]
    rfl
  unfold channelTaskIds
  rw [hids, hids, hcopies]

/-- The rows of tasks without an upstream id. -/
theorem TaskState.nullTask_of_mem {platform : String} {id : ℕ} {e : Billed Task}
    (hbacked : Table.Backed (SameTask Task.key) s.tasks.entries s.tasks.copies)
    (hentry : s.tasks.entries[id]? = some e) (hmem : id ∈ s.nullTaskIds platform) :
    e.row.taskId = "" := by
  unfold nullTaskIds at hmem
  obtain ⟨copy, hcopy, rfl⟩ := List.mem_map.1 hmem
  obtain ⟨hin, hnull⟩ := List.mem_filter.1 hcopy
  obtain ⟨e', hentry', hsame⟩ := hbacked copy hin
  rw [hentry] at hentry'
  obtain rfl := Option.some.inj hentry'
  simp only [Bool.and_eq_true, decide_eq_true_eq] at hnull
  exact (congrArg TaskKey.taskId hsame).symm.trans hnull.2

theorem TaskState.failNullTasks_effect
    (hbacked : Table.Backed (SameTask Task.key) s.tasks.entries s.tasks.copies)
    (platform : String) :
    PollEffect Task.key s.db s.tasks [] (s.failNullTasks platform).db
      (s.failNullTasks platform).tasks := by
  have hkey : ∀ task : Task,
      { task with status := TaskStatusFailure, progress := "100%" }.key = task.key := fun _ => rfl
  refine PollEffect.null (p := fun id _ => (s.nullTaskIds platform).contains id) hkey
    fun id e hentry hmem => ?_
  exact TaskState.nullTask_of_mem hbacked hentry (List.contains_iff_mem.1 hmem)

theorem TaskState.failChannelTasks_effect (s : TaskState) (platform : String) (channelId : ℕ) :
    PollEffect Task.key s.db s.tasks
      (goneTasks Task.key s.tasks.entries channelId (s.channelTaskIds platform channelId))
      (s.failChannelTasks platform channelId).db (s.failChannelTasks platform channelId).tasks := by
  have hkey : ∀ task : Task,
      { task with
        failReason := TaskState.channelGone platform channelId
        status := TaskStatusFailure
        progress := "100%" }.key = task.key := fun _ => rfl
  exact .gone channelId (s.channelTaskIds platform channelId) hkey

/-- What a step does to the tables. -/
theorem taskRoundStep_effect (hbacked : Table.Backed (SameTask Task.key) p.state.tasks.entries
      p.state.tasks.copies) (hpolling : p.state.taskPolling = true)
    (hstep : taskRoundStep cfg p step = some p') :
    p'.state.taskPolling = true ∧ ∃ more, p'.applied = p.applied ++ more ∧
      PollEffect Task.key p.state.db p.state.tasks more p'.state.db p'.state.tasks := by
  -- one case for each response; a write that fails, and a task that is not found, change nothing
  cases step with
  | visit platform channelId taskIds =>
      obtain rfl := Option.some.inj hstep
      exact ⟨hpolling, [], (List.append_nil _).symm, .still⟩
  | noBaseURL => cases hstep
  | failNullTasks platform ok =>
      obtain ⟨s, hnext, halive, rfl⟩ := Polling.goOn_some hstep
      refine ⟨halive, [], rfl, ?_⟩
      cases ok with
      | false =>
          obtain rfl := Option.some.inj hnext
          exact .still
      | true =>
          obtain rfl := Option.some.inj hnext
          exact TaskState.failNullTasks_effect hbacked platform
  | channelGone platform channelId ok =>
      obtain ⟨s, hnext, halive, rfl⟩ := Polling.goOn_some hstep
      refine ⟨halive, _, rfl, ?_⟩
      simp only [TaskState.step] at hnext
      split at hnext
      case isTrue hwrites =>
        obtain rfl := Option.some.inj hnext
        rw [if_pos hwrites]
        exact p.state.failChannelTasks_effect platform channelId
      case isFalse hkeeps =>
        obtain rfl := Option.some.inj hnext
        rw [if_neg hkeeps]
        exact .still
  | sunoResponse =>
      rw [taskRoundStep] at hstep
      obtain ⟨s, hnext, halive, rfl⟩ := Polling.goOn_some hstep
      obtain rfl := Option.some.inj hnext
      exact ⟨halive, [], rfl, .still⟩
  | sunoItem channelId item ok =>
      obtain ⟨s, hnext, halive, rfl⟩ := Polling.goOn_some hstep
      refine ⟨halive, _, rfl, ?_⟩
      simp only [TaskState.step, hpolling, if_true] at hnext
      obtain rfl := Option.some.inj hnext
      unfold TaskState.sunoItem at halive ⊢
      unfold TaskState.applies
      cases hlookup : p.state.lookup TaskPlatformSuno item.taskId with
      | none =>
          rw [hlookup] at halive
          cases halive
      | some found =>
          obtain ⟨i, copy⟩ := found
          obtain ⟨hcopy, -, hid, -⟩ := TaskState.lookup_key hlookup
          rw [← hid]
          exact .poll channelId hcopy (updateSunoTask_key _ _ _ _)
            (updateSunoTask_keeps cfg _ _ _ _).movement
  | videoResult platform channelId taskId resp ok =>
      obtain ⟨s, hnext, halive, rfl⟩ := Polling.goOn_some hstep
      refine ⟨halive, _, rfl, ?_⟩
      simp only [TaskState.step] at hnext
      split at hnext
      case isTrue hother =>
        obtain rfl := Option.some.inj hnext
        rw [if_pos hother]
        exact .still
      case isFalse hvideo =>
        obtain rfl := Option.some.inj hnext
        rw [if_neg hvideo]
        unfold TaskState.videoResult TaskState.applies
        cases hlookup : p.state.lookup platform taskId with
        | none => exact .still
        | some found =>
            obtain ⟨i, copy⟩ := found
            obtain ⟨hcopy, -, hid, -⟩ := TaskState.lookup_key hlookup
            rw [← hid]
            exact .poll channelId hcopy (updateVideoSingleTask_key _ _ _)
              (updateVideoSingleTask_keeps cfg _ _ _).movement

/-- No task of another channel has an upstream id that is in use on the channel. -/
def TaskState.OnlyOwn (s : TaskState) (platform : String) (channelId : ℕ) : Prop :=
  ∀ e ∈ s.tasks.entries, e.row.taskId ∈ s.channelTaskIds platform channelId →
    e.row.channelId = channelId

/-- A selected task has the upstream id of the item. -/
def SunoItem.Known (s : TaskState) (item : SunoItem) : Prop :=
  ∃ task, s.taken TaskPlatformSuno item.taskId = some task

/-- Whether the poller survives a step, by what the round begins with. -/
def TaskRoundStep.Survives (s₀ : TaskState) : TaskRoundStep → Prop
  | .noBaseURL => False
  | .sunoItem _ item _ => item.Known s₀
  | _ => True

/-- The tasks that a step applies a response to. -/
def TaskRoundStep.applied (s : TaskState) : TaskRoundStep → List Applied
  | .channelGone platform channelId ok =>
      if ok && platform ≠ TaskPlatformMidjourney then
        goneTasks Task.key s.tasks.entries channelId (s.channelTaskIds platform channelId)
      else []
  | .sunoItem channelId item _ => s.applies TaskPlatformSuno channelId item.taskId
  | .videoResult platform channelId taskId _ _ =>
      if platform = TaskPlatformSuno ∨ platform = TaskPlatformMidjourney then []
      else s.applies platform channelId taskId
  | _ => []

/-- The step is taken and applies its response to tasks of its own channel only, by what the round
begins with. -/
def TaskRoundStep.Own (s₀ : TaskState) : TaskRoundStep → Prop
  | .channelGone platform channelId ok =>
      (ok && platform ≠ TaskPlatformMidjourney) = true → s₀.OnlyOwn platform channelId
  | .noBaseURL => False
  | .sunoItem channelId item _ =>
      ∃ task, s₀.taken TaskPlatformSuno item.taskId = some task ∧ task.channelId = channelId
  | .videoResult platform channelId taskId _ _ =>
      ¬ (platform = TaskPlatformSuno ∨ platform = TaskPlatformMidjourney) →
        ∀ task, s₀.taken platform taskId = some task → task.channelId = channelId
  | _ => True

variable {s₀ : TaskState}

/-- The round of the task poller is under way since the selection. -/
def TaskRoundFrom (s₀ : TaskState) (p : Polling TaskState) : Prop :=
  RoundFrom Task.key TaskState.taskPolling TaskState.db TaskState.tasks s₀ p

theorem TaskRoundFrom.next (hround : TaskRoundFrom s₀ p)
    (hstep : (taskRound cfg).step p step = some p') : TaskRoundFrom s₀ p' := by
  obtain ⟨hpolling, more, happlied, heffect⟩ :=
    taskRoundStep_effect hround.confined.backed hround.alive hstep
  exact RoundFrom.next hround hpolling happlied heffect

theorem TaskRoundFrom.channelTaskIds (hround : TaskRoundFrom s₀ p) (platform : String)
    (channelId : ℕ) :
    p.state.channelTaskIds platform channelId = s₀.channelTaskIds platform channelId := by
  rw [TaskState.channelTaskIds_eq hround.confined.copies, TaskState.channelTaskIds_eq rfl]

theorem TaskState.taken_eq (s : TaskState) (platform taskId : String) :
    s.taken platform taskId = (s.lookup platform taskId).map fun found => found.2.row.key :=
  rfl

theorem TaskRoundFrom.taken (hround : TaskRoundFrom s₀ p) (platform taskId : String) :
    p.state.taken platform taskId = s₀.taken platform taskId :=
  hround.confined.lastNamed_eq _

/-- A response is applied to a task of its own channel if the task under its upstream id is one. -/
theorem TaskState.applies_own {platform taskId : String} {channelId : ℕ} :
    (∀ a ∈ s.applies platform channelId taskId, a.Own) ↔
      ∀ task, s.taken platform taskId = some task → task.channelId = channelId := by
  unfold applies
  rw [taken_eq]
  cases hlookup : s.lookup platform taskId with
  | none => simp
  | some found =>
      obtain ⟨i, copy⟩ := found
      obtain ⟨-, -, hid, -⟩ := TaskState.lookup_key hlookup
      constructor
      · intro hown task htask
        obtain rfl := Option.some.inj htask
        exact (hown _ (List.mem_singleton.2 rfl)).1
      · intro hown a ha
        obtain rfl := List.mem_singleton.1 ha
        exact ⟨hown _ rfl, hid⟩

/-- Step lemma: only the two dereferences end the round, and the other steps note the tasks that
their responses are applied to. -/
theorem taskRoundStep_iff (P : Applied → Prop) (hround : TaskRoundFrom s₀ p) :
    (∃ p', (taskRound cfg).step p step = some p' ∧ ∀ a ∈ p'.applied, P a) ↔
      (∀ a ∈ p.applied, P a) ∧ step.Survives s₀ ∧ ∀ a ∈ step.applied p.state, P a := by
  have hpolling := hround.alive
  show (∃ p', taskRoundStep cfg p step = some p' ∧ ∀ a ∈ p'.applied, P a) ↔ _
  cases step with
  | visit platform channelId taskIds =>
      simp [taskRoundStep, TaskRoundStep.Survives, TaskRoundStep.applied]
  | noBaseURL => simp [taskRoundStep, TaskRoundStep.Survives]
  | failNullTasks platform ok =>
      cases ok with
      | false => exact Polling.goOn_iff hpolling
      | true => exact Polling.goOn_iff (s := p.state.failNullTasks platform) hpolling
  | channelGone platform channelId ok =>
      rw [taskRoundStep, TaskState.step, TaskRoundStep.applied]
      split
      · exact Polling.goOn_iff (s := p.state.failChannelTasks platform channelId) hpolling
      · exact Polling.goOn_iff hpolling
  | sunoResponse =>
      have halive : { p.state with sunoErr := false }.taskPolling = true := hpolling
      exact Polling.goOn_iff halive
  | sunoItem channelId item ok =>
      rw [taskRoundStep, TaskState.step, if_pos hpolling, TaskRoundStep.Survives, SunoItem.Known,
        ← hround.taken, TaskState.taken_eq]
      cases hlookup : p.state.lookup TaskPlatformSuno item.taskId with
      | none =>
          -- a nil dereference
          rw [TaskState.sunoItem, hlookup]
          simp [Polling.goOn]
      | some found =>
          have halive : (p.state.sunoItem cfg item ok).taskPolling = true := by
            rw [TaskState.sunoItem, hlookup]
            exact hpolling
          rw [Polling.goOn_iff halive, TaskRoundStep.applied]
          simp
  | videoResult platform channelId taskId resp ok =>
      rw [taskRoundStep, TaskState.step, TaskRoundStep.applied]
      split
      · exact Polling.goOn_iff hpolling
      · have halive : (p.state.videoResult cfg platform taskId resp ok).taskPolling = true := by
          rw [TaskState.videoResult]
          split
          · exact hpolling
          · exact hpolling
        exact Polling.goOn_iff halive

/-- Every response is applied to its own channel's tasks exactly if the selected task under each
upstream id is one of that channel. -/
theorem taskRoundStep_own_iff (hround : TaskRoundFrom s₀ p) :
    (∃ p', (taskRound cfg).step p step = some p' ∧ ∀ a ∈ p'.applied, a.Own) ↔
      (∀ a ∈ p.applied, a.Own) ∧ step.Own s₀ := by
  rw [taskRoundStep_iff Applied.Own hround]
  refine and_congr_right fun _ => ?_
  cases step with
  | channelGone platform channelId ok =>
      rw [TaskRoundStep.applied, TaskRoundStep.Own]
      refine (and_iff_right trivial).trans ?_
      split
      case isTrue hwrites =>
        rw [forall_prop_of_true hwrites, hround.confined.goneTasks_own, hround.channelTaskIds]
        rfl
      case isFalse hkeeps =>
        exact ⟨fun _ hwrites => absurd hwrites hkeeps, fun _ a ha => absurd ha List.not_mem_nil⟩
  | sunoItem channelId item ok =>
      rw [TaskRoundStep.Survives, TaskRoundStep.applied, TaskRoundStep.Own, SunoItem.Known,
        TaskState.applies_own, hround.taken]
      cases s₀.taken TaskPlatformSuno item.taskId with
      | none => simp
      | some task => simp
  | videoResult platform channelId taskId resp ok =>
      rw [TaskRoundStep.applied, TaskRoundStep.Own]
      refine (and_iff_right trivial).trans ?_
      split
      case isTrue hother => simp [hother]
      case isFalse hvideo => rw [TaskState.applies_own, hround.taken, forall_prop_of_true hvideo]
  | _ => simp [TaskRoundStep.Survives, TaskRoundStep.applied, TaskRoundStep.Own]

end

/-! ## When a round keeps to its own -/

/-- The item names a selected task, and the last one of its upstream id is the channel's. -/
def SunoItem.Own (s : TaskState) (channelId : ℕ) (item : SunoItem) : Prop :=
  ∃ task, s.taken TaskPlatformSuno item.taskId = some task ∧ task.channelId = channelId

/-- No answer about video tasks, which are asked for one by one, is applied to a task of another
channel. -/
def VideoAnswer.Own (s : TaskState) (platform : String) (channelId : ℕ) : VideoAnswer → Prop
  | .channelGone ok => ok = true → s.OnlyOwn platform channelId
  | .results answer => ∀ i taskId, (s.channelTaskIds platform channelId)[i]? = some taskId →
      answer i ≠ none → ∀ task, s.taken platform taskId = some task → task.channelId = channelId

namespace TaskAnswers

variable (answers : TaskAnswers) (s : TaskState)

/-- The round comes to the tasks of a platform on a channel. -/
def Visits (platform : String) (channelId : ℕ) : Prop :=
  platform ≠ TaskPlatformMidjourney ∧
    (platform ≠ TaskPlatformSuno → answers.hasAdaptor platform = true ∨
      ∃ ok, answers.video platform channelId = .channelGone ok)

/-- No unfinished task with an upstream id is left out: it is selected, and its channel's turn comes
with its upstream id. -/
def Covers : Prop :=
  ∀ id e, s.tasks.entries[id]? = some e → e.row.unfinished = true → e.row.taskId ≠ "" →
    (∃ copy ∈ s.tasks.copies, copy.id = id) ∧
    ∃ taskIds, .visit e.row.platform e.row.channelId taskIds ∈ answers.steps s ∧
      e.row.taskId ∈ taskIds

/-- The upstream ids of the selected tasks, and the answers of the channels, keep the channels
apart. -/
structure Separate : Prop where
  selected : ∀ id e, s.tasks.entries[id]? = some e → e.row.unfinished = true → e.row.taskId ≠ "" →
    ∃ copy ∈ s.tasks.copies, copy.id = id
  visited : ∀ platform, ∀ channelId ∈ s.channelIds platform, answers.Visits platform channelId
  suno : ∀ channelId ∈ s.channelIds TaskPlatformSuno,
    (answers.suno channelId).Own (s.OnlyOwn TaskPlatformSuno channelId)
      fun item => item.1.Own s channelId
  video : ∀ platform, platform ≠ TaskPlatformSuno → ∀ channelId ∈ s.channelIds platform,
    (answers.video platform channelId).Own s platform channelId

variable {answers} {s : TaskState} {platform : String} {channelId : ℕ} {taskIds : List String}
  {step : TaskRoundStep}

theorem mem_channelIds : channelId ∈ s.channelIds platform ↔
    ∃ copy ∈ s.tasks.copies, copy.row.platform = platform ∧ copy.row.taskId ≠ "" ∧
      copy.row.channelId = channelId := by
  unfold TaskState.channelIds
  simp only [List.mem_dedup, List.mem_map, List.mem_filter, Bool.and_eq_true, decide_eq_true_eq]
  constructor
  · rintro ⟨copy, ⟨hcopy, hplatform, hid⟩, hchannel⟩
    exact ⟨copy, hcopy, hplatform, hid, hchannel⟩
  · rintro ⟨copy, hcopy, hplatform, hid, hchannel⟩
    exact ⟨copy, ⟨hcopy, hplatform, hid⟩, hchannel⟩

/-- The order of the maps does not matter for what the steps are. -/
theorem mem_steps : step ∈ answers.steps s ↔
    (∃ platform ∈ s.platforms, step = .failNullTasks platform (answers.nullOk platform)) ∨
    ∃ platform, ∃ channelId ∈ s.channelIds platform, step ∈ answers.visit s platform channelId := by
  unfold steps
  simp only [List.mem_flatMap, List.mem_cons, MapOrder.mem_order]
  constructor
  · rintro ⟨platform, hplatform, hnull | ⟨channelId, hchannel, hstep⟩⟩
    · exact .inl ⟨platform, hplatform, hnull⟩
    · exact .inr ⟨platform, channelId, hchannel, hstep⟩
  · rintro (⟨platform, hplatform, hnull⟩ | ⟨platform, channelId, hchannel, hstep⟩)
    · exact ⟨platform, hplatform, .inl hnull⟩
    · obtain ⟨copy, hcopy, hplatform, -⟩ := mem_channelIds.1 hchannel
      refine ⟨platform, ?_, .inr ⟨channelId, hchannel, hstep⟩⟩
      unfold TaskState.platforms
      rw [List.mem_dedup, List.mem_map]
      exact ⟨copy, hcopy, hplatform⟩

theorem steps_own_iff : (∀ step ∈ answers.steps s, step.Own s) ↔
    ∀ platform, ∀ channelId ∈ s.channelIds platform, ∀ step ∈ answers.visit s platform channelId,
      step.Own s := by
  constructor
  · intro hown platform channelId hchannel step hstep
    exact hown step (mem_steps.2 (.inr ⟨platform, channelId, hchannel, hstep⟩))
  · intro hown step hstep
    rcases mem_steps.1 hstep with ⟨platform, -, rfl⟩ | ⟨platform, channelId, hchannel, hvisit⟩
    · trivial
    · exact hown platform channelId hchannel step hvisit

theorem sunoVisit_own_iff {answer : ChannelAnswer (SunoItem × Bool)} :
    (∀ step ∈ sunoVisit channelId taskIds answer, step.Own s) ↔
      answer.Own (s.OnlyOwn TaskPlatformSuno channelId) fun item => item.1.Own s channelId := by
  cases answer with
  | channelGone ok =>
      have hsuno : TaskPlatformSuno ≠ TaskPlatformMidjourney := by decide
      simp [sunoVisit, TaskRoundStep.Own, ChannelAnswer.Own, hsuno]
  | noBaseURL => simp [sunoVisit, TaskRoundStep.Own, ChannelAnswer.Own]
  | failed => simp [sunoVisit, TaskRoundStep.Own, ChannelAnswer.Own]
  | items data =>
      simp only [sunoVisit, List.forall_mem_cons, List.forall_mem_map, TaskRoundStep.Own,
        ChannelAnswer.Own, SunoItem.Own, true_and]

theorem videoVisit_own_iff {hasAdaptor : Bool} {answer : VideoAnswer}
    (hsuno : platform ≠ TaskPlatformSuno) (hmj : platform ≠ TaskPlatformMidjourney)
    (hadaptor : hasAdaptor = true ∨ ∃ ok, answer = .channelGone ok) :
    (∀ step ∈ videoVisit platform channelId (s.channelTaskIds platform channelId) hasAdaptor answer,
      step.Own s) ↔ answer.Own s platform channelId := by
  cases answer with
  | channelGone ok => simp [videoVisit, TaskRoundStep.Own, VideoAnswer.Own, hmj]
  | results answer =>
      have hadaptor : hasAdaptor = true := hadaptor.resolve_right fun ⟨ok, hgone⟩ => by cases hgone
      have hvideo : ¬ (platform = TaskPlatformSuno ∨ platform = TaskPlatformMidjourney) := by
        rintro (h | h)
        · exact hsuno h
        · exact hmj h
      rw [videoVisit, if_pos hadaptor, List.forall_mem_cons]
      constructor
      · rintro ⟨-, hown⟩ i taskId hid hanswer
        obtain ⟨result, hresult⟩ := Option.ne_none_iff_exists'.1 hanswer
        refine hown (.videoResult platform channelId taskId result.1 result.2)
          (List.mem_filterMap.2 ⟨(taskId, i), List.mem_zipIdx_iff_getElem?.2 hid, ?_⟩) hvideo
        rw [hresult]
        rfl
      · intro hown
        refine ⟨trivial, fun step hstep => ?_⟩
        obtain ⟨⟨taskId, i⟩, hid, hresult⟩ := List.mem_filterMap.1 hstep
        obtain ⟨result, hanswer, rfl⟩ := Option.map_eq_some_iff.1 hresult
        have hsome : answer i ≠ none := by
          rw [hanswer]
          exact Option.some_ne_none result
        exact fun _ => hown i taskId (List.mem_zipIdx_iff_getElem?.1 hid) hsome

theorem mem_sunoVisit {platform' : String} {channelId' : ℕ} {taskIds' : List String}
    {answer : ChannelAnswer (SunoItem × Bool)} :
    .visit platform' channelId' taskIds' ∈ sunoVisit channelId taskIds answer ↔
      platform' = TaskPlatformSuno ∧ channelId' = channelId ∧ taskIds' = taskIds ∧
        answer ≠ .noBaseURL := by
  cases answer <;> simp [sunoVisit]

theorem mem_videoVisit {platform' : String} {channelId' : ℕ} {taskIds' : List String}
    {hasAdaptor : Bool} {answer : VideoAnswer} :
    .visit platform' channelId' taskIds' ∈ videoVisit platform channelId taskIds hasAdaptor answer ↔
      platform' = platform ∧ channelId' = channelId ∧ taskIds' = taskIds ∧
        (hasAdaptor = true ∨ ∃ ok, answer = .channelGone ok) := by
  cases answer with
  | channelGone ok => simp [videoVisit]
  | results answer =>
      rw [videoVisit]
      cases hasAdaptor with
      | false => simp
      | true => simp

/-- A turn of a channel is one of the steps if the round visits it. -/
theorem visit_mem : .visit platform channelId taskIds ∈ answers.steps s ↔
    channelId ∈ s.channelIds platform ∧ taskIds = s.channelTaskIds platform channelId ∧
      answers.Visits platform channelId ∧
      (platform = TaskPlatformSuno → answers.suno channelId ≠ .noBaseURL) := by
  have hvisit : ∀ platform' channelId',
      .visit platform channelId taskIds ∈ answers.visit s platform' channelId' ↔
        platform = platform' ∧ channelId = channelId' ∧
          taskIds = s.channelTaskIds platform' channelId' ∧ answers.Visits platform' channelId' ∧
          (platform' = TaskPlatformSuno → answers.suno channelId' ≠ .noBaseURL) := by
    intro platform' channelId'
    unfold visit Visits
    dsimp only
    split
    case isTrue hmj => simp [hmj]
    case isFalse hmj =>
      split
      case isTrue hsuno =>
        rw [mem_sunoVisit]
        simp [hsuno, hsuno ▸ hmj]
      case isFalse hvideo =>
        rw [mem_videoVisit]
        simp [hmj, hvideo]
  rw [mem_steps]
  constructor
  · rintro (⟨platform', -, hnull⟩ | ⟨platform', channelId', hchannel, hstep⟩)
    · cases hnull
    · obtain ⟨rfl, rfl, hids, hvisits, hurl⟩ := (hvisit _ _).1 hstep
      exact ⟨hchannel, hids, hvisits, hurl⟩
  · rintro ⟨hchannel, hids, hvisits, hurl⟩
    exact .inr ⟨platform, channelId, hchannel, (hvisit _ _).2 ⟨rfl, rfl, hids, hvisits, hurl⟩⟩

/-- The steps apply every response to its own channel's tasks and leave no task out exactly if the
answers keep the channels apart. -/
theorem separate_iff (hselected : ∀ copy ∈ s.tasks.copies, ∃ e,
    s.tasks.entries[copy.id]? = some e ∧ copy.row = e.row ∧ e.row.unfinished = true) :
    ((∀ step ∈ answers.steps s, step.Own s) ∧ answers.Covers s) ↔ answers.Separate s := by
  rw [steps_own_iff]
  constructor
  · rintro ⟨hown, hcovers⟩
    have hvisits : ∀ platform, ∀ channelId ∈ s.channelIds platform,
        answers.Visits platform channelId := by
      -- a channel of the round has a selected task, and no task is left out
      intro platform channelId hchannel
      obtain ⟨copy, hcopy, rfl, hid, rfl⟩ := mem_channelIds.1 hchannel
      obtain ⟨e, hentry, hrow, hunfinished⟩ := hselected copy hcopy
      rw [hrow] at hid ⊢
      obtain ⟨-, taskIds, hvisit, -⟩ := hcovers copy.id e hentry hunfinished hid
      exact (visit_mem.1 hvisit).2.2.1
    refine ⟨fun id e hentry hunfinished hid => (hcovers id e hentry hunfinished hid).1, hvisits,
      fun channelId hchannel => ?_, fun platform hsuno channelId hchannel => ?_⟩
    · refine sunoVisit_own_iff.1 (hown TaskPlatformSuno channelId hchannel)
    · have hvisited := hvisits platform channelId hchannel
      refine (videoVisit_own_iff hsuno hvisited.1 (hvisited.2 hsuno)).1 ?_
      have hsteps := hown platform channelId hchannel
      rw [visit, if_neg hvisited.1, if_neg hsuno] at hsteps
      exact hsteps
  · intro hseparate
    constructor
    · intro platform channelId hchannel
      have hvisited := hseparate.visited platform channelId hchannel
      rw [visit, if_neg hvisited.1]
      split
      case isTrue hsuno =>
        subst hsuno
        exact sunoVisit_own_iff.2 (hseparate.suno channelId hchannel)
      case isFalse hsuno =>
        exact (videoVisit_own_iff hsuno hvisited.1 (hvisited.2 hsuno)).2
          (hseparate.video platform hsuno channelId hchannel)
    · intro id e hentry hunfinished hid
      obtain ⟨copy, hcopy, rfl⟩ := hseparate.selected id e hentry hunfinished hid
      obtain ⟨e', hentry', hrow, -⟩ := hselected copy hcopy
      rw [hentry] at hentry'
      obtain rfl := Option.some.inj hentry'
      have hchannel : e.row.channelId ∈ s.channelIds e.row.platform :=
        mem_channelIds.2 ⟨copy, hcopy, by rw [hrow], by rwa [hrow], by rw [hrow]⟩
      refine ⟨⟨copy, hcopy, rfl⟩, s.channelTaskIds e.row.platform e.row.channelId,
        visit_mem.2 ⟨hchannel, rfl, hseparate.visited _ _ hchannel, fun hsuno hurl => ?_⟩, ?_⟩
      · have hown := hseparate.suno e.row.channelId (hsuno ▸ hchannel)
        rw [hurl] at hown
        exact hown
      · unfold TaskState.channelTaskIds
        rw [List.mem_map]
        refine ⟨copy, List.mem_filter.2 ⟨hcopy, ?_⟩, by rw [hrow]⟩
        simp [hrow, hid]

end TaskAnswers

section

variable {F : Type} [Float64 F] {cfg : TaskSettings F} {s s₀ : TaskState}

/-- The round that begins with the selection `s₀` goes to its end, keeps to the tasks of the
channels that answer, and leaves no task out. -/
def TaskRoundOwn (cfg : TaskSettings F) (answers : TaskAnswers) (s₀ : TaskState) : Prop :=
  (∃ p, (taskRound cfg).run ⟨s₀, []⟩ (answers.steps s₀) = some p ∧
    OwnRound Task.key s₀.db s₀.tasks p.state.db p.state.tasks p.applied) ∧ answers.Covers s₀

/-- The selection copies unfinished rows. -/
theorem TaskState.selectTasks_copies (hselect : TaskState.step cfg s .selectTasks = some s₀) :
    s₀.taskPolling = true ∧ ∀ copy ∈ s₀.tasks.copies, ∃ e, s₀.tasks.entries[copy.id]? = some e ∧
      copy.row = e.row ∧ e.row.unfinished = true := by
  rw [TaskState.step] at hselect
  split at hselect
  case isFalse => cases hselect
  case isTrue hpolling =>
    obtain rfl := Option.some.inj hselect
    exact ⟨hpolling, fun copy hcopy => Table.mem_selectWhere (List.mem_of_mem_take hcopy)⟩

/-- One round, from any tasks and with any answers. -/
theorem taskRound_own_iff (answers : TaskAnswers)
    (hselect : TaskState.step cfg s .selectTasks = some s₀) :
    TaskRoundOwn cfg answers s₀ ↔ answers.Separate s₀ := by
  obtain ⟨hpolling, hselected⟩ := TaskState.selectTasks_copies hselect
  rw [← TaskAnswers.separate_iff hselected, TaskRoundOwn]
  refine and_congr_left fun _ => round_run_iff (M := taskRound cfg)
    (fun hstep hround => TaskRoundFrom.next hround hstep)
    (fun hround => taskRoundStep_own_iff hround) hpolling (fun copy hcopy => ?_) _
  obtain ⟨e, hentry, hrow, -⟩ := hselected copy hcopy
  exact ⟨e, hentry, hrow⟩

end

end NewApi.Model
