import NewApi.Model.MidjourneyRound

/-!
# Which answers a poller survives

Both pollers look every item of a response up by its upstream id and use what they find without
asking whether there was a task.  An item about a task that was not selected is a nil dereference,
which no one recovers from: the remaining items and channels of this round and all later rounds are
lost.  A channel without a base URL has the same effect.
-/

namespace NewApi.Model

open NewApi.Lib

/-- The channel can be asked, and every item of its response is about a task that is known. -/
def ChannelAnswer.Known {I : Type} (known : I → Prop) : ChannelAnswer I → Prop
  | .channelGone _ => True
  | .noBaseURL => False
  | .failed => True
  | .items data => ∀ item ∈ data, known item

/-- The rule for a round: it goes to its end if every step of it is survived. -/
theorem round_survives_iff {σ α : Type} {M : System σ α} {C : α → Prop} {I : σ → Prop}
    (hpres : ∀ {s a s'}, M.step s a = some s' → I s → I s')
    (hiff : ∀ {s a}, I s → ((∃ s', M.step s a = some s') ↔ C a)) {s : σ} (hI : I s)
    (actions : List α) : (∃ s', M.run s actions = some s') ↔ ∀ a ∈ actions, C a := by
  have hrun : (∃ s', M.run s actions = some s' ∧ True) ↔ True ∧ ∀ a ∈ actions, C a :=
    System.run_iff_forall hpres (fun {s a} hI => by simpa using hiff hI) hI
  simpa using hrun

/-! ## The task poller -/

section

variable {F : Type} [Float64 F] {cfg : TaskSettings F} {s s₀ : TaskState} {p : Polling TaskState}
  {step : TaskRoundStep}

/-- Every channel that has Suno tasks can be asked, and only answers for tasks that were
selected. -/
def TaskAnswers.Known (answers : TaskAnswers) (s : TaskState) : Prop :=
  ∀ channelId ∈ s.channelIds TaskPlatformSuno,
    (answers.suno channelId).Known fun item => item.1.Known s

theorem sunoVisit_survives_iff {channelId : ℕ} {taskIds : List String}
    {answer : ChannelAnswer (SunoItem × Bool)} :
    (∀ step ∈ sunoVisit channelId taskIds answer, step.Survives s) ↔
      answer.Known fun item => item.1.Known s := by
  cases answer with
  | channelGone ok => simp [sunoVisit, TaskRoundStep.Survives, ChannelAnswer.Known]
  | noBaseURL => simp [sunoVisit, TaskRoundStep.Survives, ChannelAnswer.Known]
  | failed => simp [sunoVisit, TaskRoundStep.Survives, ChannelAnswer.Known]
  | items data =>
      simp only [sunoVisit, List.forall_mem_cons, List.forall_mem_map, TaskRoundStep.Survives,
        ChannelAnswer.Known, true_and]

/-- Video tasks are asked for one by one, by the ids of the selection. -/
theorem videoVisit_survives {platform : String} {channelId : ℕ} {taskIds : List String}
    {hasAdaptor : Bool} {answer : VideoAnswer} :
    ∀ step ∈ videoVisit platform channelId taskIds hasAdaptor answer, step.Survives s := by
  intro step hstep
  cases answer with
  | channelGone ok =>
      rcases List.mem_cons.1 hstep with rfl | hstep
      · trivial
      · obtain rfl := List.mem_singleton.1 hstep
        trivial
  | results results =>
      rw [videoVisit] at hstep
      split at hstep
      case isFalse => cases hstep
      case isTrue =>
        rcases List.mem_cons.1 hstep with rfl | hstep
        · trivial
        · obtain ⟨taskId, -, hresult⟩ := List.mem_filterMap.1 hstep
          obtain ⟨result, -, rfl⟩ := Option.map_eq_some_iff.1 hresult
          trivial

theorem TaskAnswers.steps_survive_iff {answers : TaskAnswers} :
    (∀ step ∈ answers.steps s, step.Survives s) ↔ answers.Known s := by
  have hsuno : TaskPlatformSuno ≠ TaskPlatformMidjourney := by decide
  constructor
  · intro hall channelId hchannel
    have hvisit : answers.visit s TaskPlatformSuno channelId =
        sunoVisit channelId (s.channelTaskIds TaskPlatformSuno channelId)
          (answers.suno channelId) := by
      unfold visit
      dsimp only
      rw [if_neg hsuno, if_pos rfl]
    rw [← sunoVisit_survives_iff, ← hvisit]
    intro step hstep
    exact hall step (mem_steps.2 (.inr ⟨TaskPlatformSuno, channelId, hchannel, hstep⟩))
  · intro hknown step hstep
    rcases mem_steps.1 hstep with ⟨platform, -, rfl⟩ | ⟨platform, channelId, hchannel, hvisit⟩
    · trivial
    · unfold visit at hvisit
      dsimp only at hvisit
      split at hvisit
      case isTrue => cases hvisit
      case isFalse =>
        split at hvisit
        case isTrue hplatform =>
          subst hplatform
          exact sunoVisit_survives_iff.2 (hknown channelId hchannel) step hvisit
        case isFalse => exact videoVisit_survives step hvisit

theorem taskRound_survives_iff (answers : TaskAnswers)
    (hselect : TaskState.step cfg s .selectTasks = some s₀) :
    (∃ p, (taskRound cfg).run ⟨s₀, []⟩ (answers.steps s₀) = some p) ↔ answers.Known s₀ := by
  obtain ⟨hpolling, hselected⟩ := TaskState.selectTasks_copies hselect
  have hstart : TaskRoundFrom s₀ ⟨s₀, []⟩ :=
    ⟨hpolling, Confined.start fun copy hcopy => by
      obtain ⟨e, hentry, hrow, -⟩ := hselected copy hcopy
      exact ⟨e, hentry, hrow⟩⟩
  rw [← TaskAnswers.steps_survive_iff]
  exact round_survives_iff (M := taskRound cfg)
    (fun hstep hround => TaskRoundFrom.next hround hstep)
    (fun hround => by simpa using taskRoundStep_iff (fun _ => True) hround) hstart _

end

/-! ## The Midjourney poller -/

section

variable {F : Type} [Float64 F] {cfg : MidjourneySettings F} {s s₀ : MidjourneyState}
  {p : Polling MidjourneyState} {step : MidjourneyRoundStep}

/-- Every channel can be asked, and only answers for rows that were selected. -/
def MidjourneyAnswers.Known (answers : MidjourneyAnswers) (s : MidjourneyState) : Prop :=
  ∀ channelId ∈ s.channelIds, (answers.answers channelId).Known fun item => item.1.Known s

theorem MidjourneyAnswers.visit_survives_iff {answers : MidjourneyAnswers} {channelId : ℕ} :
    (∀ step ∈ answers.visit s channelId, step.Survives s) ↔
      (answers.answers channelId).Known fun item => item.1.Known s := by
  unfold visit
  cases answers.answers channelId with
  | channelGone ok => simp [MidjourneyRoundStep.Survives, ChannelAnswer.Known]
  | noBaseURL => simp [MidjourneyRoundStep.Survives, ChannelAnswer.Known]
  | failed => simp [MidjourneyRoundStep.Survives, ChannelAnswer.Known]
  | items data =>
      simp only [List.forall_mem_cons, List.forall_mem_map, MidjourneyRoundStep.Survives,
        ChannelAnswer.Known, true_and]

theorem MidjourneyAnswers.steps_survive_iff {answers : MidjourneyAnswers} :
    (∀ step ∈ answers.steps s, step.Survives s) ↔ answers.Known s := by
  constructor
  · intro hall channelId hchannel
    exact visit_survives_iff.1 fun step hstep =>
      hall step (mem_steps.2 (.inr ⟨channelId, hchannel, hstep⟩))
  · intro hknown step hstep
    rcases mem_steps.1 hstep with rfl | ⟨channelId, hchannel, hvisit⟩
    · trivial
    · exact visit_survives_iff.2 (hknown channelId hchannel) step hvisit

theorem midjourneyRound_survives_iff (answers : MidjourneyAnswers)
    (hselect : MidjourneyState.step cfg s .selectMidjourneys = some s₀) :
    (∃ p, (midjourneyRound cfg).run ⟨s₀, []⟩ (answers.steps s₀) = some p) ↔ answers.Known s₀ := by
  obtain ⟨hpolling, hselected, -⟩ := MidjourneyState.selectMidjourneys_copies hselect
  have hstart : MidjourneyRoundFrom s₀ ⟨s₀, []⟩ := ⟨hpolling, Confined.start hselected⟩
  rw [← MidjourneyAnswers.steps_survive_iff]
  exact round_survives_iff (M := midjourneyRound cfg)
    (fun hstep hround => MidjourneyRoundFrom.next hround hstep)
    (fun hround => by simpa using midjourneyRoundStep_iff (fun _ => True) hround) hstart _

end

/-- A round of either poller, from any tasks and with any answers, goes through all its channels and
all items exactly if every channel has a base URL and every item is about a selected task. -/
theorem poll_rounds_survive_iff {F : Type} [Float64 F] {cfg : TaskSettings F}
    {mjCfg : MidjourneySettings F} {s s₀ : TaskState} {m m₀ : MidjourneyState}
    (answers : TaskAnswers) (reports : MidjourneyAnswers)
    (hselect : TaskState.step cfg s .selectTasks = some s₀)
    (hmjSelect : MidjourneyState.step mjCfg m .selectMidjourneys = some m₀) :
    ((∃ p, (taskRound cfg).run ⟨s₀, []⟩ (answers.steps s₀) = some p) ↔ answers.Known s₀) ∧
      ((∃ p, (midjourneyRound mjCfg).run ⟨m₀, []⟩ (reports.steps m₀) = some p) ↔
        reports.Known m₀) :=
  ⟨taskRound_survives_iff answers hselect, midjourneyRound_survives_iff reports hmjSelect⟩

/-- A row under another upstream id than the report is about. -/
def otherMidjourneyRows : MidjourneyState :=
  MidjourneyState.submit sampleMidjourneySettings (.start sampleDB)
    (sampleMidjourneySubmit "IMAGINE" 1 "other")

theorem poll_rounds_survive_known :
    ∃ s₀ m₀, TaskState.step sampleTaskSettings (sampleSunoTasks "song" "clip") .selectTasks =
        some s₀ ∧
      MidjourneyState.step sampleMidjourneySettings sampleMidjourneyRows .selectMidjourneys =
        some m₀ ∧
      (∃ p, (taskRound sampleTaskSettings).run ⟨s₀, []⟩
        ((sampleTaskAnswers sampleSunoFailure).steps s₀) = some p) ∧
      ∃ p, (midjourneyRound sampleMidjourneySettings).run ⟨m₀, []⟩
        (sampleMidjourneyAnswers.steps m₀) = some p := by
  obtain ⟨htasks, hmidjourneys⟩ := @poll_rounds_survive_iff Decimal _ sampleTaskSettings
    sampleMidjourneySettings (sampleSunoTasks "song" "clip") _ sampleMidjourneyRows _
    (sampleTaskAnswers sampleSunoFailure) sampleMidjourneyAnswers rfl rfl
  refine ⟨_, _, rfl, rfl, htasks.2 fun channelId hchannel => ?_,
    hmidjourneys.2 fun channelId hchannel => ?_⟩
  · rcases List.mem_cons.1 hchannel with rfl | hclip
    · exact List.forall_mem_singleton.2 ⟨_, rfl⟩
    · obtain rfl := List.mem_singleton.1 hclip
      trivial
  · obtain rfl := List.mem_singleton.1 hchannel
    exact List.forall_mem_singleton.2 ⟨_, rfl⟩

/-- An item with an id that no selected task has ends the round of either poller. -/
theorem unknown_item_ends_rounds :
    (∃ s₀, TaskState.step sampleTaskSettings (sampleSunoTasks "other" "clip") .selectTasks =
        some s₀ ∧
      (taskRound sampleTaskSettings).run ⟨s₀, []⟩
        ((sampleTaskAnswers sampleSunoFailure).steps s₀) = none) ∧
    ∃ m₀, MidjourneyState.step sampleMidjourneySettings otherMidjourneyRows .selectMidjourneys =
        some m₀ ∧
      (midjourneyRound sampleMidjourneySettings).run ⟨m₀, []⟩
        (sampleMidjourneyAnswers.steps m₀) = none :=
  ⟨⟨_, rfl, by decide⟩, ⟨_, rfl, by decide⟩⟩

end NewApi.Model
