import NewApi.Model.MidjourneyBilling
import NewApi.Model.TaskBilling
import NewApi.Model.TaskRound

/-!
# One round of the Midjourney poller

`UpdateMidjourneyTaskBulk` does for the Midjourney rows what `UpdateTaskBulk` does for the tasks:
one index by the upstream id for the rows of all channels.  The theorem at the end says for both
pollers when a round keeps the channels apart.
-/

namespace NewApi.Model

open NewApi.Lib

def Midjourney.key (task : Midjourney) : TaskKey where
  platform := TaskPlatformMidjourney
  taskId := task.mjId
  channelId := task.channelId
  userId := task.userId

inductive MidjourneyRoundStep
  | failNullMidjourneys (ok : Bool)
  | visit (channelId : ℕ) (mjIds : List String)
  | channelGone (channelId : ℕ) (ok : Bool)
  | noBaseURL
  | pollItem (channelId : ℕ) (item : MidjourneyDto) (now : ℤ) (ok : Bool)

/-- What a round meets: the order of the channels and their answers, an item with the time at which
it is looked at. -/
structure MidjourneyAnswers where
  channels : MapOrder ℕ
  nullOk : Bool
  answers : ℕ → ChannelAnswer (MidjourneyDto × ℤ × Bool)

namespace MidjourneyState

/-- The channels of the selected rows that have an upstream id. -/
def channelIds (s : MidjourneyState) : List ℕ :=
  ((s.midjourneys.copies.filter fun copy => copy.row.mjId ≠ "").map fun copy =>
    copy.row.channelId).dedup

/-- The row that `taskM` has under the upstream id. -/
def taken (s : MidjourneyState) (mjId : String) : Option TaskKey :=
  lastNamed Midjourney.key (fun task => task.taskId = mjId && mjId ≠ "") s.midjourneys.copies

/-- The row that a report is applied to, if there is one. -/
def applies (s : MidjourneyState) (channelId : ℕ) (mjId : String) : List Applied :=
  (s.lookup mjId).toList.map fun found => ⟨channelId, mjId, found.2.id, found.2.row.key⟩

end MidjourneyState

namespace MidjourneyAnswers

variable (answers : MidjourneyAnswers) (s : MidjourneyState)

/-- The loop's body for one channel.  A base URL that is nil is dereferenced. -/
def visit (channelId : ℕ) : List MidjourneyRoundStep :=
  let mjIds := s.channelTaskIds channelId
  match answers.answers channelId with
  | .channelGone ok => [.visit channelId mjIds, .channelGone channelId ok]
  | .noBaseURL => [.noBaseURL]
  | .failed => [.visit channelId mjIds]
  | .items items =>
      .visit channelId mjIds :: items.map fun item => .pollItem channelId item.1 item.2.1 item.2.2

/-- The steps of the round after the selection. -/
def steps : List MidjourneyRoundStep :=
  .failNullMidjourneys answers.nullOk ::
    (answers.channels.order s.channelIds).flatMap (answers.visit s)

end MidjourneyAnswers

section

variable {F : Type} [Float64 F] (cfg : MidjourneySettings F)

/-- One step of a round. -/
def midjourneyRoundStep (p : Polling MidjourneyState) :
    MidjourneyRoundStep → Option (Polling MidjourneyState)
  | .failNullMidjourneys ok =>
      p.goOn MidjourneyState.mjPolling
        (MidjourneyState.step cfg p.state (.failNullMidjourneys ok)) []
  | .visit .. => some p
  | .channelGone channelId ok =>
      p.goOn MidjourneyState.mjPolling
        (MidjourneyState.step cfg p.state (.failChannelMidjourneys channelId ok))
        (if ok then
          goneTasks Midjourney.key p.state.midjourneys.entries channelId
            (p.state.channelTaskIds channelId)
        else [])
  | .noBaseURL => none
  | .pollItem channelId item now ok =>
      p.goOn MidjourneyState.mjPolling (MidjourneyState.step cfg p.state (.pollItem item now ok))
        (p.state.applies channelId item.mjId)

def midjourneyRound : System (Polling MidjourneyState) MidjourneyRoundStep where
  step := midjourneyRoundStep cfg

variable {cfg} {p p' : Polling MidjourneyState} {s s₀ : MidjourneyState}
  {step : MidjourneyRoundStep}

omit [Float64 F] in
theorem updateMidjourneyTask_key (task : Midjourney) (item : MidjourneyDto) (now : ℤ) (ok : Bool) :
    (updateMidjourneyTask cfg task item now ok).row.key = task.key := by
  rw [updateMidjourneyTask]
  split <;> rfl

theorem MidjourneyState.lookup_key {mjId : String} {i : ℕ} {copy : Copy Midjourney}
    (hlookup : s.lookup mjId = some (i, copy)) :
    s.midjourneys.copies[i]? = some copy ∧ copy.row.mjId = mjId := by
  obtain ⟨hcopy, hmatch⟩ := Pool.lastMatch_some hlookup
  simp only [Bool.and_eq_true, decide_eq_true_eq] at hmatch
  exact ⟨hcopy, hmatch.1⟩

/-- The upstream ids of a channel are those that the round began with. -/
theorem MidjourneyState.channelTaskIds_eq {copies : List (Copy Midjourney)}
    (hcopies : s.midjourneys.copies.map (fun copy => copy.row.key) =
      copies.map fun copy => copy.row.key) (channelId : ℕ) :
    s.channelTaskIds channelId =
      ((copies.filter fun copy => copy.row.channelId = channelId && copy.row.mjId ≠ "").map
        fun copy => copy.row.mjId) := by
  have hids : ∀ copies : List (Copy Midjourney), ((copies.filter fun copy =>
      copy.row.channelId = channelId && copy.row.mjId ≠ "").map fun copy => copy.row.mjId) =
      (((copies.map fun copy => copy.row.key).filter fun task =>
        task.channelId = channelId && task.taskId ≠ "").map TaskKey.taskId) := by
    intro copies
    rw [List.filter_map, List.map_map]
    rfl
  unfold channelTaskIds
  rw [hids, hids, hcopies]

theorem MidjourneyState.failNullMidjourneys_effect
    (hbacked : Table.Backed (SameTask Midjourney.key) s.midjourneys.entries s.midjourneys.copies) :
    PollEffect Midjourney.key s.db s.midjourneys [] s.failNullMidjourneys.db
      s.failNullMidjourneys.midjourneys := by
  have hkey : ∀ task : Midjourney,
      { task with status := "FAILURE", progress := "100%" }.key = task.key := fun _ => rfl
  refine PollEffect.null (p := fun id _ => s.nullTaskIds.contains id) hkey
    fun id e hentry hmem => ?_
  obtain ⟨copy, hcopy, rfl⟩ := List.mem_map.1 (List.contains_iff_mem.1 hmem)
  obtain ⟨hin, hnull⟩ := List.mem_filter.1 hcopy
  obtain ⟨e', hentry', hsame⟩ := hbacked copy hin
  rw [hentry] at hentry'
  obtain rfl := Option.some.inj hentry'
  exact (congrArg TaskKey.taskId hsame).symm.trans (of_decide_eq_true hnull)

theorem MidjourneyState.failChannelMidjourneys_effect (s : MidjourneyState) (channelId : ℕ) :
    PollEffect Midjourney.key s.db s.midjourneys
      (goneTasks Midjourney.key s.midjourneys.entries channelId (s.channelTaskIds channelId))
      (s.failChannelMidjourneys channelId).db (s.failChannelMidjourneys channelId).midjourneys := by
  have hkey : ∀ task : Midjourney,
      { task with
        failReason := "获取渠道信息失败，请联系管理员，渠道ID：" ++ toString channelId
        status := "FAILURE"
        progress := "100%" }.key = task.key := fun _ => rfl
  exact .gone channelId (s.channelTaskIds channelId) hkey

/-- What a step does to the tables. -/
theorem midjourneyRoundStep_effect
    (hbacked : Table.Backed (SameTask Midjourney.key) p.state.midjourneys.entries
      p.state.midjourneys.copies) (hpolling : p.state.mjPolling = true)
    (hstep : midjourneyRoundStep cfg p step = some p') :
    p'.state.mjPolling = true ∧ ∃ more, p'.applied = p.applied ++ more ∧
      PollEffect Midjourney.key p.state.db p.state.midjourneys more p'.state.db
        p'.state.midjourneys := by
  cases step with
  | visit channelId mjIds =>
      obtain rfl := Option.some.inj hstep
      exact ⟨hpolling, [], (List.append_nil _).symm, .still⟩
  | noBaseURL => cases hstep
  | failNullMidjourneys ok =>
      obtain ⟨s, hnext, halive, rfl⟩ := Polling.goOn_some hstep
      refine ⟨halive, [], rfl, ?_⟩
      cases ok with
      | false =>
          obtain rfl := Option.some.inj hnext
          exact .still
      | true =>
          obtain rfl := Option.some.inj hnext
          exact MidjourneyState.failNullMidjourneys_effect hbacked
  | channelGone channelId ok =>
      obtain ⟨s, hnext, halive, rfl⟩ := Polling.goOn_some hstep
      refine ⟨halive, _, rfl, ?_⟩
      cases ok with
      | false =>
          obtain rfl := Option.some.inj hnext
          exact .still
      | true =>
          obtain rfl := Option.some.inj hnext
          exact p.state.failChannelMidjourneys_effect channelId
  | pollItem channelId item now ok =>
      obtain ⟨s, hnext, halive, rfl⟩ := Polling.goOn_some hstep
      refine ⟨halive, _, rfl, ?_⟩
      simp only [MidjourneyState.step, hpolling, if_true] at hnext
      obtain rfl := Option.some.inj hnext
      unfold MidjourneyState.pollItem at halive ⊢
      unfold MidjourneyState.applies
      cases hlookup : p.state.lookup item.mjId with
      | none =>
          rw [hlookup] at halive
          cases halive
      | some found =>
          obtain ⟨i, copy⟩ := found
          obtain ⟨hcopy, hid⟩ := MidjourneyState.lookup_key hlookup
          rw [← hid]
          exact .poll channelId hcopy (updateMidjourneyTask_key _ _ _ _)
            (updateMidjourneyTask_keeps cfg _ _ _ _).movement

/-- No row of another channel has an upstream id that is in use on the channel. -/
def MidjourneyState.OnlyOwn (s : MidjourneyState) (channelId : ℕ) : Prop :=
  ∀ e ∈ s.midjourneys.entries, e.row.mjId ∈ s.channelTaskIds channelId → e.row.channelId = channelId

/-- A selected row has the upstream id of the item. -/
def MidjourneyDto.Known (s : MidjourneyState) (item : MidjourneyDto) : Prop :=
  ∃ task, s.taken item.mjId = some task

/-- Whether the poller survives a step, by what the round begins with. -/
def MidjourneyRoundStep.Survives (s₀ : MidjourneyState) : MidjourneyRoundStep → Prop
  | .noBaseURL => False
  | .pollItem _ item _ _ => item.Known s₀
  | _ => True

/-- The rows that a step applies a response to. -/
def MidjourneyRoundStep.applied (s : MidjourneyState) : MidjourneyRoundStep → List Applied
  | .channelGone channelId ok =>
      if ok then
        goneTasks Midjourney.key s.midjourneys.entries channelId (s.channelTaskIds channelId)
      else []
  | .pollItem channelId item _ _ => s.applies channelId item.mjId
  | _ => []

/-- The item names a selected row, and the last one of its upstream id is the channel's. -/
def MidjourneyDto.Own (s : MidjourneyState) (channelId : ℕ) (item : MidjourneyDto) : Prop :=
  ∃ task, s.taken item.mjId = some task ∧ task.channelId = channelId

/-- The step is taken and applies its response to rows of its own channel only, by what the round
begins with. -/
def MidjourneyRoundStep.Own (s₀ : MidjourneyState) : MidjourneyRoundStep → Prop
  | .channelGone channelId ok => ok = true → s₀.OnlyOwn channelId
  | .noBaseURL => False
  | .pollItem channelId item _ _ => item.Own s₀ channelId
  | _ => True

/-- The round of the Midjourney poller is under way since the selection. -/
def MidjourneyRoundFrom (s₀ : MidjourneyState) (p : Polling MidjourneyState) : Prop :=
  RoundFrom Midjourney.key MidjourneyState.mjPolling MidjourneyState.db MidjourneyState.midjourneys
    s₀ p

theorem MidjourneyRoundFrom.next (hround : MidjourneyRoundFrom s₀ p)
    (hstep : (midjourneyRound cfg).step p step = some p') : MidjourneyRoundFrom s₀ p' := by
  obtain ⟨hpolling, more, happlied, heffect⟩ :=
    midjourneyRoundStep_effect hround.confined.backed hround.alive hstep
  exact RoundFrom.next hround hpolling happlied heffect

theorem MidjourneyRoundFrom.channelTaskIds (hround : MidjourneyRoundFrom s₀ p) (channelId : ℕ) :
    p.state.channelTaskIds channelId = s₀.channelTaskIds channelId := by
  rw [MidjourneyState.channelTaskIds_eq hround.confined.copies,
    MidjourneyState.channelTaskIds_eq rfl]

theorem MidjourneyState.taken_eq (s : MidjourneyState) (mjId : String) :
    s.taken mjId = (s.lookup mjId).map fun found => found.2.row.key :=
  rfl

theorem MidjourneyRoundFrom.taken (hround : MidjourneyRoundFrom s₀ p) (mjId : String) :
    p.state.taken mjId = s₀.taken mjId :=
  hround.confined.lastNamed_eq _

/-- Step lemma: only the two dereferences end the round, and the other steps note the rows that
their responses are applied to. -/
theorem midjourneyRoundStep_iff (P : Applied → Prop) (hround : MidjourneyRoundFrom s₀ p) :
    (∃ p', (midjourneyRound cfg).step p step = some p' ∧ ∀ a ∈ p'.applied, P a) ↔
      (∀ a ∈ p.applied, P a) ∧ step.Survives s₀ ∧ ∀ a ∈ step.applied p.state, P a := by
  have hpolling := hround.alive
  show (∃ p', midjourneyRoundStep cfg p step = some p' ∧ ∀ a ∈ p'.applied, P a) ↔ _
  cases step with
  | visit channelId mjIds =>
      simp [midjourneyRoundStep, MidjourneyRoundStep.Survives, MidjourneyRoundStep.applied]
  | noBaseURL => simp [midjourneyRoundStep, MidjourneyRoundStep.Survives]
  | failNullMidjourneys ok =>
      cases ok with
      | false => exact Polling.goOn_iff hpolling
      | true => exact Polling.goOn_iff (s := p.state.failNullMidjourneys) hpolling
  | channelGone channelId ok =>
      cases ok with
      | false => exact Polling.goOn_iff hpolling
      | true => exact Polling.goOn_iff (s := p.state.failChannelMidjourneys channelId) hpolling
  | pollItem channelId item now ok =>
      rw [midjourneyRoundStep, MidjourneyState.step, if_pos hpolling, MidjourneyRoundStep.Survives,
        MidjourneyDto.Known, ← hround.taken, MidjourneyState.taken_eq]
      cases hlookup : p.state.lookup item.mjId with
      | none =>
          -- a nil dereference
          rw [MidjourneyState.pollItem, hlookup]
          simp [Polling.goOn]
      | some found =>
          have halive : (p.state.pollItem cfg item now ok).mjPolling = true := by
            rw [MidjourneyState.pollItem, hlookup]
            exact hpolling
          rw [Polling.goOn_iff halive, MidjourneyRoundStep.applied]
          simp

/-- Every response is applied to its own channel's rows exactly if the selected row under each
upstream id is one of that channel. -/
theorem midjourneyRoundStep_own_iff (hround : MidjourneyRoundFrom s₀ p) :
    (∃ p', (midjourneyRound cfg).step p step = some p' ∧ ∀ a ∈ p'.applied, a.Own) ↔
      (∀ a ∈ p.applied, a.Own) ∧ step.Own s₀ := by
  rw [midjourneyRoundStep_iff Applied.Own hround]
  refine and_congr_right fun _ => ?_
  cases step with
  | channelGone channelId ok =>
      rw [MidjourneyRoundStep.applied, MidjourneyRoundStep.Own]
      refine (and_iff_right trivial).trans ?_
      cases ok with
      | false => simp
      | true =>
          rw [if_pos rfl, forall_prop_of_true rfl, hround.confined.goneTasks_own,
            hround.channelTaskIds]
          rfl
  | pollItem channelId item now ok =>
      rw [MidjourneyRoundStep.Survives, MidjourneyRoundStep.applied, MidjourneyRoundStep.Own,
        MidjourneyDto.Known, MidjourneyDto.Own, ← hround.taken, MidjourneyState.taken_eq,
        MidjourneyState.applies]
      cases hlookup : p.state.lookup item.mjId with
      | none => simp
      | some found =>
          obtain ⟨i, copy⟩ := found
          obtain ⟨-, hid⟩ := MidjourneyState.lookup_key hlookup
          simp [Applied.Own, Midjourney.key, hid]
  | _ => simp [MidjourneyRoundStep.Survives, MidjourneyRoundStep.applied, MidjourneyRoundStep.Own]

end

/-! ## When a round keeps to its own -/

namespace MidjourneyAnswers

variable (answers : MidjourneyAnswers) (s : MidjourneyState)

/-- No unfinished row with an upstream id is left out: it is selected, and its channel's turn comes
with its upstream id. -/
def Covers : Prop :=
  ∀ id e, s.midjourneys.entries[id]? = some e → e.row.unfinished = true → e.row.mjId ≠ "" →
    (∃ copy ∈ s.midjourneys.copies, copy.id = id) ∧
    ∃ mjIds, .visit e.row.channelId mjIds ∈ answers.steps s ∧ e.row.mjId ∈ mjIds

/-- The upstream ids of the rows, and the answers of the channels, keep the channels apart. -/
def Separate : Prop :=
  ∀ channelId ∈ s.channelIds,
    (answers.answers channelId).Own (s.OnlyOwn channelId) fun item => item.1.Own s channelId

variable {answers} {s : MidjourneyState} {channelId : ℕ} {mjIds : List String}
  {step : MidjourneyRoundStep}

theorem mem_channelIds : channelId ∈ s.channelIds ↔
    ∃ copy ∈ s.midjourneys.copies, copy.row.mjId ≠ "" ∧ copy.row.channelId = channelId := by
  unfold MidjourneyState.channelIds
  simp only [List.mem_dedup, List.mem_map, List.mem_filter, decide_eq_true_eq, and_assoc]

theorem mem_steps : step ∈ answers.steps s ↔ step = .failNullMidjourneys answers.nullOk ∨
    ∃ channelId ∈ s.channelIds, step ∈ answers.visit s channelId := by
  unfold steps
  simp only [List.mem_cons, List.mem_flatMap, MapOrder.mem_order]

theorem visit_own_iff : (∀ step ∈ answers.visit s channelId, step.Own s) ↔
    (answers.answers channelId).Own (s.OnlyOwn channelId) fun item => item.1.Own s channelId := by
  unfold visit
  cases answers.answers channelId with
  | channelGone ok => simp [MidjourneyRoundStep.Own, ChannelAnswer.Own]
  | noBaseURL => simp [MidjourneyRoundStep.Own, ChannelAnswer.Own]
  | failed => simp [MidjourneyRoundStep.Own, ChannelAnswer.Own]
  | items data =>
      simp only [List.forall_mem_cons, List.forall_mem_map, MidjourneyRoundStep.Own,
        ChannelAnswer.Own, true_and]

theorem steps_own_iff : (∀ step ∈ answers.steps s, step.Own s) ↔ answers.Separate s := by
  constructor
  · intro hown channelId hchannel
    exact visit_own_iff.1 fun step hstep => hown step (mem_steps.2 (.inr ⟨channelId, hchannel, hstep⟩))
  · intro hseparate step hstep
    rcases mem_steps.1 hstep with rfl | ⟨channelId, hchannel, hvisit⟩
    · trivial
    · exact visit_own_iff.2 (hseparate channelId hchannel) step hvisit

/-- Every unfinished row is selected, and its channel's turn comes if no channel ends the loop. -/
theorem covers_of_separate (hselected : ∀ id e, s.midjourneys.entries[id]? = some e →
      e.row.unfinished = true → ∃ copy ∈ s.midjourneys.copies, copy.id = id ∧ copy.row = e.row)
    (hseparate : answers.Separate s) : answers.Covers s := by
  intro id e hentry hunfinished hid
  obtain ⟨copy, hcopy, hcopyId, hrow⟩ := hselected id e hentry hunfinished
  have hchannel : e.row.channelId ∈ s.channelIds :=
    mem_channelIds.2 ⟨copy, hcopy, by rwa [hrow], by rw [hrow]⟩
  refine ⟨⟨copy, hcopy, hcopyId⟩, s.channelTaskIds e.row.channelId,
    mem_steps.2 (.inr ⟨e.row.channelId, hchannel, ?_⟩), ?_⟩
  · have hown := hseparate e.row.channelId hchannel
    unfold visit
    cases hanswer : answers.answers e.row.channelId with
    | noBaseURL =>
        rw [hanswer] at hown
        exact False.elim hown
    | channelGone ok => exact List.mem_cons_self ..
    | failed => exact List.mem_cons_self ..
    | items data => exact List.mem_cons_self ..
  · unfold MidjourneyState.channelTaskIds
    rw [List.mem_map]
    refine ⟨copy, List.mem_filter.2 ⟨hcopy, ?_⟩, by rw [hrow]⟩
    simp [hrow, hid]

end MidjourneyAnswers

section

variable {F : Type} [Float64 F] {cfg : MidjourneySettings F} {s s₀ : MidjourneyState}

/-- The round that begins with the selection `s₀` goes to its end, keeps to the rows of the channels
that answer, and leaves no row out. -/
def MidjourneyRoundOwn (cfg : MidjourneySettings F) (answers : MidjourneyAnswers)
    (s₀ : MidjourneyState) : Prop :=
  (∃ p, (midjourneyRound cfg).run ⟨s₀, []⟩ (answers.steps s₀) = some p ∧
    OwnRound Midjourney.key s₀.db s₀.midjourneys p.state.db p.state.midjourneys p.applied) ∧
  answers.Covers s₀

/-- The selection copies the unfinished rows. -/
theorem MidjourneyState.selectMidjourneys_copies
    (hselect : MidjourneyState.step cfg s .selectMidjourneys = some s₀) :
    s₀.mjPolling = true ∧
    (∀ copy ∈ s₀.midjourneys.copies, ∃ e, s₀.midjourneys.entries[copy.id]? = some e ∧
      copy.row = e.row) ∧
    ∀ id e, s₀.midjourneys.entries[id]? = some e → e.row.unfinished = true →
      ∃ copy ∈ s₀.midjourneys.copies, copy.id = id ∧ copy.row = e.row := by
  rw [MidjourneyState.step] at hselect
  split at hselect
  case isFalse => cases hselect
  case isTrue hpolling =>
    obtain rfl := Option.some.inj hselect
    refine ⟨hpolling, fun copy hcopy => ?_, fun id e hentry hunfinished => ?_⟩
    · obtain ⟨e, hentry, hrow, -⟩ := Table.mem_selectWhere hcopy
      exact ⟨e, hentry, hrow⟩
    · refine ⟨⟨id, e.row⟩, List.mem_map.2 ⟨(e, id), List.mem_filter.2 ⟨?_, hunfinished⟩, rfl⟩, rfl,
        rfl⟩
      exact List.mem_zipIdx_iff_getElem?.2 hentry

/-- One round, from any rows and with any answers. -/
theorem midjourneyRound_own_iff (answers : MidjourneyAnswers)
    (hselect : MidjourneyState.step cfg s .selectMidjourneys = some s₀) :
    MidjourneyRoundOwn cfg answers s₀ ↔ answers.Separate s₀ := by
  obtain ⟨hpolling, hselected, hall⟩ := MidjourneyState.selectMidjourneys_copies hselect
  have hrun := round_run_iff (M := midjourneyRound cfg)
    (fun hstep hround => MidjourneyRoundFrom.next hround hstep)
    (fun hround => midjourneyRoundStep_own_iff hround) hpolling hselected (answers.steps s₀)
  rw [MidjourneyRoundOwn, hrun, MidjourneyAnswers.steps_own_iff]
  exact and_iff_left_of_imp fun hseparate => MidjourneyAnswers.covers_of_separate hall hseparate

end

/-- One round of each poller, from any tasks and with any answers, goes to its end, changes only
tasks of the channel that answers, and leaves none out, exactly if the last selected task under each
upstream id that a channel answers for is one of that channel, the upstream ids in use on a channel
that is gone belong to no other channel, every channel has a base URL and every task is selected and
has an adaptor. -/
theorem poll_rounds_own_iff {F : Type} [Float64 F] {cfg : TaskSettings F}
    {mjCfg : MidjourneySettings F} {s s₀ : TaskState} {m m₀ : MidjourneyState}
    (answers : TaskAnswers) (reports : MidjourneyAnswers)
    (hselect : TaskState.step cfg s .selectTasks = some s₀)
    (hmjSelect : MidjourneyState.step mjCfg m .selectMidjourneys = some m₀) :
    (TaskRoundOwn cfg answers s₀ ↔ answers.Separate s₀) ∧
      (MidjourneyRoundOwn mjCfg reports m₀ ↔ reports.Separate m₀) :=
  ⟨taskRound_own_iff answers hselect, midjourneyRound_own_iff reports hmjSelect⟩

/-- A Suno task of user 7 on channel 2 and one of user 8 on channel 3. -/
def sampleSunoTasks (taskId taskId' : String) : TaskState :=
  TaskState.submit sampleTaskSettings
    (TaskState.submit sampleTaskSettings (.start sampleDB) (sampleTaskSubmit TaskPlatformSuno taskId))
    { sampleTaskSubmit TaskPlatformSuno taskId' with payer := ⟨8, 4, false⟩, channelId := 3 }

/-- Channel 2 answers with one item, and nothing comes of the request to channel 3. -/
def sampleTaskAnswers (item : SunoItem) : TaskAnswers where
  platforms := .sorted String
  channels _ := .sorted ℕ
  nullOk _ := true
  suno channelId := if channelId = 2 then .items [(item, true)] else .failed
  hasAdaptor _ := true
  video _ _ := .results fun _ => none

def sampleMidjourneyRows : MidjourneyState :=
  MidjourneyState.submit sampleMidjourneySettings (.start sampleDB)
    (sampleMidjourneySubmit "IMAGINE" 1 "job")

def sampleMidjourneyAnswers : MidjourneyAnswers where
  channels := .sorted ℕ
  nullOk := true
  answers _ := .items [(sampleMidjourneyDto "100%" "FAILURE", 2000, true)]

theorem poll_rounds_own_distinct :
    ∃ s₀ m₀, TaskState.step sampleTaskSettings (sampleSunoTasks "song" "clip") .selectTasks =
        some s₀ ∧
      MidjourneyState.step sampleMidjourneySettings sampleMidjourneyRows .selectMidjourneys =
        some m₀ ∧
      TaskRoundOwn sampleTaskSettings (sampleTaskAnswers sampleSunoFailure) s₀ ∧
      MidjourneyRoundOwn sampleMidjourneySettings sampleMidjourneyAnswers m₀ := by
  obtain ⟨htasks, hmidjourneys⟩ := @poll_rounds_own_iff Decimal _ sampleTaskSettings
    sampleMidjourneySettings (sampleSunoTasks "song" "clip") _ sampleMidjourneyRows _
    (sampleTaskAnswers sampleSunoFailure) sampleMidjourneyAnswers rfl rfl
  refine ⟨_, _, rfl, rfl, htasks.2 ⟨?_, ?_, ?_, ?_⟩, hmidjourneys.2 ?_⟩
  · intro id e hentry _ _
    have hid : id < 2 := (List.getElem?_eq_some_iff.1 hentry).1
    obtain rfl | rfl : id = 0 ∨ id = 1 := by omega
    · exact ⟨_, List.mem_cons_self .., rfl⟩
    · exact ⟨_, List.mem_cons_of_mem _ (List.mem_cons_self ..), rfl⟩
  · intro platform channelId hchannel
    obtain ⟨copy, hcopy, rfl, -⟩ := TaskAnswers.mem_channelIds.1 hchannel
    refine ⟨?_, fun _ => .inl rfl⟩
    rcases List.mem_cons.1 hcopy with rfl | hclip
    · decide
    · obtain rfl := List.mem_singleton.1 hclip
      decide
  · intro channelId hchannel
    rcases List.mem_cons.1 hchannel with rfl | hclip
    · exact List.forall_mem_singleton.2 ⟨_, rfl, rfl⟩
    · obtain rfl := List.mem_singleton.1 hclip
      trivial
  · intro platform hsuno channelId hchannel i taskId _ hanswer
    exact absurd rfl hanswer
  · intro channelId hchannel
    obtain rfl := List.mem_singleton.1 hchannel
    exact List.forall_mem_singleton.2 ⟨_, rfl, rfl⟩

/-- Two channels have issued the same upstream id: the failure that channel 2 reports fails the task
of channel 3 and refunds its user.  And an item about a task that was not selected
ends the round. -/
theorem shared_upstream_id_refunds_other_user :
    (∃ s₀ p, TaskState.step sampleTaskSettings (sampleSunoTasks "song" "song") .selectTasks =
        some s₀ ∧
      (taskRound sampleTaskSettings).run ⟨s₀, []⟩ ((sampleTaskAnswers sampleSunoFailure).steps s₀) =
        some p ∧
      p.state.tasks.entries.map (fun e => (e.row.channelId, e.row.status)) =
        [(2, TaskStatusNotStart), (3, TaskStatusFailure)] ∧
      p.state.db.userQuota 8 = s₀.db.userQuota 8 + 10 ∧
      ¬ TaskRoundOwn sampleTaskSettings (sampleTaskAnswers sampleSunoFailure) s₀) ∧
    ∃ s₀, TaskState.step sampleTaskSettings (sampleSunoTasks "other" "clip") .selectTasks =
        some s₀ ∧
      (taskRound sampleTaskSettings).run ⟨s₀, []⟩ ((sampleTaskAnswers sampleSunoFailure).steps s₀) =
        none ∧
      ¬ TaskRoundOwn sampleTaskSettings (sampleTaskAnswers sampleSunoFailure) s₀ := by
  refine ⟨⟨_, _, rfl, rfl, by decide, by decide, ?_⟩, ⟨_, rfl, by decide, ?_⟩⟩
  · rintro ⟨⟨p, hrun, hown⟩, -⟩
    obtain rfl := Option.some.inj hrun
    exact absurd (hown.own _ (List.mem_singleton.2 rfl)).1 (by decide)
  · rintro ⟨⟨p, hrun, -⟩, -⟩
    cases hrun

end NewApi.Model
