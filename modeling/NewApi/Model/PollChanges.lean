import NewApi.Lib.Json
import NewApi.Model.MidjourneyBilling
import NewApi.Model.TaskBilling

/-!
# Changes that a poll finds

A poll leaves a row alone when `checkTaskNeedUpdate` or `checkMjTaskNeedUpdate` finds nothing new in
the item for it.  The fields that the checks compare are not those that the poll assigns: the data
of a Suno task are compared as sorted bytes, and the buttons and the properties of a Midjourney task
are not compared.
-/

namespace NewApi.Model

open NewApi.Lib

/-! ## Suno tasks -/

section Suno

variable {F : Type} {cfg : TaskSettings F} {task : Task} {item : SunoItem}

/-- Status, fail reason, times and progress are those of the other row. -/
structure Task.SameState (task other : Task) : Prop where
  status : task.status = other.status
  failReason : task.failReason = other.failReason
  submitTime : task.submitTime = other.submitTime
  startTime : task.startTime = other.startTime
  finishTime : task.finishTime = other.finishTime
  progress : task.progress = other.progress

/-- The item says what the row says. -/
structure SunoItem.Repeats (item : SunoItem) (task : Task) : Prop where
  status : task.status = item.status
  failReason : task.failReason = item.failReason
  submitTime : task.submitTime = item.submitTime
  startTime : task.startTime = item.startTime
  finishTime : task.finishTime = item.finishTime

/-- A row that has failed or succeeded is at the end of its progress. -/
def Task.Closed (task : Task) : Prop :=
  task.status = TaskStatusFailure ∨ task.status = TaskStatusSuccess → task.progress = "100%"

/-- An item that repeats its row, with the bytes of the row's data in some order, brings neither
another value of the data nor the end of a row with a fail reason. -/
def SunoItem.NothingHidden {V : Type} (cfg : TaskSettings F) (value : String → V) (task : Task)
    (item : SunoItem) : Prop :=
  item.Repeats task → task.Closed →
    (cfg.marshalData task.data).Perm (cfg.marshalData item.data) →
      (task.failReason = "" ∨ task.progress = "100%") ∧ value item.data = value task.data

/-- Sorted lists of bytes are the same for the orders of one list only. -/
theorem insertionSort_eq_iff (xs ys : List ℕ) :
    xs.insertionSort (· ≤ ·) = ys.insertionSort (· ≤ ·) ↔ xs.Perm ys := by
  constructor
  · intro hsorted
    exact (List.perm_insertionSort _ xs).symm.trans (hsorted ▸ List.perm_insertionSort _ ys)
  · intro hperm
    have hsame : (xs.insertionSort (· ≤ ·)).Perm (ys.insertionSort (· ≤ ·)) :=
      (List.perm_insertionSort _ xs).trans (hperm.trans (List.perm_insertionSort _ ys).symm)
    exact hsame.eq_of_pairwise' (List.pairwise_insertionSort _ xs)
      (List.pairwise_insertionSort _ ys)

/-- What the check lets pass. -/
theorem checkTaskNeedUpdate_false_iff : checkTaskNeedUpdate cfg task item = false ↔
    item.Repeats task ∧ task.Closed ∧
      (cfg.marshalData task.data).Perm (cfg.marshalData item.data) := by
  rw [← insertionSort_eq_iff]
  simp only [checkTaskNeedUpdate, Bool.or_eq_false_iff, Bool.and_eq_false_iff, ne_eq, decide_not,
    Bool.not_eq_false', decide_eq_true_eq, decide_eq_false_iff_not]
  constructor
  · intro hequal
    obtain ⟨⟨⟨⟨⟨⟨hsubmit, hstart⟩, hfinish⟩, hstatus⟩, hfail⟩, hclosed⟩, hdata⟩ := hequal
    refine ⟨⟨hstatus, hfail, hsubmit, hstart, hfinish⟩, ?_, hdata⟩
    intro hended
    rcases hclosed with hnot | hprogress
    · exact absurd hended (not_or.2 hnot)
    · exact hprogress
  · intro hpassed
    obtain ⟨hrepeats, hclosed, hdata⟩ := hpassed
    refine ⟨⟨⟨⟨⟨⟨hrepeats.submitTime, hrepeats.startTime⟩, hrepeats.finishTime⟩,
      hrepeats.status⟩, hrepeats.failReason⟩, ?_⟩, hdata⟩
    by_cases hended : task.status = TaskStatusFailure ∨ task.status = TaskStatusSuccess
    · exact Or.inr (hclosed hended)
    · exact Or.inl (not_or.1 hended)

theorem merge_of_repeats (hrepeats : item.Repeats task) : task.merge item = task := by
  unfold Task.merge
  rw [← hrepeats.status, ← hrepeats.failReason, ← hrepeats.submitTime, ← hrepeats.startTime,
    ← hrepeats.finishTime]
  simp only [ite_self]

/-- Beside the data only the progress of a row with a fail reason may change. -/
theorem assigned_sameState_iff (hrepeats : item.Repeats task) (hclosed : task.Closed) :
    (task.assigned item).SameState task ↔ task.failReason = "" ∨ task.progress = "100%" := by
  have hprogress : (task.assigned item).progress =
      if task.failReason ≠ "" ∨ task.status = TaskStatusFailure ∨ task.status = TaskStatusSuccess
      then "100%" else task.progress := by
    unfold Task.assigned SunoItem.fails
    rw [merge_of_repeats hrepeats, ← hrepeats.failReason, ← hrepeats.status]
    simp only [Bool.or_eq_true, decide_eq_true_eq, or_assoc]
  constructor
  · intro hsame
    by_cases hreason : task.failReason = ""
    · exact Or.inl hreason
    · rw [if_pos (Or.inl hreason)] at hprogress
      exact Or.inr (hsame.progress.symm.trans hprogress)
  · intro hvisible
    have hmerge := merge_of_repeats hrepeats
    constructor
    case status =>
      show (task.merge item).status = task.status
      rw [hmerge]
    case failReason =>
      show (task.merge item).failReason = task.failReason
      rw [hmerge]
    case submitTime =>
      show (task.merge item).submitTime = task.submitTime
      rw [hmerge]
    case startTime =>
      show (task.merge item).startTime = task.startTime
      rw [hmerge]
    case finishTime =>
      show (task.merge item).finishTime = task.finishTime
      rw [hmerge]
    case progress =>
      rw [hprogress]
      by_cases hends : task.failReason ≠ "" ∨ task.status = TaskStatusFailure ∨
          task.status = TaskStatusSuccess
      · rw [if_pos hends]
        rcases hvisible with hreason | hfull
        · exact (hclosed (hends.resolve_left fun hne => hne hreason)).symm
        · exact hfull.symm
      · rw [if_neg hends]

theorem suno_poll_iff {V : Type} (value : String → V) (cfg : TaskSettings F) (task : Task)
    (item : SunoItem) :
    (checkTaskNeedUpdate cfg task item = false →
      (task.assigned item).SameState task ∧ value item.data = value task.data) ↔
        item.NothingHidden cfg value task := by
  rw [checkTaskNeedUpdate_false_iff]
  constructor
  · intro hseen hrepeats hclosed hdata
    obtain ⟨hstate, hvalue⟩ := hseen ⟨hrepeats, hclosed, hdata⟩
    exact ⟨(assigned_sameState_iff hrepeats hclosed).1 hstate, hvalue⟩
  · intro hhidden hpassed
    obtain ⟨hrepeats, hclosed, hdata⟩ := hpassed
    obtain ⟨hvisible, hvalue⟩ := hhidden hrepeats hclosed hdata
    exact ⟨(assigned_sameState_iff hrepeats hclosed).2 hvisible, hvalue⟩

end Suno

/-! ## Midjourney tasks -/

/-- `dto.Properties`. -/
structure Properties where
  finalPrompt : String
  finalZhPrompt : String
deriving DecidableEq

/-- A row with its JSON columns that only the poll writes. -/
structure MidjourneyRow extends Midjourney where
  buttons : String
  properties : String
deriving DecidableEq

/-- A report with the values that go into these columns, where they are there. -/
structure MidjourneyReport extends MidjourneyDto where
  buttons : Option Json
  properties : Option Properties

/-- How the values are marshalled. -/
structure MidjourneyMarshal where
  buttons : Json → String
  properties : Properties → String

section Midjourney

variable {F : Type} {cfg : MidjourneySettings F} {marshal : MidjourneyMarshal}
  {row : MidjourneyRow} {report : MidjourneyReport}

/-- The assignments of `UpdateMidjourneyTaskBulk`, with those to the JSON columns. -/
def MidjourneyRow.assigned (cfg : MidjourneySettings F) (marshal : MidjourneyMarshal)
    (row : MidjourneyRow) (report : MidjourneyReport) : MidjourneyRow where
  toMidjourney := row.toMidjourney.assigned cfg report.toMidjourneyDto
  buttons := (report.buttons.map marshal.buttons).getD row.buttons
  properties := (report.properties.map marshal.properties).getD row.properties

/-- The report says what the row says, as far as the two are compared. -/
structure MidjourneyReport.Repeats (cfg : MidjourneySettings F) (report : MidjourneyReport)
    (row : MidjourneyRow) : Prop where
  polled : row.toMidjourney.polled cfg report.toMidjourneyDto = row.toMidjourney
  failReason : row.progress ≠ "100%" → report.failReason = ""

/-- A report that repeats its row brings no other buttons or properties. -/
def MidjourneyReport.NothingHidden (cfg : MidjourneySettings F) (marshal : MidjourneyMarshal)
    (row : MidjourneyRow) (report : MidjourneyReport) : Prop :=
  report.Repeats cfg row →
    (∀ buttons, report.buttons = some buttons → marshal.buttons buttons = row.buttons) ∧
      ∀ properties, report.properties = some properties →
        marshal.properties properties = row.properties

/-- The video URLs are compared with what the poll would write. -/
theorem videoUrls_same_iff {stored : String} {urls : Option (List String)} :
    (if urls.getD [] ≠ [] then decide (stored ≠ cfg.marshalVideoUrls urls)
      else decide (stored ≠ "")) = false ↔
      (if urls.getD [] ≠ [] then cfg.marshalVideoUrls urls else "") = stored := by
  by_cases hurls : urls.getD [] ≠ []
  · rw [if_pos hurls, if_pos hurls, decide_eq_false_iff_not, not_not, eq_comm]
  · rw [if_neg hurls, if_neg hurls, decide_eq_false_iff_not, not_not, eq_comm]

/-- What the check lets pass. -/
theorem checkMjTaskNeedUpdate_false_iff :
    checkMjTaskNeedUpdate cfg row.toMidjourney report.toMidjourneyDto = false ↔
      report.Repeats cfg row := by
  unfold checkMjTaskNeedUpdate
  simp only [Bool.or_eq_false_iff, videoUrls_same_iff, Bool.and_eq_false_iff,
    decide_eq_false_iff_not, not_ne_iff]
  constructor
  · intro hequal
    obtain ⟨⟨⟨⟨⟨⟨⟨⟨⟨⟨⟨⟨hcode, hprogress⟩, hprompt⟩, hstate⟩, hsubmit⟩, hstart⟩, hfinish⟩, himage⟩,
      hstatus⟩, hfail⟩, hreason⟩, hvideo⟩, hurls⟩ := hequal
    refine ⟨?_, hreason.resolve_left⟩
    unfold Midjourney.polled Midjourney.overwrite
    rw [Midjourney.mk.injEq]
    exact ⟨hcode.symm, rfl, rfl, hprompt.symm, hstate.symm, hsubmit.symm, hstart.symm,
      hfinish.symm, himage.symm, hvideo.symm, hurls, hstatus.symm, hprogress.symm, hfail.symm,
      rfl, rfl⟩
  · intro hrepeats
    obtain ⟨hpolled, hreason⟩ := hrepeats
    unfold Midjourney.polled Midjourney.overwrite at hpolled
    rw [Midjourney.mk.injEq] at hpolled
    obtain ⟨hcode, -, -, hprompt, hstate, hsubmit, hstart, hfinish, himage, hvideo, hurls, hstatus,
      hprogress, hfail, -, -⟩ := hpolled
    have hends : row.progress = "100%" ∨ report.failReason = "" := by
      by_cases hfull : row.progress = "100%"
      · exact Or.inl hfull
      · exact Or.inr (hreason hfull)
    exact ⟨⟨⟨⟨⟨⟨⟨⟨⟨⟨⟨⟨hcode.symm, hprogress.symm⟩, hprompt.symm⟩, hstate.symm⟩, hsubmit.symm⟩,
      hstart.symm⟩, hfinish.symm⟩, himage.symm⟩, hstatus.symm⟩, hfail.symm⟩, hends⟩, hvideo.symm⟩,
      hurls⟩

/-- The columns that the check compares stand when it lets the report pass. -/
theorem assigned_toMidjourney (hrepeats : report.Repeats cfg row) :
    (row.assigned cfg marshal report).toMidjourney = row.toMidjourney := by
  have hprogress : row.progress = report.progress :=
    (congrArg Midjourney.progress hrepeats.polled).symm
  unfold MidjourneyRow.assigned Midjourney.assigned
  dsimp only
  rw [hrepeats.polled]
  by_cases hfails : report.fails = true
  · rw [if_pos hfails]
    have hfull : row.progress = "100%" := by
      by_contra hopen
      have hreason := hrepeats.failReason hopen
      rw [hprogress] at hopen
      simp [MidjourneyDto.fails, hreason, hopen] at hfails
    rw [← hfull]
  · rw [if_neg hfails]

theorem midjourney_poll_iff (cfg : MidjourneySettings F) (marshal : MidjourneyMarshal)
    (row : MidjourneyRow) (report : MidjourneyReport) :
    (checkMjTaskNeedUpdate cfg row.toMidjourney report.toMidjourneyDto = false →
      row.assigned cfg marshal report = row) ↔ report.NothingHidden cfg marshal row := by
  have hsame : ∀ hrepeats : report.Repeats cfg row, row.assigned cfg marshal report = row ↔
      (report.buttons.map marshal.buttons).getD row.buttons = row.buttons ∧
        (report.properties.map marshal.properties).getD row.properties = row.properties := by
    intro hrepeats
    constructor
    · intro hrow
      exact ⟨congrArg MidjourneyRow.buttons hrow, congrArg MidjourneyRow.properties hrow⟩
    · intro hcolumns
      obtain ⟨hbuttons, hproperties⟩ := hcolumns
      rw [MidjourneyRow.mk.injEq]
      exact ⟨assigned_toMidjourney hrepeats, hbuttons, hproperties⟩
  rw [checkMjTaskNeedUpdate_false_iff]
  refine forall_congr' fun hrepeats => ?_
  rw [hsame hrepeats]
  cases report.buttons <;> cases report.properties <;> simp

end Midjourney

/-- A poll misses no change exactly where the data of a repeated Suno item are no rearrangement of
other data and hide no end of a row, and where a repeated report brings no other buttons or
properties. -/
theorem poll_sees_changes_iff {F V : Type} (value : String → V) (tasks : TaskSettings F)
    (midjourneys : MidjourneySettings F) (marshal : MidjourneyMarshal) :
    (∀ (task : Task) (item : SunoItem),
      (checkTaskNeedUpdate tasks task item = false →
        (task.assigned item).SameState task ∧ value item.data = value task.data) ↔
          item.NothingHidden tasks value task) ∧
    (∀ (row : MidjourneyRow) (report : MidjourneyReport),
      (checkMjTaskNeedUpdate midjourneys row.toMidjourney report.toMidjourneyDto = false →
        row.assigned midjourneys marshal report = row) ↔
          report.NothingHidden midjourneys marshal row) :=
  ⟨suno_poll_iff value tasks, midjourney_poll_iff midjourneys marshal⟩

/-! ## Two changes that are missed -/

/-- The value of a text, which cannot be nested deeper than it is long. -/
def jsonValue (data : String) : Option Json :=
  Json.parse data.length data.toList

def waitingSuno : Task where
  taskId := "t"
  platform := TaskPlatformSuno
  userId := 7
  group := "default"
  channelId := 2
  quota := 10
  status := TaskStatusInProgress
  failReason := ""
  submitTime := 100
  startTime := 101
  finishTime := 0
  progress := "30%"
  data := "[12]"

/-- The item of the waiting task with the digits of its data the other way round. -/
def rearrangedItem : SunoItem where
  taskId := "t"
  status := TaskStatusInProgress
  failReason := ""
  submitTime := 100
  startTime := 101
  finishTime := 0
  data := "[21]"

def waitingRow : MidjourneyRow where
  code := 1
  userId := 7
  mjId := "m"
  promptEn := ""
  state := ""
  submitTime := 100
  startTime := 101
  finishTime := 0
  imageUrl := ""
  videoUrl := ""
  videoUrls := ""
  status := "IN_PROGRESS"
  progress := "50%"
  failReason := ""
  channelId := 2
  quota := 10
  buttons := ""
  properties := ""

/-- The report of the waiting row with an empty list of buttons. -/
def buttonsReport : MidjourneyReport where
  mjId := "m"
  promptEn := ""
  state := ""
  submitTime := 100
  startTime := 101
  finishTime := 0
  imageUrl := ""
  videoUrl := ""
  videoUrls := none
  status := "IN_PROGRESS"
  progress := "50%"
  failReason := ""
  buttons := some (.arr [])
  properties := none

def sampleMarshal : MidjourneyMarshal where
  buttons := fun _ => "[]"
  properties := fun _ => ""

/-- Data with the same bytes in another order and new buttons count as no change. -/
theorem changes_are_missed :
    (checkTaskNeedUpdate sampleTaskSettings waitingSuno rearrangedItem = false ∧
      jsonValue rearrangedItem.data ≠ jsonValue waitingSuno.data) ∧
    (checkMjTaskNeedUpdate sampleMidjourneySettings waitingRow.toMidjourney
        buttonsReport.toMidjourneyDto = false ∧
      waitingRow.assigned sampleMidjourneySettings sampleMarshal buttonsReport ≠ waitingRow) := by
  refine ⟨⟨by decide, ?_⟩, by decide, by decide⟩
  have hitem : jsonValue rearrangedItem.data = some (.arr [.num ['2', '1']]) := rfl
  have htask : jsonValue waitingSuno.data = some (.arr [.num ['1', '2']]) := rfl
  rw [hitem, htask]
  simp

end NewApi.Model
