import NewApi.Model.Task

/-!
# The ledger of asynchronous tasks

Whatever the order of submissions, polls and fetches, every quota movement of the task system
goes to the owner of a task and is on the bill of that task.
-/

namespace NewApi.Model

open NewApi.Lib

/-- Polling a task keeps its owner and platform, and moves the owner's quota only. -/
structure KeepsTask (task : Task) (result : PollResult Task) : Prop
    extends Table.KeepsOwner Task.userId task result where
  platform : result.row.platform = task.platform

theorem KeepsTask.still {task row : Task} {saved : Bool} (huser : row.userId = task.userId)
    (hplatform : row.platform = task.platform) :
    KeepsTask task { row := row, movement := none, saved := saved } :=
  ⟨⟨huser, by simp⟩, hplatform⟩

section

variable {F : Type} [Float64 F] (cfg : TaskSettings F)

theorem settleVideoTask_keeps (task : Task) (info : TaskInfo) (userGroup : Option String)
    (ok : Bool) : KeepsTask task (settleVideoTask cfg task info userGroup ok) := by
  rw [settleVideoTask]
  cases actualQuota cfg task info userGroup with
  | none => exact .still rfl rfl
  | some quota =>
      dsimp only
      split
      case isTrue hexact => exact .still rfl rfl
      case isFalse hdelta => exact ⟨⟨rfl, by simp [Movement.userId]⟩, rfl⟩

theorem updateVideoSingleTask_keeps (task : Task) (resp : VideoResponse) (ok : Bool) :
    KeepsTask task (updateVideoSingleTask cfg task resp ok) := by
  rw [updateVideoSingleTask]
  dsimp only
  split_ifs with hsubmitted hqueued hprogress hsuccess hfailure hrefund
  · exact .still rfl rfl
  · exact .still rfl rfl
  · exact .still rfl rfl
  · have hkeeps := settleVideoTask_keeps cfg
      (Task.succeed { task with data := resp.data } resp.info.orFailed resp.now)
      resp.info.orFailed resp.userGroup ok
    exact ⟨⟨hkeeps.user, hkeeps.movement⟩, hkeeps.platform⟩
  · exact ⟨⟨rfl, by simp [Movement.userId]⟩, rfl⟩
  · exact .still rfl rfl
  · exact .still rfl rfl

omit [Float64 F] in
theorem updateSunoTask_keeps (task : Task) (item : SunoItem) (err ok : Bool) :
    KeepsTask task (updateSunoTask cfg task item err ok) := by
  rw [updateSunoTask]
  split
  case isTrue hskip => exact .still rfl rfl
  case isFalse hupdate =>
    refine ⟨⟨rfl, ?_⟩, rfl⟩
    dsimp only
    split
    case isTrue hrefund => simp [Movement.userId]
    case isFalse hkept => simp

end

namespace TaskState

/-- Rows, the poller's copies and the copies of fetches all name the payer as their user. -/
structure Owned (s : TaskState) : Prop where
  tasks : Table.Owned Task.userId s.tasks
  fetches : Table.Backed (Table.OwnedBy Task.userId) s.tasks.entries s.fetches

theorem owned_start (db : DB) : Owned (start db) :=
  ⟨Table.Sound.empty, by simp [Table.Backed, start]⟩

theorem lookup_some {s : TaskState} {platform taskId : String} {i : ℕ} {copy : Copy Task}
    (hlookup : s.lookup platform taskId = some (i, copy)) :
    s.tasks.copies[i]? = some copy ∧ copy.row.platform = platform := by
  obtain ⟨hcopy, hmatch⟩ := Pool.lastMatch_some hlookup
  simp only [Bool.and_eq_true, decide_eq_true_eq] at hmatch
  exact ⟨hcopy, hmatch.1.1⟩

/-- The two statements that fail tasks in bulk, and the write of a fetch. -/
theorem Owned.updateWhere {s : TaskState} {p : ℕ → Task → Bool} {f : Task → Task}
    (howned : Owned s)
    (hf : ∀ id e, s.tasks.entries[id]? = some e → p id e.row = true →
      (f e.row).userId = e.row.userId) :
    Owned { s with tasks := s.tasks.updateWhere p f } := by
  refine ⟨howned.tasks.updateWhere hf, ?_⟩
  refine howned.fetches.mapIdx fun copy _ e _ hcopy => ?_
  split
  case isTrue hp => exact hcopy
  case isFalse hp => exact hcopy

theorem Owned.poll {s : TaskState} {i : ℕ} {copy : Copy Task} {result : PollResult Task}
    (howned : Owned s) (hcopy : s.tasks.copies[i]? = some copy)
    (hresult : KeepsTask copy.row result) :
    Owned (s.poll i copy result) ∧
      Booked s.db (s.poll i copy result).db s.tasks.bills (s.poll i copy result).tasks.bills := by
  obtain ⟨hpolled, hbooked⟩ := howned.tasks.poll s.db hcopy hresult.toKeepsOwner
  refine ⟨⟨hpolled, ?_⟩, hbooked⟩
  refine howned.fetches.mapIdx fun fetch _ e _ hfetch => ?_
  split
  case isTrue hsame => exact hfetch.entry result s.db
  case isFalse hother => exact hfetch

section

variable {F : Type} [Float64 F] {cfg : TaskSettings F} {s s' : TaskState}

theorem submit_booked (s : TaskState) (req : TaskSubmit F) :
    Booked s.db (s.submit cfg req).db s.tasks.bills (s.submit cfg req).tasks.bills := by
  rw [submit]
  dsimp only
  split
  case h_1 userQuota taskId data huser hresponse =>
    split_ifs with hshort hinsert hfree
    · exact .refl _ _
    · exact .refl _ _
    · have hcharged := (s.db.postConsumeQuota_charged req.payer (taskQuota cfg req)).2
      rw [Table.insert_bills]
      exact Booked.charge (hcharged.counted _ _ _) _
    · have hcharged := (s.db.postConsumeQuota_charged req.payer (taskQuota cfg req)).2
      rw [Table.insert_bills]
      exact Booked.charge hcharged _
  case h_2 => exact .refl _ _

theorem Owned.submit (howned : Owned s) (req : TaskSubmit F) : Owned (s.submit cfg req) := by
  rw [TaskState.submit]
  dsimp only
  split
  case h_1 userQuota taskId data huser hresponse =>
    split_ifs with hshort hinsert hfree
    · exact howned
    · exact howned
    · exact ⟨howned.tasks.insert rfl, howned.fetches.append _⟩
    · exact ⟨howned.tasks.insert rfl, howned.fetches.append _⟩
  case h_2 => exact howned

theorem Owned.fetchRead (howned : Owned s) (userId : ℕ) (taskId : String) :
    Owned (s.fetchRead userId taskId) := by
  rw [TaskState.fetchRead]
  split
  case isTrue hempty => exact howned
  case isFalse hid =>
    refine ⟨howned.tasks, ?_⟩
    intro copy hcopy
    rcases List.mem_append.mp hcopy with hold | hnew
    · exact howned.fetches copy hold
    · obtain ⟨e, hentry, hrow, -⟩ := Table.mem_selectWhere (List.mem_of_mem_take hnew)
      refine ⟨e, hentry, ?_⟩
      rw [hrow]
      exact howned.tasks.entries e (List.mem_of_getElem? hentry)

theorem Owned.fetchWrite {i : ℕ} {copy : Copy Task} {info : Option TaskInfo} (howned : Owned s)
    (hcopy : s.fetches[i]? = some copy) : Owned (s.fetchWrite i copy info) := by
  have herase : ∀ t : TaskState, Owned t → Owned { t with fetches := t.fetches.eraseIdx i } :=
    fun t howned => ⟨howned.tasks, fun other hother =>
      howned.fetches other ((List.eraseIdx_sublist _ _).subset hother)⟩
  cases info with
  | none => exact herase s howned
  | some info =>
      obtain ⟨e, hentry, howner⟩ := howned.fetches copy (List.mem_of_getElem? hcopy)
      have hsaved : Owned { s with tasks := s.tasks.save copy.id (copy.row.fetched info) } := by
        refine howned.updateWhere fun id e' hentry' hid => ?_
        obtain rfl : id = copy.id := by simpa using hid
        obtain rfl : e = e' := Option.some.inj (hentry.symm.trans hentry')
        exact howner.trans (howned.tasks.entries e (List.mem_of_getElem? hentry)).symm
      exact herase _ hsaved

/-- What a step does. -/
inductive Effect (cfg : TaskSettings F) (s : TaskState) : TaskAction F → TaskState → Prop
  | submit (req : TaskSubmit F) : Effect cfg s (.submit req) (s.submit cfg req)
  | selectTasks : Effect cfg s .selectTasks
      { s with
        tasks :=
          { s.tasks with
            copies := (s.tasks.selectWhere Task.unfinished).take cfg.taskQueryLimit } }
  | failNullTasks (platform : String) :
      Effect cfg s (.failNullTasks platform true) (s.failNullTasks platform)
  | failChannelTasks (platform : String) (channelId : ℕ)
      (hplatform : platform ≠ TaskPlatformMidjourney) :
      Effect cfg s (.failChannelTasks platform channelId true)
        (s.failChannelTasks platform channelId)
  | idle (a : TaskAction F) (hidle : ∀ req, a ≠ .submit req) : Effect cfg s a s
  | sunoResponse : Effect cfg s .sunoResponse { s with sunoErr := false }
  | sunoItem (item : SunoItem) (ok : Bool) :
      Effect cfg s (.sunoItem item ok) (s.sunoItem cfg item ok)
  | videoResult (platform taskId : String) (resp : VideoResponse) (ok : Bool)
      (hsuno : platform ≠ TaskPlatformSuno) (hmidjourney : platform ≠ TaskPlatformMidjourney) :
      Effect cfg s (.videoResult platform taskId resp ok)
        (s.videoResult cfg platform taskId resp ok)
  | fetchRead (userId : ℕ) (taskId : String) :
      Effect cfg s (.fetchRead userId taskId) (s.fetchRead userId taskId)
  | fetchWrite (i : ℕ) (copy : Copy Task) (channelType : ℤ) (info : Option TaskInfo) (ok : Bool)
      (hcopy : s.fetches[i]? = some copy) :
      Effect cfg s (.fetchWrite i channelType info ok)
        (s.fetchWrite i copy (fetchWrites channelType info ok))

theorem step_effect {a : TaskAction F} (hstep : step cfg s a = some s') : Effect cfg s a s' := by
  cases a with
  | submit req =>
      obtain rfl := Option.some.inj hstep
      exact .submit req
  | selectTasks =>
      simp only [step, Option.ite_none_right_eq_some, Option.some.injEq] at hstep
      obtain ⟨-, rfl⟩ := hstep
      exact .selectTasks
  | failNullTasks platform ok =>
      simp only [step] at hstep
      split at hstep
      case isTrue hok =>
        subst hok
        obtain rfl := Option.some.inj hstep
        exact .failNullTasks platform
      case isFalse hfailed =>
        obtain rfl := Option.some.inj hstep
        exact .idle _ nofun
  | failChannelTasks platform channelId ok =>
      simp only [step] at hstep
      split at hstep
      case isTrue hok =>
        rw [Bool.and_eq_true, decide_eq_true_eq] at hok
        obtain ⟨rfl, hplatform⟩ := hok
        obtain rfl := Option.some.inj hstep
        exact .failChannelTasks platform channelId hplatform
      case isFalse hfailed =>
        obtain rfl := Option.some.inj hstep
        exact .idle _ nofun
  | sunoResponse =>
      obtain rfl := Option.some.inj hstep
      exact .sunoResponse
  | sunoItem item ok =>
      simp only [step, Option.ite_none_right_eq_some, Option.some.injEq] at hstep
      obtain ⟨-, rfl⟩ := hstep
      exact .sunoItem item ok
  | videoResult platform taskId resp ok =>
      simp only [step] at hstep
      split at hstep
      case isTrue hplatform =>
        obtain rfl := Option.some.inj hstep
        exact .idle _ nofun
      case isFalse hvideo =>
        obtain rfl := Option.some.inj hstep
        obtain ⟨hsuno, hmidjourney⟩ := not_or.mp hvideo
        exact .videoResult platform taskId resp ok hsuno hmidjourney
  | fetchRead userId taskId =>
      obtain rfl := Option.some.inj hstep
      exact .fetchRead userId taskId
  | fetchWrite i channelType info ok =>
      simp only [step, Option.bind_eq_bind, Option.bind_eq_some_iff, Option.some.injEq] at hstep
      obtain ⟨copy, hcopy, rfl⟩ := hstep
      exact .fetchWrite i copy channelType info ok hcopy

/-- Every step keeps the owners and books what it moves. -/
theorem step_booked {a : TaskAction F} (hstep : step cfg s a = some s') (howned : Owned s) :
    Owned s' ∧ Booked s.db s'.db s.tasks.bills s'.tasks.bills := by
  cases step_effect hstep with
  | submit req => exact ⟨howned.submit req, submit_booked s req⟩
  | selectTasks =>
      exact ⟨⟨howned.tasks.select (List.take_sublist _ _), howned.fetches⟩, .refl _ _⟩
  | failNullTasks platform =>
      refine ⟨howned.updateWhere fun _ _ _ _ => rfl, ?_⟩
      rw [failNullTasks, Table.updateWhere_bills]
      exact .refl _ _
  | failChannelTasks platform channelId hplatform =>
      refine ⟨howned.updateWhere fun _ _ _ _ => rfl, ?_⟩
      rw [failChannelTasks, Table.updateWhere_bills]
      exact .refl _ _
  | idle a hidle => exact ⟨howned, .refl _ _⟩
  | sunoResponse => exact ⟨⟨howned.tasks, howned.fetches⟩, .refl _ _⟩
  | sunoItem item ok =>
      rw [TaskState.sunoItem]
      split
      case h_1 hlookup => exact ⟨⟨howned.tasks.drop, howned.fetches⟩, .refl _ _⟩
      case h_2 i copy hlookup =>
        obtain ⟨hpolled, hbooked⟩ := howned.poll (lookup_some hlookup).1
          (updateSunoTask_keeps cfg copy.row item s.sunoErr ok)
        exact ⟨⟨hpolled.tasks, hpolled.fetches⟩, hbooked⟩
  | videoResult platform taskId resp ok hsuno hmidjourney =>
      rw [TaskState.videoResult]
      split
      case h_1 hlookup => exact ⟨howned, .refl _ _⟩
      case h_2 i copy hlookup =>
        exact howned.poll (lookup_some hlookup).1
          (updateVideoSingleTask_keeps cfg copy.row resp ok)
  | fetchRead userId taskId =>
      refine ⟨howned.fetchRead userId taskId, ?_⟩
      rw [TaskState.fetchRead]
      split
      case isTrue hempty => exact .refl _ _
      case isFalse hid => exact .refl _ _
  | fetchWrite i copy channelType info ok hcopy =>
      refine ⟨howned.fetchWrite hcopy, ?_⟩
      cases hwrites : fetchWrites channelType info ok with
      | none => exact .refl _ _
      | some info =>
          show Booked s.db s.db s.tasks.bills (s.tasks.save copy.id _).bills
          rw [Table.save, Table.updateWhere_bills]
          exact .refl _ _

/-- Every run books all that it moves on the bills of its tasks. -/
theorem tasks_booked {db : DB} {as : List (TaskAction F)}
    (hrun : (taskSystem cfg).run (start db) as = some s') :
    Owned s' ∧ Booked db s'.db [] s'.tasks.bills := by
  refine System.kept_run (I := fun t => Owned t ∧ Booked db t.db [] t.tasks.bills) ?_
    ⟨owned_start db, .refl _ _⟩ hrun
  rintro s a s' hstep ⟨howned, hbooked⟩
  obtain ⟨howned', hstepBooked⟩ := step_booked hstep howned
  exact ⟨howned', hbooked.trans hstepBooked⟩

end

end TaskState

end NewApi.Model
