import NewApi.Model.TaskBilling

/-!
# The group ratio that a task is sold and settled at

A task is charged when it is submitted, at a ratio of the user's group and the group that is used,
and again when it has succeeded, at a ratio that is looked up from its row.  The row keeps the group
that is used and forgets the user's.
-/

namespace NewApi.Model

open NewApi.Lib

section

variable {F : Type} (cfg : TaskSettings F)

/-- The special ratio of the two groups, and else the ratio of the group that is used. -/
def finalGroupRatio (userGroup usingGroup : String) : F :=
  (cfg.groupGroupRatio userGroup usingGroup).getD (cfg.groupRatio usingGroup)

/-- The group that `updateVideoSingleTask` settles a task by. -/
def settledGroup (task : Task) (userGroup : Option String) : String :=
  if task.group = "" then userGroup.getD "" else task.group

variable [Float64 F]

/-- The quota of a submission at a group ratio. -/
def quotaAtRate (req : TaskSubmit F) (groupRatio : F) : ℤ :=
  let modelPrice :=
    match cfg.modelPrice req.modelName with
    | some modelPrice => modelPrice
    | none => (cfg.defaultModelPrice req.modelName).getD (Float64.ofInt 1 / Float64.ofInt 10)
  let ratio := modelPrice * groupRatio
  let ratio :=
    if cfg.taskPricePatches.contains req.modelName then ratio
    else
      req.otherRatios.foldl
        (fun ratio ra => if Float64.eq (Float64.ofInt 1) ra then ratio else ratio * ra) ratio
  Float64.toInt (ratio * cfg.quotaPerUnit)

theorem taskQuota_eq (req : TaskSubmit F) :
    taskQuota cfg req = quotaAtRate cfg req (finalGroupRatio cfg req.userGroup req.usingGroup) := by
  unfold taskQuota quotaAtRate finalGroupRatio
  cases cfg.groupGroupRatio req.userGroup req.usingGroup with
  | none => rfl
  | some userGroupRatio => rfl

/-- The tokens of a task are settled at the ratio of the group of its row with itself. -/
theorem actualQuota_some {task : Task} {info : TaskInfo} {userGroup : Option String} {quota : ℤ}
    (hactual : actualQuota cfg task info userGroup = some quota) :
    ∃ modelName, cfg.dataModel task.data = some modelName ∧
      quota = Float64.toInt (Float64.ofInt info.totalTokens * (cfg.modelRatio modelName).1 *
        finalGroupRatio cfg (settledGroup task userGroup) (settledGroup task userGroup)) := by
  unfold actualQuota at hactual
  split at hactual
  case isTrue => cases hactual
  case isFalse =>
    cases hmodel : cfg.dataModel task.data with
    | none =>
        rw [hmodel] at hactual
        cases hactual
    | some modelName =>
        rw [hmodel] at hactual
        change (if modelName = "" then none
          else if _ then none
          else if settledGroup task userGroup = "" then none
          else some (Float64.toInt (_ * finalGroupRatio cfg (settledGroup task userGroup)
            (settledGroup task userGroup)))) = some quota at hactual
        split_ifs at hactual
        exact ⟨modelName, rfl, (Option.some.inj hactual).symm⟩

end

/-- The ratio that the special ratios of two pairs of groups come to is the same: both pairs have
the same, one has the ratio that the other takes from its group, or both take it from their groups.
-/
def RatesMeet {F : Type} (cfg : TaskSettings F) (userGroup usingGroup group : String) : Prop :=
  match cfg.groupGroupRatio userGroup usingGroup, cfg.groupGroupRatio group group with
  | some sold, some settled => settled = sold
  | some sold, none => cfg.groupRatio group = sold
  | none, some settled => settled = cfg.groupRatio usingGroup
  | none, none => cfg.groupRatio group = cfg.groupRatio usingGroup

section

variable {F : Type} {cfg : TaskSettings F}

theorem finalGroupRatio_eq_iff (cfg : TaskSettings F) (userGroup usingGroup group : String) :
    finalGroupRatio cfg group group = finalGroupRatio cfg userGroup usingGroup ↔
      RatesMeet cfg userGroup usingGroup group := by
  unfold finalGroupRatio RatesMeet
  cases cfg.groupGroupRatio userGroup usingGroup with
  | none =>
      cases cfg.groupGroupRatio group group with
      | none => exact Iff.rfl
      | some settled => exact Iff.rfl
  | some sold =>
      cases cfg.groupGroupRatio group group with
      | none => exact Iff.rfl
      | some settled => exact Iff.rfl

/-- A pair of groups without a special ratio of its own. -/
def PlainRate (cfg : TaskSettings F) (userGroup usingGroup : String) : Prop :=
  ∀ ratio ∈ cfg.groupGroupRatio userGroup usingGroup, ratio = cfg.groupRatio usingGroup

/-- Where the row names the group that is used, a special ratio of the user's group is lost, and one
that the group has with itself is charged to everyone. -/
theorem ratesMeet_iff (userGroup group : String) :
    RatesMeet cfg userGroup group group ↔
      userGroup = group ∨ (PlainRate cfg userGroup group ∧ PlainRate cfg group group) ∨
        ∃ ratio, cfg.groupGroupRatio userGroup group = some ratio ∧
          cfg.groupGroupRatio group group = some ratio := by
  by_cases hown : userGroup = group
  · subst hown
    refine iff_of_true ?_ (.inl rfl)
    rw [← finalGroupRatio_eq_iff]
  · rw [or_iff_right hown]
    unfold RatesMeet PlainRate
    cases cfg.groupGroupRatio userGroup group with
    | none =>
        cases cfg.groupGroupRatio group group with
        | none => simp
        | some settled => simp
    | some sold =>
        cases cfg.groupGroupRatio group group with
        | none => simp [eq_comm]
        | some settled =>
            constructor
            · intro h
              exact .inr ⟨sold, rfl, congrArg some h⟩
            · intro h
              rcases h with ⟨hsold, hsettled⟩ | ⟨ratio, hsold, hsettled⟩
              · exact (hsettled settled rfl).trans (hsold sold rfl).symm
              · exact Option.some.inj (hsettled.trans hsold.symm)

end

/-! ## What is sold in a run -/

/-- What a row and its bill say about the sale of the task. -/
def Billed.sale (e : Billed Task) : String × ℤ :=
  (e.row.group, e.bill.charged)

section

variable {F : Type} [Float64 F] (cfg : TaskSettings F)

/-- The submission gets as far as its row. -/
def TaskSubmit.accepted (req : TaskSubmit F) : Bool :=
  match req.userQuota, req.response with
  | some userQuota, some _ => !decide (userQuota - taskQuota cfg req < 0) && req.inserted
  | _, _ => false

def TaskAction.sold : TaskAction F → List (TaskSubmit F)
  | .submit req => if req.accepted cfg then [req] else []
  | _ => []

/-- The submissions of a run that have a row, in the order of the rows. -/
def soldTasks (as : List (TaskAction F)) : List (TaskSubmit F) :=
  as.flatMap (TaskAction.sold cfg)

end

/-- The row or copy has the group that the task was sold for. -/
def SameGroup (row : Task) (e : Billed Task) : Prop :=
  row.group = e.row.group

section

variable {F : Type} [Float64 F] (cfg : TaskSettings F)

theorem updateVideoSingleTask_group (task : Task) (resp : VideoResponse) (ok : Bool) :
    (updateVideoSingleTask cfg task resp ok).row.group = task.group := by
  unfold updateVideoSingleTask
  dsimp only
  split_ifs
  · rfl
  · rfl
  · rfl
  · unfold settleVideoTask
    split
    case h_1 => rfl
    case h_2 =>
      split
      case isTrue => rfl
      case isFalse => rfl
  · rfl
  · rfl
  · rfl

omit [Float64 F] in
theorem updateSunoTask_group (task : Task) (item : SunoItem) (err ok : Bool) :
    (updateSunoTask cfg task item err ok).row.group = task.group := by
  unfold updateSunoTask
  split
  case isTrue => rfl
  case isFalse => rfl

/-- A task whose success is reported is settled at its actual quota. -/
theorem updateVideoSingleTask_settles {task : Task} {resp : VideoResponse} {quota : ℤ}
    (hsuccess : resp.info.status = TaskStatusSuccess)
    (hpriced : actualQuota cfg (Task.succeed { task with data := resp.data } resp.info resp.now)
      resp.info resp.userGroup = some quota) (ok : Bool) :
    (updateVideoSingleTask cfg task resp ok).row.quota = quota := by
  have hinfo : resp.info.orFailed = resp.info := by
    unfold TaskInfo.orFailed
    rw [hsuccess]
    exact if_neg (by decide)
  unfold updateVideoSingleTask
  dsimp only
  rw [hinfo, hsuccess, if_neg (by decide), if_neg (by decide), if_neg (by decide), if_pos rfl]
  unfold settleVideoTask
  rw [hpriced]
  dsimp only
  split
  case isTrue hexact =>
    -- the recorded quota is the actual one already
    exact (sub_eq_zero.1 hexact).symm
  case isFalse => rfl

end

namespace TaskState

/-- The rows are those of the sold tasks, and every copy of a row has its group. -/
structure Sold {F : Type} [Float64 F] (cfg : TaskSettings F) (past : List (TaskAction F))
    (s : TaskState) : Prop where
  sales : s.tasks.entries.map Billed.sale =
    (soldTasks cfg past).map fun req => (req.usingGroup, taskQuota cfg req)
  copies : Table.Backed SameGroup s.tasks.entries s.tasks.copies
  fetches : Table.Backed SameGroup s.tasks.entries s.fetches

section

variable {F : Type} [Float64 F] {cfg : TaskSettings F} {past : List (TaskAction F)} {s : TaskState}

theorem sold_start (db : DB) : Sold cfg [] (start db) :=
  ⟨rfl, by simp [Table.Backed, start, Table.empty], by simp [Table.Backed, start]⟩

/-- An action that sells nothing. -/
theorem Sold.idle {a : TaskAction F} (hsold : Sold cfg past s) (hidle : a.sold cfg = []) :
    Sold cfg (past ++ [a]) s := by
  refine ⟨?_, hsold.copies, hsold.fetches⟩
  have hsame : soldTasks cfg (past ++ [a]) = soldTasks cfg past := by
    simp [soldTasks, List.flatMap_append, hidle]
  rw [hsame]
  exact hsold.sales

/-- Rows may be rewritten as long as their groups and charges stay. -/
theorem Sold.rewrite {f : ℕ → Billed Task → Billed Task} (hsold : Sold cfg past s)
    (hf : ∀ id e, s.tasks.entries[id]? = some e → (f id e).sale = e.sale) :
    Sold cfg past
      { s with tasks := { s.tasks with entries := s.tasks.entries.mapIdx f } } := by
  have hgroup {copies : List (Copy Task)}
      (hbacked : Table.Backed SameGroup s.tasks.entries copies) :
      Table.Backed SameGroup (s.tasks.entries.mapIdx f) copies := by
    refine hbacked.mapIdx fun copy _ e hentry hsame => ?_
    exact hsame.trans (congrArg Prod.fst (hf copy.id e hentry)).symm
  refine ⟨?_, hgroup hsold.copies, hgroup hsold.fetches⟩
  rw [← hsold.sales]
  refine List.ext_getElem? fun id => ?_
  rw [List.getElem?_map, List.getElem?_mapIdx, List.getElem?_map]
  cases hentry : s.tasks.entries[id]? with
  | none => rfl
  | some e => exact congrArg some (hf id e hentry)

theorem Sold.updateWhere {p : ℕ → Task → Bool} {f : Task → Task} (hsold : Sold cfg past s)
    (hf : ∀ id e, s.tasks.entries[id]? = some e → p id e.row = true →
      (f e.row).group = e.row.group) :
    Sold cfg past { s with tasks := s.tasks.updateWhere p f } := by
  refine hsold.rewrite fun id e hentry => ?_
  split
  case isTrue hp => exact congrArg (fun group => (group, e.bill.charged)) (hf id e hentry hp)
  case isFalse hp => rfl

/-- A poll that keeps the group of its copy. -/
theorem Sold.poll {i : ℕ} {copy : Copy Task} {result : PollResult Task} (hsold : Sold cfg past s)
    (hcopy : s.tasks.copies[i]? = some copy) (hgroup : result.row.group = copy.row.group) :
    Sold cfg past (s.poll i copy result) := by
  obtain ⟨e, hentry, hsame⟩ := hsold.copies copy (List.mem_of_getElem? hcopy)
  have hrow : (result.entry s.db e).row.group = e.row.group := by
    cases hsaved : result.saved with
    | true =>
        rw [PollResult.entry_saved hsaved]
        exact hgroup.trans hsame
    | false => rw [PollResult.entry_unsaved hsaved]
  have hrewritten : Sold cfg past
      { s with tasks := { s.tasks with
        entries := s.tasks.entries.mapIdx fun id e =>
          if id = copy.id then result.entry s.db e else e } } := by
    refine hsold.rewrite fun id e' hentry' => ?_
    split
    case isTrue hid =>
      subst hid
      obtain rfl := Option.some.inj (hentry.symm.trans hentry')
      unfold Billed.sale
      rw [hrow, PollResult.entry_charged]
    case isFalse hother => rfl
  refine ⟨hrewritten.sales, ?_, hrewritten.fetches⟩
  intro other hother
  rcases List.mem_or_eq_of_mem_set hother with hold | hnew
  · exact hrewritten.copies other hold
  · -- the copy that was polled
    subst hnew
    obtain ⟨e', hentry', hsame'⟩ := hrewritten.copies copy (List.mem_of_getElem? hcopy)
    exact ⟨e', hentry', hgroup.trans hsame'⟩

/-- Rows that are read have the group of the row. -/
theorem Sold.selected (s : TaskState) (p : Task → Bool) :
    Table.Backed SameGroup s.tasks.entries (s.tasks.selectWhere p) := by
  intro copy hcopy
  obtain ⟨e, hentry, hrow, -⟩ := Table.mem_selectWhere hcopy
  exact ⟨e, hentry, congrArg Task.group hrow⟩

/-- A submission puts its row behind the others, or does nothing. -/
theorem Sold.submit (hsold : Sold cfg past s) (req : TaskSubmit F) :
    Sold cfg (past ++ [.submit req]) (s.submit cfg req) := by
  have hrefused (hno : req.accepted cfg = false) : Sold cfg (past ++ [.submit req]) s := by
    refine hsold.idle ?_
    show (if req.accepted cfg then [req] else []) = []
    rw [hno]
    rfl
  have hinserted (row : Task) (bill : Bill) (hgroup : row.group = req.usingGroup)
      (hcharged : bill.charged = taskQuota cfg req) (hyes : req.accepted cfg = true) (db : DB) :
      Sold cfg (past ++ [.submit req]) { s with db := db, tasks := s.tasks.insert row bill } := by
    refine ⟨?_, hsold.copies.append _, hsold.fetches.append _⟩
    have hlast : soldTasks cfg (past ++ [.submit req]) = soldTasks cfg past ++ [req] := by
      simp [soldTasks, TaskAction.sold, List.flatMap_append, hyes]
    have hsale : (Billed.mk row bill).sale = (req.usingGroup, taskQuota cfg req) := by
      unfold Billed.sale
      rw [hgroup, hcharged]
    rw [hlast, List.map_append, ← hsold.sales]
    show (s.tasks.entries ++ [Billed.mk row bill]).map Billed.sale = _
    rw [List.map_append, List.map_singleton, List.map_singleton, hsale]
  rw [TaskState.submit]
  dsimp only
  split
  case h_1 userQuota taskId data huser hresponse =>
    have haccepted : req.accepted cfg =
        (!decide (userQuota - taskQuota cfg req < 0) && req.inserted) := by
      unfold TaskSubmit.accepted
      rw [huser, hresponse]
    split_ifs with hshort hinsert hfree
    · refine hrefused ?_
      rw [haccepted, decide_eq_true hshort]
      rfl
    · refine hrefused ?_
      rw [haccepted, (Bool.not_eq_true' _).mp hinsert, Bool.and_false]
    · refine hinserted _ _ rfl rfl ?_ _
      rw [haccepted, decide_eq_false hshort, Bool.not_false, Bool.true_and]
      simpa using hinsert
    · refine hinserted _ _ rfl rfl ?_ _
      rw [haccepted, decide_eq_false hshort, Bool.not_false, Bool.true_and]
      simpa using hinsert
  case h_2 huser =>
    refine hrefused ?_
    unfold TaskSubmit.accepted
    split
    case h_1 userQuota response hquota hresponse =>
      exact absurd hresponse (huser userQuota response.1 response.2 hquota)
    case h_2 => rfl

theorem Sold.fetchWrite {i : ℕ} {copy : Copy Task} {info : Option TaskInfo}
    (hsold : Sold cfg past s) (hcopy : s.fetches[i]? = some copy) :
    Sold cfg past (s.fetchWrite i copy info) := by
  have herase (t : TaskState) (ht : Sold cfg past t) :
      Sold cfg past { t with fetches := t.fetches.eraseIdx i } :=
    ⟨ht.sales, ht.copies, fun other hother =>
      ht.fetches other ((List.eraseIdx_sublist _ _).subset hother)⟩
  cases info with
  | none => exact herase s hsold
  | some info =>
      obtain ⟨e, hentry, hsame⟩ := hsold.fetches copy (List.mem_of_getElem? hcopy)
      have hsaved : Sold cfg past
          { s with tasks := s.tasks.save copy.id (copy.row.fetched info) } := by
        refine hsold.updateWhere fun id e' hentry' hid => ?_
        obtain rfl : id = copy.id := by simpa using hid
        obtain rfl : e = e' := Option.some.inj (hentry.symm.trans hentry')
        exact hsame
      exact herase _ hsaved

/-- Every step keeps what the rows say about the sales. -/
theorem step_sold {s' : TaskState} {a : TaskAction F} (hstep : step cfg s a = some s')
    (hsold : Sold cfg past s) : Sold cfg (past ++ [a]) s' := by
  cases step_effect hstep with
  | submit req => exact hsold.submit req
  | selectTasks =>
      exact Sold.idle ⟨hsold.sales, fun copy hcopy =>
        Sold.selected s Task.unfinished copy (List.mem_of_mem_take hcopy), hsold.fetches⟩ rfl
  | failNullTasks platform => exact (hsold.updateWhere fun _ _ _ _ => rfl).idle rfl
  | failChannelTasks platform channelId hplatform =>
      exact (hsold.updateWhere fun _ _ _ _ => rfl).idle rfl
  | idle a hidle =>
      refine hsold.idle ?_
      cases a with
      | submit req => exact absurd rfl (hidle req)
      | _ => rfl
  | sunoResponse => exact Sold.idle ⟨hsold.sales, hsold.copies, hsold.fetches⟩ rfl
  | sunoItem item ok =>
      refine Sold.idle ?_ rfl
      rw [TaskState.sunoItem]
      split
      case h_1 hlookup => exact ⟨hsold.sales, by simp [Table.Backed], hsold.fetches⟩
      case h_2 i copy hlookup =>
        have hpolled := hsold.poll (lookup_some hlookup).1
          (updateSunoTask_group cfg copy.row item s.sunoErr ok)
        exact ⟨hpolled.sales, hpolled.copies, hpolled.fetches⟩
  | videoResult platform taskId resp ok hsuno hmidjourney =>
      refine Sold.idle ?_ rfl
      rw [TaskState.videoResult]
      split
      case h_1 hlookup => exact hsold
      case h_2 i copy hlookup =>
        exact hsold.poll (lookup_some hlookup).1
          (updateVideoSingleTask_group cfg copy.row resp ok)
  | fetchRead userId taskId =>
      refine Sold.idle ?_ rfl
      rw [TaskState.fetchRead]
      split
      case isTrue hempty => exact hsold
      case isFalse hid =>
        refine ⟨hsold.sales, hsold.copies, fun copy hcopy => ?_⟩
        rcases List.mem_append.mp hcopy with hold | hnew
        · exact hsold.fetches copy hold
        · exact Sold.selected s _ copy (List.mem_of_mem_take hnew)
  | fetchWrite i copy channelType info ok hcopy => exact (hsold.fetchWrite hcopy).idle rfl

theorem run_sold {db : DB} {as : List (TaskAction F)} {s' : TaskState}
    (hrun : (taskSystem cfg).run (start db) as = some s') : Sold cfg as s' :=
  System.history_run (I := Sold cfg) (fun hstep hsold => step_sold hstep hsold) (sold_start db) hrun

/-- Every copy that the poller works on belongs to a sold task, whose group it has and whose charge
is on the bill. -/
theorem sold_of_lookup {db : DB} {as : List (TaskAction F)} {s' : TaskState}
    (hrun : (taskSystem cfg).run (start db) as = some s') {platform taskId : String} {i : ℕ}
    {copy : Copy Task} (hlookup : s'.lookup platform taskId = some (i, copy)) :
    ∃ req e, (soldTasks cfg as)[copy.id]? = some req ∧ s'.tasks.entries[copy.id]? = some e ∧
      copy.row.group = req.usingGroup ∧ e.bill.charged = taskQuota cfg req := by
  have hsold := run_sold hrun
  obtain ⟨e, hentry, hsame⟩ := hsold.copies copy (List.mem_of_getElem? (lookup_some hlookup).1)
  have hsale : ((soldTasks cfg as).map fun req => (req.usingGroup, taskQuota cfg req))[copy.id]? =
      some e.sale := by
    rw [← hsold.sales, List.getElem?_map, hentry]
    rfl
  rw [List.getElem?_map, Option.map_eq_some_iff] at hsale
  obtain ⟨req, hreq, hreqSale⟩ := hsale
  obtain ⟨hgroup, hcharged⟩ := Prod.mk.inj hreqSale
  exact ⟨req, e, hreq, hentry, hsame.trans hgroup.symm, hcharged.symm⟩

end

end TaskState

open TaskState

/-- Every token-priced task that is polled in a run has been charged at the ratio of the user's
group and the using group, is settled at that of a group with itself, and the two are the same
exactly when the special ratios meet. -/
theorem settled_at_sold_rate_iff {F : Type} [Float64 F] {cfg : TaskSettings F} {db : DB}
    {as : List (TaskAction F)} {s' : TaskState}
    (hrun : (taskSystem cfg).run (start db) as = some s') {platform taskId : String} {i : ℕ}
    {copy : Copy Task} (hlookup : s'.lookup platform taskId = some (i, copy)) (resp : VideoResponse)
    {quota : ℤ} (hsuccess : resp.info.status = TaskStatusSuccess)
    (hpriced : actualQuota cfg (Task.succeed { copy.row with data := resp.data } resp.info resp.now)
      resp.info resp.userGroup = some quota) (ok : Bool) :
    ∃ req e modelName, (soldTasks cfg as)[copy.id]? = some req ∧
      s'.tasks.entries[copy.id]? = some e ∧
      e.bill.charged = quotaAtRate cfg req (finalGroupRatio cfg req.userGroup req.usingGroup) ∧
      (updateVideoSingleTask cfg copy.row resp ok).row.quota =
        Float64.toInt (Float64.ofInt resp.info.totalTokens * (cfg.modelRatio modelName).1 *
          finalGroupRatio cfg (settledGroup copy.row resp.userGroup)
            (settledGroup copy.row resp.userGroup)) ∧
      (finalGroupRatio cfg (settledGroup copy.row resp.userGroup)
            (settledGroup copy.row resp.userGroup) =
          finalGroupRatio cfg req.userGroup req.usingGroup ↔
        RatesMeet cfg req.userGroup req.usingGroup
          (if req.usingGroup = "" then resp.userGroup.getD "" else req.usingGroup)) := by
  obtain ⟨req, e, hreq, hentry, hgroup, hcharged⟩ := sold_of_lookup hrun hlookup
  obtain ⟨modelName, -, hquota⟩ := actualQuota_some cfg hpriced
  refine ⟨req, e, modelName, hreq, hentry, ?_, ?_, ?_⟩
  · rw [hcharged, taskQuota_eq]
  · rw [updateVideoSingleTask_settles cfg hsuccess hpriced ok]
    exact hquota
  · rw [finalGroupRatio_eq_iff]
    unfold settledGroup
    rw [hgroup]

/-- A video task of the user's own group is submitted and selected. -/
def selectedTaskRun (userGroup : String) : List (TaskAction Decimal) :=
  [.submit { sampleTaskSubmit "24" "clip" with userGroup := userGroup }, .selectTasks]

theorem settled_at_sold_rate_own_group :
    ∃ s' i copy, (taskSystem sampleTaskSettings).run (start sampleDB) (selectedTaskRun "default") =
        some s' ∧ s'.lookup "24" "clip" = some (i, copy) ∧
      ∃ req, (soldTasks sampleTaskSettings (selectedTaskRun "default"))[copy.id]? = some req ∧
        finalGroupRatio sampleTaskSettings (settledGroup copy.row none)
            (settledGroup copy.row none) =
          finalGroupRatio sampleTaskSettings req.userGroup req.usingGroup := by
  refine ⟨_, _, _, rfl, rfl, ?_⟩
  have hrun : (taskSystem sampleTaskSettings).run (start sampleDB) (selectedTaskRun "default") =
      some _ := rfl
  obtain ⟨req, e, modelName, hreq, -, -, -, hiff⟩ :=
    settled_at_sold_rate_iff hrun (show TaskState.lookup _ "24" "clip" = some _ from rfl)
      sampleVideoSuccess rfl rfl true
  refine ⟨req, hreq, hiff.2 ?_⟩
  obtain rfl := Option.some.inj hreq
  exact (ratesMeet_iff _ _).2 (.inl rfl)

/-- Users of one group pay twice the price in another. -/
def specialTaskSettings : TaskSettings Decimal :=
  { sampleTaskSettings with
    groupGroupRatio := fun userGroup usingGroup =>
      if userGroup = "vip" ∧ usingGroup = "default" then some (Decimal.ofInt 2) else none }

/-- The task is sold at the ratio 2 and settled at 1. -/
theorem special_rate_lost :
    ¬ ∀ (cfg : TaskSettings Decimal) (db : DB) (as : List (TaskAction Decimal)) (s' : TaskState)
      (platform taskId : String) (i : ℕ) (copy : Copy Task) (resp : VideoResponse) (quota : ℤ)
      (req : TaskSubmit Decimal),
        (taskSystem cfg).run (start db) as = some s' → s'.lookup platform taskId = some (i, copy) →
          resp.info.status = TaskStatusSuccess →
          actualQuota cfg (Task.succeed { copy.row with data := resp.data } resp.info resp.now)
            resp.info resp.userGroup = some quota →
          (soldTasks cfg as)[copy.id]? = some req →
            finalGroupRatio cfg (settledGroup copy.row resp.userGroup)
                (settledGroup copy.row resp.userGroup) =
              finalGroupRatio cfg req.userGroup req.usingGroup := by
  intro hclaim
  have hsame := hclaim specialTaskSettings sampleDB (selectedTaskRun "vip") _ "24" "clip" _ _
    sampleVideoSuccess _ _ rfl rfl rfl rfl rfl
  exact absurd hsame (by decide)

end NewApi.Model
