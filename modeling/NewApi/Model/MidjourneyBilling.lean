import NewApi.Model.MidjourneyLedger

/-!
# Refunds of Midjourney tasks

A row is refunded at most what it was charged, and exactly that if it fails, in every run in
which a row that can be polled was charged the price it stores, and in which no other path
than the poller fails a row that was charged or takes a finished row back.
-/

namespace NewApi.Model

open NewApi.Lib

/-- What the bill of a row says when refunds match charges. -/
structure MidjourneyRefunded (e : Billed Midjourney) : Prop where
  bounded : e.bill.refunds.sum ≤ e.bill.charged
  failed : e.row.failed = true → e.bill.refunds = e.bill.refundDue

/-- A row that the poller may still select has not been refunded, and has been charged its
quota if it has an upstream id. -/
structure FairMidjourney (e : Billed Midjourney) : Prop where
  nonneg : 0 ≤ e.bill.charged
  refundedOnce : e.bill.refunds = [] ∨ e.bill.refunds = e.bill.refundDue
  failed : e.row.failed = true → e.bill.refunds = e.bill.refundDue
  free : e.row.quota = 0 → e.bill.charged = 0
  unrefunded : e.row.unfinished = true → e.bill.refunds = []
  charged : e.row.unfinished = true → e.row.mjId ≠ "" → e.row.quota = e.bill.charged
  uncharged : e.row.unfinished = true → e.row.mjId = "" → e.bill.charged = 0

/-- The same of a copy, whatever its row says. -/
structure FairMidjourneyCopy (row : Midjourney) (e : Billed Midjourney) : Prop where
  free : row.quota = 0 → e.bill.charged = 0
  unrefunded : row.unfinished = true → e.bill.refunds = []
  charged : row.unfinished = true → row.mjId ≠ "" → row.quota = e.bill.charged
  uncharged : row.mjId = "" → e.bill.charged = 0

theorem Midjourney.finished_of_progress {task : Midjourney} (hprogress : task.progress = "100%") :
    task.unfinished = false := by
  simp [Midjourney.unfinished, hprogress]

theorem Midjourney.unfinished_of_progress {task : Midjourney} (hprogress : task.progress ≠ "100%") :
    task.unfinished = true := by
  simp [Midjourney.unfinished, hprogress]

namespace FairMidjourney

variable {e : Billed Midjourney}

theorem refunded (hfair : FairMidjourney e) : MidjourneyRefunded e := by
  refine ⟨?_, hfair.failed⟩
  rcases hfair.refundedOnce with hnone | hdue
  · rw [hnone]
    exact hfair.nonneg
  · by_cases hfree : e.bill.charged = 0
    · rw [hdue, Bill.refundDue_of_free hfree]
      exact hfair.nonneg
    · have hsum : e.bill.refunds.sum = e.bill.charged := by
        rw [hdue, Bill.refundDue_of_charged hfree, List.sum_singleton]
      exact Int.le_of_eq hsum

/-- A row that was charged nothing is due nothing. -/
theorem due_of_free (hfair : FairMidjourney e) (hfree : e.bill.charged = 0) :
    e.bill.refunds = e.bill.refundDue := by
  rcases hfair.refundedOnce with hnone | hdue
  · rw [hnone, Bill.refundDue_of_free hfree]
  · exact hdue

/-- A finished row may be written if it stands as failed only with its refund. -/
theorem finish {row : Midjourney} (hfair : FairMidjourney e)
    (hfree : row.quota = 0 → e.bill.charged = 0) (hfinished : row.unfinished = false)
    (hfailed : row.failed = true → e.bill.refunds = e.bill.refundDue) :
    FairMidjourney { e with row := row } where
  nonneg := hfair.nonneg
  refundedOnce := hfair.refundedOnce
  failed := hfailed
  free := hfree
  unrefunded := fun hopen => absurd (hfinished.symm.trans hopen) Bool.false_ne_true
  charged := fun hopen => absurd (hfinished.symm.trans hopen) Bool.false_ne_true
  uncharged := fun hopen => absurd (hfinished.symm.trans hopen) Bool.false_ne_true

end FairMidjourney

/-- What polling comes to: no movement, and then only a free row is saved as failed; or the
refund together with a saved row at 100%. -/
inductive MidjourneyOutcome (task : Midjourney) (result : PollResult Midjourney) : Prop
  | still (hmovement : result.movement = none)
      (hfailed : result.saved = true → result.row.failed = true → task.quota = 0)
  | refunded (hmovement : result.movement = some (.refund task.userId task.quota))
      (hquota : task.quota ≠ 0) (hsaved : result.saved = true)
      (hprogress : result.row.progress = "100%")

section

variable {F : Type} (cfg : MidjourneySettings F)

theorem updateMidjourneyTask_same (task : Midjourney) (item : MidjourneyDto) (now : ℤ) (ok : Bool) :
    (updateMidjourneyTask cfg task item now ok).row.mjId = task.mjId ∧
      (updateMidjourneyTask cfg task item now ok).row.quota = task.quota := by
  rw [updateMidjourneyTask]
  split_ifs <;> exact ⟨rfl, rfl⟩

theorem MidjourneyDto.fails_of_failed {item : MidjourneyDto} {task : Midjourney}
    (hfailed : (task.polled cfg item).failed = true) : item.fails = true := by
  have hboth : item.progress = "100%" ∧ item.status = "FAILURE" := by
    simpa [Midjourney.failed, Midjourney.polled, Midjourney.overwrite] using hfailed
  simp [MidjourneyDto.fails, hboth.1, hboth.2]

theorem Midjourney.assigned_progress {item : MidjourneyDto} (hfails : item.fails = true)
    (task : Midjourney) : (task.assigned cfg item).progress = "100%" :=
  if_pos hfails

theorem Midjourney.assigned_of_not_fails {item : MidjourneyDto} (hgoes : ¬ item.fails = true)
    (task : Midjourney) : task.assigned cfg item = task.polled cfg item := by
  rw [Midjourney.assigned, if_neg hgoes]

theorem updateMidjourneyTask_outcome (task : Midjourney) (item : MidjourneyDto)
    (now : ℤ) (ok : Bool) :
    MidjourneyOutcome task (updateMidjourneyTask cfg task item now ok) := by
  rw [updateMidjourneyTask]
  by_cases hskip : (!checkMjTaskNeedUpdate cfg task (item.orTimeout task now)) = true
  · rw [if_pos hskip]
    exact .still rfl fun hsaved => absurd hsaved Bool.false_ne_true
  · rw [if_neg hskip]
    by_cases hrefund : (item.orTimeout task now).fails = true ∧ task.quota ≠ 0 ∧ ok = true
    · exact .refunded (if_pos hrefund) hrefund.2.1 hrefund.2.2
        (Midjourney.assigned_progress cfg hrefund.1 task)
    · refine .still (if_neg hrefund) fun hsaved hfailed => ?_
      by_contra hquota
      refine hrefund ⟨?_, hquota, hsaved⟩
      by_contra hstays
      dsimp only at hfailed
      rw [Midjourney.assigned_of_not_fails cfg hstays] at hfailed
      exact hstays (MidjourneyDto.fails_of_failed cfg hfailed)

/-- A report that a finished task is at 100% and has not failed moves nothing. -/
theorem updateMidjourneyTask_finished {task : Midjourney} {item : MidjourneyDto}
    (now : ℤ) (ok : Bool)
    (htask : task.unfinished = false)
    (hitem : checkMjTaskNeedUpdate cfg task (item.orTimeout task now) = true →
      item.progress = "100%" ∧ item.status ≠ "FAILURE") :
    (updateMidjourneyTask cfg task item now ok).movement = none ∧
      (updateMidjourneyTask cfg task item now ok).row.unfinished = false ∧
      ((updateMidjourneyTask cfg task item now ok).saved = true →
        (updateMidjourneyTask cfg task item now ok).row.failed = false) := by
  have hprogress : task.progress = "100%" := by
    by_contra hopen
    rw [Midjourney.unfinished_of_progress hopen] at htask
    exact absurd htask.symm Bool.false_ne_true
  have htimeout : item.orTimeout task now = item :=
    if_neg fun htimeout => htimeout.2 hprogress
  rw [htimeout] at hitem
  rw [updateMidjourneyTask, htimeout]
  by_cases hskip : (!checkMjTaskNeedUpdate cfg task item) = true
  · rw [if_pos hskip]
    exact ⟨rfl, htask, fun hsaved => absurd hsaved Bool.false_ne_true⟩
  · obtain ⟨hdone, hstatus⟩ := hitem (by simpa using hskip)
    have hgoes : ¬ item.fails = true := by simp [MidjourneyDto.fails, hdone, hstatus]
    rw [if_neg hskip, Midjourney.assigned_of_not_fails cfg hgoes]
    refine ⟨if_neg fun hrefund => hgoes hrefund.1, Midjourney.finished_of_progress hdone,
      fun _ => ?_⟩
    simp [Midjourney.failed, Midjourney.polled, Midjourney.overwrite, hstatus]

end

/-- The bill takes at most one refund, because it is only made while there is none. -/
theorem MidjourneyOutcome.fair {task : Midjourney} {result : PollResult Midjourney}
    {e : Billed Midjourney} (houtcome : MidjourneyOutcome task result) (hfair : FairMidjourney e)
    (hcopy : FairMidjourneyCopy task e) (hopen : task.unfinished = true) (hid : task.mjId ≠ "")
    (hsame : result.row.mjId = task.mjId ∧ result.row.quota = task.quota) (db : DB) :
    FairMidjourney (result.entry db e) ∧ FairMidjourneyCopy result.row (result.entry db e) := by
  have hnone := hcopy.unrefunded hopen
  have hquota := hcopy.charged hopen hid
  have hcharged := result.entry_charged db e
  have hnonneg : 0 ≤ (result.entry db e).bill.charged := by
    rw [hcharged]
    exact hfair.nonneg
  have hrecorded : result.row.quota = (result.entry db e).bill.charged := by
    rw [hcharged, hsame.2, hquota]
  have hnamed : result.row.mjId ≠ "" := by
    rw [hsame.1]
    exact hid
  cases houtcome with
  | still hmovement hfailed =>
      have hbill := result.entry_still hmovement db e
      have hstill : (result.entry db e).bill.refunds = [] := by
        rw [hbill]
        exact hnone
      refine ⟨?_, ⟨fun hfree => hrecorded.symm.trans hfree, fun _ => hstill, fun _ _ => hrecorded,
        fun hempty => absurd hempty hnamed⟩⟩
      cases hsaved : result.saved with
      | false =>
          rw [result.entry_same hmovement hsaved]
          exact hfair
      | true =>
          have hrow := result.entry_saved hsaved db e
          refine ⟨hnonneg, .inl hstill, fun hrowFailed => ?_, ?_, fun _ => hstill, ?_, ?_⟩
          · have hfree : (result.entry db e).bill.charged = 0 := by
              rw [hcharged, ← hquota]
              exact hfailed hsaved (hrow ▸ hrowFailed)
            rw [hstill, Bill.refundDue_of_free hfree]
          · rw [hrow]
            exact fun hfree => hrecorded.symm.trans hfree
          · rw [hrow]
            exact fun _ _ => hrecorded
          · rw [hrow]
            exact fun _ hempty => absurd hempty hnamed
  | refunded hmovement hpaid hsaved hprogress =>
      have hrow := result.entry_saved hsaved db e
      have hfinished := Midjourney.finished_of_progress hprogress
      have hamount : 0 ≤ task.quota := by
        rw [hquota]
        exact hfair.nonneg
      have hbill := PollResult.entry_moved hmovement (Movement.run_refund _ hamount db) e
      have hrefunds : (result.entry db e).bill.refunds = (result.entry db e).bill.refundDue := by
        rw [Bill.refundDue_of_charged (by rw [hcharged, ← hquota]; exact hpaid), hcharged, hbill]
        show e.bill.refunds ++ [task.quota] = [e.bill.charged]
        rw [hnone, hquota]
        rfl
      have hclosed : (result.entry db e).row.unfinished = false := by
        rw [hrow]
        exact hfinished
      refine ⟨⟨hnonneg, .inr hrefunds, fun _ => hrefunds, ?_, ?_, ?_, ?_⟩, ⟨?_, ?_, ?_, ?_⟩⟩
      · rw [hrow]
        exact fun hfree => hrecorded.symm.trans hfree
      · exact fun hopen => absurd (hclosed.symm.trans hopen) Bool.false_ne_true
      · exact fun hopen => absurd (hclosed.symm.trans hopen) Bool.false_ne_true
      · exact fun hopen => absurd (hclosed.symm.trans hopen) Bool.false_ne_true
      · exact fun hfree => hrecorded.symm.trans hfree
      · exact fun hopen => absurd (hfinished.symm.trans hopen) Bool.false_ne_true
      · exact fun hopen => absurd (hfinished.symm.trans hopen) Bool.false_ne_true
      · exact fun hempty => absurd hempty hnamed

/-- A notification may write a row if it does not take a finished row back, and leaves a row
failed only if it was failed before, was free, or was never accepted upstream. -/
def Midjourney.MayNotify (old new : Midjourney) : Prop :=
  (new.unfinished = true → old.unfinished = true) ∧
    (new.failed = true →
      old.failed = true ∨ old.quota = 0 ∨ (old.unfinished = true ∧ old.mjId = ""))

instance (old new : Midjourney) : Decidable (old.MayNotify new) :=
  inferInstanceAs (Decidable (_ ∧ _))

/-- The price is not negative, and a row that can be polled is charged if it has an upstream
id and only then, unless it is free. -/
def Midjourney.Priced (row : Midjourney) (charged : Bool) : Prop :=
  0 ≤ row.quota ∧
    (row.unfinished = true → row.quota = 0 ∨ (charged = true ↔ row.mjId ≠ ""))

instance (row : Midjourney) (charged : Bool) : Decidable (row.Priced charged) :=
  inferInstanceAs (Decidable (_ ∧ _))

/-- A row is not inserted as failed: it is only put to 100% as a success. -/
theorem submittedMidjourney_not_failed (req : MidjourneySubmit) (resp : MidjourneyResponse)
    (quota : ℤ) : (submittedMidjourney req resp quota).failed = false := by
  have hopen : ∀ task : Midjourney, task.progress = "0%" → task.failed = false := by
    intro task hprogress
    simp [Midjourney.failed, hprogress]
  have hsuccess : ∀ task : Midjourney, task.status = "SUCCESS" → task.failed = false := by
    intro task hstatus
    simp [Midjourney.failed, hstatus]
  have hfilled : ∀ task : Midjourney, task.progress = "0%" →
      (task.fillPresent resp req.now).failed = false := by
    intro task hprogress
    rw [Midjourney.fillPresent]
    split
    case h_1 hnone => exact hopen task hprogress
    case h_2 imageUrl status hpresent =>
      split
      case isTrue hstatus => exact hsuccess _ hstatus
      case isFalse hother => exact hopen _ hprogress
  rw [submittedMidjourney]
  split_ifs
  · exact hsuccess _ rfl
  · exact hsuccess _ rfl
  · exact hfilled _ rfl
  · exact hfilled _ rfl

/-- A new row. -/
theorem FairMidjourney.submitted {row : Midjourney} {charged : Bool} (payer : Payer)
    (hpriced : row.Priced charged) (hnew : row.failed = false) :
    FairMidjourney
      { row := row, bill := .submitted payer (if charged then row.quota else 0) } := by
  have hfree : row.quota = 0 → (if charged then row.quota else 0) = 0 := by
    intro hfree
    rw [hfree, ite_self]
  refine ⟨?_, .inl rfl, ?_, hfree, fun _ => rfl, ?_, ?_⟩
  · show (0 : ℤ) ≤ if charged then row.quota else 0
    split
    case isTrue hcharged => exact hpriced.1
    case isFalse huncharged => exact Int.le_refl 0
  · exact fun hfailed => absurd (hnew.symm.trans hfailed) Bool.false_ne_true
  · intro hopen hid
    show row.quota = if charged then row.quota else 0
    rcases hpriced.2 hopen with hquota | hiff
    · rw [hquota, ite_self]
    · rw [if_pos (hiff.2 hid)]
  · intro hopen hid
    show (if charged then row.quota else 0) = 0
    rcases hpriced.2 hopen with hquota | hiff
    · exact hfree hquota
    · exact if_neg fun hcharged => hiff.1 hcharged hid

/-- A notification of a row. -/
theorem FairMidjourney.write {row : Midjourney} {e : Billed Midjourney} (hfair : FairMidjourney e)
    (hid : row.mjId = e.row.mjId) (hquota : row.quota = e.row.quota)
    (hwrite : e.row.MayNotify row) : FairMidjourney { e with row := row } := by
  have hfree : row.quota = 0 → e.bill.charged = 0 := by
    rw [hquota]
    exact hfair.free
  have hfailed : row.failed = true → e.bill.refunds = e.bill.refundDue := by
    intro hfailed
    rcases hwrite.2 hfailed with hold | hzero | ⟨hopen, hempty⟩
    · exact hfair.failed hold
    · exact hfair.due_of_free (hfair.free hzero)
    · exact hfair.due_of_free (hfair.uncharged hopen hempty)
  refine ⟨hfair.nonneg, hfair.refundedOnce, hfailed, hfree, fun hopen => ?_, fun hopen hnamed => ?_,
    fun hopen hempty => ?_⟩
  · exact hfair.unrefunded (hwrite.1 hopen)
  · show row.quota = e.bill.charged
    rw [hquota]
    exact hfair.charged (hwrite.1 hopen) (hid ▸ hnamed)
  · exact hfair.uncharged (hwrite.1 hopen) (hid ▸ hempty)

namespace MidjourneyState

section

variable {F : Type} [Float64 F]

/-- The step keeps refunds and charges together: a row that can be polled is charged its
price; notifications and the bulk update of a lost channel fail only rows that need no refund,
and take no finished row back; a report that changes a task meets an unfinished copy, unless
it says that the task is at 100% and has not failed. -/
def RefundsCharges (cfg : MidjourneySettings F) (s : MidjourneyState) : MidjourneyAction → Prop
  | .submit req =>
      match req.response with
      | none => True
      | some resp =>
          req.affords req.consumesQuota (modelPriceHelperPerCall cfg req) = true →
            req.inserted = true →
              (submittedMidjourney req resp (modelPriceHelperPerCall cfg req)).Priced
                (req.consumesQuota && resp.accepted && resp.statusCode = 200)
  | .swapFace req =>
      match req.response with
      | none => True
      | some resp =>
          req.affords true (modelPriceHelperPerCall cfg req) = true → req.inserted = true →
            (newMidjourney req resp (modelPriceHelperPerCall cfg req)).Priced
              (resp.statusCode = 200 && resp.code = 1)
  | .notify item ok =>
      ok = true →
        match (s.midjourneys.selectWhere fun task => task.mjId = item.mjId).head? with
        | none => True
        | some copy => copy.row.MayNotify (copy.row.notified cfg item)
  | .failChannelMidjourneys channelId ok =>
      ok = true → ∀ e ∈ s.midjourneys.entries,
        (s.channelTaskIds channelId).contains e.row.mjId = true →
          e.row.failed = true ∨ e.row.quota = 0
  | .pollItem item now _ =>
      match s.lookup item.mjId with
      | none => True
      | some (_, copy) =>
          checkMjTaskNeedUpdate cfg copy.row (item.orTimeout copy.row now) = true →
            copy.row.unfinished = true ∨ (item.progress = "100%" ∧ item.status ≠ "FAILURE")
  | _ => True

instance (cfg : MidjourneySettings F) (s : MidjourneyState) :
    DecidablePred (s.RefundsCharges cfg) := fun a => by
  unfold RefundsCharges
  split
  · split <;> infer_instance
  · split <;> infer_instance
  · split <;> infer_instance
  · infer_instance
  · split <;> infer_instance
  · infer_instance

end

/-- The invariant of the table. -/
structure Fair (s : MidjourneyState) : Prop where
  midjourneys : Table.Sound FairMidjourney FairMidjourneyCopy s.midjourneys

theorem fair_start (db : DB) : Fair (start db) :=
  ⟨Table.Sound.empty⟩

/-- A submission inserts a row that is charged its price, or none. -/
theorem Fair.record {s : MidjourneyState} (hfair : Fair s) {req : MidjourneySubmit}
    {row : Option Midjourney} {quota : ℤ} {charged : Bool}
    (hrow : ∀ task ∈ row, task.quota = quota ∧ task.failed = false ∧ task.Priced charged) :
    Fair (s.record req row quota charged) := by
  cases row with
  | none => cases charged <;> exact ⟨hfair.midjourneys⟩
  | some task =>
      obtain ⟨rfl, hnew, hpriced⟩ := hrow task rfl
      have hbilled := FairMidjourney.submitted req.payer hpriced hnew
      cases charged <;> exact ⟨hfair.midjourneys.insert hbilled⟩

/-- Rows are rewritten in place. -/
theorem Fair.updateWhere {s : MidjourneyState} {p : ℕ → Midjourney → Bool}
    {f : Midjourney → Midjourney} (hfair : Fair s)
    (hrow : ∀ id e, s.midjourneys.entries[id]? = some e → p id e.row = true → FairMidjourney e →
      FairMidjourney { e with row := f e.row }) :
    Fair { s with midjourneys := s.midjourneys.updateWhere p f } :=
  ⟨hfair.midjourneys.updateWhere hrow fun _ _ _ _ _ hcopy =>
    ⟨hcopy.free, hcopy.unrefunded, hcopy.charged, hcopy.uncharged⟩⟩

theorem Fair.poll {s : MidjourneyState} {i : ℕ} {copy : Copy Midjourney}
    {result : PollResult Midjourney} (hfair : Fair s)
    (hcopy : s.midjourneys.copies[i]? = some copy)
    (hresult : ∀ e, FairMidjourney e → FairMidjourneyCopy copy.row e →
      FairMidjourney (result.entry s.db e) ∧
        FairMidjourneyCopy result.row (result.entry s.db e)) :
    Fair (s.poll i copy result) := by
  obtain ⟨e, hentry, hold⟩ := hfair.midjourneys.copies copy (List.mem_of_getElem? hcopy)
  obtain ⟨hrow, hnew⟩ :=
    hresult e (hfair.midjourneys.entries e (List.mem_of_getElem? hentry)) hold
  exact ⟨hfair.midjourneys.poll hcopy hentry hrow hnew⟩

section

variable {F : Type} [Float64 F] {cfg : MidjourneySettings F} {s s' : MidjourneyState}

theorem submittedMidjourney_quota (req : MidjourneySubmit) (resp : MidjourneyResponse)
    (quota : ℤ) : (submittedMidjourney req resp quota).quota = quota := by
  have hfilled : ∀ task : Midjourney, (task.fillPresent resp req.now).quota = task.quota := by
    intro task
    rw [Midjourney.fillPresent]
    cases resp.present with
    | none => rfl
    | some properties =>
        dsimp only
        split <;> rfl
  rw [submittedMidjourney]
  split_ifs <;> exact hfilled _

theorem Fair.submit (hfair : Fair s) {req : MidjourneySubmit}
    (hcond : s.RefundsCharges cfg (.submit req)) : Fair (s.submit cfg req) := by
  rw [RefundsCharges] at hcond
  rw [MidjourneyState.submit]
  cases hresponse : req.response with
  | none => exact hfair
  | some resp =>
      rw [hresponse] at hcond
      dsimp only at hcond ⊢
      split_ifs with hafford hpanic hinserted
      · exact hfair
      · exact hfair.record (by simp)
      · refine hfair.record ?_
        rintro task ⟨⟩
        exact ⟨submittedMidjourney_quota req resp _, submittedMidjourney_not_failed req resp _,
          hcond (by simpa using hafford) hinserted⟩
      · exact hfair.record (by simp)

theorem Fair.swapFace (hfair : Fair s) {req : MidjourneySubmit}
    (hcond : s.RefundsCharges cfg (.swapFace req)) : Fair (s.swapFace cfg req) := by
  rw [RefundsCharges] at hcond
  rw [MidjourneyState.swapFace]
  cases hresponse : req.response with
  | none => exact hfair
  | some resp =>
      rw [hresponse] at hcond
      dsimp only at hcond ⊢
      split_ifs with hafford hinserted
      · exact hfair
      · refine hfair.record ?_
        rintro task ⟨⟩
        exact ⟨rfl, rfl, hcond (by simpa using hafford) hinserted⟩
      · exact hfair.record (by simp)

theorem Fair.notify (hfair : Fair s) {item : MidjourneyDto}
    (hcond : s.RefundsCharges cfg (.notify item true)) : Fair (s.notify cfg item) := by
  have hwrite := hcond rfl
  rw [MidjourneyState.notify]
  cases hfirst : (s.midjourneys.selectWhere fun task => task.mjId = item.mjId).head? with
  | none => exact hfair
  | some copy =>
      rw [hfirst] at hwrite
      obtain ⟨e, hentry, hrow, -⟩ := Table.mem_selectWhere (List.mem_of_mem_head? hfirst)
      refine hfair.updateWhere fun id e' hentry' hid hold => ?_
      obtain rfl : id = copy.id := by simpa using hid
      obtain rfl : e = e' := Option.some.inj (hentry.symm.trans hentry')
      change copy.row.MayNotify (copy.row.notified cfg item) at hwrite
      rw [hrow] at hwrite ⊢
      exact hold.write rfl rfl hwrite

/-- The rows without an upstream id that the poller fails were never charged. -/
theorem Fair.failNull (hfair : Fair s) : Fair s.failNullMidjourneys := by
  refine hfair.updateWhere fun id e hentry hid hold => ?_
  obtain ⟨copy, hcopy, rfl⟩ := List.mem_map.mp (List.contains_iff_mem.mp hid)
  obtain ⟨hmem, hempty⟩ := List.mem_filter.mp hcopy
  obtain ⟨e', hentry', hbacked⟩ := hfair.midjourneys.copies copy hmem
  obtain rfl : e' = e := Option.some.inj (hentry'.symm.trans hentry)
  have huncharged : e'.bill.charged = 0 := hbacked.uncharged (by simpa using hempty)
  exact hold.finish (fun _ => huncharged) (Midjourney.finished_of_progress rfl) fun _ =>
    hold.due_of_free huncharged

theorem Fair.failChannel (hfair : Fair s) {channelId : ℕ}
    (hcond : s.RefundsCharges cfg (.failChannelMidjourneys channelId true)) :
    Fair (s.failChannelMidjourneys channelId) := by
  refine hfair.updateWhere fun id e hentry hp hold => ?_
  refine hold.finish hold.free (Midjourney.finished_of_progress rfl) fun _ => ?_
  rcases hcond rfl e (List.mem_of_getElem? hentry) hp with hfailed | hfree
  · exact hold.failed hfailed
  · exact hold.due_of_free (hold.free hfree)

theorem Fair.pollItem (hfair : Fair s) {item : MidjourneyDto} {now : ℤ} {ok : Bool}
    (hcond : s.RefundsCharges cfg (.pollItem item now ok)) : Fair (s.pollItem cfg item now ok) := by
  rw [RefundsCharges] at hcond
  rw [MidjourneyState.pollItem]
  cases hlookup : s.lookup item.mjId with
  | none => exact ⟨hfair.midjourneys.drop⟩
  | some found =>
      obtain ⟨i, copy⟩ := found
      obtain ⟨hcopy, hid⟩ := lookup_some hlookup
      rw [hlookup] at hcond
      have hsame := updateMidjourneyTask_same cfg copy.row item now ok
      refine hfair.poll hcopy fun e hrow hold => ?_
      by_cases hopen : copy.row.unfinished = true
      · exact (updateMidjourneyTask_outcome cfg copy.row item now ok).fair hrow hold hopen hid hsame
          s.db
      · -- the task was finished by an earlier report of this round
        have hclosed : copy.row.unfinished = false := by simpa using hopen
        obtain ⟨hmovement, hfinished, hgoes⟩ :=
          updateMidjourneyTask_finished cfg now ok hclosed fun hneed =>
            (hcond hneed).resolve_left hopen
        refine ⟨?_, ⟨?_, ?_, ?_, ?_⟩⟩
        · cases hsaved : (updateMidjourneyTask cfg copy.row item now ok).saved with
          | false =>
              rw [PollResult.entry_same hmovement hsaved]
              exact hrow
          | true =>
              rw [PollResult.entry_written hmovement hsaved]
              refine hrow.finish (fun hfree => hold.free (hsame.2.symm.trans hfree)) hfinished ?_
              exact fun hfailed => absurd ((hgoes hsaved).symm.trans hfailed) Bool.false_ne_true
        · rw [PollResult.entry_charged]
          exact fun hfree => hold.free (hsame.2.symm.trans hfree)
        · exact fun hopen => absurd (hfinished.symm.trans hopen) Bool.false_ne_true
        · exact fun hopen => absurd (hfinished.symm.trans hopen) Bool.false_ne_true
        · exact fun hempty => absurd (hsame.1.symm.trans hempty) hid

/-- A step on the conditioned paths keeps the invariant. -/
theorem step_fair {a : MidjourneyAction} (hstep : step cfg s a = some s')
    (hcond : s.RefundsCharges cfg a) (hfair : Fair s) : Fair s' := by
  cases step_effect hstep with
  | submit req => exact hfair.submit hcond
  | swapFace req => exact hfair.swapFace hcond
  | notify item => exact hfair.notify hcond
  | selectMidjourneys =>
      refine ⟨hfair.midjourneys.select (List.Sublist.refl _) fun e _ hopen hrow => ?_⟩
      exact ⟨hrow.free, hrow.unrefunded, hrow.charged, hrow.uncharged hopen⟩
  | failNullMidjourneys => exact hfair.failNull
  | failChannelMidjourneys channelId => exact hfair.failChannel hcond
  | idle a => exact hfair
  | pollItem item now ok => exact hfair.pollItem hcond

end

end MidjourneyState

open MidjourneyState

/-- In a run on the conditioned paths the quota columns have moved by what is on the bills, no
row is refunded more than it was charged, and a failed one is refunded exactly that. -/
theorem midjourney_refunds_match_charges {F : Type} [Float64 F]
    {cfg : MidjourneySettings F} {db : DB}
    {as : List MidjourneyAction} {s' : MidjourneyState}
    (hpaths : (midjourneySystem cfg).Along (RefundsCharges cfg) (start db) as)
    (hrun : (midjourneySystem cfg).run (start db) as = some s') :
    Booked db s'.db [] s'.bills ∧ ∀ e ∈ s'.midjourneys.entries, MidjourneyRefunded e := by
  have hfair : Fair s' :=
    System.invariant_run (I := Fair) (fun hstep hcond hfair => step_fair hstep hcond hfair)
      (fair_start db) hpaths hrun
  exact ⟨(midjourneys_booked hrun).2, fun e he => (hfair.midjourneys.entries e he).refunded⟩

/-- Every submission costs 10. -/
def sampleMidjourneySettings : MidjourneySettings Decimal where
  quotaPerUnit := Decimal.ofInt 100
  modelPrice := fun _ => none
  defaultModelPrice := fun _ => none
  groupRatio := fun _ => Decimal.ofInt 1
  groupGroupRatio := fun _ _ => none
  marshalVideoUrls := fun _ => "[]"

def sampleMidjourneySubmit (action : String) (code : ℤ) (result : String) : MidjourneySubmit where
  payer := { userId := 7, tokenId := 3, isPlayground := false }
  action := action
  modelName := "mj_imagine"
  usingGroup := "default"
  userGroup := "default"
  channelId := 2
  infoChannelId := 2
  userQuota := some 100
  response := some ⟨200, code, "", none, result⟩
  channelFound := true
  inserted := true
  now := 1000

def sampleMidjourneyDto (progress status : String) : MidjourneyDto where
  mjId := "job"
  promptEn := ""
  state := ""
  submitTime := 1000
  startTime := 1100
  finishTime := 0
  imageUrl := ""
  videoUrl := ""
  videoUrls := none
  status := status
  progress := progress
  failReason := if status = "FAILURE" then "banned" else ""

/-- A job that is charged, notified and then fails, with the report delivered twice, and a
submission that the upstream rejects. -/
def orderlyMidjourneyRun : List MidjourneyAction :=
  [.submit (sampleMidjourneySubmit "IMAGINE" 1 "job"),
    .submit (sampleMidjourneySubmit "IMAGINE" 24 ""), .selectMidjourneys,
    .failNullMidjourneys true, .notify (sampleMidjourneyDto "30%" "IN_PROGRESS") true,
    .pollItem (sampleMidjourneyDto "100%" "FAILURE") 2000 true,
    .pollItem (sampleMidjourneyDto "100%" "FAILURE") 2000 true]

theorem midjourney_refunds_match_charges_orderly :
    ∃ s', (midjourneySystem sampleMidjourneySettings).run (start sampleDB) orderlyMidjourneyRun =
        some s' ∧
      s'.midjourneys.entries.map (fun e => e.bill.refunds) = [[10], []] ∧
      ∀ e ∈ s'.midjourneys.entries, MidjourneyRefunded e := by
  have hpaths : (midjourneySystem sampleMidjourneySettings).Along
      (RefundsCharges sampleMidjourneySettings) (start sampleDB) orderlyMidjourneyRun := by
    decide
  obtain ⟨-, hrefunded⟩ := midjourney_refunds_match_charges hpaths rfl
  exact ⟨_, rfl, by decide, hrefunded⟩

/-- An inpainting, which is not charged, fails upstream. -/
def unpaidMidjourneyRun : List MidjourneyAction :=
  [.submit (sampleMidjourneySubmit MjActionInPaint 1 "job"), .selectMidjourneys,
    .pollItem (sampleMidjourneyDto "100%" "FAILURE") 2000 true]

/-- The poller refunds a task that was never charged. -/
theorem unpaid_inpaint_is_refunded :
    ¬ ∀ (cfg : MidjourneySettings Decimal) (db : DB) (as : List MidjourneyAction)
      (s' : MidjourneyState), (midjourneySystem cfg).run (start db) as = some s' →
      ∀ e ∈ s'.midjourneys.entries, MidjourneyRefunded e := by
  intro hclaim
  have hrefunded := hclaim sampleMidjourneySettings sampleDB unpaidMidjourneyRun _ rfl _
    (List.mem_cons_self ..)
  exact absurd hrefunded.bounded (by decide)

end NewApi.Model
