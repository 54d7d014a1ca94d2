import NewApi.Lib.System
import NewApi.Lib.Pool
import NewApi.Lib.Amounts
import NewApi.Model.Database

/-!
# Batched quota updates

With `BatchUpdateEnabled` a quota movement is not written to the database but recorded in
one of five in-memory stores (`addNewRecord`), and `batchUpdate` writes the stores out.
The stores are guarded by one lock each; the flush statements run outside the locks.  A
record is therefore in a store, in the local copy of a `batchUpdate` call, or in the
database, and the sum of the three is the balance this file follows.
-/

namespace NewApi.Model

open NewApi.Lib

/-- The record types, in the order of their `iota` constants. -/
inductive BatchUpdateType where
  | userQuota
  | tokenQuota
  | usedQuota
  | channelUsedQuota
  | requestCount
deriving DecidableEq, Repr

/-- The types `0, …, BatchUpdateTypeCount - 1` in the order the loops visit them. -/
def BatchUpdateType.all : List BatchUpdateType :=
  [.userQuota, .tokenQuota, .usedQuota, .channelUsedQuota, .requestCount]

/-- The column that the records of a type are added to. -/
def DB.value (db : DB) : BatchUpdateType → ℕ → ℤ
  | .userQuota => db.userQuota
  | .tokenQuota => db.tokenRemainQuota
  | .usedQuota => db.userUsedQuota
  | .channelUsedQuota => db.channelUsedQuota
  | .requestCount => db.userRequestCount

/-- The statement that flushes one entry, by record type. -/
def DB.flushEntry (db : DB) (type_ : BatchUpdateType) (key : ℕ) (value : ℤ) : DB :=
  match type_ with
  | .userQuota => db.increaseUserQuota key value
  | .tokenQuota => db.increaseTokenQuota key value
  | .usedQuota => db.updateUserUsedQuota key value
  | .requestCount => db.updateUserRequestCount key value
  | .channelUsedQuota => db.updateChannelUsedQuota key value

/-- A flush statement adds the value to its own row and column and to nothing else. -/
theorem DB.flushEntry_value (db : DB) (type_ type' : BatchUpdateType) (key id : ℕ) (value : ℤ) :
    (db.flushEntry type_ key value).value type' id =
      db.value type' id + if type' = type_ ∧ id = key then value else 0 := by
  cases type_ <;> cases type' <;> simp [DB.flushEntry, DB.value, bump_apply]

/-- Where a `batchUpdate` call stands: looking for data, about to swap out the next store,
or writing the entries left of the store it swapped out. -/
inductive BatchRun where
  | checking (rest : List BatchUpdateType)
  | swapping (rest : List BatchUpdateType)
  | flushing (type_ : BatchUpdateType) (store : Amounts ℕ) (rest : List BatchUpdateType)
  | returned

/-- The database, the shared stores and the `batchUpdate` calls in progress. -/
structure BatchState where
  db : DB
  batchUpdateStores : BatchUpdateType → Amounts ℕ
  runs : List BatchRun

/-- The atomic actions: a record is added under its lock, a `batchUpdate` call starts, a
call takes its next step, or a call flushes one entry of its store, in the order the map
iteration happens to give. -/
inductive BatchAction where
  | addNewRecord (type_ : BatchUpdateType) (id : ℕ) (value : ℤ)
  | batchUpdate
  | advance (run : ℕ)
  | flush (run : ℕ) (key : ℕ) (ok : Bool)

namespace BatchState

/-- The process starts with empty stores and no call in progress. -/
def start (db : DB) : BatchState where
  db := db
  batchUpdateStores := fun _ => ∅
  runs := []

def addNewRecord (s : BatchState) (type_ : BatchUpdateType) (id : ℕ) (value : ℤ) : BatchState :=
  { s with
    batchUpdateStores :=
      Function.update s.batchUpdateStores type_ (Amounts.add (s.batchUpdateStores type_) id value) }

/-- The next step of a `batchUpdate` call that is not a flush statement. -/
def advance (s : BatchState) (r : ℕ) : BatchRun → Option BatchState
  | .checking [] => some { s with runs := s.runs.set r .returned }
  | .checking (i :: rest) =>
      if 0 < (s.batchUpdateStores i).entries.length then
        some { s with runs := s.runs.set r (.swapping BatchUpdateType.all) }
      else
        some { s with runs := s.runs.set r (.checking rest) }
  | .swapping [] => some { s with runs := s.runs.set r .returned }
  | .swapping (i :: rest) =>
      some
        { s with
          batchUpdateStores := Function.update s.batchUpdateStores i ∅
          runs := s.runs.set r (.flushing i (s.batchUpdateStores i) rest) }
  | .flushing _ store rest =>
      if store.entries.length = 0 then
        some { s with runs := s.runs.set r (.swapping rest) }
      else
        none
  | .returned => none

/-- The flush statement for one entry.  An error is logged and the loop goes on to the next
entry: the entry is gone either way. -/
def flush (s : BatchState) (r : ℕ) (key : ℕ) (ok : Bool) : BatchRun → Option BatchState
  | .flushing type_ store rest => do
      let value ← store.lookup key
      pure
        { s with
          db := if ok then s.db.flushEntry type_ key value else s.db
          runs := s.runs.set r (.flushing type_ (store.erase key) rest) }
  | _ => none

def step (s : BatchState) : BatchAction → Option BatchState
  | .addNewRecord type_ id value => some (s.addNewRecord type_ id value)
  | .batchUpdate => some { s with runs := s.runs ++ [.checking BatchUpdateType.all] }
  | .advance r => do
      let run ← s.runs[r]?
      s.advance r run
  | .flush r key ok => do
      let run ← s.runs[r]?
      s.flush r key ok run

end BatchState

/-- Any number of `addNewRecord` and `batchUpdate` calls, interleaved. -/
def batchUpdater : System BatchState BatchAction where
  step := BatchState.step

namespace BatchState

/-- The amount a call has swapped out and not yet tried to flush. -/
def heldBy (type_ : BatchUpdateType) (id : ℕ) : BatchRun → ℤ
  | .flushing type' store _ => if type_ = type' then Amounts.amount store id else 0
  | _ => 0

/-- The amount still held in memory for a row: in the shared store or in a local copy. -/
def pending (s : BatchState) (type_ : BatchUpdateType) (id : ℕ) : ℤ :=
  Amounts.amount (s.batchUpdateStores type_) id + total (heldBy type_ id) s.runs

/-- The balance of a row: what the database shows plus what is still held in memory. -/
def balance (s : BatchState) (type_ : BatchUpdateType) (id : ℕ) : ℤ :=
  s.db.value type_ id + s.pending type_ id

/-- What an action records for a row. -/
def recorded (type_ : BatchUpdateType) (id : ℕ) (_ : BatchState) : BatchAction → ℤ
  | .addNewRecord type' id' value => if type_ = type' ∧ id = id' then value else 0
  | _ => 0

/-- The entry whose flush statement fails in this action, if any. -/
def failedFlush (s : BatchState) : BatchAction → Option (BatchUpdateType × ℕ × ℤ)
  | .flush r key false =>
      match s.runs[r]? with
      | some (.flushing type_ store _) => (store.lookup key).map fun value => (type_, key, value)
      | _ => none
  | _ => none

/-- What an action loses for a row. -/
def lost (type_ : BatchUpdateType) (id : ℕ) (s : BatchState) (a : BatchAction) : ℤ :=
  match s.failedFlush a with
  | some (type', key, value) => if type_ = type' ∧ id = key then value else 0
  | none => 0

/-- A flush statement that fails carries no amount. -/
def FailsOnlyOnZero (s : BatchState) (a : BatchAction) : Prop :=
  ((s.failedFlush a).map fun entry => entry.2.2).getD 0 = 0

instance (s : BatchState) (a : BatchAction) : Decidable (FailsOnlyOnZero s a) :=
  inferInstanceAs (Decidable (_ = _))

@[simp] theorem heldBy_checking (type_ : BatchUpdateType) (id : ℕ) (rest : List BatchUpdateType) :
    heldBy type_ id (.checking rest) = 0 := rfl

@[simp] theorem heldBy_swapping (type_ : BatchUpdateType) (id : ℕ) (rest : List BatchUpdateType) :
    heldBy type_ id (.swapping rest) = 0 := rfl

@[simp] theorem heldBy_returned (type_ : BatchUpdateType) (id : ℕ) :
    heldBy type_ id .returned = 0 := rfl

theorem heldBy_flushing (type_ type' : BatchUpdateType) (id : ℕ) (store : Amounts ℕ)
    (rest : List BatchUpdateType) :
    heldBy type_ id (.flushing type' store rest) =
      if type_ = type' then Amounts.amount store id else 0 := rfl

/-- A new record moves the balance by its value. -/
theorem addNewRecord_balance (s : BatchState) (type_ type' : BatchUpdateType) (id id' : ℕ)
    (value : ℤ) :
    (s.addNewRecord type' id' value).balance type_ id =
      s.balance type_ id + if type_ = type' ∧ id = id' then value else 0 := by
  by_cases htype : type_ = type'
  · subst htype
    simp only [balance, pending, addNewRecord, Function.update_self, Amounts.amount_add, true_and]
    omega
  · simp [balance, pending, addNewRecord, htype]

/-- The swap moves a store into the local copy, and every other step of a call that is not
a flush leaves all amounts where they are. -/
theorem advance_balance {s s' : BatchState} {r : ℕ} {run : BatchRun}
    (hrun : s.runs[r]? = some run) (hstep : s.advance r run = some s')
    (type_ : BatchUpdateType) (id : ℕ) : s'.balance type_ id = s.balance type_ id := by
  cases run with
  | checking rest =>
      cases rest with
      | nil =>
          obtain rfl : _ = s' := by simpa [advance] using hstep
          simp [balance, pending, Pool.total_set hrun]
      | cons i rest =>
          simp only [advance] at hstep
          split at hstep
          · obtain rfl : _ = s' := by simpa using hstep
            simp [balance, pending, Pool.total_set hrun]
          · obtain rfl : _ = s' := by simpa using hstep
            simp [balance, pending, Pool.total_set hrun]
  | swapping rest =>
      cases rest with
      | nil =>
          obtain rfl : _ = s' := by simpa [advance] using hstep
          simp [balance, pending, Pool.total_set hrun]
      | cons i rest =>
          obtain rfl : _ = s' := by simpa [advance] using hstep
          by_cases htype : type_ = i
          · subst htype
            simp [balance, pending, Pool.total_set hrun, heldBy_flushing]
            omega
          · simp [balance, pending, Pool.total_set hrun, heldBy_flushing, htype]
  | flushing i store rest =>
      simp only [advance] at hstep
      split at hstep
      case isTrue hempty =>
        obtain rfl : _ = s' := by simpa using hstep
        have hstore : store = ∅ := AList.ext (List.eq_nil_of_length_eq_zero hempty)
        simp [balance, pending, Pool.total_set hrun, heldBy_flushing, hstore]
      case isFalse => simp at hstep
  | returned => simp [advance] at hstep

/-- A flush statement moves an entry from the local copy to the database, or drops it. -/
theorem flush_balance {s s' : BatchState} {r key : ℕ} {ok : Bool} {run : BatchRun}
    (hrun : s.runs[r]? = some run) (hstep : s.flush r key ok run = some s')
    (type_ : BatchUpdateType) (id : ℕ) :
    s'.balance type_ id = s.balance type_ id - lost type_ id s (.flush r key ok) := by
  cases run with
  | flushing i store rest =>
      cases hvalue : store.lookup key with
      | none => simp [flush, hvalue] at hstep
      | some value =>
          obtain rfl : _ = s' := by simpa [flush, hvalue] using hstep
          have hlocal := Amounts.amount_erase hvalue id
          cases ok with
          | true =>
              have hdb := s.db.flushEntry_value i type_ key id value
              simp only [balance, pending, Pool.total_set hrun, heldBy_flushing, hlocal, hdb,
                lost, failedFlush, if_true]
              by_cases htype : type_ = i
              · simp only [htype, true_and, if_true]
                omega
              · simp [htype]
          | false =>
              simp only [balance, pending, Pool.total_set hrun, heldBy_flushing, hlocal, lost,
                failedFlush, hrun, hvalue, Option.map_some]
              by_cases htype : type_ = i
              · simp [htype]
                omega
              · simp [htype]
  | checking rest => simp [flush] at hstep
  | swapping rest => simp [flush] at hstep
  | returned => simp [flush] at hstep

/-- Step lemma: the balance of a row moves by what is recorded for it less what is lost. -/
theorem step_balance {s s' : BatchState} {a : BatchAction} (hstep : s.step a = some s')
    (type_ : BatchUpdateType) (id : ℕ) :
    s'.balance type_ id =
      s.balance type_ id + (recorded type_ id s a - lost type_ id s a) := by
  cases a with
  | addNewRecord type' id' value =>
      obtain rfl : _ = s' := by simpa [step] using hstep
      simp [addNewRecord_balance, recorded, lost, failedFlush]
  | batchUpdate =>
      obtain rfl : _ = s' := by simpa [step] using hstep
      simp [balance, pending, recorded, lost, failedFlush]
  | advance r =>
      obtain ⟨run, hrun, hadvance⟩ := Option.bind_eq_some_iff.1 hstep
      simp [advance_balance hrun hadvance, recorded, lost, failedFlush]
  | flush r key ok =>
      obtain ⟨run, hrun, hflush⟩ := Option.bind_eq_some_iff.1 hstep
      have hmove := flush_balance hrun hflush type_ id
      simp only [recorded]
      omega

theorem lost_eq_zero {s : BatchState} {a : BatchAction} (hzero : FailsOnlyOnZero s a)
    (type_ : BatchUpdateType) (id : ℕ) : lost type_ id s a = 0 := by
  cases hfail : s.failedFlush a with
  | none => simp [lost, hfail]
  | some entry =>
      have hvalue : entry.2.2 = 0 := by simpa [FailsOnlyOnZero, hfail] using hzero
      simp [lost, hfail, hvalue]

/-- Run lemma: over any run the balance moves by the records less the losses. -/
theorem run_balance {s s' : BatchState} {as : List BatchAction}
    (hrun : batchUpdater.run s as = some s') (type_ : BatchUpdateType) (id : ℕ) :
    s'.balance type_ id =
      s.balance type_ id +
        batchUpdater.tally (fun s a => recorded type_ id s a - lost type_ id s a) s as :=
  System.tally_run (C := fun _ _ => True) (I := fun _ => True)
    (f := fun s => s.balance type_ id) (fun _ _ h => h)
    (fun hstep _ _ => step_balance hstep type_ id) trivial
    (System.along_of_forall (fun _ _ => trivial) s as) hrun

end BatchState

open BatchState

/-- Conservation of the batch updater: as long as no flush of a nonzero amount fails, the
database and the amounts still held add up to the initial value and all records. -/
theorem batch_updater_conserves {db : DB} {s' : BatchState} {as : List BatchAction}
    (hzero : batchUpdater.Along FailsOnlyOnZero (start db) as)
    (hrun : batchUpdater.run (start db) as = some s') (type_ : BatchUpdateType) (id : ℕ) :
    s'.db.value type_ id + s'.pending type_ id =
      db.value type_ id + batchUpdater.tally (recorded type_ id) (start db) as := by
  have hmove : s'.balance type_ id =
      (start db).balance type_ id + batchUpdater.tally (recorded type_ id) (start db) as :=
    System.tally_run (I := fun _ => True) (f := fun s => s.balance type_ id)
      (fun _ _ h => h)
      (fun hstep hzero _ => by rw [step_balance hstep, lost_eq_zero hzero, sub_zero])
      trivial hzero hrun
  simpa [balance, pending, start] using hmove

/-- A database with all columns zero. -/
def DB.zero : DB where
  userQuota := fun _ => 0
  userUsedQuota := fun _ => 0
  userRequestCount := fun _ => 0
  tokenRemainQuota := fun _ => 0
  tokenUsedQuota := fun _ => 0
  channelUsedQuota := fun _ => 0

/-- Two records of user 1 are swapped out, a third arrives during the flush, and the entry
of user 2, which cancelled out, fails to be written. -/
def mixedBatch : List BatchAction :=
  [.addNewRecord .userQuota 1 (-5), .addNewRecord .userQuota 2 4, .addNewRecord .userQuota 1 2,
    .addNewRecord .userQuota 2 (-4), .batchUpdate, .advance 0, .advance 0,
    .addNewRecord .userQuota 1 9, .flush 0 2 false, .flush 0 1 true, .advance 0]

theorem batch_updater_conserves_mixed :
    ∃ s', batchUpdater.run (start DB.zero) mixedBatch = some s' ∧
      s'.db.value .userQuota 1 + s'.pending .userQuota 1 = 6 := by
  have hzero : batchUpdater.Along FailsOnlyOnZero (start DB.zero) mixedBatch := by decide
  exact ⟨_, rfl, (batch_updater_conserves hzero rfl .userQuota 1).trans (by decide)⟩

/-- One debit is recorded and its flush statement fails. -/
def failedBatch : List BatchAction :=
  [.addNewRecord .userQuota 1 (-5), .batchUpdate, .advance 0, .advance 0, .flush 0 1 false]

theorem run_balance_failed :
    ∃ s', batchUpdater.run (start DB.zero) failedBatch = some s' ∧ s'.balance .userQuota 1 = 0 := by
  have hrun : batchUpdater.run (start DB.zero) failedBatch = some _ := rfl
  exact ⟨_, hrun, (run_balance hrun .userQuota 1).trans (by decide)⟩

/-- A failing flush statement loses the recorded amount. -/
theorem failed_flush_loses_record :
    ¬ ∀ (db : DB) (as : List BatchAction) (s' : BatchState),
      batchUpdater.run (start db) as = some s' → ∀ (type_ : BatchUpdateType) (id : ℕ),
        s'.db.value type_ id + s'.pending type_ id =
          db.value type_ id + batchUpdater.tally (recorded type_ id) (start db) as := by
  intro hclaim
  have hlost := hclaim DB.zero failedBatch _ rfl .userQuota 1
  exact absurd hlost (by decide)

end NewApi.Model
