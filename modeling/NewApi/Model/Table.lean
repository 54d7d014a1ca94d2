import Mathlib.Data.List.Nodup
import NewApi.Model.Bill

/-!
# Tables of polled tasks

A task table is polled by a loop that selects the unfinished rows, works on its copies of
them and saves whole copies back, while other code writes the same rows.  Every row stands
beside the bill of its submission.  A poll of one copy yields a `PollResult`: the copy
afterwards, the quota movement it makes and whether the row was saved.
-/

namespace NewApi.Model

open NewApi.Lib

/-- A row with the bill of its submission. -/
structure Billed (R : Type) where
  row : R
  bill : Bill
deriving DecidableEq

/-- A copy of the row with the primary key `id`. -/
structure Copy (R : Type) where
  id : ℕ
  row : R
deriving DecidableEq

/-- A quota movement of the polling code: the refund of a failed task, or the difference
that a successful task is charged. -/
inductive Movement
  | refund (userId : ℕ) (quota : ℤ)
  | resettle (userId channelId : ℕ) (resettlement : Resettlement)
deriving DecidableEq

namespace Movement

def userId : Movement → ℕ
  | .refund userId _ => userId
  | .resettle userId _ _ => userId

/-- What the user's quota gains. -/
def amount : Movement → ℤ
  | .refund _ quota => quota
  | .resettle _ _ resettlement => -resettlement.quotaDelta

/-- Make the movement; the flag tells whether the user's quota was moved. -/
def run (db : DB) : Movement → DB × Bool
  | .refund userId quota =>
      match db.creditUser userId quota with
      | (db, none) => (db, true)
      | (db, some _) => (db, false)
  | .resettle userId channelId resettlement =>
      if 0 < resettlement.quotaDelta then
        match db.debitUser userId resettlement.quotaDelta with
        | (db, none) =>
            ((db.updateUserUsedQuotaAndRequestCount userId resettlement.quotaDelta 1).updateChannelUsedQuota
              channelId resettlement.quotaDelta, true)
        | (db, some _) => (db, false)
      else
        match db.creditUser userId (-resettlement.quotaDelta) with
        | (db, none) => (db, true)
        | (db, some _) => (db, false)

/-- Put the movement on the bill. -/
def note (bill : Bill) : Movement → Bill
  | .refund _ quota => bill.refund quota
  | .resettle _ _ resettlement => bill.resettle resettlement

theorem note_payer (movement : Movement) (bill : Bill) :
    (movement.note bill).payer = bill.payer := by
  cases movement <;> rfl

theorem note_charged (movement : Movement) (bill : Bill) :
    (movement.note bill).charged = bill.charged := by
  cases movement <;> rfl

theorem note_userNet (movement : Movement) (bill : Bill) :
    (movement.note bill).userNet = bill.userNet - movement.amount := by
  cases movement with
  | refund userId quota => exact bill.refund_userNet quota
  | resettle userId channelId resettlement =>
      rw [note, bill.resettle_userNet, amount]
      omega

/-- A bill with a movement on it has been touched. -/
theorem note_touched (movement : Movement) (bill : Bill) : ¬(movement.note bill).Untouched := by
  intro huntouched
  cases movement with
  | refund userId quota => exact List.append_ne_nil_of_right_ne_nil _ (by simp) huntouched.1
  | resettle userId channelId resettlement =>
      exact List.append_ne_nil_of_right_ne_nil _ (by simp) huntouched.2

end Movement

/-- One movement in the database: nothing changes unless the user's quota is moved, and then
it is moved by the amount while the token's quota stays. -/
structure Moved (movement : Movement) (db : DB) (result : DB × Bool) : Prop where
  still : result.2 = false → result.1 = db
  user : result.2 = true →
    result.1.userQuota = bump db.userQuota movement.userId movement.amount
  token : result.1.tokenRemainQuota = db.tokenRemainQuota
  tokenUsed : result.1.tokenUsedQuota = db.tokenUsedQuota

theorem Movement.run_moved (movement : Movement) (db : DB) :
    Moved movement db (movement.run db) := by
  have hcredit : ∀ (userId : ℕ) (quota : ℤ) (movement : Movement),
      movement.userId = userId → movement.amount = quota →
      Moved movement db
        (match db.creditUser userId quota with
        | (db, none) => (db, true)
        | (db, some _) => (db, false)) := by
    intro userId quota movement huser hamount
    rw [DB.creditUser, DB.guarded]
    by_cases hneg : quota < 0
    · rw [if_pos hneg]
      exact ⟨fun _ => rfl, fun hmoved => by simp at hmoved, rfl, rfl⟩
    · rw [if_neg hneg]
      exact ⟨fun hstill => by simp at hstill, fun _ => by rw [huser, hamount]; rfl, rfl, rfl⟩
  cases movement with
  | refund userId quota => exact hcredit userId quota _ rfl rfl
  | resettle userId channelId resettlement =>
      rw [Movement.run]
      by_cases hpos : 0 < resettlement.quotaDelta
      · rw [if_pos hpos, DB.debitUser, DB.guarded, if_neg (by omega)]
        exact ⟨fun hstill => by simp at hstill, fun _ => rfl, rfl, rfl⟩
      · rw [if_neg hpos]
        exact hcredit userId _ _ rfl rfl

/-- A refund of a nonnegative amount is made. -/
theorem Movement.run_refund (userId : ℕ) {quota : ℤ} (hquota : 0 ≤ quota) (db : DB) :
    ((Movement.refund userId quota).run db).2 = true := by
  rw [Movement.run, DB.creditUser, DB.guarded, if_neg (by omega)]

/-- A resettlement is always made: its amount has the sign that its direction needs. -/
theorem Movement.run_resettle (userId channelId : ℕ) (resettlement : Resettlement) (db : DB) :
    ((Movement.resettle userId channelId resettlement).run db).2 = true := by
  rw [Movement.run]
  by_cases hpos : 0 < resettlement.quotaDelta
  · rw [if_pos hpos, DB.debitUser, DB.guarded, if_neg (by omega)]
  · rw [if_neg hpos, DB.creditUser, DB.guarded, if_neg (by omega)]

/-- What polling one copy does. -/
structure PollResult (R : Type) where
  row : R
  movement : Option Movement
  saved : Bool

namespace PollResult

variable {R : Type}

/-- The copy is left as it is. -/
def skip (row : R) : PollResult R where
  row := row
  movement := none
  saved := false

def run (result : PollResult R) (db : DB) : DB × Bool :=
  match result.movement with
  | none => (db, false)
  | some movement => movement.run db

def note (result : PollResult R) (bill : Bill) : Bill :=
  match result.movement with
  | none => bill
  | some movement => movement.note bill

/-- The row and its bill afterwards. -/
def entry (result : PollResult R) (db : DB) (e : Billed R) : Billed R where
  row := if result.saved then result.row else e.row
  bill := if (result.run db).2 then result.note e.bill else e.bill

section

variable {result : PollResult R} {e : Billed R}

theorem note_payer (result : PollResult R) (bill : Bill) :
    (result.note bill).payer = bill.payer := by
  rw [note]
  cases result.movement with
  | none => rfl
  | some movement => exact movement.note_payer bill

theorem note_charged (result : PollResult R) (bill : Bill) :
    (result.note bill).charged = bill.charged := by
  rw [note]
  cases result.movement with
  | none => rfl
  | some movement => exact movement.note_charged bill

theorem entry_payer (result : PollResult R) (db : DB) (e : Billed R) :
    (result.entry db e).bill.payer = e.bill.payer := by
  show (if (result.run db).2 then result.note e.bill else e.bill).payer = _
  split
  case isTrue hmoved => exact result.note_payer e.bill
  case isFalse hstill => rfl

theorem entry_charged (result : PollResult R) (db : DB) (e : Billed R) :
    (result.entry db e).bill.charged = e.bill.charged := by
  show (if (result.run db).2 then result.note e.bill else e.bill).charged = _
  split
  case isTrue hmoved => exact result.note_charged e.bill
  case isFalse hstill => rfl

theorem entry_saved (hsaved : result.saved = true) (db : DB) (e : Billed R) :
    (result.entry db e).row = result.row :=
  if_pos hsaved

theorem entry_unsaved (hunsaved : result.saved = false) (db : DB) (e : Billed R) :
    (result.entry db e).row = e.row := by
  rw [entry, hunsaved]
  rfl

/-- Without a movement the bill stays. -/
theorem entry_still (hmovement : result.movement = none) (db : DB) (e : Billed R) :
    (result.entry db e).bill = e.bill := by
  rw [entry, run, hmovement]
  rfl

theorem entry_same (hmovement : result.movement = none) (hunsaved : result.saved = false) (db : DB)
    (e : Billed R) : result.entry db e = e :=
  calc
    result.entry db e = Billed.mk (result.entry db e).row (result.entry db e).bill := rfl
    _ = Billed.mk e.row e.bill := by rw [entry_unsaved hunsaved, entry_still hmovement]

theorem entry_written (hmovement : result.movement = none) (hsaved : result.saved = true) (db : DB)
    (e : Billed R) : result.entry db e = { e with row := result.row } :=
  calc
    result.entry db e = Billed.mk (result.entry db e).row (result.entry db e).bill := rfl
    _ = Billed.mk result.row e.bill := by rw [entry_saved hsaved, entry_still hmovement]

/-- A movement that is made is put on the bill. -/
theorem entry_moved {movement : Movement} (hmovement : result.movement = some movement) {db : DB}
    (hrun : (movement.run db).2 = true) (e : Billed R) :
    (result.entry db e).bill = movement.note e.bill := by
  have hmoved : (result.run db).2 = true := by
    rw [run, hmovement]
    exact hrun
  show (if (result.run db).2 then result.note e.bill else e.bill) = _
  rw [if_pos hmoved, note, hmovement]

/-- What a bill has on it stays on it. -/
theorem entry_touched {db : DB} (htouched : ¬e.bill.Untouched) :
    ¬(result.entry db e).bill.Untouched := by
  intro huntouched
  cases hmovement : result.movement with
  | none => exact htouched (result.entry_still hmovement db e ▸ huntouched)
  | some movement =>
      cases hrun : (result.run db).2 with
      | true =>
          have hmoved : (movement.run db).2 = true := by
            rw [run, hmovement] at hrun
            exact hrun
          exact movement.note_touched e.bill (entry_moved hmovement hmoved e ▸ huntouched)
      | false =>
          have hbill : (result.entry db e).bill = e.bill := by
            show (if (result.run db).2 then result.note e.bill else e.bill) = _
            rw [hrun]
            rfl
          exact htouched (hbill ▸ huntouched)

end

end PollResult

/-- The rows of a table in the order of their primary keys, and the copies that the poller
works on. -/
structure Table (R : Type) where
  entries : List (Billed R)
  copies : List (Copy R)

namespace Table

variable {R : Type}

def empty : Table R where
  entries := []
  copies := []

def bills (table : Table R) : List Bill :=
  table.entries.map Billed.bill

def insert (table : Table R) (row : R) (bill : Bill) : Table R :=
  { table with
    entries := table.entries ++ [{ row := row, bill := bill }] }

/-- `UPDATE ... WHERE p`. -/
def updateWhere (table : Table R) (p : ℕ → R → Bool) (f : R → R) : Table R :=
  { table with
    entries := table.entries.mapIdx fun id e => if p id e.row then { e with row := f e.row } else e }

/-- `DB.Save`: overwrite all columns of a row. -/
def save (table : Table R) (id : ℕ) (row : R) : Table R :=
  table.updateWhere (fun key _ => key = id) fun _ => row

/-- `SELECT ... WHERE p ORDER BY id`. -/
def selectWhere (table : Table R) (p : R → Bool) : List (Copy R) :=
  (table.entries.zipIdx.filter fun e => p e.1.row).map fun e => { id := e.2, row := e.1.row }

/-- The poller works on its copy in place `i`. -/
def poll (table : Table R) (db : DB) (i : ℕ) (copy : Copy R) (result : PollResult R) :
    DB × Table R :=
  ((result.run db).1,
    { entries := table.entries.mapIdx fun id e => if id = copy.id then result.entry db e else e
      copies := table.copies.set i { copy with row := result.row } })

/-- Every copy belongs to a row, and the relation holds between the two. -/
def Backed (Q : R → Billed R → Prop) (entries : List (Billed R)) (copies : List (Copy R)) : Prop :=
  ∀ copy ∈ copies, ∃ e, entries[copy.id]? = some e ∧ Q copy.row e

/-- What holds of the rows, what relates the poller's copies to them, and no row is copied
twice. -/
structure Sound (P : Billed R → Prop) (Q : R → Billed R → Prop) (table : Table R) : Prop where
  entries : ∀ e ∈ table.entries, P e
  copies : Backed Q table.entries table.copies
  distinct : (table.copies.map Copy.id).Nodup

section

variable {P : Billed R → Prop} {Q : R → Billed R → Prop} {table : Table R}
  {entries : List (Billed R)} {copies : List (Copy R)}

theorem Backed.append (hbacked : Backed Q entries copies) (more : List (Billed R)) :
    Backed Q (entries ++ more) copies := by
  intro copy hcopy
  obtain ⟨e, hentry, hQ⟩ := hbacked copy hcopy
  refine ⟨e, ?_, hQ⟩
  rw [List.getElem?_append_left (List.getElem?_eq_some_iff.mp hentry).1]
  exact hentry

/-- Rewriting rows keeps the copies that stay related to them. -/
theorem Backed.mapIdx {f : ℕ → Billed R → Billed R} (hbacked : Backed Q entries copies)
    (hf : ∀ copy ∈ copies, ∀ e, entries[copy.id]? = some e → Q copy.row e →
      Q copy.row (f copy.id e)) : Backed Q (entries.mapIdx f) copies := by
  intro copy hcopy
  obtain ⟨e, hentry, hQ⟩ := hbacked copy hcopy
  refine ⟨f copy.id e, ?_, hf copy hcopy e hentry hQ⟩
  rw [List.getElem?_mapIdx, hentry]
  rfl

theorem Sound.empty : Sound P Q (Table.empty : Table R) :=
  ⟨by simp [Table.empty], by simp [Backed, Table.empty], List.nodup_nil⟩

theorem Sound.insert {row : R} {bill : Bill} (hsound : Sound P Q table)
    (hnew : P { row := row, bill := bill }) : Sound P Q (table.insert row bill) := by
  refine ⟨?_, hsound.copies.append _, hsound.distinct⟩
  intro e he
  rcases List.mem_append.mp he with hold | hlast
  · exact hsound.entries e hold
  · obtain rfl := List.mem_singleton.mp hlast
    exact hnew

theorem Sound.rewrite {f : ℕ → Billed R → Billed R} (hsound : Sound P Q table)
    (hrow : ∀ id e, table.entries[id]? = some e → P e → P (f id e))
    (hcopy : ∀ id e row, table.entries[id]? = some e → Q row e → Q row (f id e)) :
    Sound P Q { table with entries := table.entries.mapIdx f } := by
  refine ⟨?_, ?_, hsound.distinct⟩
  · intro e' he'
    obtain ⟨id, hid, rfl⟩ := List.mem_mapIdx.mp he'
    exact hrow id _ (List.getElem?_eq_getElem hid) (hsound.entries _ (List.getElem_mem hid))
  · exact hsound.copies.mapIdx fun copy _ e hentry hQ => hcopy copy.id e copy.row hentry hQ

theorem Sound.updateWhere {p : ℕ → R → Bool} {f : R → R} (hsound : Sound P Q table)
    (hrow : ∀ id e, table.entries[id]? = some e → p id e.row = true → P e →
      P { e with row := f e.row })
    (hcopy : ∀ id e row, table.entries[id]? = some e → p id e.row = true → Q row e →
      Q row { e with row := f e.row }) : Sound P Q (table.updateWhere p f) := by
  refine hsound.rewrite (fun id e hentry hP => ?_) (fun id e row hentry hQ => ?_)
  · split
    case isTrue hp => exact hrow id e hentry hp hP
    case isFalse hp => exact hP
  · split
    case isTrue hp => exact hcopy id e row hentry hp hQ
    case isFalse hp => exact hQ

theorem mem_selectWhere {p : R → Bool} {copy : Copy R} (hcopy : copy ∈ table.selectWhere p) :
    ∃ e, table.entries[copy.id]? = some e ∧ copy.row = e.row ∧ p e.row = true := by
  obtain ⟨⟨e, id⟩, he, rfl⟩ := List.mem_map.mp hcopy
  obtain ⟨hmem, hp⟩ := List.mem_filter.mp he
  exact ⟨e, List.mem_zipIdx_iff_getElem?.mp hmem, rfl, hp⟩

theorem selectWhere_distinct (table : Table R) (p : R → Bool) :
    ((table.selectWhere p).map Copy.id).Nodup := by
  rw [selectWhere, List.map_map]
  show ((table.entries.zipIdx.filter fun e => p e.1.row).map Prod.snd).Nodup
  have hsub : ((table.entries.zipIdx.filter fun e => p e.1.row).map Prod.snd).Sublist
      (table.entries.zipIdx.map Prod.snd) :=
    List.filter_sublist.map _
  refine hsub.nodup ?_
  rw [List.zipIdx_map_snd]
  exact List.nodup_range'

/-- The poller selects rows. -/
theorem Sound.select {p : R → Bool} (hsound : Sound P Q table)
    (hselected : copies.Sublist (table.selectWhere p))
    (hcopy : ∀ e ∈ table.entries, p e.row = true → P e → Q e.row e) :
    Sound P Q { table with copies := copies } := by
  refine ⟨hsound.entries, ?_, (hselected.map Copy.id).nodup (table.selectWhere_distinct p)⟩
  intro copy hmem
  obtain ⟨e, hentry, hrow, hp⟩ := mem_selectWhere (hselected.subset hmem)
  have he : e ∈ table.entries := List.mem_of_getElem? hentry
  refine ⟨e, hentry, ?_⟩
  rw [hrow]
  exact hcopy e he hp (hsound.entries e he)

/-- The poller loses its copies. -/
theorem Sound.drop (hsound : Sound P Q table) : Sound P Q { table with copies := [] } :=
  ⟨hsound.entries, by simp [Backed], List.nodup_nil⟩

/-- Polling a copy touches its row only, and no other copy is of that row. -/
theorem Sound.poll {i : ℕ} {copy : Copy R} {e : Billed R} {db : DB} {result : PollResult R}
    (hsound : Sound P Q table) (hi : table.copies[i]? = some copy)
    (hentry : table.entries[copy.id]? = some e) (hrow : P (result.entry db e))
    (hcopy : Q result.row (result.entry db e)) :
    Sound P Q (table.poll db i copy result).2 := by
  have hids : (table.copies.set i { copy with row := result.row }).map Copy.id =
      table.copies.map Copy.id := by
    rw [List.map_set]
    refine Pool.set_self ?_
    rw [List.getElem?_map, hi]
    rfl
  refine ⟨?_, ?_, ?_⟩
  · intro e' he'
    obtain ⟨id, hid, rfl⟩ := List.mem_mapIdx.mp he'
    split
    case isTrue hsame =>
      obtain rfl : table.entries[id] = e := by
        rw [← hsame, List.getElem?_eq_getElem hid] at hentry
        exact Option.some.inj hentry
      exact hrow
    case isFalse hother => exact hsound.entries _ (List.getElem_mem hid)
  · intro other hother
    obtain ⟨k, hk⟩ := List.mem_iff_getElem?.mp hother
    by_cases hplace : k = i
    · -- the polled copy itself
      subst hplace
      have hlength : k < table.copies.length := (List.getElem?_eq_some_iff.mp hi).1
      obtain rfl : { copy with row := result.row } = other := by
        rw [show (table.poll db k copy result).2.copies =
          table.copies.set k { copy with row := result.row } from rfl,
          List.getElem?_set_self hlength] at hk
        exact Option.some.inj hk
      refine ⟨result.entry db e, ?_, hcopy⟩
      show (table.entries.mapIdx _)[copy.id]? = _
      rw [List.getElem?_mapIdx, hentry]
      simp
    · -- a copy in another place is of another row
      have hold : table.copies[k]? = some other := by
        rw [← hk]
        exact (List.getElem?_set_ne (Ne.symm hplace)).symm
      obtain ⟨e', hentry', hQ⟩ := hsound.copies other (List.mem_of_getElem? hold)
      have hid : other.id ≠ copy.id := by
        intro hsame
        have hlength : k < (table.copies.map Copy.id).length := by
          rw [List.length_map]
          exact (List.getElem?_eq_some_iff.mp hold).1
        refine hplace ((List.getElem?_inj hlength hsound.distinct).mp ?_)
        rw [List.getElem?_map, List.getElem?_map, hold, hi, Option.map_some, Option.map_some, hsame]
      refine ⟨e', ?_, hQ⟩
      show (table.entries.mapIdx _)[other.id]? = _
      rw [List.getElem?_mapIdx, hentry']
      simp [hid]
  · show ((table.copies.set i { copy with row := result.row }).map Copy.id).Nodup
    rw [hids]
    exact hsound.distinct

end

section

variable {table : Table R} {db : DB}

theorem insert_bills (table : Table R) (row : R) (bill : Bill) :
    (table.insert row bill).bills = table.bills ++ [bill] := by
  simp [bills, insert]

theorem updateWhere_bills (table : Table R) (p : ℕ → R → Bool) (f : R → R) :
    (table.updateWhere p f).bills = table.bills := by
  refine List.ext_getElem? fun id => ?_
  simp only [bills, updateWhere, List.getElem?_map, List.getElem?_mapIdx, Option.map_map]
  congr 1
  funext e
  rw [Function.comp_apply]
  split <;> rfl

/-- The movement of a poll is booked on the bill of the row. -/
theorem poll_booked {i : ℕ} {copy : Copy R} {e : Billed R} {result : PollResult R}
    (hentry : table.entries[copy.id]? = some e)
    (huser : ∀ movement ∈ result.movement, movement.userId = e.bill.payer.userId) :
    Booked db (table.poll db i copy result).1 table.bills
      (table.poll db i copy result).2.bills := by
  have hbill : table.bills[copy.id]? = some e.bill := by
    rw [bills, List.getElem?_map, hentry]
    rfl
  have hbills : (table.poll db i copy result).2.bills =
      table.bills.set copy.id (result.entry db e).bill := by
    refine List.ext_getElem? fun id => ?_
    rw [bills, bills, List.getElem?_map, List.getElem?_set]
    show ((table.entries.mapIdx _)[id]?).map Billed.bill = _
    rw [List.getElem?_mapIdx]
    by_cases hid : copy.id = id
    · subst hid
      rw [hentry, if_pos rfl, if_pos]
      · simp
      · rw [List.length_map]
        exact (List.getElem?_eq_some_iff.mp hentry).1
    · rw [if_neg hid, List.getElem?_map]
      cases table.entries[id]? with
      | none => rfl
      | some other => simp [Ne.symm hid]
  rw [hbills]
  show Booked db (result.run db).1 _ _
  cases hmovement : result.movement with
  | none =>
      have hrun : result.run db = (db, false) := by rw [PollResult.run, hmovement]
      rw [PollResult.entry, hrun]
      show Booked db db _ (table.bills.set copy.id e.bill)
      rw [Pool.set_self hbill]
      exact .refl db _
  | some movement =>
      have hrun : result.run db = movement.run db := by rw [PollResult.run, hmovement]
      have hmoved := movement.run_moved db
      rw [hrun]
      show Booked db (movement.run db).1 _ (table.bills.set copy.id
        (if (result.run db).2 then result.note e.bill else e.bill))
      rw [hrun]
      cases hflag : (movement.run db).2 with
      | false =>
          rw [if_neg Bool.false_ne_true, Pool.set_self hbill, hmoved.still hflag]
          exact .refl db _
      | true =>
          rw [if_pos rfl, PollResult.note, hmovement]
          refine Booked.moveUser hbill (movement.note_payer _) (movement.note_charged _)
            (movement.note_userNet _) ?_ hmoved.token hmoved.tokenUsed
          rw [hmoved.user hflag, huser movement hmovement]

end

/-! ## Movements go to the owner of the row -/

/-- The row or copy names the payer of the bill as its user. -/
def OwnedBy (owner : R → ℕ) (row : R) (e : Billed R) : Prop :=
  owner row = e.bill.payer.userId

def Owned (owner : R → ℕ) (table : Table R) : Prop :=
  Sound (fun e => OwnedBy owner e.row e) (OwnedBy owner) table

/-- Polling a copy keeps its owner, and moves the owner's quota only. -/
structure KeepsOwner (owner : R → ℕ) (row : R) (result : PollResult R) : Prop where
  user : owner result.row = owner row
  movement : ∀ movement ∈ result.movement, movement.userId = owner row

section

variable {owner : R → ℕ} {table : Table R}

theorem OwnedBy.entry {row : R} {e : Billed R} (howned : OwnedBy owner row e)
    (result : PollResult R) (db : DB) : OwnedBy owner row (result.entry db e) := by
  rw [OwnedBy, result.entry_payer]
  exact howned

theorem Owned.updateWhere {p : ℕ → R → Bool} {f : R → R} (howned : Owned owner table)
    (hf : ∀ id e, table.entries[id]? = some e → p id e.row = true → owner (f e.row) = owner e.row) :
    Owned owner (table.updateWhere p f) := by
  refine Sound.updateWhere howned ?_ fun _ _ _ _ _ hcopy => hcopy
  intro id e hentry hp hrow
  exact (hf id e hentry hp).trans hrow

theorem Owned.select {p : R → Bool} {copies : List (Copy R)} (howned : Owned owner table)
    (hselected : copies.Sublist (table.selectWhere p)) :
    Owned owner { table with copies := copies } :=
  Sound.select howned hselected fun _ _ _ hrow => hrow

/-- A poll books its movement on the bill of the copy's owner. -/
theorem Owned.poll {i : ℕ} {copy : Copy R} {result : PollResult R} (howned : Owned owner table)
    (db : DB) (hcopy : table.copies[i]? = some copy) (hresult : KeepsOwner owner copy.row result) :
    Owned owner (table.poll db i copy result).2 ∧
      Booked db (table.poll db i copy result).1 table.bills
        (table.poll db i copy result).2.bills := by
  obtain ⟨e, hentry, howner⟩ := howned.copies copy (List.mem_of_getElem? hcopy)
  have hrow : OwnedBy owner e.row e := howned.entries e (List.mem_of_getElem? hentry)
  have hresultRow : OwnedBy owner result.row e := hresult.user.trans howner
  refine ⟨Sound.poll howned hcopy hentry ?_ (hresultRow.entry result db), ?_⟩
  · cases hsaved : result.saved with
    | true =>
        rw [PollResult.entry_saved hsaved]
        exact hresultRow.entry result db
    | false =>
        rw [PollResult.entry_unsaved hsaved]
        exact hrow.entry result db
  · refine poll_booked hentry fun movement hmovement => ?_
    rw [hresult.movement movement hmovement]
    exact howner

end

end Table

end NewApi.Model
