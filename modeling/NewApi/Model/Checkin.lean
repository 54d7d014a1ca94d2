import Mathlib.Algebra.Order.Group.Multiset
import Mathlib.Algebra.Ring.Pi
import Mathlib.Tactic.Abel
import Mathlib.Tactic.LinearCombination
import NewApi.Lib.Integers
import NewApi.Lib.Pool
import NewApi.Lib.System
import NewApi.Model.Database

/-!
# Daily check-in

`UserCheckin` looks for a row of today, creates one and adds the drawn quota to the user. On MySQL
and PostgreSQL the two writes are one transaction; on SQLite they are two statements, and a row
whose credit fails is deleted again. Every SQL statement is one action here, and a failed one says
what the database reports.
-/

namespace NewApi.Model

open NewApi.Lib NewApi.Lib.Strings
open scoped List

structure CheckinSetting where
  enabled : Bool
  minQuota : ℤ
  maxQuota : ℤ
deriving DecidableEq

structure Checkin where
  id : ℕ
  userId : ℕ
  checkinDate : String
  quotaAwarded : ℤ
  createdAt : ℤ
deriving DecidableEq

namespace Checkin

/-! ## The calls and their statements -/

/-- The columns of the unique index `idx_user_checkin_date`. -/
def indexed (checkin : Checkin) : ℕ × String :=
  (checkin.userId, checkin.checkinDate)

/-- The award for what `rand.Intn` draws; it panics where the number of choices is no positive
`int`. -/
def quotaAwardedBy (setting : CheckinSetting) (drawn : ℤ) : Option ℤ :=
  if setting.maxQuota > setting.minQuota then
    if InInt64 (setting.maxQuota - setting.minQuota + 1) ∧ 0 ≤ drawn ∧
        drawn < setting.maxQuota - setting.minQuota + 1 then
      some (setting.minQuota + drawn)
    else none
  else some setting.minQuota

/-- Where a call stands between two statements. -/
inductive Call
  | checked (userId : ℕ) (quotaAwarded : ℤ)
  | created (checkin : Checkin)
  | updated (checkin : Checkin)
  | uncredited (checkin : Checkin) (failed : Bool)
  | returned (result : Except String Checkin)

/-- The committed rows, the quotas, the next primary key, and the calls. -/
structure CheckinState where
  checkins : List Checkin
  userQuota : ℕ → ℤ
  nextId : ℕ
  calls : List Call

/-- The statements of a call.  `failure` is the error of the database, if the statement fails. -/
inductive Statement
  | hasCheckedInToday (userId : ℕ) (setting : CheckinSetting) (today : String) (drawn : ℤ)
      (failure : Option String)
  | create (call : ℕ) (today : String) (now : ℤ) (failure : Option String)
  | updateQuota (call : ℕ) (failure : Option String)
  | commit (call : ℕ) (failure : Option String)
  | delete (call : ℕ) (failure : Option String)
deriving DecidableEq

/-- The row that an open transaction has created. -/
def Call.pending (usingSQLite : Bool) : Call → List Checkin
  | .created checkin => if usingSQLite then [] else [checkin]
  | .updated checkin => [checkin]
  | _ => []

namespace CheckinState

def returning (s : CheckinState) (call : ℕ) (result : Except String Checkin) : CheckinState :=
  { s with calls := s.calls.set call (.returned result) }

/-- The rows that the unique index sees. -/
def rows (usingSQLite : Bool) (s : CheckinState) : List Checkin :=
  s.checkins ++ s.calls.flatMap (Call.pending usingSQLite)

/-- `DB.Create`, alone or first in a transaction.  A row of an open transaction is waited for. -/
def create (usingSQLite : Bool) (s : CheckinState) (call : ℕ) (checkin : Checkin)
    (failure : Option String) : Option CheckinState :=
  if failure.isSome ∨ checkin.indexed ∈ s.checkins.map indexed then
    some (s.returning call (.error "签到失败，请稍后重试"))
  else if checkin.indexed ∈ (s.calls.flatMap (Call.pending usingSQLite)).map indexed then none
  else
    some { s with
      -- in a transaction the row comes into the table with the commit
      checkins := if usingSQLite then s.checkins ++ [checkin] else s.checkins
      nextId := s.nextId + 1
      calls := s.calls.set call (.created checkin) }

/-- The update of the quota in `userCheckinWithTransaction`; an error rolls back. -/
def updateInTransaction (s : CheckinState) (call : ℕ) (checkin : Checkin) :
    Option String → CheckinState
  | some _ => s.returning call (.error "签到失败：更新额度出错")
  | none => { s with calls := s.calls.set call (.updated checkin) }

/-- `IncreaseUserQuota` in `userCheckinWithoutTransaction`: a negative quota is refused without a
statement. -/
def increaseUserQuota (s : CheckinState) (call : ℕ) (checkin : Checkin)
    (failure : Option String) : CheckinState :=
  if checkin.quotaAwarded < 0 then
    { s with calls := s.calls.set call (.uncredited checkin false) }
  else if failure.isSome then { s with calls := s.calls.set call (.uncredited checkin true) }
  else
    { s with
      userQuota := bump s.userQuota checkin.userId checkin.quotaAwarded
      calls := s.calls.set call (.returned (.ok checkin)) }

/-- The end of a transaction. -/
def commit (s : CheckinState) (call : ℕ) (checkin : Checkin) : Option String → CheckinState
  | some err => s.returning call (.error err)
  | none =>
      { s with
        checkins := s.checkins ++ [checkin]
        userQuota := bump s.userQuota checkin.userId checkin.quotaAwarded
        calls := s.calls.set call (.returned (.ok checkin)) }

/-- `DB.Delete`, whose error is not looked at. -/
def delete (s : CheckinState) (call : ℕ) (checkin : Checkin) (failure : Option String) :
    CheckinState :=
  { s with
    checkins :=
      if failure.isSome then s.checkins else s.checkins.filter fun row => row.id ≠ checkin.id
    calls := s.calls.set call (.returned (.error "签到失败：更新额度出错")) }

/-- The call that `HasCheckedInToday` begins. -/
def hasCheckedInToday (s : CheckinState) (userId : ℕ) (setting : CheckinSetting) (today : String)
    (drawn : ℤ) : Option String → Option Call
  | some err => some (.returned (.error err))
  | none =>
      if (userId, today) ∈ s.checkins.map indexed then some (.returned (.error "今日已签到"))
      else (quotaAwardedBy setting drawn).map (.checked userId)

end CheckinState

/-- One statement of one call; at most one statement of a call fails. -/
def step (usingSQLite : Bool) (s : CheckinState) : Statement → Option CheckinState
  | .hasCheckedInToday userId setting today drawn failure =>
      if !setting.enabled then
        some { s with calls := s.calls ++ [.returned (.error "签到功能未启用")] }
      else
        (s.hasCheckedInToday userId setting today drawn failure).map fun call =>
          { s with calls := s.calls ++ [call] }
  | .create call today now failure =>
      match s.calls[call]? with
      | some (.checked userId quotaAwarded) =>
          s.create usingSQLite call ⟨s.nextId, userId, today, quotaAwarded, now⟩ failure
      | _ => none
  | .updateQuota call failure =>
      match s.calls[call]? with
      | some (.created checkin) =>
          some (if usingSQLite then s.increaseUserQuota call checkin failure
            else s.updateInTransaction call checkin failure)
      | _ => none
  | .commit call failure =>
      match s.calls[call]? with
      | some (.updated checkin) => some (s.commit call checkin failure)
      | _ => none
  | .delete call failure =>
      match s.calls[call]? with
      | some (.uncredited checkin failed) =>
          if failed = true ∧ failure.isSome then none else some (s.delete call checkin failure)
      | _ => none

def system (usingSQLite : Bool) : System CheckinState Statement where
  step := step usingSQLite

/-! ## What is paid once -/

/-- The quota that rows stand for, for each user. -/
def awards (checkins : List Checkin) : ℕ → ℤ :=
  (checkins.map fun checkin => Pi.single checkin.userId checkin.quotaAwarded).sum

namespace Call

/-- The committed row that a call answers for: it has returned it, or is between two statements on
SQLite. -/
def standing (usingSQLite : Bool) : Call → List Checkin
  | .created checkin => if usingSQLite then [checkin] else []
  | .uncredited checkin _ => [checkin]
  | .returned (.ok checkin) => [checkin]
  | _ => []

/-- The committed row whose quota is still to be credited, or which is still to be deleted. -/
def awaiting (usingSQLite : Bool) : Call → List Checkin
  | .created checkin => if usingSQLite then [checkin] else []
  | .uncredited checkin _ => [checkin]
  | _ => []

end Call

/-- The table has one row for each user and date, the quotas have grown by what the rows award less
what is awaited, and apart from the first rows these are the ones that calls answer for: a call that
has returned an error has none. -/
structure PaidOnce (usingSQLite : Bool) (first s : CheckinState) : Prop where
  once : (s.checkins.map indexed).Nodup
  grown : s.userQuota + awards (s.calls.flatMap (Call.awaiting usingSQLite)) +
    awards first.checkins = first.userQuota + awards s.checkins
  kept : s.checkins ~ first.checkins ++ s.calls.flatMap (Call.standing usingSQLite)

/-- The delete of a row that was not credited does not fail. -/
def Deletes : Statement → Prop
  | .delete _ failure => failure = none
  | _ => True

instance : ∀ statement, Decidable (Deletes statement)
  | .hasCheckedInToday .. => inferInstanceAs (Decidable True)
  | .create .. => inferInstanceAs (Decidable True)
  | .updateQuota .. => inferInstanceAs (Decidable True)
  | .commit .. => inferInstanceAs (Decidable True)
  | .delete _ failure => inferInstanceAs (Decidable (failure = none))

/-- The unique index and the primary key hold of committed rows and those of open transactions. -/
structure Unique (usingSQLite : Bool) (s : CheckinState) : Prop where
  indexed : ((s.rows usingSQLite).map indexed).Nodup
  ids : ((s.rows usingSQLite).map id).Nodup
  fresh : ∀ checkin ∈ s.rows usingSQLite, checkin.id < s.nextId

/-! ## One statement -/

section

variable {usingSQLite : Bool} {first s s' : CheckinState} {call : ℕ} {x y : Call}
  {checkin : Checkin} {failure : Option String}

theorem awards_append (left right : List Checkin) :
    awards (left ++ right) = awards left + awards right := by
  rw [awards, List.map_append, List.sum_append]
  rfl

theorem awards_perm {left right : List Checkin} (hperm : left ~ right) :
    awards left = awards right :=
  (hperm.map _).sum_eq

theorem bump_eq_add (quotas : ℕ → ℤ) (checkin : Checkin) :
    bump quotas checkin.userId checkin.quotaAwarded = quotas + awards [checkin] := by
  funext userId
  rw [bump_apply, awards, List.map_singleton, List.sum_singleton, Pi.add_apply, Pi.single_apply]

/-- The rows that stand in the table and those that calls answer for change alike. -/
theorem PaidOnce.move {new gone paid : List Checkin} (hs : PaidOnce usingSQLite first s)
    (hx : s.calls[call]? = some x) (hcalls : s'.calls = s.calls.set call y)
    (honce : (s'.checkins.map indexed).Nodup) (hrows : s'.checkins ++ gone ~ s.checkins ++ new)
    (hquota : s'.userQuota = s.userQuota + awards paid)
    (hstanding : y.standing usingSQLite ++ gone ~ x.standing usingSQLite ++ new)
    (hawaiting : y.awaiting usingSQLite ++ paid ++ gone ~ x.awaiting usingSQLite ++ new) :
    PaidOnce usingSQLite first s' := by
  obtain ⟨-, hgrown, hkept⟩ := hs
  refine ⟨honce, ?_, ?_⟩
  · have hpool := awards_perm
      (Pool.flatMap_set_perm (Call.awaiting usingSQLite) y hx)
    have hrows := awards_perm hrows
    have hawaiting := awards_perm hawaiting
    simp only [awards_append] at hpool hrows hawaiting
    rw [hcalls, hquota]
    linear_combination hpool + hawaiting + hgrown - hrows
  · have hpool := Pool.flatMap_set_perm (Call.standing usingSQLite) y hx
    rw [hcalls]
    -- as multisets, what comes and goes can be cancelled on both sides
    rw [← Multiset.coe_eq_coe] at hpool hrows hstanding hkept ⊢
    simp only [← Multiset.coe_add] at hpool hrows hstanding hkept ⊢
    have hsame : (s'.checkins : Multiset Checkin) + gone + x.standing usingSQLite =
        first.checkins + (s.calls.set call y).flatMap (Call.standing usingSQLite) + gone +
          x.standing usingSQLite := by
      rw [hrows, hkept]
      calc _ = (first.checkins : Multiset Checkin) +
            (s.calls.flatMap (Call.standing usingSQLite) : List Checkin) +
            (x.standing usingSQLite + (new : Multiset Checkin)) := by abel
        _ = first.checkins + (s.calls.flatMap (Call.standing usingSQLite) +
            (y.standing usingSQLite : Multiset Checkin)) + gone := by rw [← hstanding]; abel
        _ = _ := by rw [← hpool]; abel
    exact add_right_cancel (add_right_cancel hsame)

/-- What the unique index sees changes with the committed rows and with the transaction. -/
theorem rows_move {new gone lost found : List Checkin} (hx : s.calls[call]? = some x)
    (hcalls : s'.calls = s.calls.set call y) (hrows : s'.checkins ++ gone ~ s.checkins ++ new)
    (hpending : y.pending usingSQLite ++ new ++ lost ~ x.pending usingSQLite ++ gone ++ found) :
    s'.rows usingSQLite ++ lost ~ s.rows usingSQLite ++ found := by
  have hpool := Pool.flatMap_set_perm (Call.pending usingSQLite) y hx
  rw [CheckinState.rows, CheckinState.rows, hcalls]
  rw [← Multiset.coe_eq_coe] at hpool hrows hpending ⊢
  simp only [← Multiset.coe_add] at hpool hrows hpending ⊢
  have hsame : (s'.checkins : Multiset Checkin) +
      (s.calls.set call y).flatMap (Call.pending usingSQLite) + lost +
        (gone + (x.pending usingSQLite : Multiset Checkin)) =
      s.checkins + (s.calls.flatMap (Call.pending usingSQLite) : List Checkin) + found +
        (gone + (x.pending usingSQLite : Multiset Checkin)) := by
    calc _ = (s'.checkins + gone : Multiset Checkin) +
          ((s.calls.set call y).flatMap (Call.pending usingSQLite) +
            (x.pending usingSQLite : Multiset Checkin)) + lost := by abel
      _ = s.checkins + (s.calls.flatMap (Call.pending usingSQLite) : List Checkin) +
          (y.pending usingSQLite + (new : Multiset Checkin) + lost) := by
          rw [hrows, hpool]; abel
      _ = _ := by rw [hpending]; abel
  exact add_right_cancel hsame

theorem Unique.shrink {lost : List Checkin} (hs : Unique usingSQLite s)
    (hrows : s'.rows usingSQLite ++ lost ~ s.rows usingSQLite) (hnext : s.nextId ≤ s'.nextId) :
    Unique usingSQLite s' := by
  obtain ⟨hindexed, hids, hfresh⟩ := hs
  have hsub : ∀ {β : Type} {f : Checkin → β}, ((s.rows usingSQLite).map f).Nodup →
      ((s'.rows usingSQLite).map f).Nodup := fun {β f} hnodup => by
    have hall := (hrows.map f).nodup_iff.2 hnodup
    rw [List.map_append] at hall
    exact hall.of_append_left
  refine ⟨hsub hindexed, hsub hids, fun checkin hmem => ?_⟩
  have hold := hfresh checkin (hrows.subset (List.mem_append_left lost hmem))
  omega

theorem Unique.grow (hs : Unique usingSQLite s)
    (hrows : s'.rows usingSQLite ~ s.rows usingSQLite ++ [checkin])
    (hindexed : checkin.indexed ∉ (s.rows usingSQLite).map Checkin.indexed)
    (hid : checkin.id = s.nextId) (hnext : s'.nextId = s.nextId + 1) : Unique usingSQLite s' := by
  obtain ⟨hkeys, hids, hfresh⟩ := hs
  have hnew : checkin.id ∉ (s.rows usingSQLite).map id := by
    intro hmem
    obtain ⟨row, hrow, hsame⟩ := List.mem_map.1 hmem
    have hold := hfresh row hrow
    omega
  have hadd : ∀ {β : Type} {f : Checkin → β}, ((s.rows usingSQLite).map f).Nodup →
      f checkin ∉ (s.rows usingSQLite).map f → ((s'.rows usingSQLite).map f).Nodup :=
    fun {β f} hnodup hout => by
      rw [(hrows.map f).nodup_iff, List.map_append, List.map_singleton]
      exact List.nodup_append.2 ⟨hnodup, List.nodup_singleton _, fun a ha b hb hsame => hout (by
        rw [← List.mem_singleton.1 hb, ← hsame]
        exact ha)⟩
  refine ⟨hadd hkeys hindexed, hadd hids hnew, fun row hmem => ?_⟩
  rcases List.mem_append.1 (hrows.subset hmem) with hold | hlast
  · have hbound := hfresh row hold
    omega
  · obtain rfl := List.mem_singleton.1 hlast
    omega

theorem Unique.once (hs : Unique usingSQLite s) : (s.checkins.map Checkin.indexed).Nodup := by
  have hall := hs.indexed
  rw [CheckinState.rows, List.map_append] at hall
  exact hall.of_append_left

/-- Deleting by the primary key takes out the one row. -/
theorem filter_id_perm {rows : List Checkin} (hids : (rows.map id).Nodup) (hmem : checkin ∈ rows) :
    (rows.filter fun row => row.id ≠ checkin.id) ++ [checkin] ~ rows := by
  have hnodup : rows.Nodup := hids.of_map
  rw [List.perm_ext_iff_of_nodup ?_ hnodup]
  · intro row
    rw [List.mem_append, List.mem_filter, List.mem_singleton, decide_eq_true_eq]
    constructor
    · rintro (⟨hrow, -⟩ | rfl)
      · exact hrow
      · exact hmem
    · intro hrow
      by_cases hsame : row.id = checkin.id
      · exact .inr (List.inj_on_of_nodup_map hids hrow hmem hsame)
      · exact .inl ⟨hrow, hsame⟩
  · refine List.nodup_append.2 ⟨hnodup.filter _, List.nodup_singleton _, ?_⟩
    intro row hrow other hother hsame
    rw [List.mem_singleton.1 hother] at hsame
    have hne := (List.mem_filter.1 hrow).2
    rw [decide_eq_true_eq, hsame] at hne
    exact hne rfl

variable (new gone paid lost : List Checkin)

/-- A change of the tables by which no row is new to the unique index. -/
theorem sound_of_shrink (hu : Unique usingSQLite s) (hx : s.calls[call]? = some x)
    (hcalls : s'.calls = s.calls.set call y) (hrows : s'.checkins ++ gone ~ s.checkins ++ new)
    (hquota : s'.userQuota = s.userQuota + awards paid)
    (hpending : y.pending usingSQLite ++ new ++ lost ~ x.pending usingSQLite ++ gone)
    (hstanding : y.standing usingSQLite ++ gone ~ x.standing usingSQLite ++ new)
    (hawaiting : y.awaiting usingSQLite ++ paid ++ gone ~ x.awaiting usingSQLite ++ new)
    (hnext : s.nextId ≤ s'.nextId) :
    Unique usingSQLite s' ∧ (PaidOnce usingSQLite first s → PaidOnce usingSQLite first s') := by
  have hmove : s'.rows usingSQLite ++ lost ~ s.rows usingSQLite ++ [] :=
    rows_move hx hcalls hrows (by rwa [List.append_nil])
  rw [List.append_nil] at hmove
  have hu' := hu.shrink hmove hnext
  exact ⟨hu', fun hs => hs.move hx hcalls hu'.once hrows hquota hstanding hawaiting⟩

/-- A change of the tables by which one row is new to the unique index. -/
theorem sound_of_grow (hu : Unique usingSQLite s) (hx : s.calls[call]? = some x)
    (hcalls : s'.calls = s.calls.set call y) (hrows : s'.checkins ++ gone ~ s.checkins ++ new)
    (hquota : s'.userQuota = s.userQuota + awards paid)
    (hpending : y.pending usingSQLite ++ new ~ x.pending usingSQLite ++ gone ++ [checkin])
    (hstanding : y.standing usingSQLite ++ gone ~ x.standing usingSQLite ++ new)
    (hawaiting : y.awaiting usingSQLite ++ paid ++ gone ~ x.awaiting usingSQLite ++ new)
    (hindexed : checkin.indexed ∉ (s.rows usingSQLite).map indexed) (hid : checkin.id = s.nextId)
    (hnext : s'.nextId = s.nextId + 1) :
    Unique usingSQLite s' ∧ (PaidOnce usingSQLite first s → PaidOnce usingSQLite first s') := by
  have hmove : s'.rows usingSQLite ++ [] ~ s.rows usingSQLite ++ [checkin] :=
    rows_move hx hcalls hrows (by rwa [List.append_nil])
  rw [List.append_nil] at hmove
  have hu' := hu.grow hmove hindexed hid hnext
  exact ⟨hu', fun hs => hs.move hx hcalls hu'.once hrows hquota hstanding hawaiting⟩

/-- A call that has no row in the table returns an error. -/
theorem returning_sound {err : String} (hu : Unique usingSQLite s) (hx : s.calls[call]? = some x)
    (hstanding : x.standing usingSQLite = []) (hawaiting : x.awaiting usingSQLite = []) :
    Unique usingSQLite (s.returning call (.error err)) ∧
      (PaidOnce usingSQLite first s →
        PaidOnce usingSQLite first (s.returning call (.error err))) := by
  refine sound_of_shrink [] [] [] (x.pending usingSQLite) hu hx rfl (.refl _) ?_ ?_ ?_ ?_ le_rfl
  · simp [CheckinState.returning, awards]
  · simp [Call.pending]
  · rw [hstanding]
    exact .refl _
  · rw [hawaiting]
    exact .refl _

theorem create_sound {userId : ℕ} {quotaAwarded : ℤ} (hu : Unique usingSQLite s)
    (hx : s.calls[call]? = some (.checked userId quotaAwarded)) (hid : checkin.id = s.nextId)
    (hcreate : s.create usingSQLite call checkin failure = some s') :
    Unique usingSQLite s' ∧ (PaidOnce usingSQLite first s → PaidOnce usingSQLite first s') := by
  unfold CheckinState.create at hcreate
  split at hcreate
  case isTrue =>
    cases hcreate
    exact returning_sound hu hx rfl rfl
  case isFalse hfree =>
    rw [Option.ite_none_left_eq_some] at hcreate
    obtain ⟨hopen, hsame⟩ := hcreate
    cases hsame
    have hindexed : checkin.indexed ∉ (s.rows usingSQLite).map indexed := by
      rw [CheckinState.rows, List.map_append, List.mem_append]
      exact not_or.2 ⟨fun hmem => hfree (.inr hmem), hopen⟩
    cases usingSQLite with
    | true =>
        refine sound_of_grow [checkin] [] [] hu hx rfl ?_ ?_ ?_ ?_ ?_ hindexed hid rfl
        · simp
        · simp [awards]
        · simp [Call.pending]
        · simp [Call.standing]
        · simp [Call.awaiting]
    | false =>
        refine sound_of_grow [] [] [] hu hx rfl ?_ ?_ ?_ ?_ ?_ hindexed hid rfl
        · simp
        · simp [awards]
        · simp [Call.pending]
        · simp [Call.standing]
        · simp [Call.awaiting]

theorem updateInTransaction_sound (hu : Unique false s)
    (hx : s.calls[call]? = some (.created checkin)) :
    Unique false (s.updateInTransaction call checkin failure) ∧
      (PaidOnce false first s →
        PaidOnce false first (s.updateInTransaction call checkin failure)) := by
  cases failure with
  | some err => exact returning_sound hu hx rfl rfl
  | none =>
      refine sound_of_shrink [] [] [] [] hu hx rfl (.refl _) ?_ ?_ ?_ ?_ le_rfl
      · simp [CheckinState.updateInTransaction, awards]
      · simp [Call.pending]
      · simp [Call.standing]
      · simp [Call.awaiting]

theorem increaseUserQuota_sound (hu : Unique true s)
    (hx : s.calls[call]? = some (.created checkin)) :
    Unique true (s.increaseUserQuota call checkin failure) ∧
      (PaidOnce true first s →
        PaidOnce true first (s.increaseUserQuota call checkin failure)) := by
  have huncredited : ∀ failed, Unique true { s with
        calls := s.calls.set call (.uncredited checkin failed) } ∧
      (PaidOnce true first s → PaidOnce true first { s with
        calls := s.calls.set call (.uncredited checkin failed) }) := by
    intro failed
    refine sound_of_shrink [] [] [] [] hu hx rfl (.refl _) ?_ ?_ ?_ ?_ le_rfl
    · simp [awards]
    · simp [Call.pending]
    · simp [Call.standing]
    · simp [Call.awaiting]
  unfold CheckinState.increaseUserQuota
  split_ifs
  case pos => exact huncredited false
  case pos => exact huncredited true
  case neg =>
    refine sound_of_shrink [] [] [checkin] [] hu hx rfl (.refl _) (bump_eq_add _ _) ?_ ?_ ?_ le_rfl
    · simp [Call.pending]
    · simp [Call.standing]
    · simp [Call.awaiting]

theorem commit_sound (hu : Unique usingSQLite s) (hx : s.calls[call]? = some (.updated checkin)) :
    Unique usingSQLite (s.commit call checkin failure) ∧
      (PaidOnce usingSQLite first s →
        PaidOnce usingSQLite first (s.commit call checkin failure)) := by
  cases failure with
  | some err => exact returning_sound hu hx rfl rfl
  | none =>
      refine sound_of_shrink [checkin] [] [checkin] [] hu hx rfl ?_ (bump_eq_add _ _) ?_ ?_ ?_ le_rfl
      · simp [CheckinState.commit]
      · simp [Call.pending]
      · simp [Call.standing]
      · simp [Call.awaiting]

/-- A row whose quota was not credited goes exactly if its delete does not fail. -/
theorem delete_sound {failed : Bool} (hu : Unique usingSQLite s)
    (hx : s.calls[call]? = some (.uncredited checkin failed)) :
    Unique usingSQLite (s.delete call checkin failure) ∧
      (PaidOnce usingSQLite first s →
        (PaidOnce usingSQLite first (s.delete call checkin failure) ↔ failure = none)) := by
  cases failure with
  | none =>
      -- for the index it is enough that rows go; that the call's own row goes needs the invariant
      have hdropped : (s.delete call checkin none).checkins ++
          s.checkins.filter (fun row => !decide (row.id ≠ checkin.id)) ~ s.checkins ++ [] := by
        rw [List.append_nil]
        exact List.filter_append_perm _ _
      have hrows : (s.delete call checkin none).rows usingSQLite ++
          s.checkins.filter (fun row => !decide (row.id ≠ checkin.id)) ~
            s.rows usingSQLite ++ [] :=
        rows_move hx rfl hdropped (by simp [Call.pending])
      rw [List.append_nil] at hrows
      have hu' := hu.shrink hrows le_rfl
      refine ⟨hu', fun hs => iff_of_true ?_ rfl⟩
      have hmem : checkin ∈ s.checkins := hs.kept.symm.subset (List.mem_append_right _
        (List.mem_flatMap.2 ⟨_, List.mem_of_getElem? hx, List.mem_singleton_self checkin⟩))
      have hids : (s.checkins.map id).Nodup := by
        have hall := hu.ids
        rw [CheckinState.rows, List.map_append] at hall
        exact hall.of_append_left
      have hgone : (s.delete call checkin none).checkins ++ [checkin] ~ s.checkins ++ [] := by
        rw [List.append_nil]
        exact filter_id_perm hids hmem
      have hquota : s.userQuota = s.userQuota + awards [] := (add_zero s.userQuota).symm
      exact hs.move hx rfl hu'.once hgone hquota (.refl _) (.refl _)
  | some err =>
      have hrows : (s.delete call checkin (some err)).rows usingSQLite ++ [] ~
          s.rows usingSQLite ++ [] := rows_move hx rfl (.refl (_ ++ [])) (.refl _)
      rw [List.append_nil (s.rows usingSQLite)] at hrows
      refine ⟨hu.shrink hrows le_rfl, fun hs => iff_of_false (fun hs' => ?_) nofun⟩
      -- the row is still there, but no call answers for it
      have hbefore := hs.kept.length_eq
      have hafter := hs'.kept.length_eq
      have hpool := (Pool.flatMap_set_perm (Call.standing usingSQLite)
        (.returned (.error "签到失败：更新额度出错")) hx).length_eq
      simp only [CheckinState.delete, Option.isSome_some, if_true, List.length_append, Call.standing,
        List.length_nil, List.length_singleton] at hbefore hafter hpool
      omega

/-! ## Runs of calls -/

/-- A call that begins has neither a row nor an open transaction. -/
theorem hasCheckedInToday_idle {userId : ℕ} {setting : CheckinSetting} {today : String} {drawn : ℤ}
    (hcall : s.hasCheckedInToday userId setting today drawn failure = some x) :
    x.pending usingSQLite = [] ∧ x.standing usingSQLite = [] ∧ x.awaiting usingSQLite = [] := by
  cases failure with
  | some err =>
      cases hcall
      exact ⟨rfl, rfl, rfl⟩
  | none =>
      dsimp only [CheckinState.hasCheckedInToday] at hcall
      split at hcall
      case isTrue =>
        cases hcall
        exact ⟨rfl, rfl, rfl⟩
      case isFalse =>
        obtain ⟨quotaAwarded, -, rfl⟩ := Option.map_eq_some_iff.1 hcall
        exact ⟨rfl, rfl, rfl⟩

theorem begin_sound (hu : Unique usingSQLite s) (hpending : x.pending usingSQLite = [])
    (hstanding : x.standing usingSQLite = []) (hawaiting : x.awaiting usingSQLite = []) :
    Unique usingSQLite { s with calls := s.calls ++ [x] } ∧
      (PaidOnce usingSQLite first s →
        PaidOnce usingSQLite first { s with calls := s.calls ++ [x] }) := by
  have hsame : ∀ items : Call → List Checkin, items x = [] →
      (s.calls ++ [x]).flatMap items = s.calls.flatMap items := fun items hnil => by
    rw [List.flatMap_append, List.flatMap_singleton, hnil, List.append_nil]
  constructor
  · obtain ⟨hindexed, hids, hfresh⟩ := hu
    have hrows : ({ s with calls := s.calls ++ [x] } : CheckinState).rows usingSQLite =
        s.rows usingSQLite := congrArg (s.checkins ++ ·) (hsame _ hpending)
    exact ⟨by rwa [hrows], by rwa [hrows], by rwa [hrows]⟩
  · intro hs
    obtain ⟨honce, hgrown, hkept⟩ := hs
    refine ⟨honce, ?_, ?_⟩
    · show s.userQuota + awards ((s.calls ++ [x]).flatMap _) + _ = _
      rw [hsame _ hawaiting]
      exact hgrown
    · show s.checkins ~ first.checkins ++ (s.calls ++ [x]).flatMap _
      rw [hsame _ hstanding]
      exact hkept

variable (first) in
/-- What is paid once stays so exactly if no delete fails. -/
theorem step_sound {statement : Statement} (hstep : step usingSQLite s statement = some s')
    (hu : Unique usingSQLite s) :
    Unique usingSQLite s' ∧
      (PaidOnce usingSQLite first s → (PaidOnce usingSQLite first s' ↔ Deletes statement)) := by
  have hkeeps : Deletes statement → (Unique usingSQLite s' ∧
      (PaidOnce usingSQLite first s → PaidOnce usingSQLite first s')) →
      Unique usingSQLite s' ∧
        (PaidOnce usingSQLite first s → (PaidOnce usingSQLite first s' ↔ Deletes statement)) :=
    fun hdeletes hsound => ⟨hsound.1, fun hs => iff_of_true (hsound.2 hs) hdeletes⟩
  cases statement with
  | hasCheckedInToday userId setting today drawn failure =>
      refine hkeeps trivial ?_
      rw [step] at hstep
      split at hstep
      case isTrue =>
        cases hstep
        exact begin_sound hu rfl rfl rfl
      case isFalse =>
        obtain ⟨x, hcall, rfl⟩ := Option.map_eq_some_iff.1 hstep
        obtain ⟨hpending, hstanding, hawaiting⟩ := hasCheckedInToday_idle hcall
        exact begin_sound hu hpending hstanding hawaiting
  | create call today now failure =>
      refine hkeeps trivial ?_
      rw [step] at hstep
      split at hstep
      case h_1 userId quotaAwarded hx => exact create_sound hu hx rfl hstep
      case h_2 => cases hstep
  | updateQuota call failure =>
      refine hkeeps trivial ?_
      rw [step] at hstep
      split at hstep
      case h_1 checkin hx =>
        cases hstep
        cases usingSQLite with
        | true => exact increaseUserQuota_sound hu hx
        | false => exact updateInTransaction_sound hu hx
      case h_2 => cases hstep
  | commit call failure =>
      refine hkeeps trivial ?_
      rw [step] at hstep
      split at hstep
      case h_1 checkin hx =>
        cases hstep
        exact commit_sound hu hx
      case h_2 => cases hstep
  | delete call failure =>
      rw [step] at hstep
      split at hstep
      case h_1 checkin failed hx =>
        rw [Option.ite_none_left_eq_some] at hstep
        cases hstep.2
        exact delete_sound hu hx
      case h_2 => cases hstep

theorem paidOnce_first (hu : Unique usingSQLite first) (hcalls : first.calls = []) :
    PaidOnce usingSQLite first first := by
  refine ⟨hu.once, ?_, ?_⟩
  · rw [hcalls]
    exact congrArg (· + awards first.checkins) (add_zero first.userQuota)
  · rw [hcalls, List.flatMap_nil, List.append_nil]

/-- Check-in pays once in all states of a run exactly if no delete of an uncredited row fails. -/
theorem checkin_pays_once_iff (usingSQLite : Bool) (first after : CheckinState)
    (statements : List Statement) (hunique : Unique usingSQLite first) (hcalls : first.calls = [])
    (hrun : (system usingSQLite).run first statements = some after) :
    (∀ before later s, statements = before ++ later →
        (system usingSQLite).run first before = some s → PaidOnce usingSQLite first s) ↔
      (system usingSQLite).Along (fun _ => Deletes) first statements :=
  System.states_iff_along (fun hstep hu => (step_sound first hstep hu).1)
    (fun hstep hu hs => (step_sound first hstep hu).2 hs) hunique (paidOnce_first hunique hcalls)
    hrun

end

/-- No row and no quota yet. -/
def CheckinState.empty : CheckinState where
  checkins := []
  userQuota := 0
  nextId := 1
  calls := []

/-- Two calls of one user find no row; one of them creates it, the other waits and fails. -/
def concurrentCalls : List Statement :=
  [.hasCheckedInToday 7 ⟨true, 1000, 10000⟩ "2025-01-01" 234 none,
    .hasCheckedInToday 7 ⟨true, 1000, 10000⟩ "2025-01-01" 0 none,
    .create 0 "2025-01-01" 50 none, .updateQuota 0 none, .commit 0 none,
    .create 1 "2025-01-01" 51 none]

theorem concurrent_calls_pay_once :
    ∃ s, (system false).run .empty concurrentCalls = some s ∧ s.userQuota 7 = 1234 ∧
      PaidOnce false .empty s :=
  ⟨_, rfl, rfl, (checkin_pays_once_iff false .empty _ concurrentCalls
    ⟨List.nodup_nil, List.nodup_nil, nofun⟩ rfl rfl).2 (by decide) concurrentCalls [] _ rfl rfl⟩

/-- On SQLite a negative award is refused after the row is created, and its delete fails. -/
def refusedAward : List Statement :=
  [.hasCheckedInToday 7 ⟨true, -5, -5⟩ "2025-01-01" 0 none, .create 0 "2025-01-01" 50 none,
    .updateQuota 0 none, .delete 0 (some "database is locked")]

theorem refused_award_stays :
    ∃ s, (system true).run .empty refusedAward = some s ∧
      s.checkins = [⟨1, 7, "2025-01-01", -5, 50⟩] ∧ s.userQuota 7 = 0 ∧
      s.calls = [.returned (.error "签到失败：更新额度出错")] ∧ ¬ PaidOnce true .empty s := by
  refine ⟨_, rfl, rfl, rfl, rfl, fun hs => ?_⟩
  cases hs.kept.length_eq

/-! ## Awards that are not negative -/

section

variable {usingSQLite : Bool} {first s s' : CheckinState} {statement : Statement}

/-- The setting that a call begins with awards no negative quota. -/
def AwardsNonneg : Statement → Prop
  | .hasCheckedInToday _ setting _ _ _ => 0 ≤ setting.minQuota
  | _ => True

/-- The award of a call is not negative, so that its credit has only been refused by the database.
-/
def Call.Nonneg : Call → Prop
  | .checked _ quotaAwarded => 0 ≤ quotaAwarded
  | .created checkin => 0 ≤ checkin.quotaAwarded
  | .uncredited _ failed => failed = true
  | _ => True

theorem quotaAwardedBy_nonneg {setting : CheckinSetting} {drawn quotaAwarded : ℤ}
    (hsetting : 0 ≤ setting.minQuota) (haward : quotaAwardedBy setting drawn = some quotaAwarded) :
    0 ≤ quotaAwarded := by
  grind [quotaAwardedBy]

theorem nonneg_step (hstep : step usingSQLite s statement = some s')
    (hnonneg : AwardsNonneg statement) (hs : ∀ call ∈ s.calls, call.Nonneg) :
    ∀ call ∈ s'.calls, call.Nonneg := by
  have hset : ∀ {i : ℕ} {y : Call}, y.Nonneg → ∀ call ∈ s.calls.set i y, call.Nonneg :=
    Pool.forall_mem_set hs
  have hold : ∀ {i : ℕ} {x : Call}, s.calls[i]? = some x → x.Nonneg := fun hx =>
    hs _ (List.mem_of_getElem? hx)
  cases statement with
  | hasCheckedInToday userId setting today drawn failure =>
      have hbegin : ∀ {y : Call}, y.Nonneg → ∀ call ∈ s.calls ++ [y], call.Nonneg := fun hy =>
        List.forall_mem_append.2 ⟨hs, by simpa using hy⟩
      have hbegun : ∀ y, s.hasCheckedInToday userId setting today drawn failure = some y →
          y.Nonneg := by
        cases failure with
        | none =>
            grind [CheckinState.hasCheckedInToday, quotaAwardedBy_nonneg, AwardsNonneg,
              Call.Nonneg, Option.map_eq_some_iff]
        | some err => grind [CheckinState.hasCheckedInToday, Call.Nonneg]
      grind [step, Call.Nonneg, Option.map_eq_some_iff]
  | create call today now failure =>
      grind [step, CheckinState.create, CheckinState.returning, Call.Nonneg]
  | updateQuota call failure =>
      cases failure <;> grind [step, CheckinState.increaseUserQuota,
        CheckinState.updateInTransaction, CheckinState.returning, Call.Nonneg]
  | commit call failure =>
      cases failure <;> grind [step, CheckinState.commit, CheckinState.returning, Call.Nonneg]
  | delete call failure => grind [step, CheckinState.delete, Call.Nonneg]

/-- Where a statement of the call has failed already, the delete does not. -/
theorem deletes_of_nonneg (hstep : step usingSQLite s statement = some s')
    (hs : ∀ call ∈ s.calls, call.Nonneg) : Deletes statement := by
  have hold : ∀ {i : ℕ} {x : Call}, s.calls[i]? = some x → x.Nonneg := fun hx =>
    hs _ (List.mem_of_getElem? hx)
  cases statement with
  | delete call failure => cases failure <;> grind [step, Deletes, Call.Nonneg]
  | _ => trivial

/-- Where no setting awards a negative quota, check-in pays once. -/
theorem pays_once_of_nonneg {after : CheckinState} {statements : List Statement}
    (hunique : Unique usingSQLite first) (hcalls : first.calls = [])
    (hnonneg : ∀ statement ∈ statements, AwardsNonneg statement)
    (hrun : (system usingSQLite).run first statements = some after) :
    PaidOnce usingSQLite first after := by
  have hdeletes : (system usingSQLite).Along (fun _ => Deletes) first statements :=
    (System.along_congr (C := fun _ => AwardsNonneg) (E := fun _ _ => True)
      (I := fun s => ∀ call ∈ s.calls, call.Nonneg)
      (fun hstep hC hs => nonneg_step hstep hC hs)
      (fun hstep _ hs => iff_of_true (deletes_of_nonneg hstep hs) trivial)
      (by rw [hcalls]; simp) (System.along_of_forall_mem hnonneg first) hrun).2
      (System.along_of_forall (fun _ _ => trivial) first statements)
  exact System.invariant_run (C := fun _ => Deletes)
    (I := fun s => Unique usingSQLite s ∧ PaidOnce usingSQLite first s)
    (fun hstep hdelete hs => ⟨(step_sound first hstep hs.1).1,
      ((step_sound first hstep hs.1).2 hs.2).2 hdelete⟩)
    ⟨hunique, paidOnce_first hunique hcalls⟩ hdeletes hrun |>.2

end

/-- On SQLite the credit of a row fails and the row is deleted, so that the user checks in again. -/
def uncreditedCalls : List Statement :=
  [.hasCheckedInToday 7 ⟨true, 1000, 10000⟩ "2025-01-01" 234 none,
    .hasCheckedInToday 7 ⟨true, 1000, 10000⟩ "2025-01-01" 0 none,
    .create 0 "2025-01-01" 50 none, .create 1 "2025-01-01" 51 none,
    .updateQuota 0 (some "database is locked"), .delete 0 none,
    .hasCheckedInToday 7 ⟨true, 1000, 10000⟩ "2025-01-01" 34 none,
    .create 2 "2025-01-01" 60 none, .updateQuota 2 none]

theorem concurrent_calls_pay_once_nonneg :
    (∃ s, (system false).run .empty concurrentCalls = some s ∧ PaidOnce false .empty s) ∧
      ∃ s, (system true).run .empty uncreditedCalls = some s ∧ s.userQuota 7 = 1034 ∧
        PaidOnce true .empty s := by
  have hunique : ∀ usingSQLite, Unique usingSQLite .empty := fun usingSQLite =>
    ⟨List.nodup_nil, List.nodup_nil, fun _ hmem => absurd hmem List.not_mem_nil⟩
  have hnonneg : ∀ statement ∈ concurrentCalls ++ uncreditedCalls, AwardsNonneg statement := by
    simp [concurrentCalls, uncreditedCalls, AwardsNonneg]
  obtain ⟨hconcurrent, huncredited⟩ := List.forall_mem_append.1 hnonneg
  have hrun : (system false).run .empty concurrentCalls = some _ := rfl
  have hretried : (system true).run .empty uncreditedCalls = some _ := rfl
  exact ⟨⟨_, hrun, pays_once_of_nonneg (hunique false) rfl hconcurrent hrun⟩,
    ⟨_, hretried, rfl, pays_once_of_nonneg (hunique true) rfl huncredited hretried⟩⟩

end Checkin

end NewApi.Model
