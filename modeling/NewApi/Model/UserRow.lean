import NewApi.Lib.System
import NewApi.Lib.Pool
import NewApi.Lib.Decimal

/-!
# Concurrent writes to a user row

The quota of a user is moved by atomic relative updates, but the same row is also written
by handlers that read it, edit the copy and write the copy back: `User.Update` writes the
nonzero fields of the copy, `inviteUser` and `TransferAffQuotaToQuota` write all of it.
Each database statement is one action here, so another statement can fall between the read
and the write of a handler.
-/

namespace NewApi.Model

open NewApi.Lib

/-- A row of the `users` table.  The text columns (`setting`, `email`, the OAuth ids, …) are
addressed by column name. -/
structure User where
  role : ℤ
  status : ℤ
  quota : ℤ
  usedQuota : ℤ
  requestCount : ℤ
  affCount : ℤ
  affQuota : ℤ
  affHistoryQuota : ℤ
  text : String → String

namespace User

/-- The zero value of the struct. -/
def empty : User where
  role := 0
  status := 0
  quota := 0
  usedQuota := 0
  requestCount := 0
  affCount := 0
  affQuota := 0
  affHistoryQuota := 0
  text := fun _ => ""

def setText (user : User) (column value : String) : User :=
  { user with text := Function.update user.text column value }

/-- `Updates` with a struct writes a column only where the struct's field is not zero. -/
def writeNonZero {α : Type} [DecidableEq α] (zero old new : α) : α :=
  if new = zero then old else new

/-- `DB.Model(user).Updates(newUser)` on the stored row. -/
def updates (row newUser : User) : User where
  role := writeNonZero 0 row.role newUser.role
  status := writeNonZero 0 row.status newUser.status
  quota := writeNonZero 0 row.quota newUser.quota
  usedQuota := writeNonZero 0 row.usedQuota newUser.usedQuota
  requestCount := writeNonZero 0 row.requestCount newUser.requestCount
  affCount := writeNonZero 0 row.affCount newUser.affCount
  affQuota := writeNonZero 0 row.affQuota newUser.affQuota
  affHistoryQuota := writeNonZero 0 row.affHistoryQuota newUser.affHistoryQuota
  text := fun column => writeNonZero "" (row.text column) (newUser.text column)

end User

/-- The actions of `ManageUser` that end in `User.Update`. -/
inductive ManageAction where
  | disable
  | enable
  | promote
  | demote
deriving DecidableEq, Repr

def RoleCommonUser : ℤ := 1
def RoleAdminUser : ℤ := 10
def RoleRootUser : ℤ := 100
def UserStatusEnabled : ℤ := 1
def UserStatusDisabled : ℤ := 2

/-- The edit `ManageUser` makes on the row it loaded, or `none` where it refuses. -/
def manageUser (myRole : ℤ) (user : User) (action : ManageAction) : Option User :=
  if myRole ≤ user.role ∧ myRole ≠ RoleRootUser then none
  else
    match action with
    | .disable =>
        if user.role = RoleRootUser then none else some { user with status := UserStatusDisabled }
    | .enable => some { user with status := UserStatusEnabled }
    | .promote =>
        if myRole ≠ RoleRootUser ∨ RoleAdminUser ≤ user.role then none
        else some { user with role := RoleAdminUser }
    | .demote =>
        if user.role = RoleRootUser ∨ user.role = RoleCommonUser then none
        else some { user with role := RoleCommonUser }

/-- The requests that write a user row from a copy. -/
inductive UserRequest where
  | updateUserSetting (setting : String)
  | updateSelf (username password displayName : String)
  | emailBind (email : String)
  | oauthBind (column id : String)
  | manageUser (myRole : ℤ) (action : ManageAction)
  | inviteUser
  | transferAffQuotaToQuota (quota : ℤ)

/-- Where a request stands: `User.Update` holds its copy `newUser` before and after it
re-reads the row, `inviteUser` and `TransferAffQuotaToQuota` hold the row they read. -/
inductive UserProc where
  | updating (newUser : User)
  | writing (newUser : User)
  | saving (user : User)
  | transferring (user : User) (quota : ℤ)
  | returned

/-- `QuotaPerUnit` bounds a transfer from below, `QuotaForInviter` is the reward of an
invitation. -/
structure UserConfig (F : Type) where
  quotaPerUnit : F
  quotaForInviter : ℤ

/-- The stored row and the requests in progress on it. -/
structure UserState where
  row : User
  procs : List UserProc

/-- The atomic actions: a relative update, a request that starts by reading the row, and
the next statement of a request, which may fail. -/
inductive UserAction where
  | increaseUserQuota (quota : ℤ)
  | decreaseUserQuota (quota : ℤ)
  | updateUserUsedQuotaAndRequestCount (quota count : ℤ)
  | start (request : UserRequest)
  | advance (proc : ℕ) (ok : Bool)

section

variable {F : Type} [Float64 F]

/-- The first read of a request: the copy it goes on with, or `none` where it stops. -/
def UserRequest.load (cfg : UserConfig F) (row : User) : UserRequest → Option UserProc
  | .updateUserSetting setting => some (.updating (row.setText "setting" setting))
  | .updateSelf username password displayName =>
      some (.updating (((User.empty.setText "username" username).setText "password" password).setText
        "display_name" displayName))
  | .emailBind email => some (.updating (row.setText "email" email))
  | .oauthBind column id => some (.updating (row.setText column id))
  | .manageUser myRole action => (NewApi.Model.manageUser myRole row action).map .updating
  | .inviteUser => if 0 < cfg.quotaForInviter then some (.saving row) else none
  | .transferAffQuotaToQuota quota =>
      if Float64.lt (Float64.ofInt quota) cfg.quotaPerUnit then none
      else some (.transferring row quota)

/-- The row `inviteUser` saves, from the row it read. -/
def inviteUser (cfg : UserConfig F) (user : User) : User :=
  { user with
    affCount := user.affCount + 1
    affQuota := user.affQuota + cfg.quotaForInviter
    affHistoryQuota := user.affHistoryQuota + cfg.quotaForInviter }

/-- The row `TransferAffQuotaToQuota` saves, from the row it read. -/
def transferAffQuotaToQuota (user : User) (quota : ℤ) : User :=
  { user with affQuota := user.affQuota - quota, quota := user.quota + quota }

namespace UserState

/-- The next statement of a request.  The transfer's `Save` and `Commit` are one action: the
row lock taken by the first is held until the second. -/
def advance (cfg : UserConfig F) (s : UserState) (i : ℕ) (ok : Bool) :
    UserProc → Option UserState
  | .updating newUser => some { s with procs := s.procs.set i (.writing newUser) }
  | .writing newUser =>
      some
        { row := if ok then s.row.updates newUser else s.row
          procs := s.procs.set i .returned }
  | .saving user =>
      some
        { row := if ok then inviteUser cfg user else s.row
          procs := s.procs.set i .returned }
  | .transferring user quota =>
      some
        { row := if user.affQuota < quota then s.row
            else if ok then transferAffQuotaToQuota user quota else s.row
          procs := s.procs.set i .returned }
  | .returned => none

def step (cfg : UserConfig F) (s : UserState) : UserAction → Option UserState
  | .increaseUserQuota quota =>
      if quota < 0 then some s
      else some { s with row := { s.row with quota := s.row.quota + quota } }
  | .decreaseUserQuota quota =>
      if quota < 0 then some s
      else some { s with row := { s.row with quota := s.row.quota - quota } }
  | .updateUserUsedQuotaAndRequestCount quota count =>
      some
        { s with
          row :=
            { s.row with
              usedQuota := s.row.usedQuota + quota
              requestCount := s.row.requestCount + count } }
  | .start request =>
      match request.load cfg s.row with
      | none => some s
      | some proc => some { s with procs := s.procs ++ [proc] }
  | .advance i ok => do
      let proc ← s.procs[i]?
      s.advance cfg i ok proc

end UserState

/-- Any number of quota updates and row-writing requests on one user, interleaved. -/
def userRow (cfg : UserConfig F) : System UserState UserAction where
  step := UserState.step cfg

end

namespace UserState

/-- The change of the quota by a relative update; a negative amount is an error. -/
def delta (_ : UserState) : UserAction → ℤ
  | .increaseUserQuota quota => if quota < 0 then 0 else quota
  | .decreaseUserQuota quota => if quota < 0 then 0 else -quota
  | _ => 0

/-- The amount an action transfers, when it is the successful end of a transfer. -/
def transferred (s : UserState) : UserAction → ℤ
  | .advance i true =>
      match s.procs[i]? with
      | some (.transferring user quota) => if user.affQuota < quota then 0 else quota
      | _ => 0
  | _ => 0

/-- The reward an action grants, when it is the successful end of an invitation. -/
def rewarded {F : Type} (cfg : UserConfig F) (s : UserState) : UserAction → ℤ
  | .advance i true =>
      match s.procs[i]? with
      | some (.saving _) => cfg.quotaForInviter
      | _ => 0
  | _ => 0

/-- A copy agrees with the stored row on the two quota columns. -/
def Current (s : UserState) (user : User) : Prop :=
  user.quota = s.row.quota ∧ user.affQuota = s.row.affQuota

instance (s : UserState) (user : User) : Decidable (s.Current user) :=
  inferInstanceAs (Decidable (_ ∧ _))

/-- The quota columns that the write of this request would store are the stored ones, apart
from its own reward or transfer. -/
def WritesCurrent (s : UserState) : UserProc → Prop
  | .writing newUser =>
      (newUser.quota = 0 ∨ newUser.quota = s.row.quota) ∧
        (newUser.affQuota = 0 ∨ newUser.affQuota = s.row.affQuota)
  | .saving user => s.Current user
  | .transferring user quota => user.affQuota < quota ∨ s.Current user
  | _ => True

instance (s : UserState) : DecidablePred s.WritesCurrent := fun proc => by
  cases proc <;> unfold WritesCurrent <;> infer_instance

/-- No action writes back a quota column that changed since it was read. -/
def NoStaleWrite (s : UserState) : UserAction → Prop
  | .advance i true => s.WritesCurrent (s.procs[i]?.getD .returned)
  | _ => True

instance (s : UserState) : DecidablePred s.NoStaleWrite := fun a => by
  unfold NoStaleWrite
  split <;> infer_instance

section

variable {F : Type} [Float64 F] {cfg : UserConfig F} {s s' : UserState} {a : UserAction}

/-- Inversion of a step: it moves the quotas relatively, leaves them alone, or is the write
of a request in progress. -/
theorem step_cases (hstep : s.step cfg a = some s') :
    (s'.procs = s.procs ∧ s'.row.quota = s.row.quota + s.delta a ∧
      s'.row.affQuota = s.row.affQuota ∧ s.transferred a = 0 ∧ s.rewarded cfg a = 0) ∨
    (∃ request proc, a = .start request ∧ request.load cfg s.row = some proc ∧
      s' = { s with procs := s.procs ++ [proc] }) ∨
    (∃ i ok proc, a = .advance i ok ∧ s.procs[i]? = some proc ∧
      s.advance cfg i ok proc = some s') := by
  cases a with
  | increaseUserQuota quota =>
      left
      simp only [step] at hstep
      split at hstep
      case isTrue hneg =>
        obtain rfl : s = s' := by simpa using hstep
        simp [delta, transferred, rewarded, hneg]
      case isFalse hpos =>
        obtain rfl : _ = s' := by simpa using hstep
        simp [delta, transferred, rewarded, hpos]
  | decreaseUserQuota quota =>
      left
      simp only [step] at hstep
      split at hstep
      case isTrue hneg =>
        obtain rfl : s = s' := by simpa using hstep
        simp [delta, transferred, rewarded, hneg]
      case isFalse hpos =>
        obtain rfl : _ = s' := by simpa using hstep
        simp [delta, transferred, rewarded, hpos, Int.sub_eq_add_neg]
  | updateUserUsedQuotaAndRequestCount quota count =>
      left
      obtain rfl : _ = s' := by simpa [step] using hstep
      simp [delta, transferred, rewarded]
  | start request =>
      cases hload : request.load cfg s.row with
      | none =>
          left
          obtain rfl : s = s' := by simpa [step, hload] using hstep
          simp [delta, transferred, rewarded]
      | some proc =>
          right; left
          exact ⟨request, proc, rfl, hload, by simpa [step, hload] using hstep.symm⟩
  | advance i ok =>
      right; right
      cases hproc : s.procs[i]? with
      | none => simp [step, hproc] at hstep
      | some proc => exact ⟨i, ok, proc, rfl, hproc, by simpa [step, hproc] using hstep⟩

omit [Float64 F] in
theorem writeNonZero_current {new old : ℤ} (hnew : new = 0 ∨ new = old) :
    User.writeNonZero 0 old new = old := by
  unfold User.writeNonZero
  split
  · rfl
  · omega

omit [Float64 F] in
/-- The write of a request in progress moves the quota columns by its transfer and reward,
provided it writes no stale column. -/
theorem advance_quota {i : ℕ} {ok : Bool} {proc : UserProc} (hproc : s.procs[i]? = some proc)
    (hcurrent : s.NoStaleWrite (.advance i ok)) (hstep : s.advance cfg i ok proc = some s') :
    s'.row.quota = s.row.quota + s.transferred (.advance i ok) ∧
      s'.row.affQuota =
        s.row.affQuota + (s.rewarded cfg (.advance i ok) - s.transferred (.advance i ok)) := by
  cases proc with
  | updating newUser =>
      obtain rfl : _ = s' := by simpa [advance] using hstep
      cases ok <;> simp [transferred, rewarded, hproc]
  | writing newUser =>
      obtain rfl : _ = s' := by simpa [advance] using hstep
      cases ok with
      | false => simp [transferred, rewarded]
      | true =>
          obtain ⟨hquota, haff⟩ : _ ∧ _ := by simpa [NoStaleWrite, hproc, WritesCurrent] using hcurrent
          simp [transferred, rewarded, hproc, User.updates, writeNonZero_current hquota,
            writeNonZero_current haff]
  | saving user =>
      obtain rfl : _ = s' := by simpa [advance] using hstep
      cases ok with
      | false => simp [transferred, rewarded]
      | true =>
          obtain ⟨hquota, haff⟩ : s.Current user := by
            simpa [NoStaleWrite, hproc, WritesCurrent] using hcurrent
          simp [transferred, rewarded, hproc, inviteUser, hquota, haff]
  | transferring user quota =>
      obtain rfl : _ = s' := by simpa [advance] using hstep
      cases ok with
      | false => simp [transferred, rewarded]
      | true =>
          by_cases hlow : user.affQuota < quota
          · simp [transferred, rewarded, hproc, hlow]
          · have hcopy : s.Current user := by
              simpa [NoStaleWrite, hproc, WritesCurrent, hlow] using hcurrent
            obtain ⟨hquota, haff⟩ := hcopy
            have henough : ¬s.row.affQuota < quota := haff ▸ hlow
            simp [transferred, rewarded, hproc, henough, transferAffQuotaToQuota, hquota, haff,
              sub_eq_add_neg]
  | returned => simp [advance] at hstep

/-- Step lemma: without a stale write both quota columns move by what was requested. -/
theorem step_quota (hstep : s.step cfg a = some s') (hcurrent : s.NoStaleWrite a) :
    s'.row.quota = s.row.quota + (s.delta a + s.transferred a) ∧
      s'.row.affQuota = s.row.affQuota + (s.rewarded cfg a - s.transferred a) := by
  rcases step_cases hstep with ⟨-, hquota, haff, htransfer, hreward⟩ |
    ⟨request, proc, rfl, -, rfl⟩ | ⟨i, ok, proc, rfl, hproc, hadvance⟩
  · simp [hquota, haff, htransfer, hreward]
  · simp [delta, transferred, rewarded]
  · simpa [delta] using advance_quota hproc hcurrent hadvance

/-- The affiliate quota of a copy in use is not negative, and an invitation in progress pays
a positive reward. -/
def ProcNonneg (cfg : UserConfig F) : UserProc → Prop
  | .updating newUser => 0 ≤ newUser.affQuota
  | .writing newUser => 0 ≤ newUser.affQuota
  | .saving user => 0 ≤ user.affQuota ∧ 0 < cfg.quotaForInviter
  | .transferring user _ => 0 ≤ user.affQuota
  | .returned => True

/-- The stored affiliate quota and those of all copies in use are not negative. -/
structure AffNonneg (cfg : UserConfig F) (s : UserState) : Prop where
  row : 0 ≤ s.row.affQuota
  procs : ∀ proc ∈ s.procs, ProcNonneg cfg proc

theorem manageUser_affQuota {myRole : ℤ} {user user' : User} {action : ManageAction}
    (hmanage : manageUser myRole user action = some user') :
    user'.affQuota = user.affQuota := by
  unfold manageUser at hmanage
  split at hmanage
  · simp at hmanage
  · cases action with
    | disable =>
        obtain ⟨-, rfl⟩ : _ ∧ _ := by simpa using hmanage
        rfl
    | enable =>
        obtain rfl : _ = user' := by simpa using hmanage
        rfl
    | promote =>
        obtain ⟨-, rfl⟩ : _ ∧ _ := by simpa using hmanage
        rfl
    | demote =>
        obtain ⟨-, rfl⟩ : _ ∧ _ := by simpa using hmanage
        rfl

/-- A request starts from a copy of the row or from a struct without quotas. -/
theorem load_nonneg {row : User} {request : UserRequest} {proc : UserProc}
    (hrow : 0 ≤ row.affQuota) (hload : request.load cfg row = some proc) :
    ProcNonneg cfg proc := by
  cases request with
  | updateUserSetting setting =>
      obtain rfl : _ = proc := by simpa [UserRequest.load] using hload
      exact hrow
  | updateSelf username password displayName =>
      obtain rfl : _ = proc := by simpa [UserRequest.load] using hload
      exact Int.le_refl 0
  | emailBind email =>
      obtain rfl : _ = proc := by simpa [UserRequest.load] using hload
      exact hrow
  | oauthBind column id =>
      obtain rfl : _ = proc := by simpa [UserRequest.load] using hload
      exact hrow
  | manageUser myRole action =>
      obtain ⟨user', hmanage, rfl⟩ : ∃ user', _ ∧ _ = proc := by
        simpa [UserRequest.load] using hload
      simpa [ProcNonneg, manageUser_affQuota hmanage] using hrow
  | inviteUser =>
      obtain ⟨hreward, rfl⟩ : _ ∧ _ = proc := by simpa [UserRequest.load] using hload
      exact ⟨hrow, hreward⟩
  | transferAffQuotaToQuota quota =>
      obtain ⟨-, rfl⟩ : _ ∧ _ = proc := by simpa [UserRequest.load] using hload
      exact hrow

omit [Float64 F] in
/-- The write of a request keeps the affiliate quota from becoming negative. -/
theorem advance_nonneg {i : ℕ} {ok : Bool} {proc : UserProc} (hproc : s.procs[i]? = some proc)
    (hinv : AffNonneg cfg s) (hstep : s.advance cfg i ok proc = some s') :
    AffNonneg cfg s' := by
  have hcopy : ProcNonneg cfg proc := hinv.procs proc (List.mem_of_getElem? hproc)
  have hdone := Pool.forall_mem_set (i := i) hinv.procs (y := UserProc.returned) trivial
  cases proc with
  | updating newUser =>
      obtain rfl : _ = s' := by simpa [advance] using hstep
      exact ⟨hinv.row, Pool.forall_mem_set hinv.procs hcopy⟩
  | writing newUser =>
      obtain rfl : _ = s' := by simpa [advance] using hstep
      refine ⟨?_, hdone⟩
      have hrow := hinv.row
      simp only [ProcNonneg] at hcopy
      cases ok with
      | false => exact hrow
      | true =>
          simp only [if_true, User.updates, User.writeNonZero]
          split <;> assumption
  | saving user =>
      obtain rfl : _ = s' := by simpa [advance] using hstep
      refine ⟨?_, hdone⟩
      obtain ⟨hcopy, hreward⟩ := hcopy
      cases ok with
      | false => exact hinv.row
      | true =>
          simp only [if_true, inviteUser]
          omega
  | transferring user quota =>
      obtain rfl : _ = s' := by simpa [advance] using hstep
      refine ⟨?_, hdone⟩
      by_cases hlow : user.affQuota < quota
      · simpa [hlow] using hinv.row
      · cases ok with
        | false => simpa [hlow] using hinv.row
        | true =>
            simp only [hlow, if_true, if_false, transferAffQuotaToQuota]
            omega
  | returned => simp [advance] at hstep

/-- Step lemma: the affiliate quota never becomes negative, stale writes or not. -/
theorem step_nonneg (hstep : s.step cfg a = some s') (hinv : AffNonneg cfg s) :
    AffNonneg cfg s' := by
  rcases step_cases hstep with ⟨hprocs, -, haff, -, -⟩ |
    ⟨request, proc, rfl, hload, rfl⟩ | ⟨i, ok, proc, rfl, hproc, hadvance⟩
  · exact ⟨haff ▸ hinv.row, hprocs ▸ hinv.procs⟩
  · refine ⟨hinv.row, fun other hother => ?_⟩
    rcases List.mem_append.1 hother with hold | hnew
    · exact hinv.procs other hold
    · obtain rfl : other = proc := by simpa using hnew
      exact load_nonneg hinv.row hload
  · exact advance_nonneg hproc hinv hadvance

end

end UserState

/-- A row nobody is working on. -/
def UserState.start (row : User) : UserState where
  row := row
  procs := []

open UserState

/-- No stale write, no lost update: the quota ends as its initial value plus all deltas and
transfers, the affiliate quota as its initial value plus the rewards less the transfers,
and the latter never becomes negative. -/
theorem user_row_keeps_updates {F : Type} [Float64 F] {cfg : UserConfig F} {row : User}
    {s' : UserState} {as : List UserAction}
    (hfresh : (userRow cfg).Along NoStaleWrite (start row) as)
    (hrun : (userRow cfg).run (start row) as = some s') :
    s'.row.quota =
        row.quota + (userRow cfg).tally delta (start row) as +
          (userRow cfg).tally transferred (start row) as ∧
      s'.row.affQuota =
        row.affQuota + (userRow cfg).tally (rewarded cfg) (start row) as -
          (userRow cfg).tally transferred (start row) as ∧
      (0 ≤ row.affQuota → 0 ≤ s'.row.affQuota) := by
  refine ⟨?_, ?_, fun hrow => ?_⟩
  · have hquota := System.tally_run (I := fun _ => True) (f := fun s => s.row.quota)
      (fun _ _ h => h) (fun hstep hcurrent _ => (step_quota hstep hcurrent).1) trivial hfresh hrun
    rw [System.tally_add] at hquota
    rw [hquota]
    exact (Int.add_assoc _ _ _).symm
  · have haff := System.tally_run (I := fun _ => True) (f := fun s => s.row.affQuota)
      (fun _ _ h => h) (fun hstep hcurrent _ => (step_quota hstep hcurrent).2) trivial hfresh hrun
    rw [System.tally_sub] at haff
    rw [haff]
    exact (Int.add_sub_assoc _ _ _).symm
  · have hstart : AffNonneg cfg (start row) := ⟨hrow, by simp [start]⟩
    exact (System.invariant_run (I := AffNonneg cfg)
      (fun hstep _ hinv => step_nonneg hstep hinv) hstart hfresh hrun).row

/-- A user with quota 100 and affiliate quota 50. -/
def sampleUser : User :=
  { User.empty with quota := 100, affQuota := 50, role := RoleCommonUser }

/-- One quota unit is 10, an invitation earns 7. -/
def sampleUserConfig : UserConfig Decimal where
  quotaPerUnit := Decimal.ofInt 10
  quotaForInviter := 7

/-- A debit, an invitation, a transfer and a settings change that do not overlap. -/
def orderlyUserRun : List UserAction :=
  [.decreaseUserQuota 30, .start .inviteUser, .advance 0 true,
    .start (.transferAffQuotaToQuota 20), .advance 1 true,
    .start (.updateUserSetting "notify"), .advance 2 true, .advance 2 true,
    .increaseUserQuota 5]

theorem user_row_keeps_updates_orderly :
    ∃ s', (userRow sampleUserConfig).run (start sampleUser) orderlyUserRun = some s' ∧
      s'.row.quota = 95 ∧ s'.row.affQuota = 37 := by
  have hfresh : (userRow sampleUserConfig).Along NoStaleWrite (start sampleUser)
    orderlyUserRun := by
    decide
  obtain ⟨hquota, haff, -⟩ := user_row_keeps_updates hfresh rfl
  exact ⟨_, rfl, hquota.trans (by decide), haff.trans (by decide)⟩

/-- A settings change reads the row, a debit follows, and the write puts the old quota
back. -/
def staleUserRun : List UserAction :=
  [.start (.updateUserSetting "notify"), .decreaseUserQuota 30, .advance 0 true,
    .advance 0 true]

/-- The whole-row write of `User.Update` loses a debit made after its read. -/
theorem stale_user_write_loses_debit :
    ¬ ∀ (cfg : UserConfig Decimal) (row : User) (as : List UserAction) (s' : UserState),
      (userRow cfg).run (start row) as = some s' →
        s'.row.quota =
          row.quota + (userRow cfg).tally delta (start row) as +
            (userRow cfg).tally transferred (start row) as := by
  intro hclaim
  have hlost := hclaim sampleUserConfig sampleUser staleUserRun _ rfl
  exact absurd hlost (by decide)

end NewApi.Model
