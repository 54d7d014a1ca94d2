import NewApi.Lib.System
import NewApi.Lib.Pool
import NewApi.Model.Database

/-!
# Redeeming a code

`Redeem` checks a code, credits the user and marks the code as used in one transaction, but it
reads the code with a plain `SELECT`; `UpdateRedemption` loads the row, edits it and writes it
back without a transaction.  Every SQL statement is one action here; the writes of a transaction
become visible when it commits, and it holds the locks of the rows that it has written.
-/

namespace NewApi.Model

open NewApi.Lib

def RedemptionCodeStatusEnabled : ℤ := 1
def RedemptionCodeStatusUsed : ℤ := 3

/-- The columns of a code that redeeming or editing it reads or writes. -/
structure Redemption where
  status : ℤ
  name : String
  quota : ℤ
  redeemedTime : ℤ
  usedUserId : ℕ
  expiredTime : ℤ
deriving DecidableEq

/-- The body of an `UpdateRedemption` request. -/
structure RedemptionUpdate where
  status : ℤ
  name : String
  quota : ℤ
  expiredTime : ℤ
deriving DecidableEq

namespace Redemption

/-- The checks of `Redeem` on the code that it selects. -/
def redeemable (redemption : Redemption) (now : ℤ) : Bool :=
  redemption.status = RedemptionCodeStatusEnabled &&
    !(redemption.expiredTime ≠ 0 && redemption.expiredTime < now)

/-- The row that `Redeem` saves. -/
def redeem (redemption : Redemption) (userId : ℕ) (now : ℤ) : Redemption :=
  { redemption with
    redeemedTime := now
    status := RedemptionCodeStatusUsed
    usedUserId := userId }

/-- The edit of `UpdateRedemption` on the row that it loaded. -/
def edit (cleanRedemption : Redemption) (request : RedemptionUpdate) (statusOnly : Bool) :
    Redemption :=
  if statusOnly then { cleanRedemption with status := request.status }
  else
    { cleanRedemption with
      name := request.name
      quota := request.quota
      expiredTime := request.expiredTime }

/-- `Redemption.Update`: the selected columns are written, `used_user_id` is not among them. -/
def update (row redemption : Redemption) : Redemption :=
  { redemption with usedUserId := row.usedUserId }

end Redemption

def validateExpiredTime (expired now : ℤ) : Bool :=
  !(expired ≠ 0 && expired < now)

/-- Where a call stands.  It holds the code as it was read; a transaction that is about to commit
also has the time of its `Save`. -/
inductive RedemptionProc where
  | selecting (userId : ℕ)
  | crediting (userId : ℕ) (redemption : Redemption)
  | saving (userId : ℕ) (redemption : Redemption)
  | committing (userId : ℕ) (redemption : Redemption) (redeemedTime : ℤ)
  | loading (request : RedemptionUpdate) (statusOnly : Bool)
  | updating (cleanRedemption : Redemption) (request : RedemptionUpdate) (statusOnly : Bool)
  | returned
deriving DecidableEq

/-- The stored code, the quota of the users, the row locks with the transactions that hold them,
the calls, and the list of amounts credited so far. -/
structure RedemptionState where
  redemption : Redemption
  userQuota : ℕ → ℤ
  userLock : ℕ → Option ℕ
  codeLock : Option ℕ
  procs : List RedemptionProc
  credits : List ℤ

/-- A call begins, or takes its next step; `ok` says whether its statement succeeds. -/
inductive RedemptionAction where
  | redeem (userId : ℕ)
  | updateRedemption (request : RedemptionUpdate) (statusOnly : Bool)
  | advance (proc : ℕ) (ok : Bool) (now : ℤ)
deriving DecidableEq

namespace RedemptionState

/-- A call returns: a transaction is rolled back or over, its locks are released. -/
def finish (s : RedemptionState) (i : ℕ) : RedemptionState :=
  { s with
    userLock := fun userId => if s.userLock userId = some i then none else s.userLock userId
    codeLock := if s.codeLock = some i then none else s.codeLock
    procs := s.procs.set i .returned }

def goto (s : RedemptionState) (i : ℕ) (proc : RedemptionProc) : RedemptionState :=
  { s with procs := s.procs.set i proc }

/-- The next step of call `i`; `none` while it waits for a lock. -/
def advance (s : RedemptionState) (i : ℕ) (ok : Bool) (now : ℤ) :
    RedemptionProc → Option RedemptionState
  | .selecting userId =>
      if ok && s.redemption.redeemable now then some (s.goto i (.crediting userId s.redemption))
      else some (s.finish i)
  | .crediting userId redemption =>
      if s.userLock userId ≠ none then none
      else if ok then
        some ({ s with userLock := Function.update s.userLock userId (some i) }.goto i
          (.saving userId redemption))
      else some (s.finish i)
  | .saving userId redemption =>
      if s.codeLock ≠ none then none
      else if ok then
        some ({ s with codeLock := some i }.goto i (.committing userId redemption now))
      else some (s.finish i)
  | .committing userId redemption redeemedTime =>
      if ok then
        some
          ({ s with
            redemption := redemption.redeem userId redeemedTime
            userQuota := bump s.userQuota userId redemption.quota
            credits := s.credits ++ [redemption.quota] }.finish i)
      else some (s.finish i)
  | .loading request statusOnly =>
      if ok && (statusOnly || validateExpiredTime request.expiredTime now) then
        some (s.goto i (.updating s.redemption request statusOnly))
      else some (s.finish i)
  | .updating cleanRedemption request statusOnly =>
      if s.codeLock ≠ none then none
      else if ok then
        some
          ({ s with
            redemption := s.redemption.update (cleanRedemption.edit request statusOnly) }.finish i)
      else some (s.finish i)
  | .returned => none

def step (s : RedemptionState) : RedemptionAction → Option RedemptionState
  | .redeem userId =>
      if userId = 0 then some s else some { s with procs := s.procs ++ [.selecting userId] }
  | .updateRedemption request statusOnly =>
      some { s with procs := s.procs ++ [.loading request statusOnly] }
  | .advance i ok now => do
      let proc ← s.procs[i]?
      s.advance i ok now proc

end RedemptionState

/-- Any number of calls on one code, interleaved. -/
def redemptionCode : System RedemptionState RedemptionAction where
  step := RedemptionState.step

namespace RedemptionState

/-- The stored code has the user that it had when it was read: nobody has redeemed it since. -/
def Current (s : RedemptionState) (redemption : Redemption) : Prop :=
  redemption.usedUserId = s.redemption.usedUserId

instance (s : RedemptionState) (redemption : Redemption) : Decidable (s.Current redemption) :=
  inferInstanceAs (Decidable (_ = _))

/-- An administrator sets a used code back to enabled. -/
def Reenables (cleanRedemption : Redemption) (request : RedemptionUpdate) (statusOnly : Bool) :
    Prop :=
  statusOnly = true ∧ request.status = RedemptionCodeStatusEnabled ∧
    cleanRedemption.usedUserId ≠ 0

instance (cleanRedemption : Redemption) (request : RedemptionUpdate) (statusOnly : Bool) :
    Decidable (Reenables cleanRedemption request statusOnly) :=
  inferInstanceAs (Decidable (_ ∧ _))

/-- The condition on a step: a call that writes the code has not been overtaken by a redemption,
and no used code is set back to enabled. -/
def WritesCurrentCode (s : RedemptionState) : RedemptionAction → Prop
  | .advance i ok _ =>
      match s.procs[i]? with
      | some (.committing _ redemption _) => ok = true → s.Current redemption
      | some (.updating cleanRedemption request statusOnly) =>
          ok = true → s.Current cleanRedemption ∧ ¬ Reenables cleanRedemption request statusOnly
      | _ => True
  | _ => True

instance (s : RedemptionState) : DecidablePred s.WritesCurrentCode := fun a => by
  unfold WritesCurrentCode
  split
  · split <;> infer_instance
  · infer_instance

/-- A code that can be redeemed has no user. -/
def Unspent (redemption : Redemption) : Prop :=
  redemption.status = RedemptionCodeStatusEnabled → redemption.usedUserId = 0

/-- What a call holds: a transaction has a user, and a copy that nobody had used. -/
def HoldsUnspent : RedemptionProc → Prop
  | .selecting userId => userId ≠ 0
  | .crediting userId redemption | .saving userId redemption | .committing userId redemption _ =>
      userId ≠ 0 ∧ redemption.usedUserId = 0
  | .updating cleanRedemption _ _ => Unspent cleanRedemption
  | _ => True

/-- What holds of a code while no writer is overtaken by a redemption. -/
structure CodeInv (s : RedemptionState) : Prop where
  copies : ∀ proc ∈ s.procs, HoldsUnspent proc
  used : s.redemption.usedUserId = 0 ↔ s.credits = []
  unspent : Unspent s.redemption

/-- A step that leaves the code and the quota alone. -/
structure Silent (s s' : RedemptionState) : Prop where
  redemption : s'.redemption = s.redemption
  userQuota : s'.userQuota = s.userQuota
  credits : s'.credits = s.credits
  copies : ∀ proc ∈ s'.procs, HoldsUnspent proc

section

variable {s s' : RedemptionState} {i : ℕ} {ok : Bool} {now : ℤ} {proc : RedemptionProc}
  {a : RedemptionAction}

theorem finish_silent (hcopies : ∀ proc ∈ s.procs, HoldsUnspent proc) : Silent s (s.finish i) :=
  ⟨rfl, rfl, rfl, Pool.forall_mem_set hcopies trivial⟩

theorem goto_silent (hcopies : ∀ proc ∈ s.procs, HoldsUnspent proc) (hproc : HoldsUnspent proc) :
    Silent s (s.goto i proc) :=
  ⟨rfl, rfl, rfl, Pool.forall_mem_set hcopies hproc⟩

/-- Inversion of a step: it is silent, it commits a redemption, or it writes an edit. -/
theorem advance_inversion (hcopies : ∀ proc ∈ s.procs, HoldsUnspent proc)
    (hproc : HoldsUnspent proc) (hunspent : Unspent s.redemption)
    (hstep : s.advance i ok now proc = some s') :
    Silent s s' ∨
    (∃ userId redemption redeemedTime, proc = .committing userId redemption redeemedTime ∧
      ok = true ∧ s'.redemption = redemption.redeem userId redeemedTime ∧
      s'.userQuota = bump s.userQuota userId redemption.quota ∧
      s'.credits = s.credits ++ [redemption.quota] ∧ s'.procs = s.procs.set i .returned) ∨
    (∃ cleanRedemption request statusOnly, proc = .updating cleanRedemption request statusOnly ∧
      ok = true ∧
      s'.redemption = s.redemption.update (cleanRedemption.edit request statusOnly) ∧
      s'.userQuota = s.userQuota ∧ s'.credits = s.credits ∧
      s'.procs = s.procs.set i .returned) := by
  cases proc with
  | selecting userId =>
      simp only [advance] at hstep
      split at hstep
      case isTrue hselected =>
        obtain rfl := Option.some.inj hstep
        refine .inl (goto_silent hcopies ⟨hproc, ?_⟩)
        simp only [Redemption.redeemable, Bool.and_eq_true, decide_eq_true_eq] at hselected
        exact hunspent hselected.2.1
      case isFalse =>
        obtain rfl := Option.some.inj hstep
        exact .inl (finish_silent hcopies)
  | crediting userId redemption =>
      simp only [advance] at hstep
      split at hstep
      · cases hstep
      split at hstep
      · obtain rfl := Option.some.inj hstep
        exact .inl ⟨rfl, rfl, rfl, Pool.forall_mem_set hcopies hproc⟩
      · obtain rfl := Option.some.inj hstep
        exact .inl (finish_silent hcopies)
  | saving userId redemption =>
      simp only [advance] at hstep
      split at hstep
      · cases hstep
      split at hstep
      · obtain rfl := Option.some.inj hstep
        exact .inl ⟨rfl, rfl, rfl, Pool.forall_mem_set hcopies hproc⟩
      · obtain rfl := Option.some.inj hstep
        exact .inl (finish_silent hcopies)
  | committing userId redemption redeemedTime =>
      simp only [advance] at hstep
      split at hstep
      case isTrue hok =>
        obtain rfl := Option.some.inj hstep
        exact .inr (.inl ⟨userId, redemption, redeemedTime, rfl, hok, rfl, rfl, rfl, rfl⟩)
      case isFalse =>
        obtain rfl := Option.some.inj hstep
        exact .inl (finish_silent hcopies)
  | loading request statusOnly =>
      simp only [advance] at hstep
      split at hstep
      · obtain rfl := Option.some.inj hstep
        exact .inl (goto_silent hcopies hunspent)
      · obtain rfl := Option.some.inj hstep
        exact .inl (finish_silent hcopies)
  | updating cleanRedemption request statusOnly =>
      simp only [advance] at hstep
      split at hstep
      · cases hstep
      split at hstep
      case isTrue hok =>
        obtain rfl := Option.some.inj hstep
        exact .inr (.inr ⟨cleanRedemption, request, statusOnly, rfl, hok, rfl, rfl, rfl, rfl⟩)
      case isFalse =>
        obtain rfl := Option.some.inj hstep
        exact .inl (finish_silent hcopies)
  | returned => cases hstep

theorem Silent.inv (hsilent : Silent s s') (hinv : CodeInv s) : CodeInv s' where
  copies := hsilent.copies
  used := by
    rw [hsilent.redemption, hsilent.credits]
    exact hinv.used
  unspent := by
    rw [hsilent.redemption]
    exact hinv.unspent

/-- Step lemma: the invariant stays, and a credit is the first one, of the quota of the code. -/
theorem step_codeInv (hstep : s.step a = some s') (hcurrent : s.WritesCurrentCode a)
    (hinv : CodeInv s) :
    CodeInv s' ∧
      (s'.credits = s.credits ∧ s'.userQuota = s.userQuota ∨
        s.credits = [] ∧ s'.credits = [s'.redemption.quota] ∧
          ∃ userId, s'.userQuota = bump s.userQuota userId s'.redemption.quota) := by
  cases a with
  | redeem userId =>
      simp only [step] at hstep
      split at hstep
      · obtain rfl := Option.some.inj hstep
        exact ⟨hinv, .inl ⟨rfl, rfl⟩⟩
      case isFalse huser =>
        obtain rfl := Option.some.inj hstep
        refine ⟨⟨fun proc hmem => ?_, hinv.used, hinv.unspent⟩, .inl ⟨rfl, rfl⟩⟩
        rcases List.mem_append.1 hmem with hold | hnew
        · exact hinv.copies proc hold
        · rw [List.mem_singleton.1 hnew]
          exact huser
  | updateRedemption request statusOnly =>
      obtain rfl := Option.some.inj hstep
      refine ⟨⟨fun proc hmem => ?_, hinv.used, hinv.unspent⟩, .inl ⟨rfl, rfl⟩⟩
      rcases List.mem_append.1 hmem with hold | hnew
      · exact hinv.copies proc hold
      · rw [List.mem_singleton.1 hnew]
        trivial
  | advance i ok now =>
      obtain ⟨proc, hproc, hadvance⟩ := Option.bind_eq_some_iff.1 hstep
      have hholds := hinv.copies proc (List.mem_of_getElem? hproc)
      rcases advance_inversion hinv.copies hholds hinv.unspent hadvance with
        hsilent | ⟨userId, redemption, time, rfl, rfl, hredemption, hquota, hcredits, hprocs⟩ |
        ⟨clean, request, statusOnly, rfl, rfl, hredemption, hquota, hcredits, hprocs⟩
      · exact ⟨hsilent.inv hinv, .inl ⟨hsilent.credits, hsilent.userQuota⟩⟩
      · -- Nobody has used the code since it was read, so that it has not been credited.
        obtain ⟨huser, hunused⟩ := hholds
        have hstored : s.Current redemption := by
          simpa [WritesCurrentCode, hproc] using hcurrent
        have hempty : s.credits = [] := hinv.used.1 (hstored.symm.trans hunused)
        rw [hempty, List.nil_append] at hcredits
        refine ⟨⟨?_, ?_, ?_⟩, .inr ⟨hempty, ?_, userId, ?_⟩⟩
        · rw [hprocs]
          exact Pool.forall_mem_set hinv.copies trivial
        · rw [hredemption, hcredits]
          exact iff_of_false huser (List.cons_ne_nil _ _)
        · rw [hredemption]
          intro hused
          cases hused
        · rw [hcredits, hredemption]
          rfl
        · rw [hquota, hredemption]
          rfl
      · -- The edit keeps the status, or sets it for a code that was never used.
        have hboth : s.Current clean ∧ ¬ Reenables clean request statusOnly := by
          simpa [WritesCurrentCode, hproc] using hcurrent
        obtain ⟨hused, hdeliberate⟩ := hboth
        refine ⟨⟨?_, ?_, ?_⟩, .inl ⟨hcredits, hquota⟩⟩
        · rw [hprocs]
          exact Pool.forall_mem_set hinv.copies trivial
        · rw [hredemption, hcredits]
          exact hinv.used
        · rw [hredemption]
          intro henabled
          show s.redemption.usedUserId = 0
          rw [← hused]
          cases statusOnly with
          | true =>
              by_contra hne
              exact hdeliberate ⟨rfl, henabled, hne⟩
          | false => exact hholds henabled

/-- Run lemma: after a run nothing has been credited, or once, the quota that the code had
then. -/
theorem run_credits {as : List RedemptionAction}
    (hcurrent : redemptionCode.Along WritesCurrentCode s as)
    (hrun : redemptionCode.run s as = some s') (hinv : CodeInv s) :
    s'.credits = s.credits ∧ s'.userQuota = s.userQuota ∨
      s.credits = [] ∧ ∃ before after t userId, as = before ++ after ∧
        redemptionCode.run s before = some t ∧ s'.credits = [t.redemption.quota] ∧
        s'.userQuota = bump s.userQuota userId t.redemption.quota := by
  induction as generalizing s with
  | nil =>
      obtain rfl : s = s' := by simpa using hrun
      exact .inl ⟨rfl, rfl⟩
  | cons a as ih =>
      obtain ⟨t, hstep, hrest⟩ := System.run_cons hrun
      obtain ⟨hfirst, hlater⟩ := System.along_cons hstep hcurrent
      obtain ⟨hinv', hmove⟩ := step_codeInv hstep hfirst hinv
      have hcons : ∀ as, redemptionCode.run s (a :: as) = redemptionCode.run t as := by
        intro as
        rw [System.run, hstep]
      rcases ih hlater hrest hinv' with ⟨hcredits, hquota⟩ |
        ⟨hempty, before, after, u, userId, rfl, hbefore, hcredits, hquota⟩
      · rcases hmove with ⟨hsame, hsameQuota⟩ | ⟨hempty, hcredit, userId, hmoved⟩
        · exact .inl ⟨hcredits.trans hsame, hquota.trans hsameQuota⟩
        · -- The first step is the credit.
          exact .inr ⟨hempty, [a], as, t, userId, rfl, hcons [], hcredits.trans hcredit,
            hquota.trans hmoved⟩
      · rcases hmove with ⟨hsame, hsameQuota⟩ | ⟨-, hcredit, -⟩
        · exact .inr ⟨hsame.symm.trans hempty, a :: before, after, u, userId, rfl,
            (hcons before).trans hbefore, hcredits, hsameQuota ▸ hquota⟩
        · rw [hcredit] at hempty
          cases hempty

end

/-- A code and the users before any call. -/
def start (redemption : Redemption) (userQuota : ℕ → ℤ) : RedemptionState where
  redemption := redemption
  userQuota := userQuota
  userLock := fun _ => none
  codeLock := none
  procs := []
  credits := []

end RedemptionState

open RedemptionState

/-- A code that nobody has used is credited at most once, with the quota that it has at that
time, in every run in which no writer is overtaken by a redemption. -/
theorem code_credited_once {redemption : Redemption} {userQuota : ℕ → ℤ}
    {as : List RedemptionAction} {s' : RedemptionState} (hunused : redemption.usedUserId = 0)
    (hcurrent : redemptionCode.Along WritesCurrentCode (start redemption userQuota) as)
    (hrun : redemptionCode.run (start redemption userQuota) as = some s') :
    s'.credits = [] ∧ s'.userQuota = userQuota ∨
      ∃ before after t userId, as = before ++ after ∧
        redemptionCode.run (start redemption userQuota) before = some t ∧
        s'.credits = [t.redemption.quota] ∧
        s'.userQuota = bump userQuota userId t.redemption.quota := by
  have hinv : CodeInv (start redemption userQuota) :=
    ⟨nofun, iff_of_true hunused rfl, fun _ => hunused⟩
  exact (run_credits hcurrent hrun hinv).imp_right fun hcredited => hcredited.2

/-- An enabled code over 100 quota. -/
def sampleRedemption : Redemption where
  status := RedemptionCodeStatusEnabled
  name := "gift"
  quota := 100
  redeemedTime := 0
  usedUserId := 0
  expiredTime := 0

/-- The code is edited to 50, redeemed by user 7, and refused to user 8. -/
def orderlyRedemptionRun : List RedemptionAction :=
  [.updateRedemption ⟨RedemptionCodeStatusEnabled, "gift", 50, 0⟩ false, .advance 0 true 10,
    .advance 0 true 10, .redeem 7, .advance 1 true 20, .advance 1 true 20, .advance 1 true 20,
    .advance 1 true 20, .redeem 8, .advance 2 true 30]

theorem code_credited_once_orderly :
    ∃ s', redemptionCode.run (start sampleRedemption fun _ => 0) orderlyRedemptionRun = some s' ∧
      (s'.credits = [] ∧ s'.userQuota = (fun _ => 0) ∨
        ∃ before after t userId, orderlyRedemptionRun = before ++ after ∧
          redemptionCode.run (start sampleRedemption fun _ => 0) before = some t ∧
          s'.credits = [t.redemption.quota] ∧
          s'.userQuota = bump (fun _ => 0) userId t.redemption.quota) ∧
      s'.credits = [50] := by
  have hcurrent : redemptionCode.Along WritesCurrentCode (start sampleRedemption fun _ => 0)
      orderlyRedemptionRun := by
    decide
  exact ⟨_, rfl, code_credited_once rfl hcurrent rfl, rfl⟩

/-- Two users select the code before either commits. -/
def doubleRedemptionRun : List RedemptionAction :=
  [.redeem 7, .redeem 8, .advance 0 true 10, .advance 1 true 10, .advance 0 true 10,
    .advance 1 true 10, .advance 0 true 10, .advance 0 true 10, .advance 1 true 11,
    .advance 1 true 11]

/-- Two overlapping calls credit the code twice. -/
theorem overlapping_redeem_credits_twice :
    ¬ ∀ (redemption : Redemption) (userQuota : ℕ → ℤ) (as : List RedemptionAction)
      (s' : RedemptionState), redemption.usedUserId = 0 →
      redemptionCode.run (start redemption userQuota) as = some s' →
      (∀ a ∈ as, ∃ i ok now userId, a = .advance i ok now ∨ a = .redeem userId) →
      s'.credits.sum ≤ redemption.quota := by
  intro hclaim
  have honce := hclaim sampleRedemption (fun _ => 0) doubleRedemptionRun _ rfl rfl
    (by simp [doubleRedemptionRun])
  exact absurd honce (by decide)

end NewApi.Model
