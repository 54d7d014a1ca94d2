import NewApi.Lib.System
import NewApi.Lib.Pool
import NewApi.Lib.Decimal

/-!
# Completing a top-up order

Four providers and an administrator complete the orders of the `top_ups` table: `Recharge`,
`RechargeCreem` and `ManualCompleteTopUp` inside a transaction, `EpayNotify` by two separate
statements under a process-local order lock, and `sessionExpired` ends an order without a
credit.  All of them read the status with a plain `SELECT`.  Every SQL statement is one
action here; the writes of a transaction become visible when it commits, and from its first
write on it holds the lock of the order's row.
-/

namespace NewApi.Model

open NewApi.Lib

def TopUpStatusPending : String := "pending"
def TopUpStatusSuccess : String := "success"
def TopUpStatusExpired : String := "expired"

/-- The columns of an order that its completion reads or writes. -/
structure TopUp (F : Type) where
  amount : ℤ
  money : F
  paymentMethod : String
  status : String

/-- The columns of the paying user that a completion reads or writes. -/
structure TopUpUser where
  quota : ℤ
  email : String
  stripeCustomer : String

/-- The executions on an order. -/
inductive TopUpOp where
  | epayNotify
  | recharge (customerId : String)
  | rechargeCreem (customerEmail : String)
  | manualCompleteTopUp
  | sessionExpired
deriving DecidableEq, Repr

/-- Two versions of the same order: only the status may differ. -/
def TopUp.SameOrder {F : Type} (topUp order : TopUp F) : Prop :=
  topUp.amount = order.amount ∧ topUp.money = order.money ∧
    topUp.paymentMethod = order.paymentMethod

/-- `QuotaPerUnit`, and how the database stores a floating-point sum in the integer column
`quota`. -/
structure TopUpConfig (F : Type) where
  quotaPerUnit : F
  storeFloat : F → ℤ

/-- Where an execution stands.  It holds the order as its `SELECT` returned it; `setEmail`
says that a Creem payment found the user without an e-mail address. -/
inductive TopUpProc (F : Type) where
  | locking (op : TopUpOp)
  | selecting (op : TopUpOp)
  | saving (op : TopUpOp) (topUp : TopUp F)
  | selectingUser (op : TopUpOp) (topUp : TopUp F)
  | crediting (op : TopUpOp) (topUp : TopUp F) (setEmail : Bool)
  | committing (op : TopUpOp) (topUp : TopUp F) (setEmail : Bool)
  | returned

def TopUpProc.isReturned {F : Type} : TopUpProc F → Bool
  | .returned => true
  | _ => false

/-- The copy of the order an execution holds. -/
def TopUpProc.copy {F : Type} : TopUpProc F → Option (TopUp F)
  | .saving _ topUp => some topUp
  | .selectingUser _ topUp => some topUp
  | .crediting _ topUp _ => some topUp
  | .committing _ topUp _ => some topUp
  | _ => none

/-- The stored order and user, the process-local lock of `LockOrder` and the database lock
of the order's row, each with the execution that holds it, the executions, and the list of
amounts credited so far. -/
structure TopUpState (F : Type) where
  topUp : TopUp F
  user : TopUpUser
  orderLock : Option ℕ
  rowLock : Option ℕ
  procs : List (TopUpProc F)
  credits : List ℤ

/-- An execution begins, or takes its next step; `ok` says whether its statement succeeds. -/
inductive TopUpAction where
  | start (op : TopUpOp)
  | advance (proc : ℕ) (ok : Bool)
deriving DecidableEq, Repr

section

variable {F : Type} [Float64 F]

/-- The quota an execution credits for an order. -/
def creditOf (cfg : TopUpConfig F) (topUp : TopUp F) : TopUpOp → ℤ
  | .epayNotify =>
      (Decimal.ofInt topUp.amount * Float64.toDecimal cfg.quotaPerUnit).intPart
  | .recharge _ => cfg.storeFloat (topUp.money * cfg.quotaPerUnit)
  | .rechargeCreem _ => topUp.amount
  | .manualCompleteTopUp =>
      if topUp.paymentMethod = "stripe" then
        (Float64.toDecimal topUp.money * Float64.toDecimal cfg.quotaPerUnit).intPart
      else
        (Decimal.ofInt topUp.amount * Float64.toDecimal cfg.quotaPerUnit).intPart
  | .sessionExpired => 0

/-- The order as the execution saves it. -/
def TopUp.complete (topUp : TopUp F) : TopUpOp → TopUp F
  | .sessionExpired => { topUp with status := TopUpStatusExpired }
  | _ => { topUp with status := TopUpStatusSuccess }

/-- The user row after the update of an execution. -/
def TopUpUser.credit (cfg : TopUpConfig F) (user : TopUpUser) (topUp : TopUp F) (op : TopUpOp)
    (setEmail : Bool) : TopUpUser :=
  { quota := user.quota + creditOf cfg topUp op
    stripeCustomer :=
      match op with
      | .recharge customerId => customerId
      | _ => user.stripeCustomer
    email :=
      match op with
      | .rechargeCreem customerEmail => if setEmail then customerEmail else user.email
      | _ => user.email }

/-- What an execution does with the order it selected.  `sessionExpired` only logs an order
that is not pending. -/
def TopUpOp.afterSelect (cfg : TopUpConfig F) (topUp : TopUp F) (op : TopUpOp) : TopUpProc F :=
  match op with
  | .sessionExpired => .saving op topUp
  | .manualCompleteTopUp =>
      if topUp.status = TopUpStatusSuccess then .returned
      else if topUp.status ≠ TopUpStatusPending then .returned
      else if creditOf cfg topUp op ≤ 0 then .returned
      else .saving op topUp
  | _ => if topUp.status = TopUpStatusPending then .saving op topUp else .returned

namespace TopUpState

/-- An execution returns: a transaction is rolled back or over, its locks are released. -/
def finish (s : TopUpState F) (i : ℕ) : TopUpState F :=
  { s with
    orderLock := if s.orderLock = some i then none else s.orderLock
    rowLock := if s.rowLock = some i then none else s.rowLock
    procs := s.procs.set i .returned }

/-- An execution goes on, or returns with its locks released. -/
def goto (s : TopUpState F) (i : ℕ) : TopUpProc F → TopUpState F
  | .returned => s.finish i
  | proc => { s with procs := s.procs.set i proc }

/-- The next step of execution `i`; `none` while it waits for a lock. -/
def advance (cfg : TopUpConfig F) (s : TopUpState F) (i : ℕ) (ok : Bool) :
    TopUpProc F → Option (TopUpState F)
  | .locking op =>
      if s.orderLock = none then some ({ s with orderLock := some i }.goto i (.selecting op))
      else none
  | .selecting op =>
      if ok then some (s.goto i (op.afterSelect cfg s.topUp)) else some (s.finish i)
  | .saving op topUp =>
      if s.rowLock ≠ none then none
      else if !ok then some (s.finish i)
      else
        match op with
        | .epayNotify =>
            some ({ s with topUp := topUp.complete op }.goto i (.crediting op topUp false))
        | .sessionExpired => some ({ s with topUp := topUp.complete op }.finish i)
        | .rechargeCreem customerEmail =>
            if customerEmail = "" then
              some ({ s with rowLock := some i }.goto i (.crediting op topUp false))
            else
              some ({ s with rowLock := some i }.goto i (.selectingUser op topUp))
        | _ => some ({ s with rowLock := some i }.goto i (.crediting op topUp false))
  | .selectingUser op topUp =>
      if ok then some (s.goto i (.crediting op topUp (s.user.email = "")))
      else some (s.finish i)
  | .crediting op topUp setEmail =>
      if !ok then some (s.finish i)
      else
        match op with
        | .epayNotify =>
            if creditOf cfg topUp op < 0 then some (s.finish i)
            else
              some
                ({ s with
                  user := s.user.credit cfg topUp op setEmail
                  credits := s.credits ++ [creditOf cfg topUp op] }.finish i)
        | _ => some (s.goto i (.committing op topUp setEmail))
  | .committing op topUp setEmail =>
      if ok then
        some
          ({ s with
            topUp := topUp.complete op
            user := s.user.credit cfg topUp op setEmail
            credits := s.credits ++ [creditOf cfg topUp op] }.finish i)
      else some (s.finish i)
  | .returned => none

/-- `EpayNotify` and `AdminCompleteTopUp` take the order lock first. -/
def begin_ : TopUpOp → TopUpProc F
  | .epayNotify => .locking .epayNotify
  | .manualCompleteTopUp => .locking .manualCompleteTopUp
  | op => .selecting op

def step (cfg : TopUpConfig F) (s : TopUpState F) : TopUpAction → Option (TopUpState F)
  | .start op => some { s with procs := s.procs ++ [begin_ op] }
  | .advance i ok => do
      let proc ← s.procs[i]?
      s.advance cfg i ok proc

end TopUpState

/-- Any number of executions on one order, interleaved. -/
def topUpOrder (cfg : TopUpConfig F) : System (TopUpState F) TopUpAction where
  step := TopUpState.step cfg

end

namespace TopUpState

variable {F : Type}

/-- `EpayNotify` has saved the order as successful and not yet credited it. -/
def owesCredit : TopUpProc F → ℤ
  | .crediting .epayNotify _ _ => 1
  | _ => 0

/-- No order that is already successful is written, and the credit statement of
`EpayNotify` succeeds. -/
def WritesOnce [Float64 F] (cfg : TopUpConfig F) (s : TopUpState F) : TopUpAction → Prop
  | .advance i ok =>
      match s.procs[i]? with
      | some (.saving .epayNotify _) => ok = true → s.topUp.status ≠ TopUpStatusSuccess
      | some (.saving .sessionExpired _) => ok = true → s.topUp.status ≠ TopUpStatusSuccess
      | some (.committing _ _ _) => ok = true → s.topUp.status ≠ TopUpStatusSuccess
      | some (.crediting .epayNotify topUp _) => ok = true ∧ 0 ≤ creditOf cfg topUp .epayNotify
      | _ => True
  | .start _ => True

instance [Float64 F] (cfg : TopUpConfig F) (s : TopUpState F) :
    DecidablePred (s.WritesOnce cfg) := fun a => by
  unfold WritesOnce
  split
  · split <;> infer_instance
  · infer_instance

/-- All executions have ended. -/
def Ended (s : TopUpState F) : Prop :=
  ∀ proc ∈ s.procs, proc.isReturned = true

instance (s : TopUpState F) : Decidable s.Ended :=
  inferInstanceAs (Decidable (∀ proc ∈ s.procs, _))

section

variable {s s' : TopUpState F} {i : ℕ} {ok : Bool} {proc : TopUpProc F}

@[simp] theorem finish_topUp : (s.finish i).topUp = s.topUp := rfl
@[simp] theorem finish_user : (s.finish i).user = s.user := rfl
@[simp] theorem finish_credits : (s.finish i).credits = s.credits := rfl
@[simp] theorem finish_procs : (s.finish i).procs = s.procs.set i .returned := rfl

@[simp] theorem goto_topUp : (s.goto i proc).topUp = s.topUp := by cases proc <;> rfl
@[simp] theorem goto_user : (s.goto i proc).user = s.user := by cases proc <;> rfl
@[simp] theorem goto_credits : (s.goto i proc).credits = s.credits := by cases proc <;> rfl
@[simp] theorem goto_procs : (s.goto i proc).procs = s.procs.set i proc := by cases proc <;> rfl

/-- A transaction is under way only for an operation that credits. -/
def Credits : TopUpProc F → Prop
  | .selectingUser op _ => op ≠ .sessionExpired ∧ op ≠ .epayNotify
  | .crediting op _ _ => op ≠ .sessionExpired
  | .committing op _ _ => op ≠ .sessionExpired ∧ op ≠ .epayNotify
  | _ => True

/-- A step that leaves order, user and credits alone; the execution goes on with the copy it
had, unless its session has expired, or with the stored order. -/
structure Quiet [Float64 F] (cfg : TopUpConfig F) (s s' : TopUpState F) (i : ℕ) (ok : Bool)
    (proc proc' : TopUpProc F) : Prop where
  topUp : s'.topUp = s.topUp
  user : s'.user = s.user
  credits : s'.credits = s.credits
  procs : s'.procs = s.procs.set i proc'
  owes : owesCredit proc' = owesCredit proc
  copy : ∀ topUp, proc'.copy = some topUp →
    (∃ op, proc = .selecting op ∧ ok = true ∧ proc' = op.afterSelect cfg s.topUp ∧
      topUp = s.topUp) ∨
      proc.copy = some topUp ∧ proc ≠ .saving .sessionExpired topUp
  forCredit : Credits proc'

variable [Float64 F] {cfg : TopUpConfig F}

/-- An execution goes on with its copy, in a state of which only the locks may have changed. -/
theorem goto_quiet {t : TopUpState F} {proc' : TopUpProc F}
    (hsame : t.topUp = s.topUp ∧ t.user = s.user ∧ t.credits = s.credits ∧ t.procs = s.procs)
    (howes : owesCredit proc' = owesCredit proc) (hcopy : proc'.copy = proc.copy)
    (hsession : ∀ topUp, proc ≠ .saving .sessionExpired topUp) (hforCredit : Credits proc') :
    Quiet cfg s (t.goto i proc') i ok proc proc' :=
  ⟨goto_topUp.trans hsame.1, goto_user.trans hsame.2.1, goto_credits.trans hsame.2.2.1,
    goto_procs.trans (by rw [hsame.2.2.2]), howes,
    fun topUp htopUp => .inr ⟨hcopy ▸ htopUp, hsession topUp⟩, hforCredit⟩

/-- What the order selected leads to. -/
theorem afterSelect_quiet (op : TopUpOp) (hok : ok = true) :
    Quiet cfg s (s.goto i (op.afterSelect cfg s.topUp)) i ok (.selecting op)
      (op.afterSelect cfg s.topUp) := by
  have hcases : op.afterSelect cfg s.topUp = .saving op s.topUp ∨
      op.afterSelect cfg s.topUp = .returned := by
    unfold TopUpOp.afterSelect
    split
    · simp
    · split_ifs <;> simp
    · split_ifs <;> simp
  rcases hcases with hsave | hreturn
  · exact ⟨by simp, by simp, by simp, by simp, by simp [hsave, owesCredit],
      by simp [hsave, hok, TopUpProc.copy], by simp [hsave, Credits]⟩
  · exact ⟨by simp, by simp, by simp, by simp, by simp [hreturn, owesCredit],
      by simp [hreturn, TopUpProc.copy], by simp [hreturn, Credits]⟩

/-- An execution returns without effect. -/
theorem finish_quiet (howes : owesCredit proc = 0) :
    Quiet cfg s (s.finish i) i ok proc .returned :=
  ⟨rfl, rfl, rfl, rfl, howes.symm, by simp [TopUpProc.copy], trivial⟩

/-- Inversion of a step: it is quiet, or one of the four that write the order or the user,
or the failing credit of `EpayNotify`. -/
theorem advance_cases (hforCredit : Credits proc) (hstep : s.advance cfg i ok proc = some s') :
    (∃ proc', Quiet cfg s s' i ok proc proc') ∨
    (∃ topUp, proc = .saving .sessionExpired topUp ∧ ok = true ∧
      s'.topUp = topUp.complete .sessionExpired ∧ s'.user = s.user ∧ s'.credits = s.credits ∧
      s'.procs = s.procs.set i .returned) ∨
    (∃ topUp, proc = .saving .epayNotify topUp ∧ ok = true ∧
      s'.topUp = topUp.complete .epayNotify ∧ s'.user = s.user ∧ s'.credits = s.credits ∧
      s'.procs = s.procs.set i (.crediting .epayNotify topUp false)) ∨
    (∃ topUp setEmail, proc = .crediting .epayNotify topUp setEmail ∧
      (ok = false ∨ creditOf cfg topUp .epayNotify < 0) ∧ s' = s.finish i) ∨
    (∃ op topUp setEmail,
      (proc = .crediting .epayNotify topUp setEmail ∧ op = .epayNotify ∧ s'.topUp = s.topUp ∨
        proc = .committing op topUp setEmail ∧ ok = true ∧ s'.topUp = topUp.complete op) ∧
      s'.user = s.user.credit cfg topUp op setEmail ∧
      s'.credits = s.credits ++ [creditOf cfg topUp op] ∧
      s'.procs = s.procs.set i .returned) := by
  cases proc with
  | locking op =>
      simp only [advance] at hstep
      split at hstep
      · obtain rfl : _ = s' := by simpa using hstep
        exact .inl ⟨.selecting op, goto_quiet ⟨rfl, rfl, rfl, rfl⟩ rfl rfl (by simp) trivial⟩
      · simp at hstep
  | selecting op =>
      simp only [advance] at hstep
      split at hstep
      case isTrue hok =>
        obtain rfl : _ = s' := by simpa using hstep
        exact .inl ⟨_, afterSelect_quiet op hok⟩
      case isFalse =>
        obtain rfl : _ = s' := by simpa using hstep
        exact .inl ⟨_, finish_quiet rfl⟩
  | saving op topUp =>
      simp only [advance] at hstep
      split at hstep
      · simp at hstep
      split at hstep
      · obtain rfl : _ = s' := by simpa using hstep
        exact .inl ⟨_, finish_quiet rfl⟩
      case isFalse hok =>
        have hok' : ok = true := by simpa using hok
        cases op with
        | epayNotify =>
            obtain rfl : _ = s' := by simpa using hstep
            exact .inr (.inr (.inl ⟨topUp, rfl, hok', by simp, by simp, by simp, by simp⟩))
        | sessionExpired =>
            obtain rfl : _ = s' := by simpa using hstep
            exact .inr (.inl ⟨topUp, rfl, hok', by simp, by simp, by simp, by simp⟩)
        | recharge customerId =>
            obtain rfl : _ = s' := by simpa using hstep
            exact .inl ⟨.crediting (.recharge customerId) topUp false,
              goto_quiet ⟨rfl, rfl, rfl, rfl⟩ rfl rfl (by simp) (by simp [Credits])⟩
        | rechargeCreem customerEmail =>
            simp only at hstep
            split at hstep
            · obtain rfl : _ = s' := by simpa using hstep
              exact .inl ⟨.crediting (.rechargeCreem customerEmail) topUp false,
                goto_quiet ⟨rfl, rfl, rfl, rfl⟩ rfl rfl (by simp) (by simp [Credits])⟩
            · obtain rfl : _ = s' := by simpa using hstep
              exact .inl ⟨.selectingUser (.rechargeCreem customerEmail) topUp,
                goto_quiet ⟨rfl, rfl, rfl, rfl⟩ rfl rfl (by simp) (by simp [Credits])⟩
        | manualCompleteTopUp =>
            obtain rfl : _ = s' := by simpa using hstep
            exact .inl ⟨.crediting .manualCompleteTopUp topUp false,
              goto_quiet ⟨rfl, rfl, rfl, rfl⟩ rfl rfl (by simp) (by simp [Credits])⟩
  | selectingUser op topUp =>
      obtain ⟨hexpired, hepay⟩ := hforCredit
      simp only [advance] at hstep
      split at hstep
      · obtain rfl : _ = s' := by simpa using hstep
        refine .inl ⟨.crediting op topUp (s.user.email = ""),
          goto_quiet ⟨rfl, rfl, rfl, rfl⟩ ?_ rfl (by simp) hexpired⟩
        cases op <;> first | rfl | exact absurd rfl hepay
      · obtain rfl : _ = s' := by simpa using hstep
        exact .inl ⟨_, finish_quiet rfl⟩
  | crediting op topUp setEmail =>
      by_cases hepay : op = .epayNotify
      · subst hepay
        simp only [advance] at hstep
        split at hstep
        case isTrue hok =>
          obtain rfl : _ = s' := by simpa using hstep
          exact .inr (.inr (.inr (.inl ⟨topUp, setEmail, rfl, .inl (by simpa using hok), rfl⟩)))
        case isFalse hok =>
          split at hstep
          case isTrue hneg =>
            obtain rfl : _ = s' := by simpa using hstep
            exact .inr (.inr (.inr (.inl ⟨topUp, setEmail, rfl, .inr hneg, rfl⟩)))
          case isFalse hpos =>
            obtain rfl : _ = s' := by simpa using hstep
            exact .inr (.inr (.inr (.inr ⟨.epayNotify, topUp, setEmail, .inl ⟨rfl, rfl, rfl⟩,
              rfl, rfl, rfl⟩)))
      · have howes : owesCredit (.crediting op topUp setEmail) = 0 := by
          cases op <;> first | rfl | exact absurd rfl hepay
        simp only [advance] at hstep
        split at hstep
        · obtain rfl : _ = s' := by simpa using hstep
          exact .inl ⟨_, finish_quiet howes⟩
        · have hgoto : s.goto i (.committing op topUp setEmail) = s' := by
            cases op <;> simpa using hstep
          subst hgoto
          exact .inl ⟨.committing op topUp setEmail, goto_quiet ⟨rfl, rfl, rfl, rfl⟩ howes.symm rfl
            (by simp) ⟨hforCredit, hepay⟩⟩
  | committing op topUp setEmail =>
      simp only [advance] at hstep
      split at hstep
      case isTrue hok =>
        obtain rfl : _ = s' := by simpa using hstep
        exact .inr (.inr (.inr (.inr ⟨op, topUp, setEmail, .inr ⟨rfl, hok, rfl⟩, rfl, rfl, rfl⟩)))
      case isFalse =>
        obtain rfl : _ = s' := by simpa using hstep
        exact .inl ⟨_, finish_quiet rfl⟩
  | returned => simp [advance] at hstep

omit [Float64 F] in
theorem complete_sameOrder {topUp order : TopUp F} (hsame : topUp.SameOrder order)
    (op : TopUpOp) : (topUp.complete op).SameOrder order := by
  cases op <;> exact hsame

omit [Float64 F] in
theorem complete_status {topUp : TopUp F} {op : TopUpOp} (hop : op ≠ .sessionExpired) :
    (topUp.complete op).status = TopUpStatusSuccess := by
  cases op <;> first | rfl | exact absurd rfl hop

theorem creditOf_sameOrder {topUp order : TopUp F} (hsame : topUp.SameOrder order)
    (op : TopUpOp) : creditOf cfg topUp op = creditOf cfg order op := by
  obtain ⟨hamount, hmoney, hmethod⟩ := hsame
  cases op <;> simp [creditOf, hamount, hmoney, hmethod]

/-- What holds of an order while it is written once: the credits made and owed number one
exactly when the order is successful, and the user's quota is the initial one with the
credits, each of which is an amount of this order. -/
structure OrderInv (cfg : TopUpConfig F) (order : TopUp F) (quota : ℤ)
    (s : TopUpState F) : Prop where
  same : s.topUp.SameOrder order
  forCredit : ∀ proc ∈ s.procs, Credits proc
  copies : ∀ proc ∈ s.procs, ∀ topUp, proc.copy = some topUp → topUp.SameOrder order
  count : (s.credits.length : ℤ) + total owesCredit s.procs =
    if s.topUp.status = TopUpStatusSuccess then 1 else 0
  quota : s.user.quota = quota + s.credits.sum
  amounts : ∀ credit ∈ s.credits, ∃ op, credit = creditOf cfg order op

variable {order : TopUp F} {quota : ℤ} {a : TopUpAction}

/-- An execution begins without effect on the order. -/
theorem start_inv (op : TopUpOp) (hinv : OrderInv cfg order quota s) :
    OrderInv cfg order quota { s with procs := s.procs ++ [begin_ op] } := by
  have hbegin : owesCredit (begin_ op : TopUpProc F) = 0 ∧ Credits (begin_ op : TopUpProc F) ∧
      (begin_ op : TopUpProc F).copy = none := by
    cases op <;> exact ⟨rfl, trivial, rfl⟩
  obtain ⟨howes, hforCredit, hcopy⟩ := hbegin
  refine ⟨hinv.same, fun proc hproc => ?_, fun proc hproc topUp htopUp => ?_, ?_, hinv.quota,
    hinv.amounts⟩
  · rcases List.mem_append.1 hproc with hold | hnew
    · exact hinv.forCredit proc hold
    · obtain rfl : proc = begin_ op := by simpa using hnew
      exact hforCredit
  · rcases List.mem_append.1 hproc with hold | hnew
    · exact hinv.copies proc hold topUp htopUp
    · obtain rfl : proc = begin_ op := by simpa using hnew
      simp [hcopy] at htopUp
  · simpa [howes] using hinv.count

/-- A quiet step keeps the invariant. -/
theorem quiet_inv {proc' : TopUpProc F} (hproc : s.procs[i]? = some proc)
    (hquiet : Quiet cfg s s' i ok proc proc') (hinv : OrderInv cfg order quota s) :
    OrderInv cfg order quota s' := by
  have hmem : proc ∈ s.procs := List.mem_of_getElem? hproc
  refine ⟨hquiet.topUp ▸ hinv.same, ?_, ?_, ?_, ?_, hquiet.credits ▸ hinv.amounts⟩
  · rw [hquiet.procs]
    exact Pool.forall_mem_set hinv.forCredit hquiet.forCredit
  · rw [hquiet.procs]
    refine Pool.forall_mem_set hinv.copies fun topUp htopUp => ?_
    rcases hquiet.copy topUp htopUp with ⟨-, -, -, -, rfl⟩ | ⟨hold, -⟩
    · exact hinv.same
    · exact hinv.copies proc hmem topUp hold
  · rw [hquiet.procs, hquiet.credits, hquiet.topUp, Pool.total_set hproc, hquiet.owes, ← hinv.count]
    omega
  · rw [hquiet.user, hquiet.credits]
    exact hinv.quota

/-- A step that writes the order or the user keeps the invariant when it keeps the count and
the order, and adds to the credits what it adds to the quota. -/
theorem write_inv {proc' : TopUpProc F} (hprocs : s'.procs = s.procs.set i proc')
    (hforCredit : Credits proc')
    (hcopy : ∀ topUp, proc'.copy = some topUp → topUp.SameOrder order)
    (hsame : s'.topUp.SameOrder order)
    (hcount : (s'.credits.length : ℤ) + total owesCredit s'.procs =
      if s'.topUp.status = TopUpStatusSuccess then 1 else 0)
    (hcredit : s'.user.quota = s.user.quota ∧ s'.credits = s.credits ∨
      ∃ op, s'.user.quota = s.user.quota + creditOf cfg order op ∧
        s'.credits = s.credits ++ [creditOf cfg order op])
    (hinv : OrderInv cfg order quota s) : OrderInv cfg order quota s' := by
  refine ⟨hsame, ?_, ?_, hcount, ?_, ?_⟩
  · rw [hprocs]
    exact Pool.forall_mem_set hinv.forCredit hforCredit
  · rw [hprocs]
    exact Pool.forall_mem_set hinv.copies hcopy
  · rcases hcredit with ⟨huser, hcredits⟩ | ⟨op, huser, hcredits⟩
    · rw [huser, hcredits]
      exact hinv.quota
    · rw [huser, hcredits, hinv.quota]
      simp [Int.add_assoc]
  · rcases hcredit with ⟨-, hcredits⟩ | ⟨op, -, hcredits⟩
    · rw [hcredits]
      exact hinv.amounts
    · intro credit hcredit
      rw [hcredits] at hcredit
      rcases List.mem_append.1 hcredit with hold | hnew
      · exact hinv.amounts credit hold
      · exact ⟨op, by simpa using hnew⟩

/-- Step lemma: a run that writes the order once keeps the invariant. -/
theorem step_inv (hstep : s.step cfg a = some s') (honce : s.WritesOnce cfg a)
    (hinv : OrderInv cfg order quota s) : OrderInv cfg order quota s' := by
  cases a with
  | start op =>
      obtain rfl : _ = s' := by simpa [step] using hstep
      exact start_inv op hinv
  | advance i ok =>
      obtain ⟨proc, hproc, hadvance⟩ := Option.bind_eq_some_iff.1 hstep
      have hmem : proc ∈ s.procs := List.mem_of_getElem? hproc
      have hcount := hinv.count
      rcases advance_cases (hinv.forCredit proc hmem) hadvance with
        ⟨proc', hquiet⟩ | ⟨topUp, rfl, rfl, htopUp, huser, hcredits, hprocs⟩ |
        ⟨topUp, rfl, rfl, htopUp, huser, hcredits, hprocs⟩ |
        ⟨topUp, setEmail, rfl, hfail, rfl⟩ |
        ⟨op, topUp, setEmail, hwrite, huser, hcredits, hprocs⟩
      · exact quiet_inv hproc hquiet hinv
      · -- the order expires
        have hpending : s.topUp.status ≠ TopUpStatusSuccess := by
          simpa [WritesOnce, hproc] using honce
        have hcopy := hinv.copies _ hmem topUp rfl
        refine write_inv hprocs trivial (by simp [TopUpProc.copy]) ?_ ?_ (.inl ⟨?_, hcredits⟩)
          hinv
        · exact htopUp ▸ complete_sameOrder hcopy _
        · have hexpired : (topUp.complete .sessionExpired).status ≠ TopUpStatusSuccess := by
            simp [TopUp.complete, TopUpStatusExpired, TopUpStatusSuccess]
          rw [hcredits, hprocs, Pool.total_set hproc, htopUp, if_neg hexpired]
          rw [if_neg hpending] at hcount
          simp only [owesCredit]
          omega
        · rw [huser]
      · -- `EpayNotify` marks the order successful and owes the credit
        have hpending : s.topUp.status ≠ TopUpStatusSuccess := by
          simpa [WritesOnce, hproc] using honce
        have hcopy := hinv.copies _ hmem topUp rfl
        refine write_inv hprocs (by simp [Credits]) ?_ ?_ ?_ (.inl ⟨?_, hcredits⟩) hinv
        · intro held hheld
          obtain rfl : topUp = held := by simpa [TopUpProc.copy] using hheld
          exact hcopy
        · exact htopUp ▸ complete_sameOrder hcopy _
        · have hsuccess : (topUp.complete .epayNotify).status = TopUpStatusSuccess :=
            complete_status (by simp)
          rw [hcredits, hprocs, Pool.total_set hproc, htopUp, if_pos hsuccess]
          rw [if_neg hpending] at hcount
          simp only [owesCredit]
          omega
        · rw [huser]
      · -- the credit of `EpayNotify` does not fail
        obtain ⟨hok, hpos⟩ : ok = true ∧ 0 ≤ creditOf cfg topUp .epayNotify := by
          simpa [WritesOnce, hproc] using honce
        rcases hfail with hfail | hneg
        · simp [hok] at hfail
        · omega
      · have hcopy : topUp.SameOrder order := by
          rcases hwrite with ⟨rfl, -, -⟩ | ⟨rfl, -, -⟩ <;> exact hinv.copies _ hmem topUp rfl
        have hamount : creditOf cfg topUp op = creditOf cfg order op :=
          creditOf_sameOrder hcopy op
        refine write_inv hprocs trivial (by simp [TopUpProc.copy]) ?_ ?_
          (.inr ⟨op, ?_, ?_⟩) hinv
        · rcases hwrite with ⟨-, -, htopUp⟩ | ⟨-, -, htopUp⟩
          · exact htopUp ▸ hinv.same
          · exact htopUp ▸ complete_sameOrder hcopy _
        · rw [hcredits, hprocs, Pool.total_set hproc]
          rcases hwrite with ⟨rfl, rfl, htopUp⟩ | ⟨rfl, rfl, htopUp⟩
          · -- `EpayNotify` pays the credit it owes
            rw [htopUp, ← hcount]
            simp only [owesCredit, List.length_append, List.length_singleton]
            omega
          · -- a transaction commits order and credit together
            have hpending : s.topUp.status ≠ TopUpStatusSuccess := by
              simpa [WritesOnce, hproc] using honce
            obtain ⟨hop, -⟩ : op ≠ .sessionExpired ∧ op ≠ .epayNotify :=
              hinv.forCredit _ hmem
            have hsuccess : (topUp.complete op).status = TopUpStatusSuccess :=
              complete_status hop
            rw [htopUp, if_pos hsuccess]
            rw [if_neg hpending] at hcount
            simp only [owesCredit, List.length_append, List.length_singleton]
            omega
        · rw [huser, ← hamount]
          rfl
        · rw [hcredits, hamount]

end

end TopUpState

/-- An order and its user before any execution. -/
def TopUpState.start {F : Type} (topUp : TopUp F) (user : TopUpUser) : TopUpState F where
  topUp := topUp
  user := user
  orderLock := none
  rowLock := none
  procs := []
  credits := []

open TopUpState

/-- A paid order is credited at most once, by an amount of that order, and once all
executions have ended it is successful exactly when it was credited, in every run that
writes the order once. -/
theorem order_credited_once {F : Type} [Float64 F] {cfg : TopUpConfig F} {topUp : TopUp F}
    {user : TopUpUser} {s' : TopUpState F} {as : List TopUpAction}
    (hpending : topUp.status = TopUpStatusPending)
    (honce : (topUpOrder cfg).Along (WritesOnce cfg) (start topUp user) as)
    (hrun : (topUpOrder cfg).run (start topUp user) as = some s') :
    s'.credits.length ≤ 1 ∧ s'.user.quota = user.quota + s'.credits.sum ∧
      (∀ credit ∈ s'.credits, ∃ op, credit = creditOf cfg topUp op) ∧
      (s'.Ended → (s'.topUp.status = TopUpStatusSuccess ↔ s'.credits.length = 1)) := by
  have hstart : OrderInv cfg topUp user.quota (start topUp user) := by
    refine ⟨⟨rfl, rfl, rfl⟩, by simp [start], by simp [start], ?_, by simp [start],
      by simp [start]⟩
    simp [start, hpending, TopUpStatusPending, TopUpStatusSuccess]
  have hinv : OrderInv cfg topUp user.quota s' :=
    System.invariant_run (I := OrderInv cfg topUp user.quota)
      (fun hstep honce hinv => step_inv hstep honce hinv) hstart honce hrun
  have hcount := hinv.count
  have howes : 0 ≤ total owesCredit s'.procs :=
    Pool.total_nonneg fun proc _ => by unfold owesCredit; split <;> omega
  refine ⟨?_, hinv.quota, hinv.amounts, fun hended => ?_⟩
  · split at hcount <;> omega
  · have hpaid : total owesCredit s'.procs = 0 :=
      Pool.total_eq_zero fun proc hproc => by
        have hreturned := hended proc hproc
        cases proc <;> first | rfl | simp [TopUpProc.isReturned] at hreturned
    split at hcount
    case isTrue hsuccess =>
      simp only [hsuccess, true_iff]
      omega
    case isFalse hother =>
      simp only [hother, false_iff]
      omega

/-- A pending Stripe order over 3 units. -/
def sampleOrder : TopUp Decimal where
  amount := 3
  money := Decimal.ofInt 3
  paymentMethod := "stripe"
  status := TopUpStatusPending

def sampleUserRow : TopUpUser where
  quota := 10
  email := ""
  stripeCustomer := ""

/-- One unit is worth 500000 quota. -/
def sampleTopUpConfig : TopUpConfig Decimal where
  quotaPerUnit := Decimal.ofInt 500000
  storeFloat := Decimal.intPart

/-- A payment that fails at its commit, its retry, and an administrator who comes late. -/
def orderlyTopUpRun : List TopUpAction :=
  [.start (.recharge "cus"), .advance 0 true, .advance 0 true, .advance 0 true,
    .advance 0 false, .start (.recharge "cus"), .advance 1 true, .advance 1 true,
    .advance 1 true, .advance 1 true, .start .manualCompleteTopUp, .advance 2 true,
    .advance 2 true]

theorem order_credited_once_orderly :
    ∃ s', (topUpOrder sampleTopUpConfig).run (start sampleOrder sampleUserRow)
        orderlyTopUpRun = some s' ∧
      s'.credits.length ≤ 1 ∧ s'.user.quota = 10 + s'.credits.sum ∧
      (s'.topUp.status = TopUpStatusSuccess ↔ s'.credits.length = 1) := by
  have honce : (topUpOrder sampleTopUpConfig).Along (WritesOnce sampleTopUpConfig)
      (start sampleOrder sampleUserRow) orderlyTopUpRun := by
    decide
  obtain ⟨hlength, hquota, -, hstatus⟩ := order_credited_once rfl honce rfl
  exact ⟨_, rfl, hlength, hquota, hstatus (by decide)⟩

/-- Two deliveries of the same payment that both select the order before either commits. -/
def doubleTopUpRun : List TopUpAction :=
  [.start (.recharge "cus"), .start (.recharge "cus"), .advance 0 true, .advance 1 true,
    .advance 0 true, .advance 0 true, .advance 0 true, .advance 1 true, .advance 1 true,
    .advance 1 true]

/-- Two overlapping payments credit the order twice. -/
theorem overlapping_recharge_credits_twice :
    ¬ ∀ (cfg : TopUpConfig Decimal) (topUp : TopUp Decimal) (user : TopUpUser)
      (as : List TopUpAction) (s' : TopUpState Decimal), topUp.status = TopUpStatusPending →
      (topUpOrder cfg).run (start topUp user) as = some s' → s'.credits.length ≤ 1 := by
  intro hclaim
  have honce := hclaim sampleTopUpConfig sampleOrder sampleUserRow doubleTopUpRun _ rfl rfl
  exact absurd honce (by decide)

end NewApi.Model
