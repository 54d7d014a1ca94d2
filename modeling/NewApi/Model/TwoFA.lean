import Mathlib.Data.List.Nodup
import NewApi.Lib.Strings
import NewApi.Lib.System

/-!
# Two-factor verification

A verification reads the row of the user once, checks the code, and saves the whole row with the new
count of failures.  A backup code is looked for among the unused ones and then saved as
used.  Requests of one user run at the same time, so that a row may be saved over one that
others have saved since.
-/

namespace NewApi.Model

open NewApi.Lib

def BackupCodeLength : ℕ := 8

def MaxFailAttempts : ℕ := 5

def LockoutDuration : ℤ := 300

/-- The columns of the row that decide about a verification. -/
structure TwoFA where
  failedAttempts : ℕ
  lockedUntil : Option ℤ
deriving DecidableEq

namespace TwoFA

/-- The row as `Enable` leaves it and as a success saves it. -/
def resetFailedAttempts : TwoFA where
  failedAttempts := 0
  lockedUntil := none

def incrementFailedAttempts (t : TwoFA) (now : ℤ) : TwoFA where
  failedAttempts := t.failedAttempts + 1
  lockedUntil :=
    if MaxFailAttempts ≤ t.failedAttempts + 1 then some (now + LockoutDuration) else t.lockedUntil

def isLocked (t : TwoFA) (now : ℤ) : Bool :=
  t.lockedUntil.any fun lockedUntil => now < lockedUntil

end TwoFA

/-! ## Codes -/

def validateNumericCode (code : String) : Option String :=
  let code := Strings.remove code ' '
  if code.utf8ByteSize ≠ 6 then none
  else if Strings.isInteger code = false then none
  else some code

def validBackupCode (code : String) : Bool :=
  let cleanCode := Strings.toUpper (Strings.remove code '-')
  cleanCode.utf8ByteSize = BackupCodeLength && cleanCode.toList.all fun c => c.isUpper || c.isDigit

def normalizeBackupCode (code : String) : String :=
  let cleanCode := Strings.toUpper (Strings.remove code '-')
  if cleanCode.utf8ByteSize = BackupCodeLength then
    String.ofList (cleanCode.toList.take 4) ++ "-" ++ String.ofList (cleanCode.toList.drop 4)
  else code

/-- The one-time passwords of the secret, and the hashes of the backup codes. -/
structure TwoFAConfig where
  totpValidate : String → ℤ → Bool
  validatePasswordAndHash : String → ℕ → Bool

def TwoFAConfig.validateTOTPCode (cfg : TwoFAConfig) (code : String) (now : ℤ) : Bool :=
  let cleanCode := Strings.remove code ' '
  cleanCode.utf8ByteSize = 6 && cfg.totpValidate cleanCode now

/-! ## Verifications -/

/-- Where a verification stands; it keeps the row that it has read and changed. -/
inductive VerifyPhase where
  | started
  | totp (t : TwoFA)
  | totpUpdate (t : TwoFA) (valid : Bool)
  | backup (t : TwoFA)
  | mark (t : TwoFA) (backupCode : ℕ)
  | backupUpdate (t : TwoFA) (valid : Bool)
  | finished (valid : Bool)
deriving DecidableEq

structure VerifyRequest where
  code : String
  phase : VerifyPhase
deriving DecidableEq

/-- A code has been checked. -/
inductive VerifyEvent where
  | wrong (now : ℤ)
  | right (now : ℤ)
deriving DecidableEq

/-- The row, whether each backup code is used, and the requests; the checked codes and the accepted
backup codes, newest first. -/
structure TwoFAState where
  row : TwoFA
  isUsed : List Bool
  requests : ℕ → Option VerifyRequest
  clock : ℤ
  history : List VerifyEvent
  accepted : List ℕ

inductive TwoFAAction where
  | verify (id : ℕ) (code : String)
  | advance (id : ℕ) (now : ℤ)

namespace TwoFAState

def start (isUsed : List Bool) (clock : ℤ) : TwoFAState where
  row := .resetFailedAttempts
  isUsed := isUsed
  requests _ := none
  clock := clock
  history := []
  accepted := []

/-- The first unused backup code that the hash fits. -/
def findBackupCode (cfg : TwoFAConfig) (s : TwoFAState) (code : String) : Option ℕ :=
  (List.range s.isUsed.length).find? fun i =>
    s.isUsed[i]? = some false && cfg.validatePasswordAndHash (normalizeBackupCode code) i

def goto (s : TwoFAState) (id : ℕ) (code : String) (phase : VerifyPhase) : TwoFAState :=
  { s with requests := Function.update s.requests id (some ⟨code, phase⟩) }

/-- A code has been checked, with the outcome that the request has still to save. -/
def check (s : TwoFAState) (id : ℕ) (code : String) (event : VerifyEvent) (phase : VerifyPhase) :
    TwoFAState :=
  { s with history := event :: s.history }.goto id code phase

/-- The next statement of a request, with what it does in memory before it. -/
def advance (cfg : TwoFAConfig) (s : TwoFAState) (id : ℕ) (code : String) (now : ℤ) :
    VerifyPhase → Option TwoFAState
  | .started => some (s.goto id code (.totp s.row))
  | .totp t =>
      -- any error of the one-time password, also a locked row, sends the request on to the backup
      -- codes
      match validateNumericCode code with
      | none => some (s.goto id code (.backup t))
      | some cleanCode =>
          if t.isLocked now = true then some (s.goto id code (.backup t))
          else if cfg.validateTOTPCode cleanCode now then
            some (s.check id code (.right now) (.totpUpdate .resetFailedAttempts true))
          else
            some (s.check id code (.wrong now) (.totpUpdate (t.incrementFailedAttempts now) false))
  | .totpUpdate t valid =>
      -- the whole row is saved, with the count and the lock of the copy
      some ({ s with row := t }.goto id code (if valid then .finished true else .backup t))
  | .backup t =>
      if t.isLocked now = true ∨ validBackupCode code = false then
        some (s.goto id code (.finished false))
      else
        match s.findBackupCode cfg code with
        | some backupCode => some (s.check id code (.right now) (.mark t backupCode))
        | none =>
            some (s.check id code (.wrong now)
              (.backupUpdate (t.incrementFailedAttempts now) false))
  | .mark _ backupCode =>
      some ({ s with
        isUsed := s.isUsed.set backupCode true
        accepted := backupCode :: s.accepted }.goto id code
          (.backupUpdate .resetFailedAttempts true))
  | .backupUpdate t valid => some ({ s with row := t }.goto id code (.finished valid))
  | .finished _ => none

def step (cfg : TwoFAConfig) (s : TwoFAState) : TwoFAAction → Option TwoFAState
  | .verify id code =>
      if s.requests id = none then some (s.goto id code .started) else none
  | .advance id now =>
      if now < s.clock then none
      else
        match s.requests id with
        | none => none
        | some request => { s with clock := now }.advance cfg id request.code now request.phase

end TwoFAState

/-- The verifications of one user. -/
def twoFA (cfg : TwoFAConfig) : System TwoFAState TwoFAAction where
  step := TwoFAState.step cfg

/-! ## The bound on wrong codes -/

def VerifyEvent.now : VerifyEvent → ℤ
  | .wrong now => now
  | .right now => now

/-- The wrong codes since the last right one. -/
def wrongCodes : List VerifyEvent → ℕ
  | .wrong _ :: earlier => wrongCodes earlier + 1
  | _ => 0

/-- The time of the last wrong code, if no right one has come since. -/
def lastWrong : List VerifyEvent → Option ℤ
  | .wrong now :: _ => some now
  | _ => none

/-- A code may be checked: there have been fewer wrong codes than `MaxFailAttempts` since the last
right one, or the lockout after the last of them is over. -/
def MayCheck (earlier : List VerifyEvent) (now : ℤ) : Prop :=
  wrongCodes earlier < MaxFailAttempts ∨ ∀ time ∈ lastWrong earlier, time + LockoutDuration ≤ now

/-- Each code was checked when it might be. -/
def BoundedAttempts : List VerifyEvent → Prop
  | [] => True
  | event :: earlier => MayCheck earlier event.now ∧ BoundedAttempts earlier

/-- The row after the checked codes, each counted on the one before. -/
def countedRow : List VerifyEvent → TwoFA
  | [] => .resetFailedAttempts
  | .wrong now :: earlier => (countedRow earlier).incrementFailedAttempts now
  | .right _ :: _ => .resetFailedAttempts

theorem countedRow_failedAttempts (history : List VerifyEvent) :
    (countedRow history).failedAttempts = wrongCodes history := by
  induction history with
  | nil => rfl
  | cons event earlier ih =>
      cases event with
      | wrong now => rw [countedRow, TwoFA.incrementFailedAttempts, wrongCodes, ih]
      | right now => rfl

theorem countedRow_lockedUntil (history : List VerifyEvent) :
    (countedRow history).lockedUntil =
      if MaxFailAttempts ≤ wrongCodes history then (lastWrong history).map (· + LockoutDuration)
      else none := by
  induction history with
  | nil => rfl
  | cons event earlier ih =>
      cases event with
      | wrong now =>
          rw [countedRow, TwoFA.incrementFailedAttempts, countedRow_failedAttempts, wrongCodes,
            lastWrong]
          split
          · rfl
          case isFalse hbelow =>
            rw [ih, if_neg (by omega)]
      | right now => rfl

/-- The counted row is locked exactly when no code may be checked. -/
theorem countedRow_isLocked {history : List VerifyEvent} {now : ℤ} :
    (countedRow history).isLocked now = false ↔ MayCheck history now := by
  rw [TwoFA.isLocked, countedRow_lockedUntil, MayCheck]
  by_cases hbelow : wrongCodes history < MaxFailAttempts
  -- below the bound the lock is empty, from it on every wrong code has set it
  · rw [if_neg (by omega)]
    exact iff_of_true rfl (Or.inl hbelow)
  · rw [if_pos (by omega), or_iff_right hbelow]
    cases lastWrong history with
    | none => simp
    | some time => simp

/-! ## Runs -/

/-- The row that a request has to save for the code that it has checked. -/
def VerifyPhase.unwritten : VerifyPhase → Option TwoFA
  | .totpUpdate t _ => some t
  | .mark _ _ => some .resetFailedAttempts
  | .backupUpdate t _ => some t
  | _ => none

/-- The row on which a request is about to check its code. -/
def VerifyRequest.checks (request : VerifyRequest) (now : ℤ) : Option TwoFA :=
  match request.phase with
  | .totp t =>
      if validateNumericCode request.code = none ∨ t.isLocked now = true then none else some t
  | .backup t =>
      if t.isLocked now = true ∨ validBackupCode request.code = false then none else some t
  | _ => none

theorem checks_totp {code : String} {t : TwoFA} {now : ℤ}
    (hnumeric : validateNumericCode code ≠ none) (hunlocked : t.isLocked now = false) :
    VerifyRequest.checks ⟨code, .totp t⟩ now = some t :=
  if_neg (by simp [hnumeric, hunlocked])

theorem checks_backup {code : String} {t : TwoFA} {now : ℤ}
    (hcheck : ¬(t.isLocked now = true ∨ validBackupCode code = false)) :
    VerifyRequest.checks ⟨code, .backup t⟩ now = some t :=
  if_neg hcheck

namespace TwoFAState

/-- No other request has to save a row. -/
def NoOtherWriter (s : TwoFAState) (id : ℕ) : Prop :=
  ∀ other request, other ≠ id → s.requests other = some request → request.phase.unwritten = none

/-- A request that checks a code has the row as it is stored, and no other request has
to save one. -/
def ChecksFresh (s : TwoFAState) : TwoFAAction → Prop
  | .verify _ _ => True
  | .advance id now =>
      ∀ request t, s.requests id = some request → request.checks now = some t →
        t = s.row ∧ s.NoOtherWriter id

/-- The stored row counts every checked code, except for the one whose outcome a request has
still to save. -/
structure Counted (s : TwoFAState) : Prop where
  written : (∀ id request, s.requests id = some request → request.phase.unwritten = none) →
    s.row = countedRow s.history
  waiting : ∀ id request t, s.requests id = some request → request.phase.unwritten = some t →
    t = countedRow s.history ∧ s.NoOtherWriter id
  bounded : BoundedAttempts s.history

/-- The accepted backup codes are distinct ones that were unused at the start. -/
structure Spent (isUsed : List Bool) (s : TwoFAState) : Prop where
  unmarked : ∀ (id : ℕ) code t (backupCode : ℕ),
    s.requests id = some ⟨code, .mark t backupCode⟩ → s.isUsed[backupCode]? = some false
  marked : ∀ backupCode ∈ s.accepted, s.isUsed[backupCode]? = some true
  untouched : ∀ backupCode : ℕ,
    s.isUsed[backupCode]? = some false → isUsed[backupCode]? = some false
  wasUnused : ∀ backupCode ∈ s.accepted, isUsed[backupCode]? = some false
  once : s.accepted.Nodup

section Moves

variable {s s' : TwoFAState} {id : ℕ} {code : String} {phase : VerifyPhase}

/-- A request is the same after a move of another one. -/
theorem requests_cases {other : ℕ} {request : VerifyRequest}
    (hrequests : s'.requests = Function.update s.requests id (some ⟨code, phase⟩))
    (hrequest : s'.requests other = some request) :
    other = id ∧ request = ⟨code, phase⟩ ∨ other ≠ id ∧ s.requests other = some request := by
  rw [hrequests] at hrequest
  by_cases hother : other = id
  · rw [hother, Function.update_self] at hrequest
    exact Or.inl ⟨hother, (Option.some.inj hrequest).symm⟩
  · rw [Function.update_of_ne hother] at hrequest
    exact Or.inr ⟨hother, hrequest⟩

theorem NoOtherWriter.move (hothers : s.NoOtherWriter id)
    (hrequests : s'.requests = Function.update s.requests id (some ⟨code, phase⟩)) :
    s'.NoOtherWriter id := by
  intro other request hother hrequest
  rcases requests_cases hrequests hrequest with ⟨heq, -⟩ | ⟨-, hrequest⟩
  · exact absurd heq hother
  · exact hothers other request hother hrequest

/-- A request that has no row to save moves on, and still has none. -/
theorem Counted.quiet (hcounted : s.Counted)
    (hrequests : s'.requests = Function.update s.requests id (some ⟨code, phase⟩))
    (hrow : s'.row = s.row) (hhistory : s'.history = s.history)
    (hidle : ∀ request, s.requests id = some request → request.phase.unwritten = none)
    (hphase : phase.unwritten = none) : s'.Counted where
  written hall := by
    rw [hrow, hhistory]
    apply hcounted.written
    intro other request hrequest
    by_cases hother : other = id
    · exact hidle request (hother ▸ hrequest)
    · apply hall other request
      rw [hrequests, Function.update_of_ne hother, hrequest]
  waiting other request t hrequest ht := by
    rw [hhistory]
    rcases requests_cases hrequests hrequest with ⟨-, rfl⟩ | ⟨hother, hrequest⟩
    · cases hphase.symm.trans ht
    · obtain ⟨hrow, hothers⟩ := hcounted.waiting other request t hrequest ht
      refine ⟨hrow, fun third request' hthird hrequest' => ?_⟩
      rcases requests_cases hrequests hrequest' with ⟨-, rfl⟩ | ⟨-, hrequest'⟩
      · exact hphase
      · exact hothers third request' hthird hrequest'
  bounded := by
    rw [hhistory]
    exact hcounted.bounded

/-- The one request with a row to save has the counted one. -/
theorem Counted.pending (hothers : s.NoOtherWriter id)
    (hrequests : s'.requests = Function.update s.requests id (some ⟨code, phase⟩))
    (hphase : phase.unwritten = some (countedRow s'.history))
    (hbounded : BoundedAttempts s'.history) : s'.Counted where
  written hall := by
    have hnone := hall id ⟨code, phase⟩ (by rw [hrequests, Function.update_self])
    cases hnone.symm.trans hphase
  waiting other request t hrequest ht := by
    rcases requests_cases hrequests hrequest with ⟨rfl, rfl⟩ | ⟨hother, hrequest⟩
    · exact ⟨Option.some.inj (ht.symm.trans hphase), hothers.move hrequests⟩
    · cases (hothers other request hother hrequest).symm.trans ht
  bounded := hbounded

/-- The one request with a row to save saves it. -/
theorem Counted.write (hothers : s.NoOtherWriter id)
    (hrequests : s'.requests = Function.update s.requests id (some ⟨code, phase⟩))
    (hrow : s'.row = countedRow s'.history) (hphase : phase.unwritten = none)
    (hbounded : BoundedAttempts s'.history) : s'.Counted where
  written _ := hrow
  waiting other request t hrequest ht := by
    rcases requests_cases hrequests hrequest with ⟨-, rfl⟩ | ⟨hother, hrequest⟩
    · cases hphase.symm.trans ht
    · cases (hothers other request hother hrequest).symm.trans ht
  bounded := hbounded

variable {isUsed : List Bool}

theorem Spent.move (hspent : s.Spent isUsed)
    (hrequests : s'.requests = Function.update s.requests id (some ⟨code, phase⟩))
    (hisUsed : s'.isUsed = s.isUsed) (haccepted : s'.accepted = s.accepted)
    (hphase : ∀ t (backupCode : ℕ), phase = .mark t backupCode →
      s.isUsed[backupCode]? = some false) : s'.Spent isUsed := by
  refine ⟨?_, ?_, ?_, ?_, ?_⟩
  · intro other code' t backupCode hrequest
    rw [hisUsed]
    rcases requests_cases hrequests hrequest with ⟨-, heq⟩ | ⟨-, hrequest⟩
    · exact hphase t backupCode (congrArg VerifyRequest.phase heq).symm
    · exact hspent.unmarked other code' t backupCode hrequest
  · rw [hisUsed, haccepted]
    exact hspent.marked
  · rw [hisUsed]
    exact hspent.untouched
  · rw [haccepted]
    exact hspent.wasUnused
  · rw [haccepted]
    exact hspent.once

/-- A request marks the code that it has found, while no other request has one to mark. -/
theorem Spent.mark (hspent : s.Spent isUsed) {t : TwoFA} {backupCode : ℕ}
    (hmark : s.requests id = some ⟨code, .mark t backupCode⟩) (hothers : s.NoOtherWriter id)
    (hrequests : s'.requests = Function.update s.requests id (some ⟨code, phase⟩))
    (hisUsed : s'.isUsed = s.isUsed.set backupCode true)
    (haccepted : s'.accepted = backupCode :: s.accepted)
    (hphase : ∀ t backupCode, phase ≠ .mark t backupCode) : s'.Spent isUsed := by
  have hunused := hspent.unmarked id code t backupCode hmark
  have hlength : backupCode < s.isUsed.length := (List.getElem?_eq_some_iff.1 hunused).1
  refine ⟨?_, ?_, ?_, ?_, ?_⟩
  · intro other code' t' backupCode' hrequest
    rcases requests_cases hrequests hrequest with ⟨-, heq⟩ | ⟨hother, hrequest⟩
    · exact absurd (congrArg VerifyRequest.phase heq).symm (hphase t' backupCode')
    · cases hothers other _ hother hrequest
  · intro other hother
    rw [hisUsed, List.getElem?_set]
    split
    case isTrue => rfl
    case isFalse hne =>
      rw [haccepted] at hother
      exact hspent.marked other (List.mem_of_ne_of_mem (Ne.symm hne) hother)
  · intro other hother
    rw [hisUsed, List.getElem?_set] at hother
    split at hother
    case isTrue => cases hother
    case isFalse => exact hspent.untouched other hother
  · rw [haccepted, List.forall_mem_cons]
    exact ⟨hspent.untouched backupCode hunused, hspent.wasUnused⟩
  · rw [haccepted, List.nodup_cons]
    refine ⟨fun hmem => ?_, hspent.once⟩
    cases hunused.symm.trans (hspent.marked backupCode hmem)

end Moves

variable {cfg : TwoFAConfig} {isUsed : List Bool} {s s' : TwoFAState}

theorem findBackupCode_unused {code : String} {backupCode : ℕ}
    (hfind : s.findBackupCode cfg code = some backupCode) :
    s.isUsed[backupCode]? = some false := by
  have hfits := List.find?_some hfind
  rw [Bool.and_eq_true, decide_eq_true_iff] at hfits
  exact hfits.1

theorem Counted.idle (hcounted : s.Counted) {id : ℕ} {request : VerifyRequest}
    (hrequest : s.requests id = some request) (hidle : request.phase.unwritten = none)
    (hothers : s.NoOtherWriter id) : s.row = countedRow s.history := by
  apply hcounted.written
  intro other request' hrequest'
  by_cases hother : other = id
  · obtain rfl := Option.some.inj (hrequest.symm.trans (hother ▸ hrequest'))
    exact hidle
  · exact hothers other request' hother hrequest'

/-- A code that is checked on the stored row is checked when it may be. -/
theorem Counted.check (hcounted : s.Counted) {id : ℕ} {request : VerifyRequest} {code : String}
    {event : VerifyEvent} {phase : VerifyPhase} (hrequest : s.requests id = some request)
    (hidle : request.phase.unwritten = none) (hothers : s.NoOtherWriter id)
    (hunlocked : s.row.isLocked event.now = false)
    (hphase : phase.unwritten = some (countedRow (event :: s.history))) :
    (s.check id code event phase).Counted := by
  refine Counted.pending hothers rfl hphase ⟨?_, hcounted.bounded⟩
  rw [hcounted.idle hrequest hidle hothers] at hunlocked
  exact countedRow_isLocked.1 hunlocked

/-- Every statement of a request keeps the count and the codes, if a code is only checked on
a fresh row. -/
theorem advance_keeps {id : ℕ} {code : String} {now : ℤ} {phase : VerifyPhase}
    (hcounted : s.Counted) (hspent : s.Spent isUsed)
    (hrequest : s.requests id = some ⟨code, phase⟩)
    (hfresh : ∀ t, VerifyRequest.checks ⟨code, phase⟩ now = some t → t = s.row ∧ s.NoOtherWriter id)
    (hadvance : s.advance cfg id code now phase = some s') :
    s'.Counted ∧ s'.Spent isUsed := by
  have hself : ∀ request, s.requests id = some request → request = ⟨code, phase⟩ := fun request h =>
    (Option.some.inj (hrequest.symm.trans h)).symm
  cases phase with
  | started =>
      obtain rfl := Option.some.inj hadvance
      exact ⟨hcounted.quiet rfl rfl rfl (fun r h => by rw [hself r h]; rfl) rfl,
        hspent.move rfl rfl rfl fun t backupCode h => by cases h⟩
  | totp t =>
      have hquiet : (s.goto id code (.backup t)).Counted ∧
        (s.goto id code (.backup t)).Spent isUsed :=
        ⟨hcounted.quiet rfl rfl rfl (fun r h => by rw [hself r h]; rfl) rfl,
          hspent.move rfl rfl rfl fun t backupCode h => by cases h⟩
      simp only [advance] at hadvance
      split at hadvance
      · obtain rfl := Option.some.inj hadvance
        exact hquiet
      case h_2 cleanCode hclean =>
        split at hadvance
        · obtain rfl := Option.some.inj hadvance
          exact hquiet
        -- the code is checked, so that the copy is the stored row
        case isFalse hunlocked =>
          rw [Bool.not_eq_true] at hunlocked
          obtain ⟨rfl, hothers⟩ := hfresh t (checks_totp (by simp [hclean]) hunlocked)
          split at hadvance
          · obtain rfl := Option.some.inj hadvance
            exact ⟨hcounted.check hrequest rfl hothers hunlocked rfl,
              hspent.move rfl rfl rfl fun t backupCode h => by cases h⟩
          · obtain rfl := Option.some.inj hadvance
            refine ⟨hcounted.check hrequest rfl hothers hunlocked ?_,
              hspent.move rfl rfl rfl fun t backupCode h => by cases h⟩
            rw [VerifyPhase.unwritten, countedRow, ← hcounted.idle hrequest rfl hothers]
  -- a write brings the stored row up to the checked codes
  | totpUpdate t valid =>
      obtain ⟨rfl, hothers⟩ := hcounted.waiting id _ t hrequest rfl
      obtain rfl := Option.some.inj hadvance
      refine ⟨Counted.write hothers rfl rfl ?_ hcounted.bounded, hspent.move rfl rfl rfl ?_⟩
      · cases valid <;> rfl
      · intro t backupCode h
        cases valid <;> cases h
  | backup t =>
      simp only [advance] at hadvance
      split at hadvance
      · obtain rfl := Option.some.inj hadvance
        exact ⟨hcounted.quiet rfl rfl rfl (fun r h => by rw [hself r h]; rfl) rfl,
          hspent.move rfl rfl rfl fun t backupCode h => by cases h⟩
      case isFalse hunlocked =>
        obtain ⟨rfl, hothers⟩ := hfresh t (checks_backup hunlocked)
        rw [not_or, Bool.not_eq_true] at hunlocked
        split at hadvance
        case h_1 backupCode hfind =>
          obtain rfl := Option.some.inj hadvance
          refine ⟨hcounted.check hrequest rfl hothers hunlocked.1 rfl,
            hspent.move rfl rfl rfl fun t other h => ?_⟩
          obtain ⟨-, rfl⟩ := VerifyPhase.mark.inj h
          exact findBackupCode_unused hfind
        case h_2 =>
          obtain rfl := Option.some.inj hadvance
          refine ⟨hcounted.check hrequest rfl hothers hunlocked.1 ?_,
            hspent.move rfl rfl rfl fun t backupCode h => by cases h⟩
          rw [VerifyPhase.unwritten, countedRow, ← hcounted.idle hrequest rfl hothers]
  | mark t backupCode =>
      obtain ⟨hcount, hothers⟩ := hcounted.waiting id _ _ hrequest rfl
      obtain rfl := Option.some.inj hadvance
      refine ⟨Counted.pending hothers rfl (congrArg some hcount) hcounted.bounded,
        hspent.mark hrequest hothers rfl rfl rfl fun t backupCode h => by cases h⟩
  | backupUpdate t valid =>
      obtain ⟨rfl, hothers⟩ := hcounted.waiting id _ t hrequest rfl
      obtain rfl := Option.some.inj hadvance
      exact ⟨Counted.write hothers rfl rfl rfl hcounted.bounded,
        hspent.move rfl rfl rfl fun t backupCode h => by cases h⟩
  | finished valid => cases hadvance

theorem step_keeps {a : TwoFAAction} (hstep : (twoFA cfg).step s a = some s')
    (hfresh : s.ChecksFresh a) (hkept : s.Counted ∧ s.Spent isUsed) :
    s'.Counted ∧ s'.Spent isUsed := by
  obtain ⟨hcounted, hspent⟩ := hkept
  cases a with
  | verify id code =>
      change (if s.requests id = none then some (s.goto id code .started) else none) =
        some s' at hstep
      split at hstep
      case isTrue hnone =>
        obtain rfl := Option.some.inj hstep
        refine ⟨hcounted.quiet rfl rfl rfl (fun request hrequest => ?_) rfl,
          hspent.move rfl rfl rfl fun t backupCode h => by cases h⟩
        cases hnone.symm.trans hrequest
      case isFalse => cases hstep
  | advance id now =>
      change (if now < s.clock then none else _) = some s' at hstep
      split at hstep
      · cases hstep
      · split at hstep
        · cases hstep
        case h_2 request hrequest =>
          have hcounted' : { s with clock := now }.Counted :=
            ⟨hcounted.written, hcounted.waiting, hcounted.bounded⟩
          have hspent' : { s with clock := now }.Spent isUsed :=
            ⟨hspent.unmarked, hspent.marked, hspent.untouched, hspent.wasUnused, hspent.once⟩
          exact advance_keeps hcounted' hspent' hrequest (hfresh request · hrequest) hstep

theorem start_keeps (isUsed : List Bool) (clock : ℤ) :
    (start isUsed clock).Counted ∧ (start isUsed clock).Spent isUsed := by
  refine ⟨⟨fun _ => rfl, ?_, trivial⟩, ⟨?_, ?_, fun _ h => h, ?_, List.nodup_nil⟩⟩
  · intro id request t hrequest
    cases hrequest
  · intro id code t backupCode hrequest
    cases hrequest
  · intro backupCode hmem
    cases hmem
  · intro backupCode hmem
    cases hmem

end TwoFAState

open TwoFAState

/-- While codes are only checked on fresh rows, a backup code is accepted once, and
wrong codes lock. -/
theorem attempts_bounded_along {cfg : TwoFAConfig} {isUsed : List Bool} {clock : ℤ} {s : TwoFAState}
    {as : List TwoFAAction} (hfresh : (twoFA cfg).Along ChecksFresh (start isUsed clock) as)
    (hrun : (twoFA cfg).run (start isUsed clock) as = some s) :
    s.accepted.Nodup ∧ (∀ backupCode ∈ s.accepted, isUsed[backupCode]? = some false) ∧
      BoundedAttempts s.history := by
  obtain ⟨hcounted, hspent⟩ := System.invariant_run step_keeps
    (start_keeps isUsed clock) hfresh hrun
  exact ⟨hspent.once, hspent.wasUnused, hcounted.bounded⟩

/-- One password and one backup code fit. -/
def oneCode : TwoFAConfig where
  totpValidate code _ := code = "123456"
  validatePasswordAndHash code backupCode := code = "ABCD-EFGH" && backupCode = 0

theorem attempts_bounded_along_one :
    ∃ s, (twoFA oneCode).run (start [false] 0)
        (.verify 0 "abcd-efgh" :: List.replicate 5 (.advance 0 1)) = some s ∧ s.accepted = [0] ∧
      s.accepted.Nodup ∧ (∀ backupCode ∈ s.accepted, [false][backupCode]? = some false) ∧
        BoundedAttempts s.history := by
  have hfresh : (twoFA oneCode).Along ChecksFresh (start [false] 0)
      (.verify 0 "abcd-efgh" :: List.replicate 5 (.advance 0 1)) := by
    refine And.intro trivial (And.intro ?_ (And.intro ?_ (And.intro ?_ (And.intro ?_
      (And.intro ?_ trivial)))))
    all_goals intro request t hrequest hchecks
    all_goals obtain rfl := Option.some.inj hrequest
    · cases hchecks
    · cases hchecks
    · obtain rfl := Option.some.inj hchecks
      refine ⟨rfl, fun other request hother hrequest => ?_⟩
      simp [goto, start, Function.update_of_ne hother] at hrequest
    · cases hchecks
    · cases hchecks
  exact ⟨_, rfl, rfl, attempts_bounded_along hfresh rfl⟩

/-- Six requests read the row before any of them saves it, and all of them check a wrong code; two
find one backup code before either of them marks it. -/
theorem attempts_exceeded :
    (∃ s, (twoFA oneCode).run (start [] 0)
        ((List.range 6).map (.verify · "000000") ++ (List.range 6).map (.advance · 1) ++
          (List.range 6).map (.advance · 1)) = some s ∧
      s.history = List.replicate 6 (.wrong 1) ∧ ¬BoundedAttempts s.history) ∧
    ∃ s, (twoFA oneCode).run (start [false] 0)
        ([.verify 0 "abcd-efgh", .verify 1 "abcd-efgh"] ++ List.replicate 3 (.advance 0 1) ++
          List.replicate 3 (.advance 1 1) ++ [.advance 0 1, .advance 1 1]) = some s ∧
      s.accepted = [0, 0] ∧ ¬s.accepted.Nodup := by
  refine ⟨⟨_, rfl, rfl, fun hbounded => ?_⟩, ⟨_, rfl, rfl, by decide⟩⟩
  rcases hbounded.1 with hbelow | hover
  · exact absurd hbelow (by decide)
  · exact absurd (hover 1 rfl) (by decide)

end NewApi.Model
