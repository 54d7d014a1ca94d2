import NewApi.Model.UserRole

/-!
# Revoking a user's access

The status and the role of a user live in the row, in the Redis hash that `TokenAuth` consults, and
in the signed cookies of the user's sessions, which `authHelper` trusts.  One user is modelled here
with all requests that present its credentials, the administrators' actions on it and the other
writers of its row and its hash; every SQL statement and every Redis command is one action.
-/

namespace NewApi.Model

open NewApi.Lib

/-- What an administrator takes away. -/
inductive Revocation where
  | disable
  | demote
  | delete
deriving DecidableEq, Repr

/-- The revocation that an action of `ManageUser` stands for. -/
def Revocation.ofAction (action : String) : Option Revocation :=
  if action = "disable" then some .disable
  else if action = "demote" then some .demote
  else if action = "delete" then some .delete
  else none

/-- A call in progress before its next statement.  `User.Update` and `Edit` read the row again
before they write it, and write the cache from what they read then (`status`). -/
inductive AuthProc where
  | issuing (session : Actor)
  | deleting (update : Option User)
  | invalidating (update : Option User)
  | updating (revocation : Option Revocation) (newUser : User)
  | writing (revocation : Option Revocation) (newUser : User) (status : ℤ)
  | editing (updatedUser : UserBody) (hash : Option String)
  | editWriting (updatedUser : UserBody) (hash : Option String) (status : ℤ)
  | caching (revocation : Option Revocation) (status : ℤ)
  | hardDeleting
  | reading
  | returned

/-- One user: its row, the status in its Redis hash, the cookies issued to it, the calls in
progress, and the revocations that have returned success. -/
structure AuthState where
  row : Option StoredUser
  cache : Option ℤ
  sessions : List Actor
  procs : List AuthProc
  revoked : List Revocation

/-- A request begins, a call takes its next step, or the hash expires or is touched by a command
on another of its fields.  A missing header is `none`, an unreadable one `some none`. -/
inductive AuthAction where
  | login (checksStatus : Bool)
  | manageUser (myRole : ℤ) (action : String)
  | updateUser (myRole : ℤ) (updatedUser : UserBody) (hash : Option String)
  | deleteUser (myRole : ℤ)
  | deleteSelf
  | saveUser (whole : Bool) (column value : String)
  | session (i : ℕ) (newApiUser : Option (Option ℤ)) (minRole : ℤ)
  | accessToken (token : String) (newApiUser : Option (Option ℤ)) (minRole : ℤ)
  | apiKey
  | advance (proc : ℕ) (ok : Bool)
  | expire
  | touch
deriving DecidableEq

/-- Who calls: the actor of the session cookie, or else the user of the access token. -/
def authCaller (session : Option Actor) (accessToken : String) (tokenUser : Option Actor) :
    Except String Actor :=
  match session with
  | some actor => .ok actor
  | none =>
      if accessToken = "" then .error "无权进行此操作，未登录且未提供 access token"
      else
        match tokenUser with
        | some user =>
            if user.username = "" then .error "无权进行此操作，access token 无效"
            else if !validUserInfo user.username user.role then
              .error "无权进行此操作，用户信息无效"
            else .ok user
        | none => .error "无权进行此操作，access token 无效"

def authHelper (session : Option Actor) (accessToken : String) (tokenUser : Option Actor)
    (newApiUser : Option (Option ℤ)) (minRole : ℤ) : Except String Actor := do
  let actor ← authCaller session accessToken tokenUser
  match newApiUser with
  | none => .error "无权进行此操作，未提供 New-Api-User"
  | some none => .error "无权进行此操作，New-Api-User 格式错误"
  | some (some apiUserId) =>
      if actor.id ≠ apiUserId then .error "无权进行此操作，New-Api-User 与登录用户不匹配"
      else
        match actor.refusal minRole with
        | some message => .error message
        | none => .ok actor

/-- The check of `TokenAuth` on the user of the key. -/
def tokenAuth (status : ℤ) : Except String ℤ :=
  if status ≠ UserStatusEnabled then .error "用户已被封禁" else .ok status

/-- What a request is admitted with: `TokenAuth` knows no role. -/
structure Entrance where
  role : Option ℤ
  status : ℤ
deriving DecidableEq

namespace AuthState

/-- The row as the default scope of the database finds it. -/
def live (s : AuthState) : Option User :=
  s.row.bind fun row => if row.deleted then none else some row.user

/-- The hash, as far as Redis is in use. -/
def cached (redisEnabled : Bool) (s : AuthState) : Option ℤ :=
  if redisEnabled then s.cache else none

def write (s : AuthState) (edit : User → User) : AuthState :=
  { s with row := s.row.map fun row => if row.deleted then row else ⟨edit row.user, false⟩ }

def softDelete (s : AuthState) : AuthState :=
  { s with row := s.row.map fun row => { row with deleted := true } }

def goto (s : AuthState) (i : ℕ) (proc : AuthProc) : AuthState :=
  { s with procs := s.procs.set i proc }

def push (s : AuthState) (proc : AuthProc) : AuthState :=
  { s with procs := s.procs ++ [proc] }

/-- The call returns success. -/
def returned (s : AuthState) (i : ℕ) (revocation : Option Revocation) : AuthState :=
  { s with
    procs := s.procs.set i .returned
    revoked := s.revoked ++ revocation.toList }

def actor (id : ℤ) (user : User) : Actor :=
  ⟨id, user.text "username", user.role, user.status⟩

/-- The next statement of call `i`. -/
def advance (redisEnabled : Bool) (s : AuthState) (i : ℕ) (ok : Bool) :
    AuthProc → Option AuthState
  | .issuing session =>
      if ok then some ({ s with sessions := s.sessions ++ [session] }.goto i .returned)
      else some (s.goto i .returned)
  | .deleting update =>
      if ok then
        some (s.softDelete.goto i (.invalidating update))
      else some (s.goto i .returned)
  | .invalidating update =>
      if ok then
        match update with
        | some newUser => some ({ s with cache := none }.goto i (.updating (some .delete) newUser))
        | none => some ({ s with cache := none }.goto i .returned)
      else some (s.goto i .returned)
  | .updating revocation newUser =>
      match (if ok then s.live else none) with
      | some user => some (s.goto i (.writing revocation newUser user.status))
      | none => some (s.goto i (.writing revocation newUser newUser.status))
  | .writing revocation newUser status =>
      if ok then
        some ((s.write fun row => row.updates newUser).goto i
          (.caching revocation (User.writeNonZero 0 status newUser.status)))
      else some (s.goto i .returned)
  | .editing updatedUser hash =>
      match (if ok then s.live else none) with
      | some user => some (s.goto i (.editWriting updatedUser hash user.status))
      | none => some (s.goto i (.editWriting updatedUser hash updatedUser.status))
  | .editWriting updatedUser hash status =>
      if ok then some ((s.write (Users.edit updatedUser hash)).goto i (.caching none status))
      else some (s.goto i .returned)
  | .caching revocation status =>
      if redisEnabled then
        if ok then some ({ s with cache := some status }.returned i revocation)
        else some (s.goto i .returned)
      else some (s.returned i revocation)
  | .hardDeleting =>
      if ok then some ({ s with row := none }.returned i (some .delete))
      else some (s.goto i .returned)
  | .reading =>
      match (if ok then s.live else none) with
      | some user => some (s.goto i (.caching none user.status))
      | none => some (s.goto i .returned)
  | .returned => none

def step (redisEnabled : Bool) (id : ℤ) (s : AuthState) : AuthAction → Option AuthState
  | .login checksStatus =>
      match s.live with
      | some user =>
          if checksStatus && user.status ≠ UserStatusEnabled then some s
          else some (s.push (.issuing (actor id user)))
      | none => some s
  | .manageUser myRole action =>
      let user := s.row.elim User.empty StoredUser.user
      if myRole ≤ user.role ∧ myRole ≠ RoleRootUser then some s
      else
        match Users.manageAction myRole user action with
        | .error _ => some s
        | .ok newUser =>
            if action = "delete" then some (s.push (.deleting (some newUser)))
            else some (s.push (.updating (Revocation.ofAction action) newUser))
  | .updateUser myRole updatedUser hash =>
      match s.live with
      | some originUser =>
          if myRole ≤ originUser.role ∧ myRole ≠ RoleRootUser then some s
          else if myRole ≤ updatedUser.role ∧ myRole ≠ RoleRootUser then some s
          else some (s.push (.editing updatedUser hash))
      | none => some s
  | .deleteUser myRole =>
      match s.live with
      | some originUser =>
          if myRole ≤ originUser.role then some s else some (s.push .hardDeleting)
      | none => some s
  | .deleteSelf =>
      match s.live with
      | some user =>
          if user.role = RoleRootUser then some s else some (s.push (.deleting none))
      | none => some (s.push (.deleting none))
  | .saveUser whole column value =>
      match s.live with
      | some user =>
          some (s.push (.updating none ((if whole then user else User.empty).setText column value)))
      | none => some s
  | .session _ _ _ | .accessToken _ _ _ => some s
  | .apiKey =>
      match s.cached redisEnabled with
      | some _ => some s
      | none => some (s.push .reading)
  | .advance i ok => do
      let proc ← s.procs[i]?
      s.advance redisEnabled i ok proc
  | .expire => some { s with cache := none }
  | .touch => some { s with cache := some (s.cache.getD 0) }

/-- What an action is admitted with, where it is a request that gets through. -/
def admission (redisEnabled : Bool) (id : ℤ) (s : AuthState) : AuthAction → Option Entrance
  | .session i newApiUser minRole => do
      let session ← s.sessions[i]?
      let admitted ← (authHelper (some session) "" none newApiUser minRole).toOption
      pure ⟨some admitted.role, admitted.status⟩
  | .accessToken token newApiUser minRole => do
      let admitted ←
        (authHelper none token (s.live.map (actor id)) newApiUser minRole).toOption
      pure ⟨some admitted.role, admitted.status⟩
  | .apiKey => do
      let status ← s.cached redisEnabled
      let status ← (tokenAuth status).toOption
      pure ⟨none, status⟩
  | .advance i ok => do
      let proc ← s.procs[i]?
      match proc with
      | .reading =>
          if ok then do
            let user ← s.live
            let status ← (tokenAuth user.status).toOption
            pure ⟨none, status⟩
          else none
      | _ => none
  | _ => none

end AuthState

/-- Requests, administrators' actions and cache operations on one user, interleaved. -/
def userAccess (redisEnabled : Bool) (id : ℤ) : System AuthState AuthAction where
  step := AuthState.step redisEnabled id

/-- The revocation of a call that has already written the row. -/
def AuthProc.revoking : AuthProc → Option Revocation
  | .invalidating (some _) => some .delete
  | .updating (some .delete) _ => some .delete
  | .writing (some .delete) _ _ => some .delete
  | .caching revocation _ => revocation
  | _ => none

namespace AuthState

/-- The revocations in force: returned, or about to return. -/
def revoking (s : AuthState) : List Revocation :=
  s.revoked ++ s.procs.filterMap AuthProc.revoking

/-- A cookie carries the role and the status that are stored. -/
def Shown (s : AuthState) (session : Actor) : Prop :=
  match s.live with
  | some user => user.role = session.role ∧ user.status = session.status
  | none => False

instance (s : AuthState) (session : Actor) : Decidable (s.Shown session) := by
  unfold Shown
  split <;> infer_instance

/-- A write of the row puts back neither another status nor another role. -/
def WritesCurrent (s : AuthState) (newUser : User) : Prop :=
  match s.live with
  | some user =>
      (newUser.status = 0 ∨ newUser.status = user.status ∨ newUser.status = UserStatusDisabled) ∧
        (newUser.role = 0 ∨ newUser.role = user.role ∨ newUser.role = RoleCommonUser)
  | none => True

instance (s : AuthState) (newUser : User) : Decidable (s.WritesCurrent newUser) := by
  unfold WritesCurrent
  split <;> infer_instance

/-- An enabled status goes to the hash only while the stored user is enabled. -/
def CachesCurrent (s : AuthState) (status : ℤ) : Prop :=
  status = UserStatusEnabled → s.live.map User.status = some UserStatusEnabled

instance (s : AuthState) (status : ℤ) : Decidable (s.CachesCurrent status) :=
  inferInstanceAs (Decidable (_ → _))

/-- The condition on an action.  From the moment a revocation has written the row: cookies carry
what is stored, and no copy of the row is written back, to the table or to the hash, with a status
or role that the row does not have.  A hard deletion finds no enabled user in the hash. -/
def Undisturbed (redisEnabled : Bool) (s : AuthState) : AuthAction → Prop
  | .session i _ _ =>
      s.revoking ≠ [] → ∀ session ∈ s.sessions[i]?, s.Shown session
  | .advance i ok =>
      match s.procs[i]? with
      | some (.writing _ newUser _) => ok = true → s.revoking ≠ [] → s.WritesCurrent newUser
      | some (.caching _ status) =>
          redisEnabled = true → ok = true → s.revoking ≠ [] → s.CachesCurrent status
      | some .hardDeleting => ok = true → s.cached redisEnabled ≠ some UserStatusEnabled
      | _ => True
  | _ => True

instance (redisEnabled : Bool) (s : AuthState) : DecidablePred (s.Undisturbed redisEnabled) :=
  fun a => by
    unfold Undisturbed
    split
    · infer_instance
    · split <;> infer_instance
    · infer_instance

end AuthState

/-- What a revocation leaves in the row. -/
def Revocation.Done (revocation : Revocation) (user : User) : Prop :=
  match revocation with
  | .disable => user.status = UserStatusDisabled
  | .demote => user.role = RoleCommonUser
  | .delete => False

/-- What a revocation still lets through: a demoted user as a common user. -/
def Revocation.Permits (revocation : Revocation) (admission : Entrance) : Prop :=
  revocation = .demote ∧ ∀ role, admission.role = some role → role = RoleCommonUser

/-- A call that is about to revoke has the edit of its revocation. -/
def AuthProc.Edits : AuthProc → Prop
  | .updating revocation newUser | .writing revocation newUser _ =>
      (revocation = some .disable → newUser.status = UserStatusDisabled) ∧
        (revocation = some .demote → newUser.role = RoleCommonUser)
  | _ => True

namespace AuthState

/-- What holds while the revocations are undisturbed. -/
structure RevokedInv (redisEnabled : Bool) (s : AuthState) : Prop where
  row : ∀ revocation ∈ s.revoking, ∀ user, s.live = some user → revocation.Done user
  cache : ∀ revocation ∈ s.revoked, revocation ≠ .demote →
    s.cached redisEnabled ≠ some UserStatusEnabled
  procs : ∀ proc ∈ s.procs, proc.Edits

section

variable {redisEnabled : Bool} {id : ℤ} {s s' : AuthState} {i : ℕ} {ok : Bool} {proc : AuthProc}

theorem live_write (edit : User → User) : (s.write edit).live = s.live.map edit := by
  obtain ⟨row, cache, sessions, procs, revoked⟩ := s
  cases row with
  | none => rfl
  | some row =>
      obtain ⟨user, deleted⟩ := row
      cases deleted <;> rfl

theorem live_softDelete : s.softDelete.live = none := by
  obtain ⟨row, cache, sessions, procs, revoked⟩ := s
  cases row <;> rfl

theorem mem_revoking {revocation : Revocation} :
    revocation ∈ s.revoking ↔
      revocation ∈ s.revoked ∨ ∃ proc ∈ s.procs, proc.revoking = some revocation := by
  rw [revoking, List.mem_append, List.mem_filterMap]

theorem revoking_of_proc {revocation : Revocation} (hproc : s.procs[i]? = some proc)
    (hrevoking : proc.revoking = some revocation) : revocation ∈ s.revoking :=
  mem_revoking.2 (.inr ⟨proc, List.mem_of_getElem? hproc, hrevoking⟩)

/-- Of the revocations in force after a step of call `i`, those of the other calls were in force
before. -/
theorem revoking_set {revocation : Revocation} {next : AuthProc}
    (hrevoking : revocation ∈ s'.revoking) (hrevoked : s'.revoked = s.revoked)
    (hprocs : s'.procs = s.procs.set i next) :
    revocation ∈ s.revoking ∨ next.revoking = some revocation := by
  rcases mem_revoking.1 hrevoking with hdone | ⟨other, hmem, hother⟩
  · rw [hrevoked] at hdone
    exact .inl (mem_revoking.2 (.inl hdone))
  · rw [hprocs] at hmem
    rcases List.mem_or_eq_of_mem_set hmem with hold | rfl
    · exact .inl (mem_revoking.2 (.inr ⟨other, hold, hother⟩))
    · exact .inr hother

/-- A step of a call that leaves the row and the hash alone. -/
theorem RevokedInv.goto {next : AuthProc} (hinv : RevokedInv redisEnabled s)
    (hlive : s'.live = s.live) (hcache : s'.cache = s.cache ∨ s'.cache = none)
    (hrevoked : s'.revoked = s.revoked) (hprocs : s'.procs = s.procs.set i next)
    (hnext : ∀ revocation, next.revoking = some revocation → revocation ∈ s.revoking)
    (hedits : next.Edits) : RevokedInv redisEnabled s' where
  row := by
    intro revocation hrevoking user huser
    rw [hlive] at huser
    rcases revoking_set hrevoking hrevoked hprocs with hold | hnew
    · exact hinv.row revocation hold user huser
    · exact hinv.row revocation (hnext revocation hnew) user huser
  cache := by
    intro revocation hdone hdemote
    rw [hrevoked] at hdone
    have hold := hinv.cache revocation hdone hdemote
    unfold cached at hold ⊢
    rcases hcache with hsame | hgone
    · rwa [hsame]
    · rw [hgone]
      simp
  procs := by
    rw [hprocs]
    exact Pool.forall_mem_set hinv.procs hedits

theorem RevokedInv.quiet {next : AuthProc} (hinv : RevokedInv redisEnabled s)
    (hnext : next.revoking = none) (hedits : next.Edits) :
    RevokedInv redisEnabled (s.goto i next) :=
  hinv.goto rfl (.inl rfl) rfl rfl (fun _ h => by rw [hnext] at h; cases h) hedits

/-- A new call. -/
theorem RevokedInv.push (hinv : RevokedInv redisEnabled s) (hproc : proc.revoking = none)
    (hedits : proc.Edits) : RevokedInv redisEnabled (s.push proc) where
  row := by
    intro revocation hrevoking user huser
    refine hinv.row revocation ?_ user huser
    rcases mem_revoking.1 hrevoking with hdone | ⟨other, hmem, hother⟩
    · exact mem_revoking.2 (.inl hdone)
    · rcases List.mem_append.1 hmem with hold | hnew
      · exact mem_revoking.2 (.inr ⟨other, hold, hother⟩)
      · rw [List.mem_singleton.1 hnew, hproc] at hother
        cases hother
  cache := hinv.cache
  procs := by
    intro other hmem
    rcases List.mem_append.1 hmem with hold | hnew
    · exact hinv.procs other hold
    · rw [List.mem_singleton.1 hnew]
      exact hedits

/-- A revoked row stays as it is under a write that puts nothing back. -/
theorem done_updates {revocation : Revocation} {user newUser : User} (hdone : revocation.Done user)
    (hcurrent : (newUser.status = 0 ∨ newUser.status = user.status ∨
        newUser.status = UserStatusDisabled) ∧
      (newUser.role = 0 ∨ newUser.role = user.role ∨ newUser.role = RoleCommonUser)) :
    revocation.Done (user.updates newUser) := by
  obtain ⟨hstatus, hrole⟩ := hcurrent
  cases revocation with
  | disable =>
      simp only [Revocation.Done, User.updates, User.writeNonZero] at hdone ⊢
      split
      · exact hdone
      case isFalse hzero =>
        rcases hstatus.resolve_left hzero with hsame | hdisabled
        · exact hsame.trans hdone
        · exact hdisabled
  | demote =>
      simp only [Revocation.Done, User.updates, User.writeNonZero] at hdone ⊢
      split
      · exact hdone
      case isFalse hzero =>
        rcases hrole.resolve_left hzero with hsame | hcommon
        · exact hsame.trans hdone
        · exact hcommon
  | delete => exact hdone

/-- The write of a revocation does what the revocation says. -/
theorem done_edits {revocation : Revocation} {user newUser : User} {status : ℤ}
    (hedits : (AuthProc.writing (some revocation) newUser status).Edits)
    (hdelete : revocation ≠ .delete) : revocation.Done (user.updates newUser) := by
  cases revocation with
  | disable =>
      simp only [Revocation.Done, User.updates]
      rw [hedits.1 rfl]
      rfl
  | demote =>
      simp only [Revocation.Done, User.updates]
      rw [hedits.2 rfl]
      rfl
  | delete => exact absurd rfl hdelete

/-- Where a revocation other than a demotion is in force, no enabled user goes to the hash. -/
theorem not_enabled {revocation : Revocation} {status : ℤ} (hinv : RevokedInv redisEnabled s)
    (hrevoking : revocation ∈ s.revoking) (hdemote : revocation ≠ .demote)
    (hcurrent : s.CachesCurrent status) : status ≠ UserStatusEnabled := by
  intro henabled
  obtain ⟨user, hlive, hstatus⟩ := Option.map_eq_some_iff.1 (hcurrent henabled)
  have hdone := hinv.row revocation hrevoking user hlive
  cases revocation with
  | disable =>
      rw [Revocation.Done, hstatus] at hdone
      exact absurd hdone (by decide)
  | demote => exact hdemote rfl
  | delete => exact hdone

/-- A write of the row, after which the revocations in force still hold. -/
theorem RevokedInv.write {change : User → User} {next : AuthProc} (hinv : RevokedInv redisEnabled s)
    (hkept : ∀ other row, s.live = some row → other ∈ s.revoking → other.Done (change row))
    (hnew : ∀ other row, s.live = some row → next.revoking = some other → other.Done (change row))
    (hedits : next.Edits) : RevokedInv redisEnabled ((s.write change).goto i next) := by
  refine ⟨fun other hother user huser => ?_, hinv.cache, Pool.forall_mem_set hinv.procs hedits⟩
  have hlive : ((s.write change).goto i next).live = s.live.map change :=
    live_write (s := s) change
  rw [hlive] at huser
  obtain ⟨row, hrow, rfl⟩ := Option.map_eq_some_iff.1 huser
  rcases revoking_set (s := s) hother rfl rfl with hold | hcall
  · exact hkept other row hrow hold
  · exact hnew other row hrow hcall

/-- A call that returns has been in force before. -/
theorem revoking_returned {revocation : Option Revocation} {status : ℤ}
    (hproc : s.procs[i]? = some (.caching revocation status)) {other : Revocation}
    (hother : other ∈ (s.returned i revocation).revoking) : other ∈ s.revoking := by
  rcases mem_revoking.1 hother with hdone | ⟨proc, hmem, hrevoking⟩
  · rcases List.mem_append.1 hdone with hdone | hnew
    · exact mem_revoking.2 (.inl hdone)
    · exact revoking_of_proc hproc (Option.mem_toList.1 hnew)
  · rcases List.mem_or_eq_of_mem_set hmem with hmem | rfl
    · exact mem_revoking.2 (.inr ⟨proc, hmem, hrevoking⟩)
    · cases hrevoking

/-- Step lemma for the calls in progress. -/
theorem advance_inv (hinv : RevokedInv redisEnabled s) (hproc : s.procs[i]? = some proc)
    (hundisturbed : s.Undisturbed redisEnabled (.advance i ok))
    (hstep : s.advance redisEnabled i ok proc = some s') : RevokedInv redisEnabled s' := by
  have hedits := hinv.procs proc (List.mem_of_getElem? hproc)
  cases proc with
  | issuing session =>
      simp only [advance] at hstep
      split at hstep
      · obtain rfl := Option.some.inj hstep
        exact hinv.goto rfl (.inl rfl) rfl rfl nofun trivial
      · obtain rfl := Option.some.inj hstep
        exact hinv.quiet rfl trivial
  | deleting update =>
      simp only [advance] at hstep
      split at hstep
      · obtain rfl := Option.some.inj hstep
        refine ⟨fun revocation _ user huser => ?_, hinv.cache, Pool.forall_mem_set hinv.procs trivial⟩
        have hgone : (s.softDelete.goto i (.invalidating update)).live = none := live_softDelete
        rw [hgone] at huser
        cases huser
      · obtain rfl := Option.some.inj hstep
        exact hinv.quiet rfl trivial
  | invalidating update =>
      simp only [advance] at hstep
      split at hstep
      · split at hstep
        case h_1 newUser =>
          obtain rfl := Option.some.inj hstep
          refine hinv.goto rfl (.inr rfl) rfl rfl (fun revocation hrevoking => ?_)
            ⟨nofun, nofun⟩
          exact revoking_of_proc hproc hrevoking
        case h_2 =>
          obtain rfl := Option.some.inj hstep
          exact hinv.goto rfl (.inr rfl) rfl rfl nofun trivial
      · obtain rfl := Option.some.inj hstep
        exact hinv.quiet rfl trivial
  | updating revocation newUser =>
      have hrevoking : ∀ status other,
          (AuthProc.writing revocation newUser status).revoking = some other →
            other ∈ s.revoking := by
        intro status other hother
        refine revoking_of_proc hproc (Eq.trans ?_ hother)
        cases revocation with
        | none => rfl
        | some revocation => cases revocation <;> rfl
      simp only [advance] at hstep
      split at hstep
      · obtain rfl := Option.some.inj hstep
        exact hinv.goto rfl (.inl rfl) rfl rfl (hrevoking _) hedits
      · obtain rfl := Option.some.inj hstep
        exact hinv.goto rfl (.inl rfl) rfl rfl (hrevoking _) hedits
  | writing revocation newUser status =>
      simp only [advance] at hstep
      split at hstep
      case isTrue hok =>
        obtain rfl := Option.some.inj hstep
        have hcurrent : s.revoking ≠ [] → s.WritesCurrent newUser := by
          simpa [Undisturbed, hproc, hok] using hundisturbed
        have hkept : ∀ other row, s.live = some row → other ∈ s.revoking →
            other.Done (row.updates newUser) := by
          intro other row hrow hold
          refine done_updates (hinv.row other hold row hrow) ?_
          simpa [WritesCurrent, hrow] using hcurrent (List.ne_nil_of_mem hold)
        refine hinv.write hkept (fun other row hrow hnew => ?_) trivial
        -- The call writes its own revocation.
        obtain rfl : revocation = some other := hnew
        by_cases hdelete : other = .delete
        · subst hdelete
          exact hkept .delete row hrow (revoking_of_proc hproc rfl)
        · exact done_edits hedits hdelete
      case isFalse =>
        obtain rfl := Option.some.inj hstep
        exact hinv.quiet rfl trivial
  | editing updatedUser hash =>
      simp only [advance] at hstep
      split at hstep
      · obtain rfl := Option.some.inj hstep
        exact hinv.quiet rfl trivial
      · obtain rfl := Option.some.inj hstep
        exact hinv.quiet rfl trivial
  | editWriting updatedUser hash status =>
      simp only [advance] at hstep
      split at hstep
      case isTrue =>
        obtain rfl := Option.some.inj hstep
        refine hinv.write (fun other row hrow hold => ?_) (fun other row hrow hnew => ?_) trivial
        · obtain ⟨hrole, hstatus⟩ := Users.edit_role updatedUser hash row
          have hdone := hinv.row other hold row hrow
          cases other with
          | disable => exact hstatus.trans hdone
          | demote => exact hrole.trans hdone
          | delete => exact hdone
        · cases hnew
      case isFalse =>
        obtain rfl := Option.some.inj hstep
        exact hinv.quiet rfl trivial
  | caching revocation status =>
      have hold : ∀ other ∈ (s.returned i revocation).revoking, other ∈ s.revoking :=
        fun other hother => revoking_returned hproc hother
      simp only [advance] at hstep
      split at hstep
      case isTrue hredis =>
        split at hstep
        case isTrue hok =>
          obtain rfl := Option.some.inj hstep
          refine ⟨fun other hother user huser => hinv.row other (hold other hother) user huser,
            fun other hdone hdemote => ?_, Pool.forall_mem_set hinv.procs trivial⟩
          have hrevoking := hold other (mem_revoking.2 (.inl hdone))
          have hcurrent : s.CachesCurrent status := by
            have hboth : s.revoking ≠ [] → s.CachesCurrent status := by
              simpa [Undisturbed, hproc, hok, hredis] using hundisturbed
            exact hboth (List.ne_nil_of_mem hrevoking)
          have hstatus := not_enabled hinv hrevoking hdemote hcurrent
          simpa [cached, hredis, returned] using hstatus
        case isFalse =>
          obtain rfl := Option.some.inj hstep
          exact hinv.quiet rfl trivial
      case isFalse hredis =>
        obtain rfl := Option.some.inj hstep
        refine ⟨fun other hother user huser => hinv.row other (hold other hother) user huser,
          fun other _ _ => ?_, Pool.forall_mem_set hinv.procs trivial⟩
        simp [cached, hredis]
  | hardDeleting =>
      simp only [advance] at hstep
      split at hstep
      case isTrue hok =>
        obtain rfl := Option.some.inj hstep
        have hcached : s.cached redisEnabled ≠ some UserStatusEnabled := by
          simpa [Undisturbed, hproc, hok] using hundisturbed
        exact ⟨fun _ _ _ huser => (nomatch huser), fun _ _ _ => hcached,
          Pool.forall_mem_set hinv.procs trivial⟩
      case isFalse =>
        obtain rfl := Option.some.inj hstep
        exact hinv.quiet rfl trivial
  | reading =>
      simp only [advance] at hstep
      split at hstep
      · obtain rfl := Option.some.inj hstep
        exact hinv.quiet rfl trivial
      · obtain rfl := Option.some.inj hstep
        exact hinv.quiet rfl trivial
  | returned => cases hstep

/-- The edit of `ManageUser` is that of the revocation. -/
theorem manageAction_edits {myRole : ℤ} {user newUser : User} {action : String}
    (haction : Users.manageAction myRole user action = .ok newUser) (hdelete : action ≠ "delete") :
    (AuthProc.updating (Revocation.ofAction action) newUser).revoking = none ∧
      (AuthProc.updating (Revocation.ofAction action) newUser).Edits := by
  by_cases hdisable : action = "disable"
  · subst hdisable
    simp only [Users.manageAction, if_true] at haction
    split at haction
    · cases haction
    · obtain rfl := Except.ok.inj haction
      exact ⟨rfl, fun _ => rfl, (by rintro ⟨⟩)⟩
  by_cases hdemote : action = "demote"
  · subst hdemote
    simp [Users.manageAction] at haction
    split at haction
    · cases haction
    split at haction
    · cases haction
    · obtain rfl := Except.ok.inj haction
      exact ⟨rfl, (by rintro ⟨⟩), fun _ => rfl⟩
  · rw [Revocation.ofAction, if_neg hdisable, if_neg hdemote, if_neg hdelete]
    exact ⟨rfl, (by rintro ⟨⟩), (by rintro ⟨⟩)⟩

/-- Step lemma. -/
theorem step_inv {a : AuthAction} (hstep : s.step redisEnabled id a = some s')
    (hundisturbed : s.Undisturbed redisEnabled a) (hinv : RevokedInv redisEnabled s) :
    RevokedInv redisEnabled s' := by
  cases a with
  | login checksStatus =>
      simp only [step] at hstep
      split at hstep
      · split at hstep
        · obtain rfl := Option.some.inj hstep
          exact hinv
        · obtain rfl := Option.some.inj hstep
          exact hinv.push rfl trivial
      · obtain rfl := Option.some.inj hstep
        exact hinv
  | manageUser myRole action =>
      simp only [step] at hstep
      split at hstep
      · obtain rfl := Option.some.inj hstep
        exact hinv
      split at hstep
      · obtain rfl := Option.some.inj hstep
        exact hinv
      case h_2 newUser haction =>
        split at hstep
        · obtain rfl := Option.some.inj hstep
          exact hinv.push rfl trivial
        case isFalse hdelete =>
          obtain rfl := Option.some.inj hstep
          obtain ⟨hrevoking, hedits⟩ := manageAction_edits haction hdelete
          exact hinv.push hrevoking hedits
  | updateUser myRole updatedUser hash =>
      simp only [step] at hstep
      split at hstep
      · split at hstep
        · obtain rfl := Option.some.inj hstep
          exact hinv
        split at hstep
        · obtain rfl := Option.some.inj hstep
          exact hinv
        · obtain rfl := Option.some.inj hstep
          exact hinv.push rfl trivial
      · obtain rfl := Option.some.inj hstep
        exact hinv
  | deleteUser myRole =>
      simp only [step] at hstep
      split at hstep
      · split at hstep
        · obtain rfl := Option.some.inj hstep
          exact hinv
        · obtain rfl := Option.some.inj hstep
          exact hinv.push rfl trivial
      · obtain rfl := Option.some.inj hstep
        exact hinv
  | deleteSelf =>
      simp only [step] at hstep
      split at hstep
      · split at hstep
        · obtain rfl := Option.some.inj hstep
          exact hinv
        · obtain rfl := Option.some.inj hstep
          exact hinv.push rfl trivial
      · obtain rfl := Option.some.inj hstep
        exact hinv.push rfl trivial
  | saveUser whole column value =>
      simp only [step] at hstep
      split at hstep
      · obtain rfl := Option.some.inj hstep
        exact hinv.push rfl ⟨nofun, nofun⟩
      · obtain rfl := Option.some.inj hstep
        exact hinv
  | session index newApiUser minRole =>
      obtain rfl := Option.some.inj hstep
      exact hinv
  | accessToken token newApiUser minRole =>
      obtain rfl := Option.some.inj hstep
      exact hinv
  | apiKey =>
      simp only [step] at hstep
      split at hstep
      · obtain rfl := Option.some.inj hstep
        exact hinv
      · obtain rfl := Option.some.inj hstep
        exact hinv.push rfl trivial
  | advance i ok =>
      obtain ⟨proc, hproc, hadvance⟩ := Option.bind_eq_some_iff.1 hstep
      exact advance_inv hinv hproc hundisturbed hadvance
  | expire =>
      obtain rfl := Option.some.inj hstep
      refine ⟨hinv.row, fun revocation _ _ => ?_, hinv.procs⟩
      simp [cached]
  | touch =>
      obtain rfl := Option.some.inj hstep
      refine ⟨hinv.row, fun revocation hdone hdemote => ?_, hinv.procs⟩
      have hold := hinv.cache revocation hdone hdemote
      -- A field of a vanished hash comes back without a status.
      unfold cached at hold ⊢
      cases hcache : s.cache with
      | none => cases redisEnabled <;> simp [UserStatusEnabled]
      | some status => simpa [hcache] using hold

theorem ok_of_bind {α β : Type} {x : Except String α} {f : α → Except String β} {b : β}
    (hbind : (x >>= f) = .ok b) : ∃ a, x = .ok a ∧ f a = .ok b := by
  cases x with
  | error message => cases hbind
  | ok a => exact ⟨a, rfl, hbind⟩

theorem ok_of_toOption {α : Type} {x : Except String α} {a : α} (hsome : x.toOption = some a) :
    x = .ok a := by
  cases x with
  | error message => cases hsome
  | ok b => exact congrArg Except.ok (Option.some.inj hsome)

/-- `authHelper` admits nobody else, and nobody whom its last checks refuse. -/
theorem authHelper_ok {session tokenUser : Option Actor} {accessToken : String}
    {newApiUser : Option (Option ℤ)} {minRole : ℤ} {admitted : Actor}
    (hadmitted : authHelper session accessToken tokenUser newApiUser minRole = .ok admitted) :
    (session = some admitted ∨ session = none ∧ tokenUser = some admitted) ∧
      admitted.refusal minRole = none := by
  obtain ⟨actor, hactor, hrest⟩ := ok_of_bind hadmitted
  have hsame : actor = admitted ∧ actor.refusal minRole = none := by
    split at hrest
    · cases hrest
    · cases hrest
    · split at hrest
      · cases hrest
      split at hrest
      · cases hrest
      case h_2 hrefusal => exact ⟨Except.ok.inj hrest, hrefusal⟩
  obtain ⟨rfl, hrefusal⟩ := hsame
  refine ⟨?_, hrefusal⟩
  unfold authCaller at hactor
  cases session with
  | some session =>
      obtain rfl := Except.ok.inj hactor
      exact .inl rfl
  | none =>
      simp only at hactor
      split at hactor
      · cases hactor
      split at hactor
      case h_1 user =>
        split at hactor
        · cases hactor
        split at hactor
        · cases hactor
        · obtain rfl := Except.ok.inj hactor
          exact .inr ⟨rfl, rfl⟩
      case h_2 => cases hactor

/-- A caller that shows what is stored is admitted as far as the revocation permits. -/
theorem permits_of_done {revocation : Revocation} {user : User} {actor : Actor} {minRole : ℤ}
    (hdone : revocation.Done user) (hrole : user.role = actor.role)
    (hstatus : user.status = actor.status) (hadmitted : actor.refusal minRole = none) :
    revocation.Permits ⟨some actor.role, actor.status⟩ := by
  cases revocation with
  | disable =>
      rw [Revocation.Done, hstatus] at hdone
      rw [Actor.refusal, if_pos hdone] at hadmitted
      cases hadmitted
  | demote => exact ⟨rfl, fun role hsome => Option.some.inj hsome ▸ hrole ▸ hdone⟩
  | delete => exact hdone.elim

/-- `TokenAuth` admits nobody whom the revocation has stopped. -/
theorem permits_of_tokenAuth {revocation : Revocation} {status admitted : ℤ}
    (hadmitted : (tokenAuth status).toOption = some admitted)
    (hstopped : revocation ≠ .demote → status ≠ UserStatusEnabled) :
    revocation.Permits ⟨none, admitted⟩ := by
  by_cases hdemote : revocation = .demote
  · exact ⟨hdemote, nofun⟩
  · rw [tokenAuth, if_pos (hstopped hdemote)] at hadmitted
    cases hadmitted

/-- A request that presents a credential of the user is admitted as far as the revocations in
force permit. -/
theorem admission_permitted {a : AuthAction} {revocation : Revocation} {admission : Entrance}
    (hinv : RevokedInv redisEnabled s) (hundisturbed : s.Undisturbed redisEnabled a)
    (hrevoked : revocation ∈ s.revoked)
    (hadmitted : s.admission redisEnabled id a = some admission) :
    revocation.Permits admission := by
  have hrevoking : revocation ∈ s.revoking := mem_revoking.2 (.inl hrevoked)
  cases a with
  | session index newApiUser minRole =>
      simp only [AuthState.admission, Option.bind_eq_bind, Option.bind_eq_some_iff,
        Option.pure_def, Option.some.injEq] at hadmitted
      obtain ⟨session, hsession, admitted, hhelper, rfl⟩ := hadmitted
      have hshown : s.Shown session :=
        hundisturbed (List.ne_nil_of_mem hrevoking) session hsession
      obtain ⟨hactor, hrefusal⟩ := authHelper_ok (ok_of_toOption hhelper)
      obtain rfl : session = admitted := by simpa using hactor
      unfold Shown at hshown
      split at hshown
      case h_1 user hlive =>
        exact permits_of_done (hinv.row revocation hrevoking user hlive)
          hshown.1 hshown.2 hrefusal
      case h_2 => exact hshown.elim
  | accessToken token newApiUser minRole =>
      simp only [AuthState.admission, Option.bind_eq_bind, Option.bind_eq_some_iff,
        Option.pure_def, Option.some.injEq] at hadmitted
      obtain ⟨admitted, hhelper, rfl⟩ := hadmitted
      obtain ⟨hactor, hrefusal⟩ := authHelper_ok (ok_of_toOption hhelper)
      obtain ⟨user, hlive, rfl⟩ : ∃ user, s.live = some user ∧ actor id user = admitted := by
        simpa using hactor
      exact permits_of_done (hinv.row revocation hrevoking user hlive) rfl rfl hrefusal
  | apiKey =>
      simp only [AuthState.admission, Option.bind_eq_bind, Option.bind_eq_some_iff,
        Option.pure_def, Option.some.injEq] at hadmitted
      obtain ⟨status, hcached, admitted, htoken, rfl⟩ := hadmitted
      refine permits_of_tokenAuth htoken fun hdemote henabled => ?_
      exact hinv.cache revocation hrevoked hdemote (henabled ▸ hcached)
  | advance i ok =>
      simp only [AuthState.admission, Option.bind_eq_bind, Option.bind_eq_some_iff] at hadmitted
      obtain ⟨proc, hproc, hadmitted⟩ := hadmitted
      cases proc with
      | reading =>
          simp only [Option.bind_eq_some_iff, Option.pure_def, Option.some.injEq,
            Option.ite_none_right_eq_some] at hadmitted
          obtain ⟨-, user, hlive, admitted, htoken, rfl⟩ := hadmitted
          have hcurrent : s.CachesCurrent user.status := by
            intro henabled
            rw [hlive, Option.map_some, henabled]
          exact permits_of_tokenAuth htoken fun hdemote =>
            not_enabled hinv hrevoking hdemote hcurrent
      | _ => cases hadmitted
  | _ => cases hadmitted

/-- Before any revocation the invariant holds, whatever else is in progress. -/
theorem revokedInv_init (hnone : s.revoking = []) (hedits : ∀ proc ∈ s.procs, proc.Edits) :
    RevokedInv redisEnabled s where
  row := by
    intro revocation hrevoking
    rw [hnone] at hrevoking
    cases hrevoking
  cache := by
    intro revocation hdone
    have hrevoking := mem_revoking.2 (.inl hdone)
    rw [hnone] at hrevoking
    cases hrevoking
  procs := hedits

end

end AuthState

open AuthState

/-- A revocation that has returned success takes effect in every undisturbed run: the hash does not
show an enabled user again, and no request gets through beyond what the revocation permits. -/
theorem revocation_takes_effect {redisEnabled : Bool} {id : ℤ} {s s' : AuthState}
    {as : List AuthAction} (hfresh : s.procs = [] ∧ s.revoked = [])
    (hundisturbed : (userAccess redisEnabled id).Along (Undisturbed redisEnabled) s as)
    (hrun : (userAccess redisEnabled id).run s as = some s') :
    ∀ before after t, as = before ++ after → (userAccess redisEnabled id).run s before = some t →
      ∀ revocation ∈ t.revoked,
        (revocation ≠ .demote → t.cached redisEnabled ≠ some UserStatusEnabled) ∧
        ∀ a rest admission, after = a :: rest → t.admission redisEnabled id a = some admission →
          revocation.Permits admission := by
  rintro before after t rfl hbefore revocation hrevoked
  obtain ⟨hfirst, hlater⟩ := System.along_append hbefore hundisturbed
  have hinit : RevokedInv redisEnabled s :=
    revokedInv_init (by simp [revoking, hfresh.1, hfresh.2]) (by simp [hfresh.1])
  have hinv : RevokedInv redisEnabled t :=
    System.invariant_run (I := RevokedInv redisEnabled) step_inv hinit hfirst hbefore
  refine ⟨fun hdemote => hinv.cache revocation hrevoked hdemote, ?_⟩
  rintro a rest admission rfl hadmitted
  exact admission_permitted hinv hlater.1 hrevoked hadmitted

/-- An enabled user before any call, with a cookie of its last login. -/
def sampleAccess (role : ℤ) : AuthState where
  row := some (sampleStoredUser "bob" role)
  cache := none
  sessions := [⟨2, "bob", role, UserStatusEnabled⟩]
  procs := []
  revoked := []

/-- The root user demotes the administrator, who logs in again. -/
def demotedRun : List AuthAction :=
  [.apiKey, .advance 0 true, .advance 0 true, .manageUser RoleRootUser "demote", .advance 1 true,
    .advance 1 true, .advance 1 true, .login true, .advance 2 true,
    .session 1 (some (some 2)) RoleCommonUser, .accessToken "token" (some (some 2)) RoleAdminUser]

theorem revocation_takes_effect_demoted :
    ∃ s', (userAccess true 2).run (sampleAccess RoleAdminUser) demotedRun = some s' ∧
      ∀ before after t, demotedRun = before ++ after →
        (userAccess true 2).run (sampleAccess RoleAdminUser) before = some t →
        ∀ revocation ∈ t.revoked,
          (revocation ≠ .demote → t.cached true ≠ some UserStatusEnabled) ∧
          ∀ a rest admission, after = a :: rest → t.admission true 2 a = some admission →
            revocation.Permits admission := by
  have hundisturbed : (userAccess true 2).Along (Undisturbed true) (sampleAccess RoleAdminUser)
      demotedRun := by
    decide
  exact ⟨_, rfl, revocation_takes_effect ⟨rfl, rfl⟩ hundisturbed rfl⟩

/-- An administrator deletes the user, whose key is presented afterwards. -/
def deletedRun : List AuthAction :=
  [.manageUser RoleAdminUser "delete", .advance 0 true, .advance 0 true, .advance 0 true,
    .advance 0 true, .advance 0 true, .apiKey]

/-- `ManageUser` puts the deleted user back into the hash. -/
theorem deleted_user_admitted :
    ¬ ∀ (redisEnabled : Bool) (id : ℤ) (s s' : AuthState) (as : List AuthAction),
      s.procs = [] ∧ s.revoked = [] →
      (∀ myRole action, .manageUser myRole action ∈ as → Revocation.ofAction action ≠ none) →
      (userAccess redisEnabled id).run s as = some s' →
      ∀ before after t, as = before ++ after →
        (userAccess redisEnabled id).run s before = some t →
        ∀ revocation ∈ t.revoked, ∀ a rest admission, after = a :: rest →
          t.admission redisEnabled id a = some admission → revocation.Permits admission := by
  intro hclaim
  have hrevokes : ∀ myRole action, AuthAction.manageUser myRole action ∈ deletedRun →
      Revocation.ofAction action ≠ none := by
    intro myRole action hmem
    simp only [deletedRun, List.mem_cons, reduceCtorEq, AuthAction.manageUser.injEq, or_false,
      List.not_mem_nil] at hmem
    rw [hmem.2]
    decide
  have hpermits := hclaim true 2 (sampleAccess RoleCommonUser) _ deletedRun ⟨rfl, rfl⟩ hrevokes rfl
    (deletedRun.take 6) [.apiKey] _ rfl rfl .delete (by decide) .apiKey []
    ⟨none, UserStatusEnabled⟩ rfl rfl
  exact absurd hpermits.1 (by decide)

end NewApi.Model
