import Mathlib.Data.List.AList
import NewApi.Lib.Strings
import NewApi.Model.UserRow

/-!
# The handlers that manage users

`CreateUser`, `UpdateUser`, `ManageUser` and `DeleteUser` run behind the middleware of
administrators, `DeleteSelf` behind that of users.  Each of them compares the role that the
middleware admitted the caller with against the role of the row it is about to write.  The table
is keyed by id; a deleted row stays in it with its `deleted_at` set, unless it is deleted hard.
-/

namespace NewApi.Model

open NewApi.Lib

def RoleGuestUser : ℤ := 0

def IsValidateRole (role : ℤ) : Bool :=
  role = RoleGuestUser || role = RoleCommonUser || role = RoleAdminUser || role = RoleRootUser

def validUserInfo (username : String) (role : ℤ) : Bool :=
  Strings.trimSpace username ≠ "" && IsValidateRole role

/-- A caller as `authHelper` knows it, from a session or from the user of an access token. -/
structure Actor where
  id : ℤ
  username : String
  role : ℤ
  status : ℤ
deriving DecidableEq

/-- The last checks of `authHelper`. -/
def Actor.refusal (actor : Actor) (minRole : ℤ) : Option String :=
  if actor.status = UserStatusDisabled then some "用户已被封禁"
  else if actor.role < minRole then some "无权进行此操作，权限不足"
  else if !validUserInfo actor.username actor.role then some "无权进行此操作，用户信息无效"
  else none

/-- A row of the `users` table. -/
structure StoredUser where
  user : User
  deleted : Bool

/-- The `users` table, by primary key. -/
abbrev Users := AList fun _ : ℤ => StoredUser

/-- The fields of a user in a request body. -/
structure UserBody where
  id : ℤ
  username : String
  password : String
  displayName : String
  role : ℤ
  status : ℤ
  email : String
  group : String
  quota : ℤ
  remark : String
deriving DecidableEq

structure ManageRequest where
  id : ℤ
  action : String
deriving DecidableEq

/-- What the handlers take from elsewhere: the validator of the struct tags, the password hash,
the setting that `Insert` stores for a role, and the text of a violated unique index. -/
structure UserWorld where
  validate : UserBody → Option String
  password2Hash : String → Except String String
  defaultSetting : ℤ → String
  quotaForNewUser : ℤ
  duplicateKey : String

/-- An empty response, or the fields of the JSON that is sent. -/
inductive UserReply where
  | empty
  | success
  | managed (role status : ℤ)
  | failure (message : String)
  | panicked
deriving DecidableEq

/-- The requests; `none` is a body or a path parameter that cannot be read. -/
inductive ManageCall where
  | createUser (body : Option UserBody)
  | updateUser (body : Option UserBody)
  | manageUser (request : Option ManageRequest)
  | deleteUser (id : Except String ℤ)
  | deleteSelf

/-- A request of an actor, with the primary key and the invitation code that an insertion would
get, and the failure of the cache after the write. -/
structure UserCall where
  actor : Actor
  request : ManageCall
  newId : ℤ
  affCode : String
  cacheError : Option String

namespace Users

variable (users : Users)

/-- `GetUserById` does not see a deleted row. -/
def getUserById (id : ℤ) : Except String User :=
  if id = 0 then .error "id 为空！"
  else
    match users.lookup id with
    | some row => if row.deleted then .error "record not found" else .ok row.user
    | none => .error "record not found"

/-- A value of a unique column is already taken, by a deleted row too. -/
def taken (column value : String) (except : Option ℤ) : Bool :=
  users.entries.any fun entry =>
    some entry.1 ≠ except && entry.2.user.text column = value

/-- `UPDATE users SET … WHERE id = ? AND deleted_at IS NULL`. -/
def write (id : ℤ) (edit : User → User) : Users :=
  match users.lookup id with
  | some row => if row.deleted then users else users.insert id ⟨edit row.user, false⟩
  | none => users

/-- `UPDATE users SET deleted_at = ? WHERE id = ? AND deleted_at IS NULL`. -/
def delete (id : ℤ) : Users :=
  match users.lookup id with
  | some row => if row.deleted then users else users.insert id ⟨row.user, true⟩
  | none => users

def hardDelete (id : ℤ) : Users :=
  users.erase id

/-- `DB.Unscoped().Where(&user).First(&user)`: without an id the first row; where there is no row
the struct stays as it was. -/
def fill (id : ℤ) : ℤ × User :=
  let found := if id = 0 then users.keys.min?.getD 0 else id
  (found, (users.lookup found).elim User.empty StoredUser.user)

/-- The row that `Insert` leaves for a new user: the columns of the struct, and the defaults of
the columns that are zero in it. -/
def newRow (world : UserWorld) (username hash displayName : String) (role : ℤ) (affCode : String) :
    User :=
  let stored := if role = 0 then RoleCommonUser else role
  ((((({ User.empty with
    role := stored
    status := UserStatusEnabled
    quota := world.quotaForNewUser }.setText "username" username).setText
      "password" hash).setText "display_name" displayName).setText
      "group" "default").setText "aff_code" affCode).setText
      "setting" (world.defaultSetting stored)

variable (world : UserWorld) (call : UserCall)

def createUser : Option UserBody → Users × UserReply
  | none => (users, .failure "无效的参数")
  | some body =>
      let user := { body with username := Strings.trimSpace body.username }
      if user.username = "" || user.password = "" then (users, .failure "无效的参数")
      else
        match world.validate user with
        | some message => (users, .failure ("输入不合法 " ++ message))
        | none =>
            if call.actor.role ≤ user.role then (users, .failure "无法创建权限大于等于自己的用户")
            else
              match world.password2Hash user.password with
              | .error message => (users, .failure message)
              | .ok hash =>
                  if (users.lookup call.newId).isSome ||
                      users.taken "username" user.username none ||
                      users.taken "aff_code" call.affCode none then
                    (users, .failure world.duplicateKey)
                  else
                    let displayName :=
                      if user.displayName = "" then user.username else user.displayName
                    (users.insert call.newId
                      ⟨newRow world user.username hash displayName user.role call.affCode, false⟩,
                      .success)

/-- The columns that `Edit` writes; the role is not among them. -/
def edit (updatedUser : UserBody) (hash : Option String) (row : User) : User :=
  let row := (((({ row with quota := updatedUser.quota }.setText
    "username" updatedUser.username).setText "display_name" updatedUser.displayName).setText
    "group" updatedUser.group).setText "remark" updatedUser.remark)
  match hash with
  | some hash => row.setText "password" hash
  | none => row

/-- The end of a write: its own answer, or the failure of the cache. -/
def answer (reply : UserReply) : UserReply :=
  match call.cacheError with
  | some message => .failure message
  | none => reply

def updateUser : Option UserBody → Users × UserReply
  | none => (users, .failure "无效的参数")
  | some updatedUser =>
      if updatedUser.id = 0 then (users, .failure "无效的参数")
      else
        let password :=
          if updatedUser.password = "" then "$I_LOVE_U" else updatedUser.password
        match world.validate { updatedUser with password := password } with
        | some message => (users, .failure ("输入不合法 " ++ message))
        | none =>
            match users.getUserById updatedUser.id with
            | .error message => (users, .failure message)
            | .ok originUser =>
                if call.actor.role ≤ originUser.role ∧ call.actor.role ≠ RoleRootUser then
                  (users, .failure "无权更新同权限等级或更高权限等级的用户信息")
                else if call.actor.role ≤ updatedUser.role ∧ call.actor.role ≠ RoleRootUser then
                  (users, .failure "无权将其他用户权限等级提升到大于等于自己的权限等级")
                else
                  -- The placeholder of the validator also stands for "no new password".
                  match (if password = "$I_LOVE_U" then .ok none
                    else (world.password2Hash password).map some) with
                  | .error message => (users, .failure message)
                  | .ok hash =>
                      if users.taken "username" updatedUser.username (some updatedUser.id) then
                        (users, .failure world.duplicateKey)
                      else
                        (users.write updatedUser.id (edit updatedUser hash),
                          answer call .success)

end Users

namespace Users

/-- The `switch` of `ManageUser`: the struct that it goes on with, or its refusal. -/
def manageAction (myRole : ℤ) (user : User) (action : String) : Except String User :=
  if action = "disable" then
    if user.role = RoleRootUser then .error "无法禁用超级管理员用户"
    else .ok { user with status := UserStatusDisabled }
  else if action = "enable" then .ok { user with status := UserStatusEnabled }
  else if action = "delete" then
    if user.role = RoleRootUser then .error "无法删除超级管理员用户" else .ok user
  else if action = "promote" then
    if myRole ≠ RoleRootUser then .error "普通管理员用户无法提升其他用户为管理员"
    else if RoleAdminUser ≤ user.role then .error "该用户已经是管理员"
    else .ok { user with role := RoleAdminUser }
  else if action = "demote" then
    if user.role = RoleRootUser then .error "无法降级超级管理员用户"
    else if user.role = RoleCommonUser then .error "该用户已经是普通用户"
    else .ok { user with role := RoleCommonUser }
  else .ok user

variable (users : Users) (world : UserWorld) (call : UserCall)

/-- After the `switch` every action ends in `Update`, the deletion too. -/
def manageUser : Option ManageRequest → Users × UserReply
  | none => (users, .failure "无效的参数")
  | some request =>
      let (id, user) := users.fill request.id
      if id = 0 then (users, .failure "用户不存在")
      else if call.actor.role ≤ user.role ∧ call.actor.role ≠ RoleRootUser then
        (users, .failure "无权更新同权限等级或更高权限等级的用户信息")
      else
        match manageAction call.actor.role user request.action with
        | .error message => (users, .failure message)
        | .ok newUser =>
            if request.action = "delete" then
              ((users.delete id).write id fun row => row.updates newUser,
                answer call (.managed newUser.role newUser.status))
            else
              (users.write id fun row => row.updates newUser,
                answer call (.managed newUser.role newUser.status))

/-- A successful deletion sends nothing. -/
def deleteUser : Except String ℤ → Users × UserReply
  | .error message => (users, .failure message)
  | .ok id =>
      match users.getUserById id with
      | .error message => (users, .failure message)
      | .ok originUser =>
          if call.actor.role ≤ originUser.role then
            (users, .failure "无权删除同权限等级或更高权限等级的用户")
          else (users.hardDelete id, .empty)

/-- `GetUserById` returns a nil pointer for the id 0, and an empty user where there is none. -/
def deleteSelf : Users × UserReply :=
  if call.actor.id = 0 then (users, .panicked)
  else
    match users.getUserById call.actor.id with
    | .ok user =>
        if user.role = RoleRootUser then (users, .failure "不能删除超级管理员账户")
        else (users.delete call.actor.id, answer call .success)
    | .error _ => (users.delete call.actor.id, answer call .success)

/-- The least role that a route admits. -/
def minRole : ManageCall → ℤ
  | .deleteSelf => RoleCommonUser
  | _ => RoleAdminUser

/-- A request passes the middleware and is handled. -/
def serve : Users × UserReply :=
  match call.actor.refusal (minRole call.request) with
  | some message => (users, .failure message)
  | none =>
      match call.request with
      | .createUser body => users.createUser world call body
      | .updateUser body => users.updateUser world call body
      | .manageUser request => users.manageUser call request
      | .deleteUser id => users.deleteUser call id
      | .deleteSelf => users.deleteSelf call

end Users

/-- Any sequence of calls on the `users` table. -/
def userTable (world : UserWorld) : System Users UserCall where
  step users call := some (users.serve world call).1

/-- What a call can do to the table: nothing, add a user below the actor, write a live row that the
actor outranks, or delete one. -/
inductive Effect (call : UserCall) (users : Users) : Users → Prop
  | kept : Effect call users users
  | created {id : ℤ} {row : User} (hnew : users.lookup id = none)
      (hrank : row.role < call.actor.role) (hroot : row.role ≠ RoleRootUser) :
      Effect call users (users.insert id ⟨row, false⟩)
  | written {id : ℤ} {row new : User} (hrow : users.lookup id = some ⟨row, false⟩)
      (hrank : row.role < call.actor.role ∨ call.actor.role = RoleRootUser)
      (hrole : new.role = row.role ∨
        new.role < call.actor.role ∧ row.role ≠ RoleRootUser ∧ new.role ≠ RoleRootUser)
      (hstatus : row.role = RoleRootUser → new.status = UserStatusDisabled →
        row.status = UserStatusDisabled) :
      Effect call users (users.insert id ⟨new, false⟩)
  | removed {id : ℤ} {row : User} {users' : Users} (hrow : users.lookup id = some ⟨row, false⟩)
      (hroot : row.role ≠ RoleRootUser)
      (hrank : row.role < call.actor.role ∨ call.actor.role = RoleRootUser ∨
        call.request = .deleteSelf ∧ id = call.actor.id)
      (hgone : ∀ row', users'.lookup id = some row' → row' = ⟨row, true⟩)
      (hrest : ∀ other, other ≠ id → users'.lookup other = users.lookup other) :
      Effect call users users'

namespace Users

section

variable {users : Users} {world : UserWorld} {call : UserCall}

/-- An admitted caller has one of the known roles, at least that of the route. -/
theorem refusal_none {actor : Actor} {least : ℤ} (hadmitted : actor.refusal least = none) :
    least ≤ actor.role ∧ (actor.role = RoleGuestUser ∨ actor.role = RoleCommonUser ∨
      actor.role = RoleAdminUser ∨ actor.role = RoleRootUser) := by
  unfold Actor.refusal at hadmitted
  split at hadmitted
  · cases hadmitted
  split at hadmitted
  · cases hadmitted
  case isFalse hrank =>
    split at hadmitted
    · cases hadmitted
    case isFalse hvalid =>
      simp only [validUserInfo, IsValidateRole, Bool.not_eq_true, Bool.not_eq_false',
        Bool.and_eq_true, Bool.or_eq_true, decide_eq_true_eq, or_assoc] at hvalid
      exact ⟨Int.not_lt.1 hrank, hvalid.2⟩

theorem getUserById_ok {id : ℤ} {user : User} (hget : users.getUserById id = .ok user) :
    users.lookup id = some ⟨user, false⟩ := by
  unfold getUserById at hget
  split at hget
  · cases hget
  split at hget
  case h_1 row hrow =>
    split at hget
    · cases hget
    case isFalse hlive =>
      obtain rfl := Except.ok.inj hget
      rw [hrow, ← Bool.not_eq_true _ |>.mp hlive]
  case h_2 => cases hget

/-- A write of a live row that the actor outranks. -/
theorem write_effect {id : ℤ} {edit : User → User}
    (hedit : ∀ row, users.lookup id = some ⟨row, false⟩ →
      (row.role < call.actor.role ∨ call.actor.role = RoleRootUser) ∧
      ((edit row).role = row.role ∨ (edit row).role < call.actor.role ∧
        row.role ≠ RoleRootUser ∧ (edit row).role ≠ RoleRootUser) ∧
      (row.role = RoleRootUser → (edit row).status = UserStatusDisabled →
        row.status = UserStatusDisabled)) :
    Effect call users (users.write id edit) := by
  unfold write
  split
  case h_1 row hrow =>
    obtain ⟨user, deleted⟩ := row
    cases deleted with
    | true => exact .kept
    | false =>
        obtain ⟨hrank, hrole, hstatus⟩ := hedit user hrow
        exact .written hrow hrank hrole hstatus
  case h_2 => exact .kept

/-- A deletion of a live row, soft. -/
theorem delete_effect {id : ℤ}
    (hdelete : ∀ row, users.lookup id = some ⟨row, false⟩ → row.role ≠ RoleRootUser ∧
      (row.role < call.actor.role ∨ call.actor.role = RoleRootUser ∨
        call.request = .deleteSelf ∧ id = call.actor.id)) :
    Effect call users (users.delete id) := by
  unfold delete
  split
  case h_1 row hrow =>
    obtain ⟨user, deleted⟩ := row
    cases deleted with
    | true => exact .kept
    | false =>
        obtain ⟨hroot, hrank⟩ := hdelete user hrow
        refine .removed hrow hroot hrank (fun row' hrow' => ?_) fun other hother => ?_
        · exact (Option.some.inj ((AList.lookup_insert _).symm.trans hrow')).symm
        · exact AList.lookup_insert_ne hother
  case h_2 => exact .kept

/-- The write that follows a deletion finds no live row. -/
theorem write_delete (id : ℤ) (edit : User → User) :
    (users.delete id).write id edit = users.delete id := by
  unfold delete
  split
  case h_1 row hrow =>
    split
    case isTrue hdeleted => simp [write, hrow, hdeleted]
    case isFalse => simp [write]
  case h_2 hrow => rw [write, hrow]

/-- What the `switch` of `ManageUser` lets through. -/
theorem manageAction_ok {myRole : ℤ} {user newUser : User} {action : String}
    (haction : manageAction myRole user action = .ok newUser) :
    (newUser.role = user.role ∨ user.role ≠ RoleRootUser ∧
      (newUser.role = RoleAdminUser ∧ myRole = RoleRootUser ∨ newUser.role = RoleCommonUser)) ∧
    (newUser.status = UserStatusDisabled → user.role ≠ RoleRootUser ∨
      user.status = UserStatusDisabled) ∧
    (action = "delete" → user.role ≠ RoleRootUser) := by
  unfold manageAction at haction
  split at haction
  case isTrue hdisable =>
    split at haction
    · cases haction
    case isFalse hroot =>
      obtain rfl := Except.ok.inj haction
      exact ⟨.inl rfl, fun _ => .inl hroot, fun _ => hroot⟩
  split at haction
  case isTrue henable =>
    obtain rfl := Except.ok.inj haction
    have hother : action ≠ "delete" := by simp [henable]
    have henabled : UserStatusEnabled ≠ UserStatusDisabled := by decide
    exact ⟨.inl rfl, fun h => absurd h henabled, fun h => absurd h hother⟩
  split at haction
  case isTrue =>
    split at haction
    · cases haction
    case isFalse hroot =>
      obtain rfl := Except.ok.inj haction
      exact ⟨.inl rfl, fun _ => .inl hroot, fun _ => hroot⟩
  case isFalse hdelete =>
    split at haction
    case isTrue =>
      split at haction
      · cases haction
      case isFalse hroot =>
        split at haction
        · cases haction
        case isFalse hlow =>
          obtain rfl := Except.ok.inj haction
          have hcommon : user.role ≠ RoleRootUser := by
            rintro heq
            exact hlow (heq ▸ by decide)
          exact ⟨.inr ⟨hcommon, .inl ⟨rfl, not_not.1 hroot⟩⟩, fun _ => .inl hcommon,
            fun h => absurd h hdelete⟩
    split at haction
    case isTrue =>
      split at haction
      · cases haction
      case isFalse hroot =>
        split at haction
        · cases haction
        · obtain rfl := Except.ok.inj haction
          exact ⟨.inr ⟨hroot, .inr rfl⟩, fun _ => .inl hroot, fun h => absurd h hdelete⟩
    · obtain rfl := Except.ok.inj haction
      exact ⟨.inl rfl, .inr, fun h => absurd h hdelete⟩

theorem fill_live {id found : ℤ} {user row : User} (hfill : users.fill id = (found, user))
    (hrow : users.lookup found = some ⟨row, false⟩) : user = row := by
  unfold fill at hfill
  obtain ⟨rfl, rfl⟩ := Prod.mk.inj hfill
  rw [hrow]
  rfl

theorem outranks {myRole role : ℤ} (hpassed : ¬ (myRole ≤ role ∧ myRole ≠ RoleRootUser)) :
    role < myRole ∨ myRole = RoleRootUser := by
  rcases not_and_or.1 hpassed with hrank | hroot
  · exact .inl (Int.not_le.1 hrank)
  · exact .inr (not_not.1 hroot)

theorem createUser_effect {body : Option UserBody} (hadmin : RoleAdminUser ≤ call.actor.role)
    (hvalid : call.actor.role ≤ RoleRootUser) :
    Effect call users (users.createUser world call body).1 := by
  cases body with
  | none => exact .kept
  | some body =>
      simp only [createUser]
      split
      · exact .kept
      split
      · exact .kept
      split
      · exact .kept
      case isFalse hrank =>
        split
        · exact .kept
        split
        · exact .kept
        case isFalse hfresh =>
          have hnew : users.lookup call.newId = none := by
            simp only [Bool.or_eq_true, not_or, Option.not_isSome_iff_eq_none] at hfresh
            exact hfresh.1.1
          have hbelow : (if body.role = 0 then RoleCommonUser else body.role) <
              call.actor.role := by
            simp only [RoleCommonUser, RoleAdminUser] at hadmin ⊢
            split <;> omega
          exact .created hnew hbelow (Int.ne_of_lt (Int.lt_of_lt_of_le hbelow hvalid))

theorem edit_role (updatedUser : UserBody) (hash : Option String) (row : User) :
    (edit updatedUser hash row).role = row.role ∧
      (edit updatedUser hash row).status = row.status := by
  cases hash <;> exact ⟨rfl, rfl⟩

theorem updateUser_effect {body : Option UserBody} :
    Effect call users (users.updateUser world call body).1 := by
  cases body with
  | none => exact .kept
  | some updatedUser =>
      simp only [updateUser]
      split
      · exact .kept
      split
      · exact .kept
      split
      · exact .kept
      case h_2 originUser hget =>
        split
        · exact .kept
        case isFalse hrank =>
          split
          · exact .kept
          split
          · exact .kept
          split
          · exact .kept
          case h_2 hash _ _ =>
            refine write_effect fun row hrow => ⟨?_, ?_, ?_⟩
            · obtain rfl : row = originUser := by
                simpa [hrow] using getUserById_ok hget
              exact outranks hrank
            · exact .inl (edit_role updatedUser hash row).1
            · intro _ hdisabled
              rwa [(edit_role updatedUser hash row).2] at hdisabled

theorem manageUser_effect {request : Option ManageRequest}
    (hadmin : RoleAdminUser ≤ call.actor.role) :
    Effect call users (users.manageUser call request).1 := by
  cases request with
  | none => exact .kept
  | some request =>
      simp only [manageUser]
      cases hfill : users.fill request.id with
      | mk id user =>
          simp only
          split
          · exact .kept
          split
          · exact .kept
          case isFalse hrank =>
            split
            · exact .kept
            case h_2 newUser haction =>
              obtain ⟨hrole, hstatus, hdelete⟩ := manageAction_ok haction
              split
              case isTrue hdeleted =>
                rw [write_delete]
                refine delete_effect fun row hrow => ?_
                obtain rfl := fill_live hfill hrow
                exact ⟨hdelete hdeleted, (outranks hrank).imp_right .inl⟩
              case isFalse =>
                show Effect call users (users.write id fun row => row.updates newUser)
                refine write_effect fun row hrow => ⟨?_, ?_, ?_⟩
                · exact fill_live hfill hrow ▸ outranks hrank
                · obtain rfl := fill_live hfill hrow
                  simp only [User.updates, User.writeNonZero]
                  split
                  · exact .inl rfl
                  rcases hrole with hsame | ⟨hroot, ⟨hnew, hmine⟩ | hnew⟩
                  · exact .inl hsame
                  · refine .inr ⟨?_, hroot, ?_⟩
                    · rw [hnew, hmine]
                      decide
                    · rw [hnew]
                      decide
                  · refine .inr ⟨?_, hroot, ?_⟩
                    · rw [hnew]
                      exact Int.lt_of_lt_of_le (by decide) hadmin
                    · rw [hnew]
                      decide
                · obtain rfl := fill_live hfill hrow
                  intro hroot
                  simp only [User.updates, User.writeNonZero]
                  split
                  · exact fun hdisabled => hdisabled
                  · exact fun hdisabled => (hstatus hdisabled).resolve_left (not_not.2 hroot)

theorem deleteUser_effect {id : Except String ℤ} (hvalid : call.actor.role ≤ RoleRootUser) :
    Effect call users (users.deleteUser call id).1 := by
  cases id with
  | error message => exact .kept
  | ok id =>
      simp only [deleteUser]
      split
      · exact .kept
      case h_2 originUser hget =>
        split
        · exact .kept
        case isFalse hrank =>
          have hbelow := Int.not_le.1 hrank
          have hroot := Int.ne_of_lt (Int.lt_of_lt_of_le hbelow hvalid)
          refine .removed (getUserById_ok hget) hroot (.inl hbelow)
            (fun row' hrow' => ?_) fun other hother =>
              AList.lookup_erase_ne hother
          rw [hardDelete, AList.lookup_erase] at hrow'
          cases hrow'

theorem deleteSelf_effect (hself : call.request = .deleteSelf) :
    Effect call users (users.deleteSelf call).1 := by
  unfold deleteSelf
  split
  · exact .kept
  case isFalse hid =>
    split
    case h_1 user hget =>
      split
      · exact .kept
      case isFalse hroot =>
        refine delete_effect fun row hrow => ?_
        obtain rfl : row = user := by simpa [hrow] using getUserById_ok hget
        exact ⟨hroot, .inr (.inr ⟨hself, rfl⟩)⟩
    case h_2 message hget =>
      -- There is no live row, so that nothing is deleted.
      refine delete_effect fun row hrow => ?_
      rw [getUserById, if_neg hid, hrow] at hget
      cases hget

/-- Inversion of a call. -/
theorem serve_effect : Effect call users (users.serve world call).1 := by
  unfold serve
  split
  · exact .kept
  case h_2 hadmitted =>
    obtain ⟨hleast, hrole⟩ := refusal_none hadmitted
    have hvalid : call.actor.role ≤ RoleRootUser := by
      simp only [RoleGuestUser, RoleCommonUser, RoleAdminUser, RoleRootUser] at hrole ⊢
      omega
    cases hrequest : call.request with
    | createUser body =>
        rw [hrequest] at hleast
        exact createUser_effect hleast hvalid
    | updateUser body => exact updateUser_effect
    | manageUser request =>
        rw [hrequest] at hleast
        exact manageUser_effect hleast
    | deleteUser id => exact deleteUser_effect hvalid
    | deleteSelf => exact deleteSelf_effect hrequest

end

end Users

/-- A call leaves alone who is not below the actor, but for the account that `DeleteSelf` is
about, and raises nobody to the actor's role. -/
structure Respects (call : UserCall) (users users' : Users) : Prop where
  untouched : ∀ id row, users.lookup id = some row → call.actor.role ≤ row.user.role →
    ¬ (call.request = .deleteSelf ∧ id = call.actor.id) → users'.lookup id = some row
  raised : ∀ id row', users'.lookup id = some row' → call.actor.role ≤ row'.user.role →
    ∃ row, users.lookup id = some row ∧ row.user.role = row'.user.role

/-- The root users are the same, none is deleted and none becomes disabled. -/
structure RootsKept (users users' : Users) : Prop where
  kept : ∀ id row, users.lookup id = some row → row.user.role = RoleRootUser →
    ∃ row', users'.lookup id = some row' ∧ row'.user.role = RoleRootUser ∧
      row'.deleted = row.deleted ∧
      (row'.user.status = UserStatusDisabled → row.user.status = UserStatusDisabled)
  old : ∀ id row', users'.lookup id = some row' → row'.user.role = RoleRootUser →
    ∃ row, users.lookup id = some row ∧ row.user.role = RoleRootUser

theorem RootsKept.refl (users : Users) : RootsKept users users :=
  ⟨fun _ row hrow hroot => ⟨row, hrow, hroot, rfl, fun h => h⟩, fun _ row hrow hroot =>
    ⟨row, hrow, hroot⟩⟩

theorem RootsKept.trans {users users' users'' : Users} (hfirst : RootsKept users users')
    (hsecond : RootsKept users' users'') : RootsKept users users'' where
  kept id row hrow hroot := by
    obtain ⟨row', hrow', hroot', hdeleted, hstatus⟩ := hfirst.kept id row hrow hroot
    obtain ⟨row'', hrow'', hroot'', hdeleted', hstatus'⟩ := hsecond.kept id row' hrow' hroot'
    exact ⟨row'', hrow'', hroot'', hdeleted'.trans hdeleted, fun h => hstatus (hstatus' h)⟩
  old id row'' hrow'' hroot'' := by
    obtain ⟨row', hrow', hroot'⟩ := hsecond.old id row'' hrow'' hroot''
    exact hfirst.old id row' hrow' hroot'

/-- What is found after a row was put into the table: that row, or what was there. -/
theorem Users.lookup_insert_some {users : Users} {id other : ℤ} {row row' : StoredUser}
    (hlookup : (AList.insert id row users).lookup other = some row') :
    other = id ∧ row' = row ∨ other ≠ id ∧ users.lookup other = some row' := by
  by_cases hother : other = id
  · subst hother
    rw [AList.lookup_insert] at hlookup
    exact .inl ⟨rfl, (Option.some.inj hlookup).symm⟩
  · rw [AList.lookup_insert_ne hother] at hlookup
    exact .inr ⟨hother, hlookup⟩

namespace Effect

variable {call : UserCall} {users users' : Users}

/-- A user stays as it was, or is a live one that is written, or is deleted. -/
theorem of_old {id : ℤ} {old : StoredUser} (heffect : Effect call users users')
    (hold : users.lookup id = some old) :
    users'.lookup id = some old ∨
      (∃ row new : User, old = ⟨row, false⟩ ∧ users'.lookup id = some ⟨new, false⟩ ∧
        (row.role < call.actor.role ∨ call.actor.role = RoleRootUser) ∧
        (new.role = row.role ∨ row.role ≠ RoleRootUser) ∧
        (row.role = RoleRootUser → new.status = UserStatusDisabled →
          row.status = UserStatusDisabled)) ∨
      old.user.role ≠ RoleRootUser ∧
        (old.user.role < call.actor.role ∨ call.actor.role = RoleRootUser ∨
          call.request = .deleteSelf ∧ id = call.actor.id) := by
  cases heffect with
  | kept => exact .inl hold
  | @created created row hnew =>
      have hne : id ≠ created := by
        rintro rfl
        rw [hnew] at hold
        cases hold
      exact .inl ((AList.lookup_insert_ne hne).trans hold)
  | @written written row new hrow hrank hrole hstatus =>
      by_cases hid : id = written
      · subst hid
        obtain rfl := Option.some.inj (hrow.symm.trans hold)
        exact .inr (.inl ⟨row, new, rfl, AList.lookup_insert _, hrank,
          hrole.imp_right fun h => h.2.1, hstatus⟩)
      · exact .inl ((AList.lookup_insert_ne hid).trans hold)
  | @removed removed row users' hrow hroot hrank hgone hrest =>
      by_cases hid : id = removed
      · subst hid
        obtain rfl := Option.some.inj (hrow.symm.trans hold)
        exact .inr (.inr ⟨hroot, hrank⟩)
      · exact .inl ((hrest id hid).trans hold)

/-- A user has the role that it had, or one below that of the actor. -/
theorem of_new {id : ℤ} {row' : StoredUser} (heffect : Effect call users users')
    (hrow' : users'.lookup id = some row') :
    row'.user.role < call.actor.role ∧ row'.user.role ≠ RoleRootUser ∨
      ∃ row, users.lookup id = some row ∧ row.user.role = row'.user.role := by
  cases heffect with
  | kept => exact .inr ⟨row', hrow', rfl⟩
  | created hnew hrank hroot =>
      rcases Users.lookup_insert_some hrow' with ⟨rfl, rfl⟩ | ⟨-, hold⟩
      · exact .inl ⟨hrank, hroot⟩
      · exact .inr ⟨row', hold, rfl⟩
  | written hrow hrank hrole hstatus =>
      rcases Users.lookup_insert_some hrow' with ⟨rfl, rfl⟩ | ⟨-, hold⟩
      · rcases hrole with hsame | ⟨hlow, -, hroot⟩
        · exact .inr ⟨_, hrow, hsame.symm⟩
        · exact .inl ⟨hlow, hroot⟩
      · exact .inr ⟨row', hold, rfl⟩
  | @removed removed row users' hrow hroot hrank hgone hrest =>
      by_cases hid : id = removed
      · subst hid
        rw [hgone row' hrow']
        exact .inr ⟨_, hrow, rfl⟩
      · exact .inr ⟨row', (hrest id hid).symm.trans hrow', rfl⟩

theorem respects (heffect : Effect call users users') (hnonroot : call.actor.role ≠ RoleRootUser) :
    Respects call users users' := by
  refine ⟨fun id old hold hhigh hself => ?_, fun id row' hrow' hhigh => ?_⟩
  · rcases heffect.of_old hold with hsame | ⟨row, new, rfl, -, hrank, -⟩ | ⟨-, hrank⟩
    · exact hsame
    · exact absurd hhigh (Int.not_le.2 (hrank.resolve_right hnonroot))
    · rcases hrank with hbelow | hactor | hdeleteSelf
      · exact absurd hhigh (Int.not_le.2 hbelow)
      · exact absurd hactor hnonroot
      · exact absurd hdeleteSelf hself
  · exact (heffect.of_new hrow').resolve_left fun hlow => Int.not_le.2 hlow.1 hhigh

theorem rootsKept (heffect : Effect call users users') : RootsKept users users' := by
  refine ⟨fun id old hold hroot => ?_, fun id row' hrow' hroot => ?_⟩
  · rcases heffect.of_old hold with hsame | ⟨row, new, rfl, hnew, -, hrole, hstatus⟩ | ⟨hother, -⟩
    · exact ⟨old, hsame, hroot, rfl, fun h => h⟩
    · rcases hrole with hrole | hother
      · exact ⟨_, hnew, hrole.trans hroot, rfl, hstatus hroot⟩
      · exact absurd hroot hother
    · exact absurd hroot hother
  · rcases heffect.of_new hrow' with ⟨-, hother⟩ | ⟨row, hrow, hrole⟩
    · exact absurd hroot hother
    · exact ⟨row, hrow, hrole.trans hroot⟩

end Effect

/-- The hierarchy of roles survives every sequence of calls: a call of a non-root actor respects
it, and the root users stay. -/
theorem role_hierarchy {world : UserWorld} {users users' : Users} {calls : List UserCall}
    (hrun : (userTable world).run users calls = some users') :
    RootsKept users users' ∧
      ∀ before call after t t', calls = before ++ call :: after →
        (userTable world).run users before = some t → (userTable world).step t call = some t' →
        call.actor.role ≠ RoleRootUser → Respects call t t' := by
  refine ⟨?_, fun before call after t t' _ _ hstep hnonroot => ?_⟩
  · refine System.kept_run (I := RootsKept users) ?_ (.refl users) hrun
    intro t call t' hstep hkept
    obtain rfl := Option.some.inj hstep
    exact hkept.trans Users.serve_effect.rootsKept
  · obtain rfl := Option.some.inj hstep
    exact Users.serve_effect.respects hnonroot

def sampleUserWorld : UserWorld where
  validate := fun _ => none
  password2Hash := fun password => .ok ("#" ++ password)
  defaultSetting := fun _ => "\x7b\x7d"
  quotaForNewUser := 0
  duplicateKey := "UNIQUE constraint failed"

def sampleStoredUser (name : String) (role : ℤ) : StoredUser :=
  ⟨({ User.empty with role := role, status := UserStatusEnabled }.setText "username" name).setText
    "aff_code" name, false⟩

/-- The root user, an administrator and a common user. -/
def sampleUsers : Users :=
  ((AList.insert 3 (sampleStoredUser "carol" RoleCommonUser)
    (AList.insert 2 (sampleStoredUser "bob" RoleAdminUser)
      (AList.insert 1 (sampleStoredUser "root" RoleRootUser) ∅))))

def sampleUserCall (actor : Actor) (request : ManageCall) : UserCall where
  actor := actor
  request := request
  newId := 4
  affCode := "dave"
  cacheError := none

def bob : Actor := ⟨2, "bob", RoleAdminUser, UserStatusEnabled⟩

/-- The administrator creates a user, disables one, tries to promote it and deletes itself. -/
def sampleUserCalls : List UserCall :=
  [sampleUserCall bob (.createUser (some ⟨0, "dave", "password", "", 0, 0, "", "", 0, ""⟩)),
    sampleUserCall bob (.manageUser (some ⟨3, "disable"⟩)),
    sampleUserCall bob (.manageUser (some ⟨3, "promote"⟩)), sampleUserCall bob .deleteSelf]

theorem role_hierarchy_administrator :
    ∃ users', (userTable sampleUserWorld).run sampleUsers sampleUserCalls = some users' ∧
      RootsKept sampleUsers users' ∧
      (∀ before call after t t', sampleUserCalls = before ++ call :: after →
        (userTable sampleUserWorld).run sampleUsers before = some t →
        (userTable sampleUserWorld).step t call = some t' →
        call.actor.role ≠ RoleRootUser → Respects call t t') ∧
      (users'.lookup 3).map (fun row => (row.user.role, row.user.status)) =
        some (RoleCommonUser, UserStatusDisabled) := by
  obtain ⟨hroots, hcalls⟩ := @role_hierarchy sampleUserWorld sampleUsers _ sampleUserCalls rfl
  exact ⟨_, rfl, hroots, hcalls, by decide⟩

/-- `DeleteSelf` deletes a user of the actor's own role: the actor. -/
theorem delete_self_deletes_actor :
    ¬ ∀ (world : UserWorld) (users users' : Users) (call : UserCall),
      (userTable world).step users call = some users' → call.actor.role ≠ RoleRootUser →
      ∀ id row, users.lookup id = some row → call.actor.role ≤ row.user.role →
        users'.lookup id = some row := by
  intro hclaim
  have hkept := hclaim sampleUserWorld sampleUsers _ (sampleUserCall bob .deleteSelf) rfl
    (by decide) 2 (sampleStoredUser "bob" RoleAdminUser) rfl (by decide)
  exact absurd (congrArg (Option.map StoredUser.deleted) hkept) (by decide)

end NewApi.Model
