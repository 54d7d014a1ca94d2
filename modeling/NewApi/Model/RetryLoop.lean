import NewApi.Lib.Loop
import NewApi.Model.Channel
import NewApi.Model.Relay

/-!
# The retry loop

`Relay` tries channels until an attempt succeeds or an error ends the loop.  The first attempt
has the channel that the middleware selected; every later one selects again, with the retry
counter as the priority level.  For the group `auto` the selection walks through the auto
groups: the request context holds the group it has reached, and on the way to the next group
the counter starts again.  `retryLoop_ends` shows that the loop ends all the same.
-/

namespace NewApi.Model

open NewApi.Lib

/-- The settings that the selection and the loop read. -/
structure RetrySettings where
  retryTimes : ℕ
  autoGroups : List String
  userUsableGroups : String → List String
  automaticRetryStatusCodeRanges : List StatusCodeRange
  maskSensitiveInfo : String → String

/-- The entries of the request context that the selection and the loop read and write. -/
structure RetryContext where
  userGroup : String
  tokenCrossGroupRetry : Bool
  specificChannel : Bool
  channelId : ℤ
  autoGroup : Option String
  autoGroupIndex : Option ℕ
  autoGroupRetryIndex : Option ℕ

/-- `GetRandomSatisfiedChannel` on the channels of the moment: group, model and retry give a
channel and an error, each of which may be nil. -/
abbrev ChannelSource := String → String → ℕ → Option Channel × Option String

/-- The token group and the model of a request; no attempt changes them. -/
structure RetryRequest where
  tokenGroup : String
  modelName : String

/-- What the selection returns, with the retry parameters and the context as it leaves them. -/
structure Selected where
  channel : Option Channel
  selectGroup : String
  err : Option String
  param : RetryParam
  ctx : RetryContext

section

variable (cfg : RetrySettings)

def getUserAutoGroup (userGroup : String) : List String :=
  cfg.autoGroups.filter fun group => group ∈ cfg.userUsableGroups userGroup

/-- The loop over the auto groups from index `i` on; the search began at `startGroupIndex`. -/
def selectAutoGroup (source : ChannelSource) (request : RetryRequest) (startGroupIndex : ℕ) :
    ℕ → List String → RetryParam → RetryContext → Selected
  | _, [], param, ctx => ⟨none, request.tokenGroup, none, param, ctx⟩
  | i, autoGroup :: rest, param, ctx =>
      let priorityRetry := if startGroupIndex < i then 0 else param.retry
      match (source autoGroup request.modelName priorityRetry.toNat).1 with
      | none =>
          selectAutoGroup source request startGroupIndex (i + 1) rest (param.select .setRetry)
            { ctx with autoGroupIndex := some (i + 1), autoGroupRetryIndex := some 0 }
      | some channel =>
          if ctx.tokenCrossGroupRetry ∧ (cfg.retryTimes : ℤ) ≤ priorityRetry then
            -- the next attempt is the first one of the next group
            ⟨some channel, autoGroup, none, param.select .setRetryAndResetNextTry,
              { ctx with autoGroup := some autoGroup, autoGroupIndex := some (i + 1) }⟩
          else
            ⟨some channel, autoGroup, none, param,
              { ctx with autoGroup := some autoGroup, autoGroupIndex := some i }⟩

def cacheGetRandomSatisfiedChannel (source : ChannelSource) (request : RetryRequest)
    (param : RetryParam) (ctx : RetryContext) : Selected :=
  if request.tokenGroup = "auto" then
    if cfg.autoGroups = [] then
      ⟨none, request.tokenGroup, some "auto groups is not enabled", param, ctx⟩
    else
      let startGroupIndex := ctx.autoGroupIndex.getD 0
      selectAutoGroup cfg source request startGroupIndex startGroupIndex
        ((getUserAutoGroup cfg ctx.userGroup).drop startGroupIndex) param ctx
  else
    match source request.tokenGroup request.modelName param.retry.toNat with
    | (_, some err) => ⟨none, request.tokenGroup, some err, param, ctx⟩
    | (channel, none) => ⟨channel, request.tokenGroup, none, param, ctx⟩

/-- The state of the loop; `channelMeta` is set once a handler has run. -/
structure RetryState where
  param : RetryParam
  ctx : RetryContext
  channelMeta : Bool
  newAPIError : Option NewAPIError

/-- What one turn of the loop finds: the channels, the error of setting up the context for a
channel, the error of reading the request body with whether the body is too large, and the
error of the handler. -/
structure RetryTurn where
  source : ChannelSource
  setupContextForSelectedChannel : Channel → Option NewAPIError
  bodyErr : Option (String × Bool)
  handler : ℤ → Option NewAPIError

/-- An attempt: the channel, and the auto group and the group index of the context. -/
structure TriedChannel where
  channelId : ℤ
  autoGroup : Option String
  autoGroupIndex : Option ℕ

namespace RetryState

/-- The controller's `getChannel`; of the channel the loop uses the id. -/
def getChannel (request : RetryRequest) (turn : RetryTurn) (s : RetryState) :
    Except NewAPIError ℤ × RetryState :=
  if s.channelMeta = false then (.ok s.ctx.channelId, s)
  else
    let selected := cacheGetRandomSatisfiedChannel cfg turn.source request s.param s.ctx
    let s := { s with param := selected.param, ctx := selected.ctx }
    match selected.err, selected.channel with
    | some err, _ =>
        (.error (NewAPIError.newError ("获取分组 " ++ selected.selectGroup ++ " 下模型 " ++
          request.modelName ++ " 的可用渠道失败（retry）: " ++ err)
            ErrorCodeGetChannelFailed).withSkipRetry, s)
    | none, none =>
        (.error (NewAPIError.newError ("分组 " ++ selected.selectGroup ++ " 下模型 " ++
          request.modelName ++ " 的可用渠道不存在（retry）")
            ErrorCodeGetChannelFailed).withSkipRetry, s)
    | none, some channel =>
        let s := { s with ctx := { s.ctx with channelId := channel.id } }
        match turn.setupContextForSelectedChannel channel with
        | some newAPIError => (.error newAPIError, s)
        | none => (.ok channel.id, s)

/-- One turn of the loop. -/
def attempt (request : RetryRequest) (s : RetryState) (turn : RetryTurn) :
    Turn RetryState TriedChannel :=
  match s.getChannel cfg request turn with
  | (.error channelErr, s) => .leave { s with newAPIError := some channelErr } none
  | (.ok channelId, s) =>
      let tried : TriedChannel := ⟨channelId, s.ctx.autoGroup, s.ctx.autoGroupIndex⟩
      match turn.bodyErr with
      | some (bodyErr, tooLarge) =>
          let error := NewAPIError.newErrorWithStatusCode bodyErr ErrorCodeReadRequestBodyFailed
            (if tooLarge then 413 else 400)
          .leave { s with newAPIError := some error.withSkipRetry } (some tried)
      | none =>
          match turn.handler channelId with
          | none => .leave { s with channelMeta := true, newAPIError := none } (some tried)
          | some error =>
              let error := error.normalizeViolationFeeError cfg.maskSensitiveInfo
              let s := { s with channelMeta := true, newAPIError := some error }
              if shouldRetry cfg.automaticRetryStatusCodeRanges s.ctx.specificChannel error
                  (cfg.retryTimes - s.param.retry) then
                .again { s with param := s.param.increaseRetry } tried
              else .leave s (some tried)

end RetryState

/-- The loop of `Relay`. -/
def retryLoop (request : RetryRequest) : Loop RetryState RetryTurn TriedChannel where
  guard s := s.param.retry ≤ cfg.retryTimes
  turn := RetryState.attempt cfg request

/-- The state in which `Relay` enters the loop. -/
def RetryState.enter (ctx : RetryContext) : RetryState where
  param := .start
  ctx := ctx
  channelMeta := false
  newAPIError := none

/-! ## Termination -/

/-- The first index is not above the second one; no index is not above any. -/
def NotAbove (i j : Option ℕ) : Prop :=
  ∀ first ∈ i, ∃ second ∈ j, first ≤ second

theorem NotAbove.refl (i : Option ℕ) : NotAbove i i :=
  fun first hfirst => ⟨first, hfirst, Nat.le_refl first⟩

theorem NotAbove.trans {i j k : Option ℕ} (hij : NotAbove i j) (hjk : NotAbove j k) :
    NotAbove i k := by
  intro first hfirst
  obtain ⟨second, hsecond, hle⟩ := hij first hfirst
  obtain ⟨third, hthird, hle'⟩ := hjk second hsecond
  exact ⟨third, hthird, Nat.le_trans hle hle'⟩

theorem notAbove_some {i : Option ℕ} {j : ℕ} (hle : i.getD 0 ≤ j) : NotAbove i (some j) := by
  intro first hfirst
  obtain rfl : i = some first := hfirst
  exact ⟨j, rfl, hle⟩

variable {cfg} {source : ChannelSource} {request : RetryRequest} {startGroupIndex i : ℕ}
  {groups : List String} {param : RetryParam} {ctx : RetryContext} {channel : Channel}

/-- How a search that finds a channel in the group `j` leaves the parameters and the index: it
stays in the group, or it is done with it. -/
structure FoundIn (j : ℕ) (param : RetryParam) (ctx : RetryContext) (selected : Selected) :
    Prop where
  userGroup : selected.ctx.userGroup = ctx.userGroup
  moves : selected.ctx.autoGroupIndex = some j ∧ selected.param = param ∨
    selected.ctx.autoGroupIndex = some (j + 1) ∧
      selected.param = param.select .setRetryAndResetNextTry

/-- The priority level at which a group is searched: only the first group has a retry. -/
def priorityRetry (startGroupIndex i : ℕ) (param : RetryParam) : ℤ :=
  if startGroupIndex < i then 0 else param.retry

/-- A group without a channel for the model is passed over. -/
theorem selectAutoGroup_none {autoGroup : String}
    (hsource : (source autoGroup request.modelName
      (priorityRetry startGroupIndex i param).toNat).1 = none) :
    selectAutoGroup cfg source request startGroupIndex i (autoGroup :: groups) param ctx =
      selectAutoGroup cfg source request startGroupIndex (i + 1) groups (param.select .setRetry)
        { ctx with autoGroupIndex := some (i + 1), autoGroupRetryIndex := some 0 } := by
  rw [priorityRetry] at hsource
  rw [selectAutoGroup, hsource]

/-- A group with one is taken, and left behind once its retries are used up. -/
theorem selectAutoGroup_some {autoGroup : String}
    (hsource : (source autoGroup request.modelName
      (priorityRetry startGroupIndex i param).toNat).1 = some channel) :
    selectAutoGroup cfg source request startGroupIndex i (autoGroup :: groups) param ctx =
      if ctx.tokenCrossGroupRetry ∧
          (cfg.retryTimes : ℤ) ≤ priorityRetry startGroupIndex i param then
        ⟨some channel, autoGroup, none, param.select .setRetryAndResetNextTry,
          { ctx with autoGroup := some autoGroup, autoGroupIndex := some (i + 1) }⟩
      else
        ⟨some channel, autoGroup, none, param,
          { ctx with autoGroup := some autoGroup, autoGroupIndex := some i }⟩ := by
  rw [priorityRetry] at hsource ⊢
  rw [selectAutoGroup, hsource]

/-- A group other than the first one is searched with the retry counter at zero. -/
theorem selectAutoGroup_found
    (hfound : (selectAutoGroup cfg source request startGroupIndex i groups param ctx).channel =
      some channel) :
    ∃ j, i ≤ j ∧ j < i + groups.length ∧
      FoundIn j (if j = i then param else param.select .setRetry) ctx
        (selectAutoGroup cfg source request startGroupIndex i groups param ctx) := by
  induction groups generalizing i param ctx with
  | nil => cases hfound
  | cons autoGroup rest ih =>
      cases hsource : (source autoGroup request.modelName
          (priorityRetry startGroupIndex i param).toNat).1 with
      | none =>
          rw [selectAutoGroup_none hsource] at hfound ⊢
          obtain ⟨j, hfrom, hto, hmoves⟩ := ih hfound
          refine ⟨j, by omega, by rw [List.length_cons]; omega, ⟨hmoves.userGroup, ?_⟩⟩
          have hreset : (if j = i + 1 then param.select .setRetry
              else (param.select .setRetry).select .setRetry) = param.select .setRetry := by
            split <;> rfl
          rw [if_neg (by omega : j ≠ i)]
          rw [hreset] at hmoves
          exact hmoves.moves
      | some found =>
          rw [selectAutoGroup_some hsource]
          refine ⟨i, Nat.le_refl i, by rw [List.length_cons]; omega, ?_⟩
          rw [if_pos rfl]
          split
          · exact ⟨rfl, .inr ⟨rfl, rfl⟩⟩
          · exact ⟨rfl, .inl ⟨rfl, rfl⟩⟩

/-- The selection leaves the index where it is, or has found a channel in an auto group. -/
theorem cacheGetRandomSatisfiedChannel_found
    (hfound : (cacheGetRandomSatisfiedChannel cfg source request param ctx).channel =
      some channel) :
    let selected := cacheGetRandomSatisfiedChannel cfg source request param ctx
    if request.tokenGroup = "auto" then
      ∃ j, ctx.autoGroupIndex.getD 0 ≤ j ∧ j < (getUserAutoGroup cfg ctx.userGroup).length ∧
        FoundIn j (if j = ctx.autoGroupIndex.getD 0 then param else param.select .setRetry) ctx
          selected
    else selected.param = param ∧ selected.ctx = ctx := by
  rw [cacheGetRandomSatisfiedChannel] at hfound ⊢
  by_cases hauto : request.tokenGroup = "auto"
  · rw [if_pos hauto] at hfound ⊢
    split at hfound
    case isTrue hnone => cases hfound
    case isFalse hsome =>
      rw [if_pos hauto, if_neg hsome]
      obtain ⟨j, hfrom, hto, hmoves⟩ := selectAutoGroup_found hfound
      rw [List.length_drop] at hto
      exact ⟨j, hfrom, by omega, hmoves⟩
  · rw [if_neg hauto] at hfound ⊢
    rw [if_neg hauto]
    split at hfound
    · cases hfound
    · exact ⟨rfl, rfl⟩

namespace RetryState

/-- The groups that are still to be searched, the one of the first attempt included. -/
def groupsLeft (request : RetryRequest) (G : ℕ) (s : RetryState) : ℕ :=
  if request.tokenGroup = "auto" then
    if s.channelMeta then G - s.ctx.autoGroupIndex.getD 0
    else max (G - s.ctx.autoGroupIndex.getD 0) 1
  else 1

/-- At most this many attempts are still to come. -/
def attemptsLeft (cfg : RetrySettings) (request : RetryRequest) (G : ℕ) (s : RetryState) : ℕ :=
  (cfg.retryTimes + 1) * s.groupsLeft request G - s.param.retry.toNat

/-- What holds whenever the loop tests its guard. -/
structure AtGuard (userGroup : String) (s : RetryState) : Prop where
  userGroup : s.ctx.userGroup = userGroup
  resetNextTry : s.param.resetNextTry = false
  retry_nonneg : 0 ≤ s.param.retry

/-- The state after an attempt that is to be retried. -/
def retried (s : RetryState) (newAPIError : NewAPIError) : RetryState :=
  { s with channelMeta := true, newAPIError := some newAPIError, param := s.param.increaseRetry }

variable {turn : RetryTurn} {s s' : RetryState} {tried : TriedChannel} {channelId : ℤ}
  {userGroup : String}

/-- A turn that goes on has an attempt, and the next one is a retry of it. -/
theorem attempt_again (hturn : s.attempt cfg request turn = .again s' tried) :
    ∃ channelId reached newAPIError, s.getChannel cfg request turn = (.ok channelId, reached) ∧
      s' = reached.retried newAPIError ∧
      tried = ⟨channelId, reached.ctx.autoGroup, reached.ctx.autoGroupIndex⟩ := by
  rw [attempt] at hturn
  split at hturn
  case h_1 => cases hturn
  case h_2 channelId reached hchannel =>
    dsimp only at hturn
    split at hturn
    · cases hturn
    · split at hturn
      · cases hturn
      · split at hturn
        · cases hturn
          exact ⟨channelId, reached, _, hchannel, rfl, rfl⟩
        · cases hturn

/-- A turn that leaves the loop with an attempt. -/
theorem attempt_leave (hturn : s.attempt cfg request turn = .leave s' (some tried)) :
    ∃ channelId reached, s.getChannel cfg request turn = (.ok channelId, reached) ∧
      tried = ⟨channelId, reached.ctx.autoGroup, reached.ctx.autoGroupIndex⟩ := by
  rw [attempt] at hturn
  split at hturn
  case h_1 => cases hturn
  case h_2 channelId reached hchannel =>
    refine ⟨channelId, reached, hchannel, ?_⟩
    dsimp only at hturn
    split at hturn
    · cases hturn
      rfl
    · split at hturn
      · cases hturn
        rfl
      · split at hturn
        · cases hturn
        · cases hturn
          rfl

/-- The first attempt has the channel of the context, a later one the selected channel. -/
theorem getChannel_ok (hchannel : s.getChannel cfg request turn = (.ok channelId, s')) :
    s.channelMeta = false ∧ s' = s ∨
      s.channelMeta = true ∧ ∃ channel,
        let selected := cacheGetRandomSatisfiedChannel cfg turn.source request s.param s.ctx
        selected.channel = some channel ∧ s' = { s with
          param := selected.param
          ctx := { selected.ctx with channelId := channel.id } } := by
  rw [getChannel] at hchannel
  split at hchannel
  case isTrue hfirst =>
    cases hchannel
    exact .inl ⟨hfirst, rfl⟩
  case isFalse hlater =>
    refine .inr ⟨Bool.not_eq_false _ ▸ hlater, ?_⟩
    dsimp only at hchannel
    split at hchannel
    · cases hchannel
    · cases hchannel
    · rename_i channel herr hselected
      split at hchannel
      · cases hchannel
      · cases hchannel
        exact ⟨channel, hselected, rfl⟩

/-- Where an attempt leaves the counter and the index. -/
theorem getChannel_moves (hready : s.AtGuard userGroup)
    (hchannel : s.getChannel cfg request turn = (.ok channelId, s')) :
    s'.ctx.userGroup = userGroup ∧
      ((s'.param = s.param ∧ s'.ctx.autoGroupIndex = s.ctx.autoGroupIndex ∧
          (s.channelMeta = true → request.tokenGroup ≠ "auto")) ∨
        s.channelMeta = true ∧ request.tokenGroup = "auto" ∧
          ∃ j, s.ctx.autoGroupIndex.getD 0 ≤ j ∧ j < (getUserAutoGroup cfg userGroup).length ∧
            (s'.ctx.autoGroupIndex = some j ∧
                s'.param = (if j = s.ctx.autoGroupIndex.getD 0 then s.param
                  else s.param.select .setRetry) ∨
              s'.ctx.autoGroupIndex = some (j + 1) ∧ s'.param = ⟨0, true⟩)) := by
  rcases getChannel_ok hchannel with ⟨hfirst, rfl⟩ | ⟨hlater, channel, hselected, rfl⟩
  · refine ⟨hready.userGroup, .inl ⟨rfl, rfl, fun hmeta => ?_⟩⟩
    rw [hfirst] at hmeta
    cases hmeta
  · have hfound := cacheGetRandomSatisfiedChannel_found hselected
    by_cases hauto : request.tokenGroup = "auto"
    · rw [if_pos hauto] at hfound
      obtain ⟨j, hfrom, hto, hmoves⟩ := hfound
      rw [hready.userGroup] at hto
      exact ⟨hmoves.userGroup.trans hready.userGroup,
        .inr ⟨hlater, hauto, j, hfrom, hto, hmoves.moves⟩⟩
    · rw [if_neg hauto] at hfound
      obtain ⟨hparam, hctx⟩ := hfound
      refine ⟨?_, .inl ⟨hparam, ?_, fun _ => hauto⟩⟩
      · rw [hctx]
        exact hready.userGroup
      · rw [hctx]

theorem getChannel_notAbove (hready : s.AtGuard userGroup)
    (hchannel : s.getChannel cfg request turn = (.ok channelId, s')) :
    NotAbove s.ctx.autoGroupIndex s'.ctx.autoGroupIndex := by
  obtain ⟨-, ⟨-, hindex, -⟩ | ⟨-, -, j, hfrom, -, hmoves⟩⟩ := getChannel_moves hready hchannel
  · rw [hindex]
    exact NotAbove.refl _
  · rcases hmoves with ⟨hindex, -⟩ | ⟨hindex, -⟩
    · rw [hindex]
      exact notAbove_some hfrom
    · rw [hindex]
      exact notAbove_some (by omega)

/-- The retry counter is at its start, or one higher than before. -/
theorem retried_atGuard (newAPIError : NewAPIError) (hready : s.AtGuard userGroup)
    (hchannel : s.getChannel cfg request turn = (.ok channelId, s')) :
    (s'.retried newAPIError).AtGuard userGroup := by
  obtain ⟨huser, hmoves⟩ := getChannel_moves hready hchannel
  have hcounts : ∀ param : RetryParam, param.resetNextTry = false → 0 ≤ param.retry →
      param.increaseRetry.resetNextTry = false ∧ 0 ≤ param.increaseRetry.retry := by
    intro param hreset hretry
    rw [RetryParam.increaseRetry, if_neg (by rw [hreset]; exact Bool.false_ne_true)]
    exact ⟨hreset, by show 0 ≤ param.retry + 1; omega⟩
  have hparam : s'.param.increaseRetry.resetNextTry = false ∧
      0 ≤ s'.param.increaseRetry.retry := by
    rcases hmoves with ⟨hkeeps, -, -⟩ | ⟨-, -, j, -, -, ⟨-, hkeeps⟩ | ⟨-, hnext⟩⟩
    · rw [hkeeps]
      exact hcounts _ hready.resetNextTry hready.retry_nonneg
    · rw [hkeeps]
      split
      · exact hcounts _ hready.resetNextTry hready.retry_nonneg
      · exact hcounts _ hready.resetNextTry (Int.le_refl 0)
    · rw [hnext]
      exact ⟨rfl, Int.le_refl 0⟩
  exact ⟨huser, hparam.1, hparam.2⟩

theorem retried_groupsLeft (s : RetryState) (newAPIError : NewAPIError) (G : ℕ) :
    (s.retried newAPIError).groupsLeft request G =
      if request.tokenGroup = "auto" then G - s.ctx.autoGroupIndex.getD 0 else 1 :=
  rfl

/-- An attempt uses up one of those that are left. -/
theorem attemptsLeft_retried (newAPIError : NewAPIError) (hready : s.AtGuard userGroup)
    (hguard : s.param.retry ≤ cfg.retryTimes)
    (hchannel : s.getChannel cfg request turn = (.ok channelId, s')) :
    (s'.retried newAPIError).attemptsLeft cfg request (getUserAutoGroup cfg userGroup).length + 1 ≤
      s.attemptsLeft cfg request (getUserAutoGroup cfg userGroup).length := by
  generalize hG : (getUserAutoGroup cfg userGroup).length = G
  have hnonneg := hready.retry_nonneg
  have hcount : ∀ param : RetryParam, param.resetNextTry = false → 0 ≤ param.retry →
      param.increaseRetry.retry.toNat = param.retry.toNat + 1 := by
    intro param hreset hretry
    rw [RetryParam.increaseRetry, hreset]
    show (param.retry + 1).toNat = param.retry.toNat + 1
    omega
  obtain ⟨-, ⟨hkeeps, hindex, hkind⟩ | ⟨hlater, hauto, j, hfrom, hto, hmoves⟩⟩ :=
    getChannel_moves hready hchannel
  · -- the group stays: the counter goes up
    have hretry : (s'.retried newAPIError).param.retry.toNat = s.param.retry.toNat + 1 := by
      show s'.param.increaseRetry.retry.toNat = s.param.retry.toNat + 1
      rw [hkeeps]
      exact hcount s.param hready.resetNextTry hnonneg
    have hgroups : (s'.retried newAPIError).groupsLeft request G ≤ s.groupsLeft request G ∧
        1 ≤ s.groupsLeft request G := by
      rw [retried_groupsLeft, hindex, groupsLeft]
      split
      case isTrue hauto =>
        rw [if_neg fun hmeta => hkind hmeta hauto]
        omega
      case isFalse => omega
    have hless := Nat.mul_le_mul_left (cfg.retryTimes + 1) hgroups.1
    have hone := Nat.mul_le_mul_left (cfg.retryTimes + 1) hgroups.2
    rw [attemptsLeft, attemptsLeft, hretry]
    omega
  · rw [hG] at hto
    have hleft : s.groupsLeft request G = G - s.ctx.autoGroupIndex.getD 0 := by
      rw [groupsLeft, if_pos hauto, if_pos hlater]
    have hone : (cfg.retryTimes + 1) * 1 ≤ (cfg.retryTimes + 1) * (G - j) :=
      Nat.mul_le_mul_left _ (by omega)
    rw [attemptsLeft, attemptsLeft, retried_groupsLeft, if_pos hauto, hleft]
    rcases hmoves with ⟨hindex, hparam⟩ | ⟨hindex, hparam⟩
    · by_cases hsame : j = s.ctx.autoGroupIndex.getD 0
      · -- again the counter goes up in the same group
        rw [if_pos hsame] at hparam
        have hretry : (s'.retried newAPIError).param.retry.toNat = s.param.retry.toNat + 1 := by
          show s'.param.increaseRetry.retry.toNat = s.param.retry.toNat + 1
          rw [hparam]
          exact hcount s.param hready.resetNextTry hnonneg
        rw [hretry, hindex, Option.getD_some, ← hsame]
        omega
      · -- a later group starts at zero
        rw [if_neg hsame] at hparam
        have hretry : (s'.retried newAPIError).param.retry.toNat = 1 := by
          show s'.param.increaseRetry.retry.toNat = 0 + 1
          rw [hparam]
          exact hcount _ hready.resetNextTry (Int.le_refl 0)
        have hblock := Nat.mul_le_mul_left (cfg.retryTimes + 1)
          (by omega : G - j + 1 ≤ G - s.ctx.autoGroupIndex.getD 0)
        rw [Nat.mul_succ] at hblock
        rw [hretry, hindex, Option.getD_some]
        omega
    · -- the next attempt starts at zero in a later group
      have hretry : (s'.retried newAPIError).param.retry.toNat = 0 := by
        show s'.param.increaseRetry.retry.toNat = 0
        rw [hparam]
        rfl
      have hblock := Nat.mul_le_mul_left (cfg.retryTimes + 1)
        (by omega : G - (j + 1) + 1 ≤ G - s.ctx.autoGroupIndex.getD 0)
      rw [Nat.mul_succ] at hblock
      rw [hretry, hindex, Option.getD_some]
      omega

end RetryState

/-- Whatever channels, errors and random numbers the turns meet, the loop ends after at most
`(RetryTimes + 1) * max G 1` attempts for `G` auto groups, and the index of the auto group in
the context does not fall from one attempt to a later one. -/
theorem retryLoop_ends (cfg : RetrySettings) (request : RetryRequest) (ctx : RetryContext)
    (turns : ℕ → RetryTurn) :
    let bound := (cfg.retryTimes + 1) * max (getUserAutoGroup cfg ctx.userGroup).length 1
    ∃ tried last,
      (retryLoop cfg request).exec turns (bound + 1) 0 (.enter ctx) = some (tried, last) ∧
        tried.length ≤ bound ∧
          (ctx.autoGroupIndex :: tried.map TriedChannel.autoGroupIndex).Pairwise NotAbove := by
  intro bound
  have hready : (RetryState.enter ctx).AtGuard ctx.userGroup := ⟨rfl, rfl, Int.le_refl 0⟩
  have hvariant : (RetryState.enter ctx).attemptsLeft cfg request
      (getUserAutoGroup cfg ctx.userGroup).length ≤ bound := by
    refine Nat.le_trans (Nat.sub_le _ _) (Nat.mul_le_mul_left _ ?_)
    show (if request.tokenGroup = "auto" then
      max ((getUserAutoGroup cfg ctx.userGroup).length - ctx.autoGroupIndex.getD 0) 1 else 1) ≤ _
    split <;> omega
  have hguarded : ∀ {s : RetryState}, (retryLoop cfg request).guard s = true →
      s.param.retry ≤ cfg.retryTimes := fun hguard => of_decide_eq_true hguard
  obtain ⟨tried, last, hexec, hlength⟩ : ∃ tried last,
      (retryLoop cfg request).exec turns (bound + 1) 0 (.enter ctx) = some (tried, last) ∧
        tried.length ≤ (RetryState.enter ctx).attemptsLeft cfg request
          (getUserAutoGroup cfg ctx.userGroup).length :=
    Loop.exec_of_variant (I := RetryState.AtGuard ctx.userGroup)
      (fun hready hguard hturn => by
        obtain ⟨channelId, reached, newAPIError, hchannel, rfl, -⟩ :=
          RetryState.attempt_again hturn
        exact ⟨RetryState.retried_atGuard newAPIError hready hchannel,
          RetryState.attemptsLeft_retried newAPIError hready (hguarded hguard) hchannel⟩)
      (fun hready hguard hturn => by
        obtain ⟨channelId, reached, hchannel, -⟩ := RetryState.attempt_leave hturn
        have hused := RetryState.attemptsLeft_retried (.newError "" "") hready (hguarded hguard)
          hchannel
        omega)
      hready (Nat.lt_succ_of_le hvariant)
  refine ⟨tried, last, hexec, Nat.le_trans hlength hvariant, ?_⟩
  obtain ⟨hpairwise, hbounds⟩ := Loop.exec_pairwise (L := retryLoop cfg request)
    (I := RetryState.AtGuard ctx.userGroup)
    (R := fun event later => NotAbove event.autoGroupIndex later.autoGroupIndex)
    (B := fun s event => NotAbove s.ctx.autoGroupIndex event.autoGroupIndex)
    (fun hready hguard hturn => by
      obtain ⟨channelId, reached, newAPIError, hchannel, rfl, rfl⟩ := RetryState.attempt_again hturn
      have hindex := RetryState.getChannel_notAbove hready hchannel
      exact ⟨RetryState.retried_atGuard newAPIError hready hchannel, hindex,
        fun later hlater => ⟨hlater, hindex.trans hlater⟩⟩)
    (fun hready hguard hturn => by
      obtain ⟨channelId, reached, hchannel, rfl⟩ := RetryState.attempt_leave hturn
      exact RetryState.getChannel_notAbove hready hchannel)
    hready hexec
  refine List.pairwise_cons.2 ⟨fun index hmem => ?_, List.pairwise_map.2 hpairwise⟩
  obtain ⟨event, hevent, rfl⟩ := List.mem_map.1 hmem
  exact hbounds event hevent

end

end NewApi.Model
