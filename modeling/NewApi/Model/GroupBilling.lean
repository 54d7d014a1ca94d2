import NewApi.Model.Authorisation

/-!
# The group ratio of an attempt

`HandleGroupRatio` finds the ratio for the group that the context names, first when the price of the
request is computed and again after every selection of a retry.
-/

namespace NewApi.Model

open NewApi.Lib NewApi.Lib.Choice

structure GroupRatioInfo (F : Type) where
  groupRatio : F
  groupSpecialRatio : F
  hasSpecialRatio : Bool

/-- The ratio in a `PriceData` that has not been computed. -/
def GroupRatioInfo.zero {F : Type} [Float64 F] : GroupRatioInfo F where
  groupRatio := Float64.ofInt 0
  groupSpecialRatio := Float64.ofInt 0
  hasSpecialRatio := false

/-- What `RelayInfo` has of the groups, and the group ratio of its `PriceData`. -/
structure BilledInfo (F : Type) where
  userGroup : String
  usingGroup : String
  groupRatioInfo : GroupRatioInfo F

section

variable {F : Type} [Float64 F] (cfg : RoutingSettings F)

namespace RoutingSettings

def getGroupRatio (name : String) : F :=
  (cfg.groupRatio name).getD (Float64.ofInt 1)

/-- The ratio of a user's group for a group. -/
def groupRatioInfo (userGroup usingGroup : String) : GroupRatioInfo F :=
  match cfg.groupGroupRatio userGroup usingGroup with
  | some userGroupRatio =>
      { groupRatio := userGroupRatio
        groupSpecialRatio := userGroupRatio
        hasSpecialRatio := true }
  | none =>
      { groupRatio := cfg.getGroupRatio usingGroup
        groupSpecialRatio := Float64.ofInt (-1)
        hasSpecialRatio := false }

end RoutingSettings

/-- `HandleGroupRatio`, with the write to the `PriceData`. -/
def BilledInfo.handleGroupRatio (ctx : RetryContext) (info : BilledInfo F) : BilledInfo F :=
  let usingGroup := ctx.autoGroup.getD info.usingGroup
  { info with
    usingGroup := usingGroup
    groupRatioInfo := cfg.groupRatioInfo info.userGroup usingGroup }

/-- The state of the loop of `Relay` with the prices; `selectGroup` is the group that the channel of
the attempt was selected from. -/
structure BilledState (F : Type) where
  retry : RetryState
  info : BilledInfo F
  selectGroup : String

/-- An attempt as it is settled. -/
structure BilledAttempt (F : Type) where
  channelId : ℤ
  selectGroup : String
  info : BilledInfo F

namespace BilledState

/-- The prices after the controller's `getChannel`: a retry selects, and the ratio is found anew. -/
def getChannel (req : ApiRequest) (turn : RetryTurn) (s : BilledState F) : BilledState F :=
  if s.retry.channelMeta = false then s
  else
    { s with
      info := s.info.handleGroupRatio cfg (s.retry.getChannel cfg.retry req.retryRequest turn).2.ctx
      selectGroup := req.selectGroup cfg turn s.retry }

def settled (s : BilledState F) (tried : TriedChannel) : BilledAttempt F where
  channelId := tried.channelId
  selectGroup := s.selectGroup
  info := s.info

/-- One turn of the loop: the turn of the retries, with the prices. -/
def attempt (req : ApiRequest) (s : BilledState F) (turn : RetryTurn) :
    Turn (BilledState F) (BilledAttempt F) :=
  let reached := s.getChannel cfg req turn
  match s.retry.attempt cfg.retry req.retryRequest turn with
  | .again retry tried => .again { reached with retry := retry } (reached.settled tried)
  | .leave retry tried => .leave { reached with retry := retry } (tried.map reached.settled)

/-- The price of the request is computed before the loop. -/
def enter (req : ApiRequest) (usingGroup : String) (d : Distributed) : BilledState F where
  retry := .enter d.ctx
  info := BilledInfo.handleGroupRatio cfg d.ctx
    { userGroup := req.userGroup
      usingGroup := usingGroup
      groupRatioInfo := .zero }
  selectGroup := d.selectGroup

end BilledState

/-- The loop of `Relay` with the prices. -/
def billedLoop (req : ApiRequest) : Loop (BilledState F) RetryTurn (BilledAttempt F) where
  guard s := (retryLoop cfg.retry req.retryRequest).guard s.retry
  turn := BilledState.attempt cfg req

end

section

variable {F : Type} [Float64 F] {cfg : RoutingSettings F} {req : ApiRequest} {usingGroup : String}
  {d : Distributed}

/-- The loop with the prices makes the attempts of the loop without them. -/
theorem billedLoop_exec {turns : ℕ → RetryTurn} {fuel n : ℕ} {s last : BilledState F}
    {attempts : List (BilledAttempt F)}
    (hexec : (billedLoop cfg req).exec turns fuel n s = some (attempts, last)) :
    ∃ tried, (retryLoop cfg.retry req.retryRequest).exec turns fuel n s.retry =
        some (tried, last.retry) ∧
      List.Forall₂ (fun attempt tried => attempt.channelId = tried.channelId) attempts tried := by
  apply Loop.exec_simulates (L := retryLoop cfg.retry req.retryRequest) (f := BilledState.retry)
    (fun _ => rfl) ?_ ?_ hexec
  · intro s turn t attempt hturn
    change BilledState.attempt cfg req s turn = .again t attempt at hturn
    rw [BilledState.attempt] at hturn
    split at hturn
    case h_1 retry tried hretry =>
      cases hturn
      exact ⟨tried, hretry, rfl⟩
    case h_2 => cases hturn
  · intro s turn t attempt hturn
    change BilledState.attempt cfg req s turn = .leave t attempt at hturn
    rw [BilledState.attempt] at hturn
    split at hturn
    case h_1 => cases hturn
    case h_2 retry tried hretry =>
      cases hturn
      refine ⟨tried, hretry, ?_⟩
      cases tried with
      | none => exact .nil
      | some tried => exact .cons rfl .nil

/-- The ratio follows the group that the context names. -/
theorem BilledInfo.handleGroupRatio_names {info : BilledInfo F}
    {ctx : RetryContext} {group : String}
    (huser : info.userGroup = req.userGroup)
    (hfixed : req.relayTokenGroup ≠ "auto" → info.usingGroup = req.relayTokenGroup)
    (hserved : req.ServedBy cfg group) (hnames : req.Names ctx group) :
    info.handleGroupRatio cfg ctx = ⟨req.userGroup, group, cfg.groupRatioInfo req.userGroup group⟩ := by
  have hgroup : ctx.autoGroup.getD info.usingGroup = group := by
    rw [ApiRequest.ServedBy] at hserved
    rw [ApiRequest.Names] at hnames
    by_cases hauto : req.relayTokenGroup = "auto"
    · rw [if_pos hauto] at hnames
      rw [hnames, Option.getD_some]
    · rw [if_neg hauto] at hnames hserved
      rw [hnames, Option.getD_none, hfixed hauto, hserved]
  rw [handleGroupRatio, hgroup, huser]

/-- The ratio is what the tables have for a user's group in a group: the ratio of the pair, without
one the ratio of the group, and 1 for a group that is in neither. -/
structure TableRatio (cfg : RoutingSettings F) (userGroup group : String)
    (info : GroupRatioInfo F) : Prop where
  special : ∀ ratio, cfg.groupGroupRatio userGroup group = some ratio →
    info.groupRatio = ratio ∧ info.groupSpecialRatio = ratio ∧ info.hasSpecialRatio = true
  plain : ∀ ratio, cfg.groupGroupRatio userGroup group = none → cfg.groupRatio group = some ratio →
    info.groupRatio = ratio ∧ info.hasSpecialRatio = false
  unlisted : cfg.groupGroupRatio userGroup group = none → cfg.groupRatio group = none →
    info.groupRatio = Float64.ofInt 1 ∧ info.hasSpecialRatio = false

/-- The lookup agrees with the tables. -/
theorem groupRatioInfo_tableRatio (cfg : RoutingSettings F) (userGroup group : String) :
    TableRatio cfg userGroup group (cfg.groupRatioInfo userGroup group) := by
  rw [RoutingSettings.groupRatioInfo]
  cases hspecial : cfg.groupGroupRatio userGroup group with
  | some userGroupRatio =>
      refine ⟨fun ratio hratio => ?_, fun _ hnone => ?_, fun hnone => ?_⟩
      · obtain rfl := Option.some.inj (hspecial.symm.trans hratio)
        exact ⟨rfl, rfl, rfl⟩
      · rw [hspecial] at hnone
        cases hnone
      · rw [hspecial] at hnone
        cases hnone
  | none =>
      refine ⟨fun ratio hratio => ?_, fun ratio _ hratio => ⟨?_, rfl⟩, fun _ hratio => ⟨?_, rfl⟩⟩
      · rw [hspecial] at hratio
        cases hratio
      · show cfg.getGroupRatio group = ratio
        rw [RoutingSettings.getGroupRatio, hratio, Option.getD_some]
      · show cfg.getGroupRatio group = Float64.ofInt 1
        rw [RoutingSettings.getGroupRatio, hratio, Option.getD_none]

/-- The attempt is settled and logged for the group that its channel was selected from. -/
structure BilledFor (cfg : RoutingSettings F) (req : ApiRequest) (lookup : ChannelLookup)
    (attempt : BilledAttempt F) : Prop where
  selected : lookup.Enabled attempt.selectGroup req.modelName attempt.channelId
  served : req.ServedBy cfg attempt.selectGroup
  usingGroup : attempt.info.usingGroup = attempt.selectGroup
  ratio : TableRatio cfg req.userGroup attempt.selectGroup attempt.info.groupRatioInfo

/-- What holds when the loop with the prices tests its guard for the `n`-th time. -/
structure BilledReady (cfg : RoutingSettings F) (req : ApiRequest) (d : Distributed) (n : ℕ)
    (s : BilledState F) : Prop where
  ready : req.Ready d n s.retry
  userGroup : s.info.userGroup = req.userGroup
  fixed : req.relayTokenGroup ≠ "auto" → s.info.usingGroup = req.relayTokenGroup
  first : n = 0 → s.selectGroup = d.selectGroup ∧
    s.info = ⟨req.userGroup, d.selectGroup, cfg.groupRatioInfo req.userGroup d.selectGroup⟩

/-- The price before the loop is for the group of the first channel. -/
theorem enter_ready {lookup : ChannelLookup} (hgroup : usingGroup = req.relayTokenGroup)
    (hfrom : ApiRequest.DistributedFrom cfg lookup req d) :
    BilledReady cfg req d 0 (.enter cfg req usingGroup d) := by
  have hinfo : (BilledState.enter cfg req usingGroup d).info = _ :=
    BilledInfo.handleGroupRatio_names rfl (fun _ => hgroup) hfrom.served hfrom.names
  refine ⟨⟨hfrom.carries, fun _ => ⟨rfl, rfl⟩, fun hn => absurd rfl hn⟩, rfl, fun hauto => ?_,
    fun _ => ⟨rfl, hinfo⟩⟩
  have hserved := hfrom.served
  rw [ApiRequest.ServedBy, if_neg hauto] at hserved
  rw [hinfo]
  exact hserved

/-- An attempt is priced for the group of its channel, the first one before the loop and a later one
when it selects. -/
theorem BilledReady.getChannel_billed {first : Selecting} {turns : ℕ → RelayTurn} {n : ℕ}
    {s : BilledState F} {reached : RetryState} {channelId : ℤ}
    (hfrom : ApiRequest.DistributedFrom cfg first.lookup req d) (hready : BilledReady cfg req d n s)
    (hchannel : s.retry.getChannel cfg.retry req.retryRequest (turns n).retry =
      (.ok channelId, reached)) :
    let after := s.getChannel cfg req (turns n).retry
    BilledFor cfg req (if n = 0 then first.lookup else (turns n).lookup)
        ⟨channelId, after.selectGroup, after.info⟩ ∧
      after.info.userGroup = req.userGroup ∧ req.Carries reached.ctx := by
  -- the first attempt has the price from before the loop
  by_cases hn : n = 0
  · obtain ⟨hmeta, hctx⟩ := hready.ready.first hn
    obtain ⟨hgroup, hinfo⟩ := hready.first hn
    rw [getChannel_first hmeta, hctx] at hchannel
    cases hchannel
    rw [if_pos hn, BilledState.getChannel, if_pos hmeta]
    dsimp only
    rw [hgroup, hinfo, hfrom.channelId]
    exact ⟨⟨hfrom.enabled, hfrom.served, rfl, groupRatioInfo_tableRatio cfg _ _⟩, rfl,
      hready.ready.carries⟩
  · have hmeta := hready.ready.later hn
    obtain ⟨henabled, hserved, hnames, hcarries⟩ :=
      ApiRequest.getChannel_from hmeta hready.ready.carries rfl hchannel
    have hinfo := BilledInfo.handleGroupRatio_names hready.userGroup hready.fixed hserved hnames
    rw [if_neg hn, BilledState.getChannel, if_neg (by simp [hmeta]), hchannel]
    dsimp only
    rw [hinfo]
    exact ⟨⟨henabled, hserved, rfl, groupRatioInfo_tableRatio cfg _ _⟩, rfl, hcarries⟩

end

/-- Every attempt of `Relay` is settled at the ratio of the user's group for the group that its
channel was selected from, and logged for that group. -/
theorem attempts_billed {F : Type} [Float64 F] {cfg : RoutingSettings F} {req : ApiRequest}
    {usingGroup : String} {first : Selecting} {d : Distributed} {turns : ℕ → RelayTurn}
    {attempts : List (BilledAttempt F)} {last : BilledState F}
    (hauth : req.tokenAuth cfg = .ok usingGroup)
    (hdistribute : req.distribute cfg first.lookup first.rand first.preferredChannelID usingGroup =
      .ok d)
    (hends : (billedLoop cfg req).Ends (fun n => (turns n).retry) 0 (.enter cfg req usingGroup d)
      attempts last) (i : ℕ) (attempt : BilledAttempt F) (hattempt : attempts[i]? = some attempt) :
    BilledFor cfg req (if i = 0 then first.lookup else (turns i).lookup) attempt := by
  have hgroup := req.tokenAuth_eq cfg hauth
  have hfrom := ApiRequest.distribute_from hgroup hdistribute
  obtain ⟨fuel, hexec⟩ := hends
  have hevents := Loop.exec_events (I := BilledReady cfg req d)
    (Q := fun n attempt => BilledFor cfg req (if n = 0 then first.lookup else (turns n).lookup) attempt)
    (fun {n s s' event} hready _ hturn => by
      change BilledState.attempt cfg req s (turns n).retry = .again s' event at hturn
      rw [BilledState.attempt] at hturn
      split at hturn
      case h_2 => cases hturn
      case h_1 retry tried hretry =>
        obtain ⟨channelId, reached, newAPIError, hchannel, rfl, rfl⟩ :=
          RetryState.attempt_again hretry
        obtain ⟨hbilled, huser, hcarries⟩ := hready.getChannel_billed hfrom hchannel
        cases hturn
        refine ⟨⟨⟨⟨hcarries.userGroup, hcarries.fixed⟩, fun hn => absurd hn (Nat.succ_ne_zero n),
          fun _ => rfl⟩, huser, fun hauto => ?_, fun hn => absurd hn (Nat.succ_ne_zero n)⟩, hbilled⟩
        have hserved := hbilled.served
        rw [ApiRequest.ServedBy, if_neg hauto] at hserved
        exact hbilled.usingGroup.trans hserved)
    (fun {n s s' event} hready _ hturn => by
      change BilledState.attempt cfg req s (turns n).retry = .leave s' (some event) at hturn
      rw [BilledState.attempt] at hturn
      split at hturn
      case h_1 => cases hturn
      case h_2 retry tried hretry =>
        injection hturn with _ htried
        obtain ⟨tried, rfl, rfl⟩ := Option.map_eq_some_iff.1 htried
        obtain ⟨channelId, reached, hchannel, rfl⟩ := RetryState.attempt_leave hretry
        exact (hready.getChannel_billed hfrom hchannel).1)
    (enter_ready hgroup hfrom) hexec
  have hresult := hevents i attempt hattempt
  rwa [Nat.zero_add] at hresult

/-- The users of `default` have a ratio of their own for it. -/
def specialRatioSettings : RoutingSettings Decimal where
  retryTimes := 1
  automaticRetryStatusCodeRanges := [⟨500, 599⟩]
  maskSensitiveInfo text := text
  autoGroups := ["vip", "default"]
  userUsableGroups := ["default", "vip", "auto"]
  groupSpecialUsableGroup _ := none
  groupRatio _ := some (Decimal.ofInt 1)
  groupGroupRatio userGroup usingGroup :=
    if userGroup = "default" ∧ usingGroup = "default" then some (Decimal.ofInt 2) else none

theorem attempts_billed_auto :
    ∃ attempts last attempt, (billedLoop specialRatioSettings (sampleApiRequest "auto" "o3")).Ends
        (fun _ => RelayTurn.retry ⟨sampleLookup, fun _ _ => constRand 0, fun _ => none, none,
          fun _ => none⟩) 0
        (.enter specialRatioSettings (sampleApiRequest "auto" "o3") "auto"
          ⟨sampleCachedChannel 1 false, "default", { (sampleApiRequest "auto" "o3").context with
            channelId := 1, autoGroup := some "default", autoGroupIndex := some 1,
            autoGroupRetryIndex := some 0 }⟩) attempts last ∧
      attempts[0]? = some attempt ∧ attempt.info.groupRatioInfo.groupRatio = Decimal.ofInt 2 ∧
        BilledFor specialRatioSettings (sampleApiRequest "auto" "o3") sampleLookup attempt :=
  ⟨_, _, _, ⟨2, rfl⟩, rfl, rfl, @attempts_billed Decimal _ specialRatioSettings
    (sampleApiRequest "auto" "o3") "auto" ⟨sampleLookup, fun _ _ => constRand 0, none⟩ _
    (fun _ => ⟨sampleLookup, fun _ _ => constRand 0, fun _ => none, none, fun _ => none⟩)
      _ _ rfl rfl
    ⟨2, rfl⟩ 0 _ rfl⟩

end NewApi.Model
