import NewApi.Lib.Outcome
import NewApi.Model.GroupOrder

/-!
# From the token to the first channel

`TokenAuth` finds the group that a request uses, and `Distribute` checks the models of the token and
selects the channel of the first attempt: the one that the affinity cache prefers, where it is
enabled for the group and the model, or else a random one.
-/

namespace NewApi.Model

open NewApi.Lib NewApi.Lib.Choice NewApi.Lib.Strings

/-! ## Looking up channels -/

/-- A memory cache with every channel under its own id. -/
structure KeyedCache extends ChannelCache where
  keyed : ∀ id channel, channelsIDM id = some channel → channel.id = id

/-- Channels are looked up in the memory cache or, without one, in the tables. -/
inductive ChannelLookup
  | memory (cache : KeyedCache)
  | database (table : ChannelTable) (abilities : List Ability)

namespace ChannelLookup

def getRandomSatisfiedChannel (rand : Rand) (group model : String) (retry : ℕ) :
    ChannelLookup → Except String (Option Channel)
  | memory cache => cache.getRandomSatisfiedChannel rand group model retry
  | database table abilities => getChannel rand table.rows abilities group model retry

/-- The selection as the loop sees it. -/
def source (lookup : ChannelLookup) (rand : String → ℕ → Rand) : ChannelSource :=
  drawnSource (fun rand group model retry =>
    lookup.getRandomSatisfiedChannel rand group model retry) rand

def cacheGetChannel (id : ℤ) : ChannelLookup → Option Channel
  | memory cache => cache.channelsIDM id
  | database table _ => table.rows.find? fun channel => channel.id = id

def isChannelEnabledForGroupModel (group modelName : String) (channelID : ℤ) : ChannelLookup → Bool
  | memory cache => cache.isChannelEnabledForGroupModel group modelName channelID
  | database _ abilities => isChannelEnabledForGroupModelDB abilities group modelName channelID

/-- The channel is listed for the group and the model, or has an enabled ability for them, under the
name of the model or the normalized one. -/
def Enabled (group modelName : String) (id : ℤ) : ChannelLookup → Prop
  | memory cache => ∃ model ∈ [modelName, formatMatchingModelName modelName],
      id ∈ cache.group2model2channels group model
  | database _ abilities => ∃ model ∈ [modelName, formatMatchingModelName modelName],
      ∃ ability ∈ enabledAbilities abilities group model, ability.channelId = id

end ChannelLookup

namespace ChannelCache

/-- Every channel is under its own id. -/
def Keyed (cache : ChannelCache) : Prop :=
  ∀ id channel, cache.channelsIDM id = some channel → channel.id = id

variable {cache cache' : ChannelCache} {unmarshal : String → Option (List String)}

theorem keyed_setChannel (hkeyed : cache.Keyed) {id : ℤ} {channel : Channel}
    (hid : channel.id = id) :
    (cache.setChannel id channel).Keyed := by
  intro i found hfound
  rw [setChannel] at hfound
  dsimp only at hfound
  split at hfound
  case isTrue hi =>
    obtain rfl := Option.some.inj hfound
    exact hid.trans hi.symm
  case isFalse => exact hkeyed i found hfound

theorem keyed_cacheUpdateChannelStatus (hkeyed : cache.Keyed) (id status : ℤ) :
    (cache.cacheUpdateChannelStatus id status).Keyed := by
  intro i found hfound
  rw [cacheUpdateChannelStatus] at hfound
  dsimp only at hfound
  split at hfound
  case isTrue hi =>
    obtain ⟨channel, hchannel, rfl⟩ := Option.map_eq_some_iff.1 hfound
    exact hkeyed i channel hchannel
  case isFalse => exact hkeyed i found hfound

/-- No function that changes the cache puts a channel under another id. -/
theorem keyed_step {action : CacheAction} (hstep : (channelCache unmarshal).step cache action = some cache')
    (hkeyed : cache.Keyed) : cache'.Keyed := by
  cases action with
  | initChannelCache table abilities =>
      intro id channel hchannel
      rw [(initChannelCache_spec hstep).2 id] at hchannel
      obtain ⟨row, hrow, rfl⟩ := Option.map_eq_some_iff.1 hchannel
      rw [(keepPollingIndex_sameRoute (cache.channelsIDM id) row).1.id]
      exact ((newChannelId2channel_eq table row).1 hrow).2
  | updateChannelStatus channelId usingKey status reason now =>
      obtain rfl := Option.some.inj hstep
      unfold updateChannelStatus
      split
      · exact hkeyed
      case h_2 channel hchannel =>
        split
        · apply keyed_setChannel hkeyed
          rw [(Channel.handlerMultiKeyUpdate_sameRoute ..).id]
          exact hkeyed channelId channel hchannel
        · split
          · exact hkeyed
          · exact keyed_cacheUpdateChannelStatus hkeyed channelId status
  | cacheUpdateChannelStatus id status =>
      obtain rfl := Option.some.inj hstep
      exact keyed_cacheUpdateChannelStatus hkeyed id status

theorem keyed_empty : empty.Keyed := by
  intro id channel hchannel
  cases hchannel

/-- The cache that a run of its functions has built. -/
def keyedCache {as : List CacheAction} (hrun : (channelCache unmarshal).run empty as = some cache) :
    KeyedCache where
  toChannelCache := cache
  keyed := System.kept_run keyed_step keyed_empty hrun

end ChannelCache

namespace ChannelLookup

variable {lookup : ChannelLookup} {group modelName : String} {id : ℤ} {channel : Channel}

theorem cachedChannel_id {cache : KeyedCache} (hchannel : cache.cachedChannel id = .ok channel) :
    channel.id = id := by
  rw [ChannelCache.cachedChannel] at hchannel
  split at hchannel
  case h_1 found hfound =>
    obtain rfl := Except.ok.inj hchannel
    exact cache.keyed id found hfound
  case h_2 => cases hchannel

/-- The ids of the channels of a list are the ids that were looked up. -/
theorem mem_of_mapM_cachedChannel {cache : KeyedCache} {ids : List ℤ} {channels : List Channel}
    (hmapM : ids.mapM cache.cachedChannel = .ok channels) (hmem : channel ∈ channels) :
    channel.id ∈ ids := by
  obtain ⟨id, hid, hfound⟩ := exists_of_mem_mapM hmapM hmem
  rwa [cachedChannel_id hfound]

/-- What is drawn from the cache is listed there. -/
theorem mem_satisfied {cache : KeyedCache} {rand : Rand} {retry : ℕ}
    (hselect : cache.getRandomSatisfiedChannel rand group modelName retry = .ok (some channel)) :
    channel.id ∈ cache.satisfied group modelName := by
  rw [ChannelCache.getRandomSatisfiedChannel] at hselect
  split at hselect
  · cases hselect
  case h_2 first hone =>
    cases hfirst : cache.cachedChannel first with
    | error err =>
        rw [hfirst] at hselect
        cases hselect
    | ok found =>
        rw [hfirst] at hselect
        obtain rfl := Option.some.inj (Except.ok.inj hselect)
        rw [hone, cachedChannel_id hfirst]
        exact List.mem_singleton_self first
  · split at hselect
    · cases hselect
    case h_2 channels hmapM =>
      dsimp only at hselect
      split at hselect
      · cases hselect
      · split at hselect
        case h_1 drawn hdrawn =>
          obtain rfl := Option.some.inj (Except.ok.inj hselect)
          have hmem := List.mem_of_mem_filter (drawChannel_iff.1 ⟨rand, hdrawn⟩).1
          exact mem_of_mapM_cachedChannel hmapM hmem
        · cases hselect

theorem getChannelQuery_subset {abilities rows : List Ability} {retry : ℕ}
    (hquery : getChannelQuery abilities group modelName retry = .ok rows) :
    rows ⊆ enabledAbilities abilities group modelName := by
  rw [getChannelQuery] at hquery
  split at hquery
  · split at hquery
    · cases hquery
    · obtain rfl := Except.ok.inj hquery
      exact fun ability => List.mem_of_mem_filter
  · obtain rfl := Except.ok.inj hquery
    exact fun ability => List.mem_of_mem_filter

/-- What the query returns has an enabled ability. -/
theorem mem_of_getChannel {channels : List Channel} {abilities : List Ability}
    {rand : Rand} {retry : ℕ}
    (hselect : getChannel rand channels abilities group modelName retry = .ok (some channel)) :
    ∃ ability ∈ enabledAbilities abilities group modelName, ability.channelId = channel.id := by
  rw [getChannel] at hselect
  split at hselect
  · cases hselect
  case h_2 found hquery =>
    dsimp only at hselect
    split at hselect
    · cases hselect
    case isFalse hrows =>
      split at hselect
      case h_1 picked hpicked =>
        obtain rfl := Option.some.inj (Except.ok.inj hselect)
        obtain ⟨ability, hmem, hpick⟩ := exists_pickAbility_eq hrows rand
        refine ⟨ability, getChannelQuery_subset hquery ((List.mem_insertionSort _).1 hmem), ?_⟩
        have hid := List.find?_some hpicked
        rw [decide_eq_true_iff] at hid
        rw [hid, hpick]
      · cases hselect

/-- Every selected channel is enabled for the group and the model. -/
theorem source_enabled {rand : String → ℕ → Rand} {retry : ℕ}
    (hsource : (lookup.source rand group modelName retry).1 = some channel) :
    lookup.Enabled group modelName channel.id := by
  rw [source, drawnSource] at hsource
  split at hsource
  case h_2 => cases hsource
  case h_1 found hselect =>
    obtain rfl : found = some channel := hsource
    cases lookup with
    | memory cache =>
        -- under the name of the model, or else under the normalized one
        have hmem := mem_satisfied hselect
        rw [ChannelCache.satisfied] at hmem
        split at hmem
        · exact ⟨_, List.mem_cons_of_mem _ (List.mem_singleton_self _), hmem⟩
        · exact ⟨_, List.mem_cons_self .., hmem⟩
    | database table abilities => exact ⟨_, List.mem_cons_self .., mem_of_getChannel hselect⟩

/-- What the check of the affinity lets through is enabled for the group and the model. -/
theorem enabled_of_isChannelEnabledForGroupModel
    (henabled : lookup.isChannelEnabledForGroupModel group modelName id = true) :
    lookup.Enabled group modelName id := by
  cases lookup with
  | memory cache =>
      unfold isChannelEnabledForGroupModel ChannelCache.isChannelEnabledForGroupModel at henabled
      dsimp only at henabled
      split at henabled
      · cases henabled
      · split at henabled
        case isTrue hlisted => exact ⟨_, List.mem_cons_self .., hlisted⟩
        · split at henabled
          · exact ⟨_, List.mem_cons_of_mem _ (List.mem_singleton_self _), of_decide_eq_true henabled⟩
          · cases henabled
  | database table abilities =>
      unfold isChannelEnabledForGroupModel isChannelEnabledForGroupModelDB at henabled
      dsimp only at henabled
      split at henabled
      · cases henabled
      · split at henabled
        case isTrue hrows =>
          obtain ⟨ability, hability⟩ := List.exists_mem_of_length_pos hrows
          obtain ⟨hmem, hid⟩ := List.mem_filter.1 hability
          exact ⟨_, List.mem_cons_self .., ability, hmem, of_decide_eq_true hid⟩
        · split at henabled
          · cases henabled
          · obtain ⟨ability, hability⟩ := List.exists_mem_of_length_pos (of_decide_eq_true henabled)
            obtain ⟨hmem, hid⟩ := List.mem_filter.1 hability
            exact ⟨_, List.mem_cons_of_mem _ (List.mem_singleton_self _), ability, hmem,
              of_decide_eq_true hid⟩

end ChannelLookup

/-! ## Groups -/

/-- The settings of groups, and those of the retry loop; of the usable groups the names are used. -/
structure RoutingSettings (F : Type) where
  retryTimes : ℕ
  automaticRetryStatusCodeRanges : List StatusCodeRange
  maskSensitiveInfo : String → String
  autoGroups : List String
  userUsableGroups : List String
  groupSpecialUsableGroup : String → Option (List String)
  groupRatio : String → Option F
  groupGroupRatio : String → String → Option F

/-- A special setting removes a group or adds one. -/
def applySpecialGroup (groups : List String) (specialGroup : String) : List String :=
  if hasPrefix specialGroup "-:" then
    groups.filter (· ≠ String.ofList (specialGroup.toList.drop 2))
  else if hasPrefix specialGroup "+:" then groups ++ [String.ofList (specialGroup.toList.drop 2)]
  else groups ++ [specialGroup]

namespace RoutingSettings

variable {F : Type} (cfg : RoutingSettings F)

def getUserUsableGroups (userGroup : String) : List String :=
  if userGroup = "" then cfg.userUsableGroups
  else
    let groups :=
      ((cfg.groupSpecialUsableGroup userGroup).getD []).foldl applySpecialGroup cfg.userUsableGroups
    if userGroup ∈ groups then groups else groups ++ [userGroup]

/-- The settings as the retry loop reads them. -/
def retry : RetrySettings where
  retryTimes := cfg.retryTimes
  autoGroups := cfg.autoGroups
  userUsableGroups := cfg.getUserUsableGroups
  automaticRetryStatusCodeRanges := cfg.automaticRetryStatusCodeRanges
  maskSensitiveInfo := cfg.maskSensitiveInfo

/-- A user may use his own group. -/
theorem mem_getUserUsableGroups {userGroup : String} (huser : userGroup ≠ "") :
    userGroup ∈ cfg.getUserUsableGroups userGroup := by
  rw [getUserUsableGroups, if_neg huser]
  dsimp only
  split
  case isTrue hmem => exact hmem
  case isFalse => exact List.mem_append_right _ (List.mem_singleton_self userGroup)

/-- The auto groups of a user are among the groups that he may use. -/
theorem getUserAutoGroup_subset {userGroup group : String}
    (hgroup : group ∈ getUserAutoGroup cfg.retry userGroup) :
    group ∈ cfg.getUserUsableGroups userGroup := by
  rw [getUserAutoGroup, List.mem_filter] at hgroup
  exact of_decide_eq_true hgroup.2

end RoutingSettings

/-! ## The first channel -/

/-- What routing reads of a request, of its token and of the user. -/
structure ApiRequest where
  userGroup : String
  tokenGroup : String
  crossGroupRetry : Bool
  modelLimitsEnabled : Bool
  modelLimits : String
  modelName : String

structure Abort where
  statusCode : ℤ
  message : String

/-- What `Distribute` leaves for the handlers. -/
structure Distributed where
  channel : Channel
  selectGroup : String
  ctx : RetryContext

namespace ApiRequest

variable {F : Type} (cfg : RoutingSettings F) (req : ApiRequest)

def getModelLimitsMap : List String :=
  if req.modelLimits = "" then [] else split req.modelLimits ','

/-- `TokenAuth`: the group that the request uses. -/
def tokenAuth : Except Abort String :=
  if req.tokenGroup ≠ "" then
    if req.tokenGroup ∉ cfg.getUserUsableGroups req.userGroup then
      .error ⟨403, "无权访问 " ++ req.tokenGroup ++ " 分组"⟩
    else if cfg.groupRatio req.tokenGroup = none ∧ req.tokenGroup ≠ "auto" then
      .error ⟨403, "分组 " ++ req.tokenGroup ++ " 已被弃用"⟩
    else .ok req.tokenGroup
  else .ok req.userGroup

/-- `genBaseRelayInfo`: the group that the retries select from. -/
def relayTokenGroup : String :=
  if req.tokenGroup = "" then req.userGroup else req.tokenGroup

/-- The context before a channel is selected. -/
def context : RetryContext where
  userGroup := req.userGroup
  tokenCrossGroupRetry := req.crossGroupRetry
  specificChannel := false
  channelId := 0
  autoGroup := none
  autoGroupIndex := none
  autoGroupRetryIndex := none

/-- The preferred channel, with the group that it may be used for. -/
def affinityChannel (lookup : ChannelLookup) (usingGroup : String) (preferredChannelID : Option ℤ) :
    Option (Channel × String) :=
  match preferredChannelID.bind fun id => lookup.cacheGetChannel id with
  | none => none
  | some preferred =>
      if preferred.status ≠ ChannelStatusEnabled then none
      else if usingGroup = "auto" then
        ((getUserAutoGroup cfg.retry req.userGroup).find? fun g =>
          lookup.isChannelEnabledForGroupModel g req.modelName preferred.id).map (preferred, ·)
      else if lookup.isChannelEnabledForGroupModel usingGroup req.modelName preferred.id then
        some (preferred, usingGroup)
      else none

/-- `Distribute` of a request without a channel suffix. -/
def distribute (lookup : ChannelLookup) (rand : String → ℕ → Rand) (preferredChannelID : Option ℤ)
    (usingGroup : String) : Except Abort Distributed :=
  if req.modelLimitsEnabled = true ∧
      formatMatchingModelName req.modelName ∉ req.getModelLimitsMap then
    .error ⟨403, "该令牌无权访问模型 " ++ req.modelName⟩
  else if req.modelName = "" then .error ⟨400, "未指定模型名称，模型名称不能为空"⟩
  else
    match req.affinityChannel cfg lookup usingGroup preferredChannelID with
    | some (channel, selectGroup) =>
        .ok
          { channel := channel
            selectGroup := selectGroup
            ctx :=
              { req.context with
                channelId := channel.id
                autoGroup := if usingGroup = "auto" then some selectGroup else none } }
    | none =>
        let selected := cacheGetRandomSatisfiedChannel cfg.retry (lookup.source rand)
          ⟨usingGroup, req.modelName⟩ .start req.context
        match selected.err, selected.channel with
        | some err, _ =>
            let showGroup :=
              if usingGroup = "auto" then "auto(" ++ selected.selectGroup ++ ")" else usingGroup
            .error ⟨503, "获取分组 " ++ showGroup ++ " 下模型 " ++ req.modelName ++
              " 的可用渠道失败（distributor）: " ++ err⟩
        | none, none =>
            .error ⟨503, "分组 " ++ usingGroup ++ " 下模型 " ++ req.modelName ++
              " 无可用渠道（distributor）"⟩
        | none, some channel =>
            .ok
              { channel := channel
                selectGroup := selected.selectGroup
                ctx := { selected.ctx with channelId := channel.id } }

/-- A model that the token may use and no channel prefers leaves the random selection to decide. -/
theorem distribute_random {lookup : ChannelLookup} {rand : String → ℕ → Rand}
    {preferredChannelID : Option ℤ} {usingGroup : String}
    (hlimits : req.modelLimitsEnabled = true →
      formatMatchingModelName req.modelName ∈ req.getModelLimitsMap)
    (hname : req.modelName ≠ "")
    (haffinity : req.affinityChannel cfg lookup usingGroup preferredChannelID = none) :
    (req.distribute cfg lookup rand preferredChannelID usingGroup).toOption.map Distributed.ctx =
      NewApi.Model.distribute cfg.retry (lookup.source rand) ⟨usingGroup, req.modelName⟩
        req.context := by
  rw [distribute, if_neg fun hlimit => hlimit.2 (hlimits hlimit.1), if_neg hname, haffinity,
    NewApi.Model.distribute]
  dsimp only
  cases (cacheGetRandomSatisfiedChannel cfg.retry (lookup.source rand)
      ⟨usingGroup, req.modelName⟩ .start req.context).err with
  | some err => rfl
  | none =>
      cases (cacheGetRandomSatisfiedChannel cfg.retry (lookup.source rand)
          ⟨usingGroup, req.modelName⟩ .start req.context).channel with
      | none => rfl
      | some channel => rfl

/-- The request as the selections of the retries see it. -/
def retryRequest : RetryRequest where
  tokenGroup := req.relayTokenGroup
  modelName := req.modelName

/-- Middleware and retries select from the same group. -/
theorem tokenAuth_eq {usingGroup : String} (hauth : req.tokenAuth cfg = .ok usingGroup) :
    usingGroup = req.relayTokenGroup := by
  rw [tokenAuth] at hauth
  rw [relayTokenGroup]
  split at hauth
  case isTrue hgroup =>
    rw [if_neg hgroup]
    split at hauth
    · cases hauth
    · split at hauth
      · cases hauth
      · exact (Except.ok.inj hauth).symm
  case isFalse hgroup =>
    rw [if_pos (not_not.1 hgroup)]
    exact (Except.ok.inj hauth).symm

end ApiRequest

/-! ## Where a selected channel comes from -/

section Selection

variable {cfg : RetrySettings} {source : ChannelSource} {request : RetryRequest}
  {param : RetryParam}
  {ctx : RetryContext} {channel : Channel}

/-- The group of a selection is one that the request may be served by, and the channel was
drawn from it. -/
structure SelectedFrom (cfg : RetrySettings) (source : ChannelSource) (request : RetryRequest)
    (ctx : RetryContext) (selected : Selected) (channel : Channel) : Prop where
  drawn : ∃ retry, (source selected.selectGroup request.modelName retry).1 = some channel
  group : if request.tokenGroup = "auto" then
      selected.selectGroup ∈ getUserAutoGroup cfg ctx.userGroup ∧
        selected.ctx.autoGroup = some selected.selectGroup
    else selected.selectGroup = request.tokenGroup ∧ selected.ctx.autoGroup = ctx.autoGroup

/-- The loop over the auto groups ends in the group that it has drawn from. -/
theorem selectAutoGroup_from {startGroupIndex i : ℕ} {groups : List String}
    (hfound : (selectAutoGroup cfg source request startGroupIndex i groups param ctx).channel =
      some channel) :
    let selected := selectAutoGroup cfg source request startGroupIndex i groups param ctx
    selected.selectGroup ∈ groups ∧ selected.ctx.autoGroup = some selected.selectGroup ∧
      ∃ retry, (source selected.selectGroup request.modelName retry).1 = some channel := by
  induction groups generalizing i param ctx with
  | nil => cases hfound
  | cons autoGroup rest ih =>
      -- a group without a channel for the retry is passed over
      cases hsource : (source autoGroup request.modelName
          (priorityRetry startGroupIndex i param).toNat).1 with
      | none =>
          rw [selectAutoGroup_none hsource] at hfound ⊢
          obtain ⟨hmem, hcontext, hdrawn⟩ := ih hfound
          exact ⟨List.mem_cons_of_mem autoGroup hmem, hcontext, hdrawn⟩
      | some drawn =>
          rw [selectAutoGroup_some hsource] at hfound ⊢
          by_cases hlast : ctx.tokenCrossGroupRetry = true ∧
              (cfg.retryTimes : ℤ) ≤ priorityRetry startGroupIndex i param
          · rw [if_pos hlast] at hfound ⊢
            obtain rfl := Option.some.inj hfound
            exact ⟨List.mem_cons_self .., rfl, _, hsource⟩
          · rw [if_neg hlast] at hfound ⊢
            obtain rfl := Option.some.inj hfound
            exact ⟨List.mem_cons_self .., rfl, _, hsource⟩

theorem cacheGetRandomSatisfiedChannel_from
    (hfound : (cacheGetRandomSatisfiedChannel cfg source request param ctx).channel =
      some channel) :
    SelectedFrom cfg source request ctx (cacheGetRandomSatisfiedChannel cfg source request param ctx)
      channel := by
  rw [cacheGetRandomSatisfiedChannel] at hfound ⊢
  by_cases hauto : request.tokenGroup = "auto"
  · rw [if_pos hauto] at hfound ⊢
    split at hfound
    case isTrue => cases hfound
    case isFalse hsome =>
      rw [if_neg hsome]
      obtain ⟨hmem, hcontext, hdrawn⟩ := selectAutoGroup_from hfound
      refine ⟨hdrawn, ?_⟩
      rw [if_pos hauto]
      exact ⟨List.mem_of_mem_drop hmem, hcontext⟩
  · rw [if_neg hauto] at hfound ⊢
    split at hfound
    case h_1 => cases hfound
    case h_2 drawn hsource =>
      obtain rfl : drawn = some channel := hfound
      refine ⟨⟨_, congrArg Prod.fst hsource⟩, ?_⟩
      rw [if_neg hauto]
      exact ⟨rfl, rfl⟩

theorem selected_userGroup
    (hfound : (cacheGetRandomSatisfiedChannel cfg source request param ctx).channel =
      some channel) :
    (cacheGetRandomSatisfiedChannel cfg source request param ctx).ctx.userGroup =
      ctx.userGroup := by
  have hmoves := cacheGetRandomSatisfiedChannel_found hfound
  by_cases hauto : request.tokenGroup = "auto"
  · rw [if_pos hauto] at hmoves
    obtain ⟨j, -, -, hmoves⟩ := hmoves
    exact hmoves.userGroup
  · rw [if_neg hauto] at hmoves
    rw [hmoves.2]

end Selection

namespace ApiRequest

variable {F : Type} {cfg : RoutingSettings F} {req : ApiRequest} {lookup : ChannelLookup}
  {rand : String → ℕ → Rand} {preferredChannelID : Option ℤ} {usingGroup : String} {d : Distributed}

/-- A request may be served by the group: its own one, or an auto group of the user. -/
def ServedBy (cfg : RoutingSettings F) (req : ApiRequest) (group : String) : Prop :=
  if req.relayTokenGroup = "auto" then group ∈ getUserAutoGroup cfg.retry req.userGroup
  else group = req.relayTokenGroup

/-- The group that the context names for the prices. -/
def Names (req : ApiRequest) (ctx : RetryContext) (group : String) : Prop :=
  if req.relayTokenGroup = "auto" then ctx.autoGroup = some group
  else ctx.autoGroup = none

/-- What `Distribute` ensures of the first channel. -/
structure DistributedFrom (cfg : RoutingSettings F) (lookup : ChannelLookup) (req : ApiRequest)
    (d : Distributed) : Prop where
  limits : req.modelLimitsEnabled = true →
    formatMatchingModelName req.modelName ∈ req.getModelLimitsMap
  enabled : lookup.Enabled d.selectGroup req.modelName d.channel.id
  served : req.ServedBy cfg d.selectGroup
  names : req.Names d.ctx d.selectGroup
  channelId : d.ctx.channelId = d.channel.id
  userGroup : d.ctx.userGroup = req.userGroup

theorem affinityChannel_from {channel : Channel} {selectGroup : String}
    (haffinity : req.affinityChannel cfg lookup usingGroup preferredChannelID =
      some (channel, selectGroup)) :
    lookup.Enabled selectGroup req.modelName channel.id ∧
      if usingGroup = "auto" then selectGroup ∈ getUserAutoGroup cfg.retry req.userGroup
      else selectGroup = usingGroup := by
  rw [affinityChannel] at haffinity
  split at haffinity
  case h_1 => cases haffinity
  case h_2 preferred hpreferred =>
    split at haffinity
    · cases haffinity
    · by_cases hauto : usingGroup = "auto"
      · rw [if_pos hauto] at haffinity ⊢
        obtain ⟨group, hgroup, heq⟩ := Option.map_eq_some_iff.1 haffinity
        cases heq
        have henabled := List.find?_some hgroup
        exact ⟨ChannelLookup.enabled_of_isChannelEnabledForGroupModel henabled,
          List.mem_of_find?_eq_some hgroup⟩
      · rw [if_neg hauto] at haffinity ⊢
        split at haffinity
        case isTrue henabled =>
          cases haffinity
          exact ⟨ChannelLookup.enabled_of_isChannelEnabledForGroupModel henabled, rfl⟩
        case isFalse => cases haffinity

theorem distribute_from (hgroup : usingGroup = req.relayTokenGroup)
    (hdistribute : req.distribute cfg lookup rand preferredChannelID usingGroup = .ok d) :
    DistributedFrom cfg lookup req d := by
  subst hgroup
  rw [distribute] at hdistribute
  split at hdistribute
  case isTrue => cases hdistribute
  case isFalse hlimits =>
    have hlimits : req.modelLimitsEnabled = true →
        formatMatchingModelName req.modelName ∈ req.getModelLimitsMap :=
      fun henabled => not_not.1 fun hmissing => hlimits ⟨henabled, hmissing⟩
    split at hdistribute
    · cases hdistribute
    · split at hdistribute
      -- the affinity names the group itself, a selection leaves it in the context
      case h_1 channel selectGroup haffinity =>
        obtain ⟨henabled, hserved⟩ := affinityChannel_from haffinity
        obtain rfl := Except.ok.inj hdistribute
        refine ⟨hlimits, henabled, hserved, ?_, rfl, rfl⟩
        rw [Names]
        by_cases hauto : req.relayTokenGroup = "auto"
        · rw [if_pos hauto, if_pos hauto]
        · rw [if_neg hauto, if_neg hauto]
      case h_2 =>
        dsimp only at hdistribute
        split at hdistribute
        · cases hdistribute
        · cases hdistribute
        case h_3 channel _ hselected =>
          have hfrom := cacheGetRandomSatisfiedChannel_from hselected
          obtain ⟨retry, hdrawn⟩ := hfrom.drawn
          have huser := selected_userGroup hselected
          obtain rfl := Except.ok.inj hdistribute
          refine ⟨hlimits, ChannelLookup.source_enabled hdrawn, ?_, ?_, rfl, huser⟩
          · rw [ServedBy]
            have hserved := hfrom.group
            by_cases hauto : req.relayTokenGroup = "auto"
            · rw [if_pos hauto] at hserved ⊢
              exact hserved.1
            · rw [if_neg hauto] at hserved ⊢
              exact hserved.1
          · rw [Names]
            have hserved := hfrom.group
            by_cases hauto : req.relayTokenGroup = "auto"
            · rw [if_pos hauto] at hserved ⊢
              exact hserved.2
            · rw [if_neg hauto] at hserved ⊢
              exact hserved.2

/-- What holds of the context between the selections of a request. -/
structure Carries (req : ApiRequest) (ctx : RetryContext) : Prop where
  userGroup : ctx.userGroup = req.userGroup
  fixed : req.relayTokenGroup ≠ "auto" → ctx.autoGroup = none

theorem DistributedFrom.carries (hfrom : DistributedFrom cfg lookup req d) : req.Carries d.ctx := by
  refine ⟨hfrom.userGroup, fun hauto => ?_⟩
  have hnames := hfrom.names
  rw [Names, if_neg hauto] at hnames
  exact hnames

variable {turn : RetryTurn} {s s' : RetryState} {channelId : ℤ}

/-- The group of the selection that a retry makes. -/
def selectGroup (cfg : RoutingSettings F) (req : ApiRequest) (turn : RetryTurn) (s : RetryState) :
    String :=
  (cacheGetRandomSatisfiedChannel cfg.retry turn.source req.retryRequest s.param s.ctx).selectGroup

theorem getChannel_channelId
    (hchannel : s.getChannel cfg.retry req.retryRequest turn = (.ok channelId, s')) :
    s'.ctx.channelId = channelId := by
  rw [RetryState.getChannel] at hchannel
  split at hchannel
  · cases hchannel
    rfl
  · dsimp only at hchannel
    split at hchannel
    · cases hchannel
    · cases hchannel
    · split at hchannel
      · cases hchannel
      · cases hchannel
        rfl

/-- A retry selects like the middleware, from the groups of the request. -/
theorem getChannel_from (hmeta : s.channelMeta = true) (hcarries : req.Carries s.ctx)
    (hsource : turn.source = lookup.source rand)
    (hchannel : s.getChannel cfg.retry req.retryRequest turn = (.ok channelId, s')) :
    lookup.Enabled (req.selectGroup cfg turn s) req.modelName channelId ∧
      req.ServedBy cfg (req.selectGroup cfg turn s) ∧
      req.Names s'.ctx (req.selectGroup cfg turn s) ∧
        req.Carries s'.ctx := by
  rcases RetryState.getChannel_ok hchannel with ⟨hfirst, -⟩ | ⟨-, channel, hselected, rfl⟩
  · cases hfirst.symm.trans hmeta
  · have hid := getChannel_channelId hchannel
    obtain rfl : channel.id = channelId := hid
    have hfrom := cacheGetRandomSatisfiedChannel_from hselected
    obtain ⟨retry, hdrawn⟩ := hfrom.drawn
    rw [hsource] at hdrawn
    have huser := (selected_userGroup hselected).trans hcarries.userGroup
    have hgroup := hfrom.group
    rw [hcarries.userGroup] at hgroup
    have henabled := ChannelLookup.source_enabled hdrawn
    rw [← hsource] at henabled
    by_cases hauto : req.relayTokenGroup = "auto"
    · rw [retryRequest, if_pos hauto] at hgroup
      rw [ServedBy, Names, if_pos hauto, if_pos hauto]
      exact ⟨henabled, hgroup.1, hgroup.2, huser, fun hfixed => absurd hauto hfixed⟩
    · rw [retryRequest, if_neg hauto] at hgroup
      rw [ServedBy, Names, if_neg hauto, if_neg hauto]
      have hnone := hgroup.2.trans (hcarries.fixed hauto)
      exact ⟨henabled, hgroup.1, hnone, huser, fun _ => hnone⟩

end ApiRequest

end NewApi.Model
