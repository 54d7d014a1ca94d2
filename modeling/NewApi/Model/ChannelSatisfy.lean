import Mathlib.Tactic.Ring
import NewApi.Lib.Choice
import NewApi.Model.AbilityMirror
import NewApi.Model.ChannelCache
import NewApi.Model.ModelNames

/-!
# Channel selection with and without the memory cache

`GetRandomSatisfiedChannel` draws a channel from the lists of the memory cache,
`GetChannel` draws one from the abilities table.  Both take the channels of one priority
level, which the retry count selects, and both weigh them, each in its own way.
-/

namespace NewApi.Model

open NewApi.Lib NewApi.Lib.Choice NewApi.Lib.Strings

/-! ## The memory cache -/

/-- How the weights of the target channels are smoothed. -/
structure Smoothing where
  sumWeight : ℕ
  smoothingFactor : ℕ
  smoothingAdjustment : ℕ

/-- Weights that are all zero count as 100 each, weights of a small average as a hundredfold. -/
def smoothing (sumWeight count : ℕ) : Smoothing :=
  if sumWeight = 0 then ⟨count * 100, 1, 100⟩
  else if sumWeight / count < 10 then ⟨sumWeight, 100, 0⟩
  else ⟨sumWeight, 1, 0⟩

/-- Draw one of the target channels. -/
def drawChannel (rand : Rand) (targetChannels : List Channel) : Option Channel :=
  let s := smoothing (weight Channel.getWeight targetChannels) targetChannels.length
  draw (fun channel => channel.getWeight * s.smoothingFactor + s.smoothingAdjustment)
    (rand.intn (s.sumWeight * s.smoothingFactor)) targetChannels

namespace ChannelCache

/-- The list of the exact model name, or else of the normalized one. -/
def satisfied (cache : ChannelCache) (group model : String) : List ℤ :=
  let channels := cache.group2model2channels group model
  if channels = [] then cache.group2model2channels group (formatMatchingModelName model)
  else channels

def cachedChannel (cache : ChannelCache) (id : ℤ) : Except String Channel :=
  match cache.channelsIDM id with
  | some channel => .ok channel
  | none => .error ("数据库一致性错误，渠道# " ++ toString id ++ " 不存在，请联系管理员修复")

def getRandomSatisfiedChannel (rand : Rand) (cache : ChannelCache) (group model : String)
    (retry : ℕ) : Except String (Option Channel) :=
  match cache.satisfied group model with
  | [] => .ok none
  | [id] => (cache.cachedChannel id).map some
  | ids =>
      match ids.mapM cache.cachedChannel with
      | .error err => .error err
      | .ok channels =>
          let targetPriority := level Channel.getPriority channels retry
          let targetChannels :=
            channels.filter fun channel => channel.getPriority = targetPriority
          if targetChannels = [] then
            .error ("no channel found, group: " ++ group ++ ", model: " ++ model ++
              ", priority: " ++ toString targetPriority)
          else
            match drawChannel rand targetChannels with
            | some channel => .ok (some channel)
            | none => .error "channel not found"

def isChannelEnabledForGroupModel (cache : ChannelCache) (group modelName : String)
    (channelID : ℤ) : Bool :=
  if group = "" ∨ modelName = "" ∨ channelID ≤ 0 then false
  else if channelID ∈ cache.group2model2channels group modelName then true
  else
    let normalized := formatMatchingModelName modelName
    if normalized ≠ "" ∧ normalized ≠ modelName then
      decide (channelID ∈ cache.group2model2channels group normalized)
    else false

end ChannelCache

/-! ## The abilities table -/

/-- The rows of a group and a model that are enabled. -/
def enabledAbilities (abilities : List Ability) (group model : String) : List Ability :=
  abilities.filter fun ability => ability.group = group && ability.model = model && ability.enabled

/-- `getPriority`: the priority level of the retry, the last one after that. -/
def abilityPriority (abilities : List Ability) (group model : String) (retry : ℕ) :
    Except String ℤ :=
  let rows := enabledAbilities abilities group model
  if rows = [] then .error "数据库一致性被破坏" else .ok (level Ability.priority rows retry)

/-- `getChannelQuery`: the rows of the highest priority, or of that of the retry. -/
def getChannelQuery (abilities : List Ability) (group model : String) (retry : ℕ) :
    Except String (List Ability) :=
  let rows := enabledAbilities abilities group model
  if retry ≠ 0 then
    match abilityPriority abilities group model retry with
    | .error err => .error err
    | .ok priority => .ok (rows.filter fun ability => ability.priority = priority)
  else
    .ok (rows.filter fun ability => some ability.priority = (rows.map Ability.priority).max?)

/-- The loop of `GetChannel` over the weights; zero is the id of no channel. -/
def pickAbility : ℤ → List Ability → ℤ
  | _, [] => 0
  | weight, ability :: abilities =>
      let weight := weight - (ability.weight + 10)
      if weight ≤ 0 then ability.channelId else pickAbility weight abilities

def getChannel (rand : Rand) (channels : List Channel) (abilities : List Ability)
    (group model : String) (retry : ℕ) : Except String (Option Channel) :=
  match getChannelQuery abilities group model retry with
  | .error err => .error err
  | .ok found =>
      let rows := found.insertionSort fun a b => b.weight ≤ a.weight
      if rows = [] then .ok none
      else
        let weightSum := weight (fun ability => ability.weight + 10) rows
        let id := pickAbility (rand.intn weightSum) rows
        match channels.find? fun channel => channel.id = id with
        | some channel => .ok (some channel)
        | none => .error "record not found"

def isChannelEnabledForGroupModelDB (abilities : List Ability) (group modelName : String)
    (channelID : ℤ) : Bool :=
  if group = "" ∨ modelName = "" ∨ channelID ≤ 0 then false
  else if
      0 < ((enabledAbilities abilities group modelName).filter fun ability =>
        ability.channelId = channelID).length then
    true
  else
    let normalized := formatMatchingModelName modelName
    if normalized = "" ∨ normalized = modelName then false
    else
      decide (0 < ((enabledAbilities abilities group normalized).filter fun ability =>
        ability.channelId = channelID).length)

/-! ## The channels that can be returned -/

/-- Some random numbers make the selection return the channel with this id. -/
def Returnable (select : Rand → Except String (Option Channel)) (id : ℤ) : Prop :=
  ∃ rand channel, select rand = .ok (some channel) ∧ channel.id = id

/-- Some random numbers make the selection return no channel. -/
def ReturnsNone (select : Rand → Except String (Option Channel)) : Prop :=
  ∃ rand, ∀ channel, select rand ≠ .ok (some channel)

/-- The enabled channels of the table that serve a model for a group. -/
def ChannelTable.serving (table : ChannelTable) (group model : String) : List Channel :=
  table.rows.filter fun channel =>
    channel.status = ChannelStatusEnabled && group ∈ channel.groups_ && model ∈ channel.models_

/-- The channels of a pool on the priority level of a retry. -/
def onLevel (channels : List Channel) (retry : ℕ) : List Channel :=
  channels.filter fun channel => channel.getPriority = level Channel.getPriority channels retry

theorem mem_onLevel {channels : List Channel} {retry : ℕ} {channel : Channel} :
    channel ∈ onLevel channels retry ↔
      channel ∈ channels ∧ channel.getPriority = level Channel.getPriority channels retry := by
  rw [onLevel, List.mem_filter, decide_eq_true_eq]

theorem onLevel_ne_nil {channels : List Channel} (hchannels : channels ≠ []) (retry : ℕ) :
    onLevel channels retry ≠ [] := by
  obtain ⟨channel, hmem, hpriority⟩ := exists_level (f := Channel.getPriority) hchannels retry
  exact List.ne_nil_of_mem (mem_onLevel.2 ⟨hmem, hpriority⟩)

/-- The channel has a weight, or no channel of the pool has one. -/
def Weighs (channels : List Channel) (channel : Channel) : Prop :=
  0 < channel.getWeight ∨ ∀ other ∈ channels, other.getWeight = 0

instance (channels : List Channel) (channel : Channel) : Decidable (Weighs channels channel) :=
  inferInstanceAs (Decidable (_ ∨ _))

section Draw

variable {channels : List Channel} {channel : Channel}

theorem weight_smoothed (factor adjustment : ℕ) :
    weight (fun channel : Channel => channel.getWeight * factor + adjustment) channels =
      weight Channel.getWeight channels * factor + channels.length * adjustment := by
  induction channels with
  | nil => simp [weight]
  | cons channel channels ih =>
      rw [weight_cons, weight_cons, ih, List.length_cons]
      ring

/-- The range of the random number is the sum of the smoothed weights, and exactly the
channels that weigh have a smoothed weight. -/
theorem smoothing_spec (channels : List Channel) :
    let s := smoothing (weight Channel.getWeight channels) channels.length
    weight (fun channel : Channel =>
        channel.getWeight * s.smoothingFactor + s.smoothingAdjustment) channels =
      s.sumWeight * s.smoothingFactor ∧
    ∀ channel ∈ channels,
      0 < channel.getWeight * s.smoothingFactor + s.smoothingAdjustment ↔
        Weighs channels channel := by
  dsimp only
  rw [weight_smoothed, smoothing]
  by_cases hzero : weight Channel.getWeight channels = 0
  · rw [if_pos hzero, hzero]
    refine ⟨by simp, fun channel hchannel => ?_⟩
    have hpositive : 0 < channel.getWeight * 1 + 100 := by omega
    exact iff_of_true hpositive (.inr (weight_eq_zero.1 hzero))
  · have hsome : ¬∀ other ∈ channels, other.getWeight = 0 := fun hall =>
      hzero (weight_eq_zero.2 hall)
    rw [if_neg hzero]
    split <;> refine ⟨by simp, fun channel hchannel => ?_⟩ <;> simp [Weighs, hsome]

/-- The channels that can be drawn are those that weigh. -/
theorem drawChannel_iff :
    (∃ rand, drawChannel rand channels = some channel) ↔
      channel ∈ channels ∧ Weighs channels channel := by
  obtain ⟨hsum, hweighs⟩ := smoothing_spec channels
  constructor
  · rintro ⟨rand, hdraw⟩
    obtain ⟨hmem, hpositive⟩ := draw_some (Int.natCast_nonneg _) hdraw
    exact ⟨hmem, (hweighs channel hmem).1 hpositive⟩
  · rintro ⟨hmem, hweigh⟩
    have hpositive := (hweighs channel hmem).2 hweigh
    obtain ⟨first, hfirst, hlast, hdraw⟩ := draw_of_mem
      (w := fun channel : Channel => channel.getWeight *
        (smoothing (weight Channel.getWeight channels) channels.length).smoothingFactor +
        (smoothing (weight Channel.getWeight channels) channels.length).smoothingAdjustment) hmem
    rw [hsum] at hlast
    refine ⟨constRand first.toNat, ?_⟩
    rw [drawChannel, constRand_intn (by omega)]
    exact hdraw _ (by omega) (by omega)

theorem drawChannel_total (hchannels : channels ≠ []) (rand : Rand) :
    ∃ channel, drawChannel rand channels = some channel := by
  obtain ⟨hsum, hweighs⟩ := smoothing_spec channels
  have hpositive : 0 < (smoothing (weight Channel.getWeight channels) channels.length).sumWeight *
      (smoothing (weight Channel.getWeight channels) channels.length).smoothingFactor := by
    rw [smoothing]
    have hlength := List.length_pos_iff.2 hchannels
    split_ifs with hzero hsmall
    · show 0 < channels.length * 100 * 1
      omega
    · show 0 < weight Channel.getWeight channels * 100
      omega
    · show 0 < weight Channel.getWeight channels * 1
      omega
  refine exists_draw hchannels ?_
  rw [hsum]
  exact Int.ofNat_lt.2 (rand.intn_lt hpositive)

end Draw

section Cache

variable {cache : ChannelCache}

/-- Every id of the list is cached. -/
theorem mapM_cachedChannel {ids : List ℤ}
    (hcached : ∀ id ∈ ids, ∃ channel, cache.channelsIDM id = some channel) :
    ids.mapM cache.cachedChannel = .ok (ids.filterMap cache.channelsIDM) := by
  induction ids with
  | nil => rfl
  | cons id ids ih =>
      obtain ⟨channel, hchannel⟩ := hcached id (List.mem_cons_self ..)
      have hid : cache.cachedChannel id = .ok channel := by
        rw [ChannelCache.cachedChannel, hchannel]
      rw [List.mapM_cons, hid,
        ih fun other hother => hcached other (List.mem_cons_of_mem id hother),
        List.filterMap_cons_some hchannel]
      rfl

theorem drawChannel_singleton (channel : Channel) (rand : Rand) :
    drawChannel rand [channel] = some channel := by
  obtain ⟨drawn, hdraw⟩ := drawChannel_total (List.cons_ne_nil channel []) rand
  obtain rfl := List.mem_singleton.1 (drawChannel_iff.1 ⟨rand, hdraw⟩).1
  exact hdraw

theorem onLevel_singleton (channel : Channel) (retry : ℕ) :
    onLevel [channel] retry = [channel] := by
  obtain ⟨other, hmem, hpriority⟩ :=
    exists_level (f := Channel.getPriority) (List.cons_ne_nil channel []) retry
  obtain rfl := List.mem_singleton.1 hmem
  exact List.filter_cons_of_pos (decide_eq_true hpriority)

/-- If the ids of the list are cached, the selection draws from the priority level of the
retry. -/
theorem getRandomSatisfiedChannel_eq {group model : String} {retry : ℕ} {rand : Rand}
    (hcached : ∀ id ∈ cache.satisfied group model, ∃ channel,
      cache.channelsIDM id = some channel) :
    cache.getRandomSatisfiedChannel rand group model retry =
      .ok (drawChannel rand
        (onLevel ((cache.satisfied group model).filterMap cache.channelsIDM) retry)) := by
  have hmapM := mapM_cachedChannel hcached
  rw [ChannelCache.getRandomSatisfiedChannel]
  split
  case h_1 hnone =>
    rw [hnone]
    rfl
  case h_2 id hone =>
    rw [hone] at hcached ⊢
    obtain ⟨channel, hchannel⟩ := hcached id (List.mem_singleton_self id)
    rw [List.filterMap_cons_some hchannel, List.filterMap_nil, onLevel_singleton,
      drawChannel_singleton, ChannelCache.cachedChannel, hchannel]
    rfl
  case h_3 hfirst hsecond =>
    rw [hmapM]
    have hids : (cache.satisfied group model).filterMap cache.channelsIDM ≠ [] := by
      intro hnone
      obtain ⟨id, hid⟩ := List.exists_mem_of_ne_nil _ hfirst
      obtain ⟨channel, hchannel⟩ := hcached id hid
      have hmem := List.mem_filterMap.2 ⟨id, hid, hchannel⟩
      rw [hnone] at hmem
      cases hmem
    have hlevel := onLevel_ne_nil hids retry
    obtain ⟨channel, hdraw⟩ := drawChannel_total hlevel rand
    rw [hdraw]
    dsimp only
    rw [onLevel] at hlevel hdraw
    rw [if_neg hlevel, hdraw]

end Cache

/-- What the selection looks at in a channel. -/
def poolKey (channel : Channel) : ℤ × ℤ × ℕ :=
  (channel.id, channel.getPriority, channel.getWeight)

/-- Two pools that look the same to the selection. -/
def SamePool (channels others : List Channel) : Prop :=
  ∀ key, (∃ channel ∈ channels, poolKey channel = key) ↔ ∃ other ∈ others, poolKey other = key

/-- The id is that of a channel that can be drawn from the level of the retry. -/
def Draws (channels : List Channel) (retry : ℕ) (id : ℤ) : Prop :=
  ∃ channel ∈ onLevel channels retry, channel.id = id ∧ Weighs (onLevel channels retry) channel

namespace SamePool

variable {channels others : List Channel}

theorem symm (hsame : SamePool channels others) : SamePool others channels :=
  fun key => (hsame key).symm

theorem eq_nil (hsame : SamePool channels others) (hnone : others = []) : channels = [] := by
  refine List.eq_nil_iff_forall_not_mem.2 fun channel hchannel => ?_
  obtain ⟨other, hother, -⟩ := (hsame _).1 ⟨channel, hchannel, rfl⟩
  rw [hnone] at hother
  cases hother

theorem eq_nil_iff (hsame : SamePool channels others) : channels = [] ↔ others = [] :=
  ⟨hsame.symm.eq_nil, hsame.eq_nil⟩

theorem level_eq (hsame : SamePool channels others) (retry : ℕ) :
    level Channel.getPriority channels retry = level Channel.getPriority others retry := by
  have hlevels : levels Channel.getPriority channels = levels Channel.getPriority others := by
    refine levels_congr fun p => ?_
    constructor
    · rintro ⟨channel, hmem, rfl⟩
      obtain ⟨other, hother, hkey⟩ := (hsame _).1 ⟨channel, hmem, rfl⟩
      exact ⟨other, hother, congrArg (fun key => key.2.1) hkey⟩
    · rintro ⟨other, hmem, rfl⟩
      obtain ⟨channel, hchannel, hkey⟩ := (hsame _).2 ⟨other, hmem, rfl⟩
      exact ⟨channel, hchannel, congrArg (fun key => key.2.1) hkey⟩
  rw [level, level, hlevels]

theorem mem_onLevel (hsame : SamePool channels others) {retry : ℕ} {channel : Channel}
    (hmem : channel ∈ onLevel channels retry) :
    ∃ other ∈ onLevel others retry, poolKey other = poolKey channel := by
  obtain ⟨hchannel, hpriority⟩ := Model.mem_onLevel.1 hmem
  obtain ⟨other, hother, hkey⟩ := (hsame _).1 ⟨channel, hchannel, rfl⟩
  refine ⟨other, Model.mem_onLevel.2 ⟨hother, ?_⟩, hkey⟩
  rw [← hsame.level_eq, ← hpriority]
  exact congrArg (fun key => key.2.1) hkey

theorem draws (hsame : SamePool channels others) {retry : ℕ} {id : ℤ}
    (hdraws : Draws channels retry id) : Draws others retry id := by
  obtain ⟨channel, hmem, rfl, hweighs⟩ := hdraws
  obtain ⟨other, hother, hkey⟩ := hsame.mem_onLevel hmem
  have hweight : other.getWeight = channel.getWeight := congrArg (fun key => key.2.2) hkey
  refine ⟨other, hother, congrArg Prod.fst hkey, ?_⟩
  rw [Weighs, hweight]
  refine hweighs.imp_right fun hall peer hpeer => ?_
  obtain ⟨twin, htwin, hsameKey⟩ := hsame.symm.mem_onLevel hpeer
  have hpeerWeight : twin.getWeight = peer.getWeight := congrArg (fun key => key.2.2) hsameKey
  rw [← hpeerWeight]
  exact hall twin htwin

theorem draws_iff (hsame : SamePool channels others) {retry : ℕ} {id : ℤ} :
    Draws channels retry id ↔ Draws others retry id :=
  ⟨hsame.draws, hsame.symm.draws⟩

end SamePool

section Fresh

variable {old cache : ChannelCache} {table : ChannelTable} {abilities : List Ability}
  {group model : String} {id : ℤ}

theorem mem_serving {channel : Channel} : channel ∈ table.serving group model ↔
    channel ∈ table.rows ∧ channel.status = ChannelStatusEnabled ∧
      group ∈ channel.groups_ ∧ model ∈ channel.models_ := by
  rw [ChannelTable.serving, List.mem_filter]
  simp only [Bool.and_eq_true, decide_eq_true_eq, and_assoc]

/-- A list of a fresh cache has the ids of the channels that serve the model for the group. -/
theorem mem_fresh_list (hinit : old.initChannelCache table abilities = some cache) :
    id ∈ cache.group2model2channels group model ↔
      ∃ channel ∈ table.serving group model, channel.id = id := by
  rw [((ChannelCache.initChannelCache_spec hinit).1 group model).mem_iff,
    ChannelCache.mem_newGroup2model2channels]
  constructor
  · rintro ⟨channel, hmem, henabled, rfl, hgroup, hmodel⟩
    exact ⟨channel, mem_serving.2 ⟨hmem, henabled, hgroup, hmodel⟩, rfl⟩
  · rintro ⟨channel, hmem, rfl⟩
    obtain ⟨hrow, henabled, hgroup, hmodel⟩ := mem_serving.1 hmem
    exact ⟨channel, hrow, henabled, rfl, hgroup, hmodel⟩

/-- A row of the table is cached under its id, up to the polling index. -/
theorem fresh_channel (hinit : old.initChannelCache table abilities = some cache)
    {channel : Channel} (hrow : channel ∈ table.rows) :
    ∃ cached, cache.channelsIDM channel.id = some cached ∧ poolKey cached = poolKey channel := by
  have hfound := (ChannelCache.newChannelId2channel_eq table channel).2 ⟨hrow, rfl⟩
  refine ⟨_, by rw [(ChannelCache.initChannelCache_spec hinit).2, hfound, Option.map_some], ?_⟩
  obtain ⟨hroute, -⟩ := ChannelCache.keepPollingIndex_sameRoute (old.channelsIDM channel.id) channel
  rw [poolKey, poolKey, Channel.getPriority, Channel.getPriority, Channel.getWeight,
    Channel.getWeight, hroute.id, hroute.priority, hroute.weight]

/-- The model name under which the cache finds channels. -/
def ChannelTable.satisfiedModel (table : ChannelTable) (group model : String) : String :=
  if table.serving group model = [] then formatMatchingModelName model else model

theorem fresh_list_eq_nil (hinit : old.initChannelCache table abilities = some cache) :
    cache.group2model2channels group model = [] ↔ table.serving group model = [] := by
  rw [List.eq_nil_iff_forall_not_mem, List.eq_nil_iff_forall_not_mem]
  simp only [mem_fresh_list hinit, not_exists, not_and]
  constructor
  · exact fun hnone channel hmem => hnone channel.id channel hmem rfl
  · exact fun hnone id channel hmem _ => hnone channel hmem

theorem fresh_satisfied (hinit : old.initChannelCache table abilities = some cache) :
    cache.satisfied group model =
      cache.group2model2channels group (table.satisfiedModel group model) := by
  rw [ChannelCache.satisfied, ChannelTable.satisfiedModel]
  simp only [fresh_list_eq_nil hinit]
  split <;> rfl

/-- The pool of a fresh cache is that of the serving channels, and the selection draws from
its level. -/
theorem fresh_selection (group model : String)
    (hinit : old.initChannelCache table abilities = some cache) :
    ∃ pool, SamePool pool (table.serving group (table.satisfiedModel group model)) ∧
      ∀ rand retry, cache.getRandomSatisfiedChannel rand group model retry =
        .ok (drawChannel rand (onLevel pool retry)) := by
  have hcached : ∀ id ∈ cache.satisfied group model, ∃ channel,
      cache.channelsIDM id = some channel := by
    rw [fresh_satisfied hinit]
    intro id hid
    obtain ⟨channel, hmem, rfl⟩ := (mem_fresh_list hinit).1 hid
    obtain ⟨cached, hfound, -⟩ := fresh_channel hinit (mem_serving.1 hmem).1
    exact ⟨cached, hfound⟩
  refine ⟨(cache.satisfied group model).filterMap cache.channelsIDM, ?_,
    fun rand retry => getRandomSatisfiedChannel_eq hcached⟩
  rw [fresh_satisfied hinit]
  intro key
  constructor
  · rintro ⟨cached, hmem, rfl⟩
    obtain ⟨id, hid, hfound⟩ := List.mem_filterMap.1 hmem
    obtain ⟨channel, hchannel, rfl⟩ := (mem_fresh_list hinit).1 hid
    obtain ⟨other, hother, hkey⟩ := fresh_channel hinit (mem_serving.1 hchannel).1
    obtain rfl : cached = other := Option.some.inj (hfound.symm.trans hother)
    exact ⟨channel, hchannel, hkey.symm⟩
  · rintro ⟨channel, hchannel, rfl⟩
    obtain ⟨cached, hfound, hkey⟩ := fresh_channel hinit (mem_serving.1 hchannel).1
    have hid := (mem_fresh_list hinit).2 ⟨channel, hchannel, rfl⟩
    exact ⟨cached, List.mem_filterMap.2 ⟨channel.id, hid, hfound⟩, hkey⟩

/-- The channels that the memory cache can return. -/
theorem returnable_cache_iff (hinit : old.initChannelCache table abilities = some cache)
    {retry : ℕ} :
    Returnable (fun rand => cache.getRandomSatisfiedChannel rand group model retry) id ↔
      Draws (table.serving group (table.satisfiedModel group model)) retry id := by
  obtain ⟨pool, hsame, hselection⟩ := fresh_selection group model hinit
  rw [← hsame.draws_iff]
  constructor
  · rintro ⟨rand, channel, hselect, rfl⟩
    have hdraw := Except.ok.inj ((hselection rand retry).symm.trans hselect)
    obtain ⟨hmem, hweighs⟩ := drawChannel_iff.1 ⟨rand, hdraw⟩
    exact ⟨channel, hmem, rfl, hweighs⟩
  · rintro ⟨channel, hmem, rfl, hweighs⟩
    obtain ⟨rand, hdraw⟩ := drawChannel_iff.2 ⟨hmem, hweighs⟩
    exact ⟨rand, channel, (hselection rand retry).trans (congrArg _ hdraw), rfl⟩

/-- The memory cache returns no channel only where none serves. -/
theorem returnsNone_cache_iff (hinit : old.initChannelCache table abilities = some cache)
    {retry : ℕ} :
    ReturnsNone (fun rand => cache.getRandomSatisfiedChannel rand group model retry) ↔
      table.serving group (table.satisfiedModel group model) = [] := by
  obtain ⟨pool, hsame, hselection⟩ := fresh_selection group model hinit
  rw [← hsame.eq_nil_iff]
  constructor
  · rintro ⟨rand, hnone⟩
    by_contra hpool
    obtain ⟨channel, hdraw⟩ := drawChannel_total (onLevel_ne_nil hpool retry) rand
    exact hnone channel ((hselection rand retry).trans (congrArg _ hdraw))
  · rintro rfl
    refine ⟨constRand 0, fun channel hselect => ?_⟩
    cases (hselection _ retry).symm.trans hselect

end Fresh

section Database

variable {table : ChannelTable} {abilities : List Ability} {group model : String} {id : ℤ}

/-- The rows of a group and a model are those of the serving channels. -/
theorem mem_enabledAbilities (hsync : ChannelStore.Mirrored ⟨table.rows, abilities⟩)
    {ability : Ability} : ability ∈ enabledAbilities abilities group model ↔
      ∃ channel ∈ table.serving group model, channel.ability group model = ability := by
  rw [enabledAbilities, List.mem_filter, hsync.mem]
  constructor
  · rintro ⟨⟨channel, hrow, g, hg, m, hm, rfl⟩, hkey⟩
    simp only [Bool.and_eq_true, decide_eq_true_eq] at hkey
    obtain ⟨⟨hgroup, hmodel⟩, henabled⟩ := hkey
    obtain rfl : g = group := hgroup
    obtain rfl : m = model := hmodel
    exact ⟨channel, mem_serving.2 ⟨hrow, of_decide_eq_true henabled, hg, hm⟩, rfl⟩
  · rintro ⟨channel, hmem, rfl⟩
    obtain ⟨hrow, henabled, hgroup, hmodel⟩ := mem_serving.1 hmem
    refine ⟨⟨channel, hrow, group, hgroup, model, hmodel, rfl⟩, ?_⟩
    simp [Channel.ability, henabled]

/-- The loop over the weights is a draw by the number before. -/
theorem pickAbility_eq (n : ℤ) (rows : List Ability) :
    pickAbility n rows =
      ((draw (fun ability : Ability => ability.weight + 10) (n - 1) rows).map
        Ability.channelId).getD 0 := by
  induction rows generalizing n with
  | nil => rfl
  | cons ability rows ih =>
      rw [pickAbility, draw]
      by_cases hlast : n - (ability.weight + 10) ≤ 0
      · rw [if_pos hlast, if_pos (by omega)]
        rfl
      · rw [if_neg hlast, if_neg (by omega), ih]
        congr 3
        omega

theorem enabledAbilities_eq_nil (hsync : ChannelStore.Mirrored ⟨table.rows, abilities⟩) :
    enabledAbilities abilities group model = [] ↔ table.serving group model = [] := by
  rw [List.eq_nil_iff_forall_not_mem, List.eq_nil_iff_forall_not_mem]
  simp only [mem_enabledAbilities hsync, not_exists, not_and]
  constructor
  · exact fun hnone channel hmem => hnone (channel.ability group model) channel hmem rfl
  · exact fun hnone ability channel hmem _ => hnone channel hmem

theorem abilityLevel_eq (hsync : ChannelStore.Mirrored ⟨table.rows, abilities⟩) (retry : ℕ) :
    level Ability.priority (enabledAbilities abilities group model) retry =
      level Channel.getPriority (table.serving group model) retry := by
  have hlevels : levels Ability.priority (enabledAbilities abilities group model) =
      levels Channel.getPriority (table.serving group model) := by
    refine levels_congr fun p => ?_
    constructor
    · rintro ⟨ability, hmem, rfl⟩
      obtain ⟨channel, hchannel, rfl⟩ := (mem_enabledAbilities hsync).1 hmem
      exact ⟨channel, hchannel, rfl⟩
    · rintro ⟨channel, hmem, rfl⟩
      exact ⟨_, (mem_enabledAbilities hsync).2 ⟨channel, hmem, rfl⟩, rfl⟩
  rw [level, level, hlevels]

/-- Both queries select the rows of the priority level of the retry. -/
theorem getChannelQuery_eq (retry : ℕ) (hrows : enabledAbilities abilities group model ≠ []) :
    getChannelQuery abilities group model retry =
      .ok ((enabledAbilities abilities group model).filter fun ability =>
        ability.priority =
          level Ability.priority (enabledAbilities abilities group model) retry) := by
  rw [getChannelQuery]
  by_cases hretry : retry ≠ 0
  · rw [if_pos hretry, abilityPriority, if_neg hrows]
  · obtain rfl : retry = 0 := not_not.1 hretry
    rw [if_neg hretry, max?_eq_level hrows]
    simp only [Option.some.injEq]

/-- Without an enabled row for the group and the model nothing is returned. -/
theorem getChannel_none (hrows : enabledAbilities abilities group model = []) {retry : ℕ}
    {rand : Rand} {channels : List Channel} {channel : Channel} :
    getChannel rand channels abilities group model retry ≠ .ok (some channel) := by
  rw [getChannel, getChannelQuery, abilityPriority, hrows]
  by_cases hretry : retry ≠ 0
  · rw [if_pos hretry]
    rintro ⟨⟩
  · rw [if_neg hretry]
    rintro ⟨⟩

/-- The rows of the level in the order of the loop. -/
def levelRows (abilities : List Ability) (group model : String) (retry : ℕ) : List Ability :=
  ((enabledAbilities abilities group model).filter fun ability => ability.priority =
    level Ability.priority (enabledAbilities abilities group model) retry).insertionSort
      fun a b => b.weight ≤ a.weight

theorem mem_levelRows (hsync : ChannelStore.Mirrored ⟨table.rows, abilities⟩) {retry : ℕ}
    {ability : Ability} : ability ∈ levelRows abilities group model retry ↔
      ∃ channel ∈ onLevel (table.serving group model) retry,
        channel.ability group model = ability := by
  rw [levelRows, List.mem_insertionSort, List.mem_filter, mem_enabledAbilities hsync,
    decide_eq_true_eq, abilityLevel_eq hsync]
  constructor
  · rintro ⟨⟨channel, hchannel, rfl⟩, hpriority⟩
    exact ⟨channel, mem_onLevel.2 ⟨hchannel, hpriority⟩, rfl⟩
  · rintro ⟨channel, hchannel, rfl⟩
    obtain ⟨hserving, hpriority⟩ := mem_onLevel.1 hchannel
    exact ⟨⟨channel, hserving, rfl⟩, hpriority⟩

theorem levelRows_ne_nil (hsync : ChannelStore.Mirrored ⟨table.rows, abilities⟩)
    (hserving : table.serving group model ≠ []) (retry : ℕ) :
    levelRows abilities group model retry ≠ [] := by
  obtain ⟨channel, hchannel⟩ := List.exists_mem_of_ne_nil _ (onLevel_ne_nil hserving retry)
  exact List.ne_nil_of_mem ((mem_levelRows hsync).2 ⟨channel, hchannel, rfl⟩)

/-- The loop over the weights picks one of the rows: each weighs at least 10. -/
theorem exists_pickAbility_eq {rows : List Ability} (hrows : rows ≠ []) (rand : Rand) :
    ∃ ability ∈ rows,
      pickAbility (rand.intn (weight (fun ability => ability.weight + 10) rows)) rows =
      ability.channelId := by
  have hweight : 0 < weight (fun ability : Ability => ability.weight + 10) rows := by
    refine Nat.pos_of_ne_zero fun hzero => ?_
    obtain ⟨ability, hability⟩ := List.exists_mem_of_ne_nil _ hrows
    exact Nat.succ_ne_zero _ (weight_eq_zero.1 hzero ability hability)
  have hrange := rand.intn_lt hweight
  obtain ⟨ability, hdraw⟩ := exists_draw (w := fun ability : Ability => ability.weight + 10)
    (r := (rand.intn (weight (fun ability : Ability => ability.weight + 10) rows) : ℤ) - 1) hrows
    (by omega)
  refine ⟨ability, mem_of_draw hdraw, ?_⟩
  rw [pickAbility_eq, hdraw]
  rfl

/-- The row that the loop picks belongs to a channel of the level. -/
theorem pickAbility_mem (hsync : ChannelStore.Mirrored ⟨table.rows, abilities⟩) {retry : ℕ}
    (hrows : levelRows abilities group model retry ≠ []) (rand : Rand) :
    ∃ channel ∈ onLevel (table.serving group model) retry,
      pickAbility (rand.intn (weight (fun ability => ability.weight + 10)
        (levelRows abilities group model retry))) (levelRows abilities group model retry) =
          channel.id := by
  obtain ⟨ability, hability, hpick⟩ := exists_pickAbility_eq hrows rand
  obtain ⟨channel, hchannel, rfl⟩ := (mem_levelRows hsync).1 hability
  exact ⟨channel, hchannel, hpick⟩

/-- Every channel of the level is picked by some random number: each weighs at least 10. -/
theorem exists_pickAbility (hsync : ChannelStore.Mirrored ⟨table.rows, abilities⟩) {retry : ℕ}
    {channel : Channel} (hchannel : channel ∈ onLevel (table.serving group model) retry) :
    ∃ rand : Rand, pickAbility (rand.intn (weight (fun ability => ability.weight + 10)
        (levelRows abilities group model retry))) (levelRows abilities group model retry) =
          channel.id := by
  obtain ⟨first, hfirst, hlast, hdraw⟩ := draw_of_mem
    (w := fun ability : Ability => ability.weight + 10)
    ((mem_levelRows hsync).2 ⟨channel, hchannel, rfl⟩)
  refine ⟨constRand (first + 1).toNat, ?_⟩
  rw [constRand_intn (by omega), pickAbility_eq, hdraw _ (by omega) (by omega)]
  rfl

/-- The picked id is looked up in the channels table. -/
theorem getChannel_eq {retry : ℕ} {rand : Rand} {channel : Channel}
    (hrows : enabledAbilities abilities group model ≠ [])
    (hlevel : levelRows abilities group model retry ≠ []) (hrow : channel ∈ table.rows)
    (hpick : pickAbility (rand.intn (weight (fun ability => ability.weight + 10)
        (levelRows abilities group model retry))) (levelRows abilities group model retry) =
          channel.id) :
    getChannel rand table.rows abilities group model retry = .ok (some channel) := by
  have hfind : (table.rows.find? fun row => row.id = channel.id) = some channel := by
    obtain ⟨found, hfound⟩ := Option.isSome_iff_exists.1
      (List.find?_isSome (p := fun row => decide (row.id = channel.id)).2
        ⟨channel, hrow, decide_eq_true rfl⟩)
    have hid : found.id = channel.id := by simpa using List.find?_some hfound
    have hsame : found = channel := List.inj_on_of_nodup_map table.nodup
      (List.mem_of_find?_eq_some hfound) hrow hid
    rw [hfound, hsame]
  rw [getChannel, getChannelQuery_eq retry hrows]
  rw [levelRows] at hlevel hpick
  dsimp only
  rw [if_neg hlevel, hpick, hfind]

/-- Where a channel serves, the query returns one of the level of the retry. -/
theorem getChannel_total (hsync : ChannelStore.Mirrored ⟨table.rows, abilities⟩)
    (hserving : table.serving group model ≠ []) (retry : ℕ) (rand : Rand) :
    ∃ channel ∈ onLevel (table.serving group model) retry,
      getChannel rand table.rows abilities group model retry = .ok (some channel) := by
  have hrows := (enabledAbilities_eq_nil hsync).not.2 hserving
  have hlevel := levelRows_ne_nil hsync hserving retry
  obtain ⟨channel, hchannel, hpick⟩ := pickAbility_mem hsync hlevel rand
  have hrow := (mem_serving.1 (mem_onLevel.1 hchannel).1).1
  exact ⟨channel, hchannel, getChannel_eq hrows hlevel hrow hpick⟩

/-- The channels that the database query can return. -/
theorem returnable_database_iff (hsync : ChannelStore.Mirrored ⟨table.rows, abilities⟩)
    {retry : ℕ} :
    Returnable (fun rand => getChannel rand table.rows abilities group model retry) id ↔
      ∃ channel ∈ onLevel (table.serving group model) retry, channel.id = id := by
  by_cases hserving : table.serving group model = []
  · constructor
    · rintro ⟨rand, channel, hselect, -⟩
      exact absurd hselect (getChannel_none ((enabledAbilities_eq_nil hsync).2 hserving))
    · rintro ⟨channel, hmem, -⟩
      rw [hserving] at hmem
      cases hmem
  · constructor
    · rintro ⟨rand, channel, hselect, rfl⟩
      obtain ⟨picked, hpicked, hreturned⟩ := getChannel_total hsync hserving retry rand
      obtain rfl := Option.some.inj (Except.ok.inj (hreturned.symm.trans hselect))
      exact ⟨picked, hpicked, rfl⟩
    · rintro ⟨channel, hchannel, rfl⟩
      obtain ⟨rand, hpick⟩ := exists_pickAbility hsync hchannel
      exact ⟨rand, channel, getChannel_eq ((enabledAbilities_eq_nil hsync).not.2 hserving)
        (levelRows_ne_nil hsync hserving retry) (mem_serving.1 (mem_onLevel.1 hchannel).1).1 hpick,
        rfl⟩

/-- The database query returns no channel only where none serves. -/
theorem returnsNone_database_iff (hsync : ChannelStore.Mirrored ⟨table.rows, abilities⟩)
    {retry : ℕ} :
    ReturnsNone (fun rand => getChannel rand table.rows abilities group model retry) ↔
      table.serving group model = [] := by
  constructor
  · rintro ⟨rand, hnone⟩
    by_contra hserving
    obtain ⟨channel, -, hreturned⟩ := getChannel_total hsync hserving retry rand
    exact hnone channel hreturned
  · intro hserving
    exact ⟨constRand 0, fun channel =>
      getChannel_none ((enabledAbilities_eq_nil hsync).2 hserving)⟩

theorem isChannelEnabledForGroupModel_eq {old cache : ChannelCache}
    (hsync : ChannelStore.Mirrored ⟨table.rows, abilities⟩)
    (hinit : old.initChannelCache table abilities = some cache) (group modelName : String)
    (channelID : ℤ) :
    cache.isChannelEnabledForGroupModel group modelName channelID =
      isChannelEnabledForGroupModelDB abilities group modelName channelID := by
  have hcount : ∀ model, 0 < ((enabledAbilities abilities group model).filter fun ability =>
      ability.channelId = channelID).length ↔
        channelID ∈ cache.group2model2channels group model := by
    intro model
    rw [mem_fresh_list hinit, List.length_pos_iff_exists_mem]
    simp only [List.mem_filter, mem_enabledAbilities hsync, decide_eq_true_eq]
    constructor
    · rintro ⟨ability, ⟨channel, hchannel, rfl⟩, hid⟩
      exact ⟨channel, hchannel, hid⟩
    · rintro ⟨channel, hchannel, rfl⟩
      exact ⟨_, ⟨channel, hchannel, rfl⟩, rfl⟩
  rw [ChannelCache.isChannelEnabledForGroupModel, isChannelEnabledForGroupModelDB]
  simp only [hcount]
  by_cases hempty : group = "" ∨ modelName = "" ∨ channelID ≤ 0
  · rw [if_pos hempty, if_pos hempty]
  · rw [if_neg hempty, if_neg hempty]
    by_cases hlisted : channelID ∈ cache.group2model2channels group modelName
    · rw [if_pos hlisted, if_pos hlisted]
    · rw [if_neg hlisted, if_neg hlisted]
      by_cases hsame : formatMatchingModelName modelName = "" ∨
          formatMatchingModelName modelName = modelName
      · rw [if_pos hsame, if_neg fun hother => hsame.elim hother.1 hother.2]
      · rw [if_neg hsame, if_pos (not_or.1 hsame)]

/-- The cache of tables in sync can always be built: every group has an ability. -/
theorem exists_initChannelCache (hsync : ChannelStore.Mirrored ⟨table.rows, abilities⟩)
    (old : ChannelCache) : ∃ cache, old.initChannelCache table abilities = some cache := by
  refine ⟨_, if_pos fun channel hrow _ group hgroup => ?_⟩
  obtain ⟨model, hmodel⟩ : ∃ model, model ∈ channel.models_ := by
    refine List.exists_mem_of_ne_nil _ fun hnone => ?_
    rw [Channel.models_, split, List.map_eq_nil_iff] at hnone
    exact List.splitOn_ne_nil _ _ hnone
  exact List.mem_map.2 ⟨channel.ability group model,
    (hsync.mem _).2 ⟨channel, hrow, group, hgroup, model, hmodel, rfl⟩, rfl⟩

end Database

/-! ## Where both modes agree -/

/-- Both modes can return the same channels for a group, a model and a retry, and both or
neither can return none. -/
def SelectsAlike (cache : ChannelCache) (table : ChannelTable) (abilities : List Ability)
    (group model : String) (retry : ℕ) : Prop :=
  let cached := fun rand => cache.getRandomSatisfiedChannel rand group model retry
  let queried := fun rand => getChannel rand table.rows abilities group model retry
  (∀ id, Returnable cached id ↔ Returnable queried id) ∧ (ReturnsNone cached ↔ ReturnsNone queried)

/-- A model that no channel serves by its own name is not served by its normalized name
either, and no channel of the level has weight zero beside one that has a weight. -/
def ChannelTable.NeedsNoCache (table : ChannelTable) (group model : String) (retry : ℕ) : Prop :=
  if table.serving group model = [] then
    table.serving group (formatMatchingModelName model) = []
  else
    ∀ channel ∈ onLevel (table.serving group model) retry,
      Weighs (onLevel (table.serving group model) retry) channel

instance (table : ChannelTable) (group model : String) (retry : ℕ) :
    Decidable (table.NeedsNoCache group model retry) := by
  unfold ChannelTable.NeedsNoCache
  infer_instance

section

variable {old cache : ChannelCache} {table : ChannelTable} {abilities : List Ability}

/-- Some channel can be drawn from a pool that is not empty. -/
theorem exists_draws {channels : List Channel} (hchannels : channels ≠ []) (retry : ℕ) :
    ∃ id, Draws channels retry id := by
  obtain ⟨channel, hdraw⟩ := drawChannel_total (onLevel_ne_nil hchannels retry) (constRand 0)
  obtain ⟨hmem, hweighs⟩ := drawChannel_iff.1 ⟨_, hdraw⟩
  exact ⟨channel.id, channel, hmem, rfl, hweighs⟩

/-- The channels that both modes can return are the same where no cache is needed. -/
theorem draws_iff_onLevel (table : ChannelTable) (group model : String) (retry : ℕ) :
    (∀ id, Draws (table.serving group (table.satisfiedModel group model)) retry id ↔
      ∃ channel ∈ onLevel (table.serving group model) retry, channel.id = id) ↔
      table.NeedsNoCache group model retry := by
  rw [ChannelTable.NeedsNoCache, ChannelTable.satisfiedModel]
  by_cases hserving : table.serving group model = []
  · -- only the memory cache looks for the normalized name
    rw [if_pos hserving, if_pos hserving, hserving]
    constructor
    · intro halike
      by_contra hfallback
      obtain ⟨id, hdraws⟩ := exists_draws hfallback retry
      obtain ⟨channel, hmem, -⟩ := (halike id).1 hdraws
      cases hmem
    · intro hfallback id
      rw [hfallback]
      constructor
      · rintro ⟨channel, hmem, -⟩
        cases hmem
      · rintro ⟨channel, hmem, -⟩
        cases hmem
  · rw [if_neg hserving, if_neg hserving]
    constructor
    · intro halike channel hmem
      obtain ⟨drawn, hdrawn, hid, hweighs⟩ := (halike channel.id).2 ⟨channel, hmem, rfl⟩
      have hrow : ∀ channel ∈ onLevel (table.serving group model) retry, channel ∈ table.rows :=
        fun channel hchannel => (mem_serving.1 (mem_onLevel.1 hchannel).1).1
      obtain rfl : drawn = channel :=
        List.inj_on_of_nodup_map table.nodup (hrow drawn hdrawn) (hrow channel hmem) hid
      exact hweighs
    · intro hweighs id
      constructor
      · rintro ⟨channel, hmem, hid, -⟩
        exact ⟨channel, hmem, hid⟩
      · rintro ⟨channel, hmem, hid⟩
        exact ⟨channel, hmem, hid, hweighs channel hmem⟩

theorem selectsAlike_iff (hsync : ChannelStore.Mirrored ⟨table.rows, abilities⟩)
    (hinit : old.initChannelCache table abilities = some cache) (group model : String)
    (retry : ℕ) :
    SelectsAlike cache table abilities group model retry ↔
      table.NeedsNoCache group model retry := by
  have hids := draws_iff_onLevel table group model retry
  rw [SelectsAlike]
  simp only [returnable_cache_iff hinit, returnable_database_iff hsync,
    returnsNone_cache_iff hinit, returnsNone_database_iff hsync]
  rw [hids]
  -- the case of no channel needs nothing more
  refine and_iff_left_of_imp fun hneeds => ?_
  rw [ChannelTable.NeedsNoCache] at hneeds
  rw [ChannelTable.satisfiedModel]
  by_cases hserving : table.serving group model = []
  · rw [if_pos hserving] at hneeds ⊢
    exact iff_of_true hneeds hserving
  · rw [if_neg hserving]

/-- On tables in sync and a fresh cache, the two modes agree exactly on the groups, models and
retries that need neither the normalized name nor the rule for zero weights. -/
theorem cached_selection_agrees_iff (hsync : ChannelStore.Mirrored ⟨table.rows, abilities⟩)
    (hinit : old.initChannelCache table abilities = some cache) (group model : String)
    (retry : ℕ) :
    (SelectsAlike cache table abilities group model retry ∧
      ∀ channelID, cache.isChannelEnabledForGroupModel group model channelID =
        isChannelEnabledForGroupModelDB abilities group model channelID) ↔
      table.NeedsNoCache group model retry := by
  rw [selectsAlike_iff hsync hinit]
  exact and_iff_left fun channelID =>
    isChannelEnabledForGroupModel_eq hsync hinit group model channelID

end

/-- The abilities derived from a table are in sync with it. -/
theorem ChannelTable.mirrored (table : ChannelTable)
    (hdistinct : ∀ channel ∈ table.rows, channel.KeysDistinct) :
    ChannelStore.Mirrored ⟨table.rows, table.rows.flatMap Channel.abilities⟩ := by
  constructor
  · rw [List.map_flatMap]
    refine List.nodup_flatMap.2 ⟨fun channel _ => channel.abilities_nodup, ?_⟩
    refine (List.pairwise_map.1 table.nodup).imp fun hids key hkey hother => hids ?_
    obtain ⟨ability, hability, rfl⟩ := List.mem_map.1 hkey
    obtain ⟨other, hmem, hsame⟩ := List.mem_map.1 hother
    rw [← Channel.abilities_channelId hability, ← Channel.abilities_channelId hmem]
    exact (congrArg (fun key => key.2.2) hsame).symm
  · intro ability
    rw [List.mem_flatMap]
    constructor
    · rintro ⟨channel, hchannel, hrow⟩
      exact ⟨channel, hchannel, (Channel.mem_abilities (hdistinct channel hchannel)).1 hrow⟩
    · rintro ⟨channel, hchannel, hrow⟩
      exact ⟨channel, hchannel, (Channel.mem_abilities (hdistinct channel hchannel)).2 hrow⟩

theorem cached_selection_agrees_sample :
    ∃ cache, ChannelCache.empty.initChannelCache sampleChannelTable
        (sampleChannelTable.rows.flatMap Channel.abilities) = some cache ∧
      SelectsAlike cache sampleChannelTable
        (sampleChannelTable.rows.flatMap Channel.abilities) "default" "o3" 1 := by
  have hsync := sampleChannelTable.mirrored (by decide)
  obtain ⟨cache, hinit⟩ := exists_initChannelCache hsync ChannelCache.empty
  exact ⟨cache, hinit,
    ((cached_selection_agrees_iff hsync hinit "default" "o3" 1).2 (by decide)).1⟩

/-- A channel for the models under one wildcard. -/
def gizmoChannelTable : ChannelTable where
  rows := [{ sampleCachedChannel 1 false with models := "gpt-4-gizmo-*" }]
  nodup := by decide

/-- The memory cache finds the channel of the wildcard, the database query finds none. -/
theorem wildcard_model_needs_cache :
    ¬ ∀ (old cache : ChannelCache) (table : ChannelTable) (abilities : List Ability)
      (group model : String) (retry : ℕ),
      ChannelStore.Mirrored ⟨table.rows, abilities⟩ →
        old.initChannelCache table abilities = some cache →
          SelectsAlike cache table abilities group model retry ∧
            ∀ channelID, cache.isChannelEnabledForGroupModel group model channelID =
              isChannelEnabledForGroupModelDB abilities group model channelID := by
  intro hclaim
  have hsync := gizmoChannelTable.mirrored (by decide)
  obtain ⟨cache, hinit⟩ := exists_initChannelCache hsync ChannelCache.empty
  have hneeds := (selectsAlike_iff hsync hinit "default" "gpt-4-gizmo-abc" 0).1
    (hclaim _ _ _ _ _ _ _ hsync hinit).1
  exact absurd hneeds (by decide)

end NewApi.Model
