import Mathlib.Data.List.Sort
import NewApi.Lib.System
import NewApi.Model.Ability

/-!
# The memory cache of channels

Routing works on two maps that `InitChannelCache` builds from the tables: the channels by
their ids, and for every group and model the ids of the enabled channels that serve it.
Status changes between two initialisations update the maps in place.
-/

namespace NewApi.Model

open NewApi.Lib

/-- The channels table: the ids are its primary key. -/
structure ChannelTable where
  rows : List Channel
  nodup : (rows.map Channel.id).Nodup

/-- `group2model2channels` and `channelsIDM`.  A group or model without an entry has the empty
list. -/
structure ChannelCache where
  group2model2channels : String → String → List ℤ
  channelsIDM : ℤ → Option Channel

namespace ChannelCache

/-- No initialisation has run yet. -/
def empty : ChannelCache where
  group2model2channels := fun _ _ => []
  channelsIDM := fun _ => none

/-- Append an id to the list of a group and a model. -/
def push (lists : String → String → List ℤ) (id : ℤ) (group model : String) :
    String → String → List ℤ :=
  fun g m => if g = group ∧ m = model then lists g m ++ [id] else lists g m

/-- The two loops over the groups and the models of a channel; a group or model that the
channel repeats gets its id repeatedly. -/
def enlist (lists : String → String → List ℤ) (channel : Channel) : String → String → List ℤ :=
  channel.groups_.foldl (fun lists group =>
    channel.models_.foldl (fun lists model => push lists channel.id group model) lists) lists

def newGroup2model2channels (channels : List Channel) : String → String → List ℤ :=
  (channels.filter fun channel => channel.status = ChannelStatusEnabled).foldl enlist fun _ _ => []

def newChannelId2channel (channels : List Channel) : ℤ → Option Channel :=
  channels.foldl (fun idm channel id => if id = channel.id then some channel else idm id)
    fun _ => none

/-- The priority by which `InitChannelCache` sorts. -/
def priorityOf (idm : ℤ → Option Channel) (id : ℤ) : ℤ :=
  ((idm id).map Channel.getPriority).getD 0

def ConstantMultiKeyModePolling : String := "polling"

def isPolling (channel : Channel) : Bool :=
  channel.channelInfo.isMultiKey && channel.channelInfo.multiKeyMode = ConstantMultiKeyModePolling

/-- A polling channel goes on with the polling index of its old entry. -/
def keepPollingIndex (old : Option Channel) (channel : Channel) : Channel :=
  match old with
  | none => channel
  | some oldChannel =>
      if isPolling channel && isPolling oldChannel then
        { channel with
          channelInfo :=
            { channel.channelInfo with
              multiKeyPollingIndex := oldChannel.channelInfo.multiKeyPollingIndex } }
      else channel

/-- Build both maps from the tables.  The loop panics on an enabled channel with a group that
has no ability. -/
def initChannelCache (old : ChannelCache) (table : ChannelTable) (abilities : List Ability) :
    Option ChannelCache :=
  if ∀ channel ∈ table.rows, channel.status = ChannelStatusEnabled →
      ∀ group ∈ channel.groups_, group ∈ abilities.map Ability.group then
    let idm := newChannelId2channel table.rows
    some
      { group2model2channels := fun group model =>
          (newGroup2model2channels table.rows group model).insertionSort
            fun i j => priorityOf idm j ≤ priorityOf idm i
        channelsIDM := fun id => (idm id).map (keepPollingIndex (old.channelsIDM id)) }
  else none

def setChannel (cache : ChannelCache) (id : ℤ) (channel : Channel) : ChannelCache :=
  { cache with
    channelsIDM := fun i => if i = id then some channel else cache.channelsIDM i }

/-- A channel that is disabled is removed from every list, at its first place in it. -/
def cacheUpdateChannelStatus (cache : ChannelCache) (id status : ℤ) : ChannelCache where
  group2model2channels := fun group model =>
    if status = ChannelStatusEnabled then cache.group2model2channels group model
    else (cache.group2model2channels group model).erase id
  channelsIDM := fun i =>
    if i = id then (cache.channelsIDM i).map fun channel => { channel with status := status }
    else cache.channelsIDM i

/-- What `UpdateChannelStatus` does to the cache. -/
def updateChannelStatus (unmarshal : String → Option (List String)) (cache : ChannelCache)
    (channelId : ℤ) (usingKey : String) (status : ℤ) (reason : String) (now : ℤ) : ChannelCache :=
  match cache.channelsIDM channelId with
  | none => cache
  | some channel =>
      if channel.channelInfo.isMultiKey then
        cache.setChannel channelId
          (channel.handlerMultiKeyUpdate unmarshal usingKey status reason now)
      else if channel.status = status then cache
      else cache.cacheUpdateChannelStatus channelId status

end ChannelCache

/-- The functions that change the cache. -/
inductive CacheAction
  | initChannelCache (table : ChannelTable) (abilities : List Ability)
  | updateChannelStatus (channelId : ℤ) (usingKey : String) (status : ℤ) (reason : String) (now : ℤ)
  | cacheUpdateChannelStatus (id status : ℤ)

/-- The action is an initialisation. -/
def CacheAction.isInit : CacheAction → Bool
  | .initChannelCache _ _ => true
  | _ => false

/-- The cache as a system. -/
def channelCache (unmarshal : String → Option (List String)) :
    System ChannelCache CacheAction where
  step cache
    | .initChannelCache table abilities => cache.initChannelCache table abilities
    | .updateChannelStatus channelId usingKey status reason now =>
        some (cache.updateChannelStatus unmarshal channelId usingKey status reason now)
    | .cacheUpdateChannelStatus id status => some (cache.cacheUpdateChannelStatus id status)

namespace ChannelCache

/-! ## The freshly built maps -/

section

variable {lists : String → String → List ℤ} {channel : Channel} {group model : String} {id : ℤ}

theorem mem_push {g m : String} : id ∈ push lists channel.id group model g m ↔
    id ∈ lists g m ∨ (id = channel.id ∧ g = group ∧ m = model) := by
  rw [push]
  split
  case isTrue hplace => simp [hplace]
  case isFalse hother => simp [hother]

/-- The inner loop. -/
theorem mem_push_models (models : List String) {g m : String} :
    id ∈ models.foldl (fun lists model => push lists channel.id group model) lists g m ↔
      id ∈ lists g m ∨ (id = channel.id ∧ g = group ∧ m ∈ models) := by
  induction models generalizing lists with
  | nil => simp
  | cons model models ih =>
      rw [List.foldl_cons, ih, mem_push, List.mem_cons]
      tauto

theorem mem_enlist {g m : String} : id ∈ enlist lists channel g m ↔
    id ∈ lists g m ∨ (id = channel.id ∧ g ∈ channel.groups_ ∧ m ∈ channel.models_) := by
  rw [enlist]
  generalize channel.groups_ = groups
  induction groups generalizing lists with
  | nil => simp
  | cons group groups ih =>
      rw [List.foldl_cons, ih, mem_push_models, List.mem_cons]
      tauto

/-- A list holds the ids of the enabled channels that have the group and the model. -/
theorem mem_newGroup2model2channels {channels : List Channel} {g m : String} :
    id ∈ newGroup2model2channels channels g m ↔
      ∃ channel ∈ channels, channel.status = ChannelStatusEnabled ∧ id = channel.id ∧
        g ∈ channel.groups_ ∧ m ∈ channel.models_ := by
  have hfold : ∀ (enabled : List Channel) (lists : String → String → List ℤ),
      id ∈ enabled.foldl enlist lists g m ↔
        id ∈ lists g m ∨ ∃ channel ∈ enabled, id = channel.id ∧
          g ∈ channel.groups_ ∧ m ∈ channel.models_ := by
    intro enabled
    induction enabled with
    | nil => simp
    | cons channel enabled ih =>
        intro lists
        rw [List.foldl_cons, ih, mem_enlist, List.exists_mem_cons_iff]
        tauto
  rw [newGroup2model2channels, hfold]
  simp [and_assoc]

/-- The map by ids finds every row of the table. -/
theorem newChannelId2channel_eq (table : ChannelTable) :
    ∀ channel, newChannelId2channel table.rows id = some channel ↔
      channel ∈ table.rows ∧ channel.id = id := by
  obtain ⟨rows, hnodup⟩ := table
  intro channel
  show newChannelId2channel rows id = some channel ↔ channel ∈ rows ∧ channel.id = id
  rw [newChannelId2channel]
  induction rows using List.reverseRecOn with
  | nil => simp
  | append_singleton rows last ih =>
      rw [List.map_append, List.map_singleton] at hnodup
      obtain ⟨hrows, -, hnew⟩ := List.nodup_append.1 hnodup
      rw [List.foldl_append, List.foldl_cons, List.foldl_nil, List.mem_append, List.mem_singleton]
      by_cases hid : id = last.id
      · rw [if_pos hid, Option.some.injEq]
        constructor
        · rintro rfl
          exact ⟨.inr rfl, hid.symm⟩
        · rintro ⟨hold | rfl, hsame⟩
          · exact absurd (hsame.trans hid) (hnew channel.id (List.mem_map_of_mem hold) last.id
              (List.mem_singleton_self _))
          · rfl
      · rw [if_neg hid, ih hrows]
        constructor
        · rintro ⟨hold, hsame⟩
          exact ⟨.inl hold, hsame⟩
        · rintro ⟨hold | rfl, hsame⟩
          · exact ⟨hold, hsame⟩
          · exact absurd hsame.symm hid

end

/-! ## The lists serve enabled channels -/

/-- Every listed id is cached, and its channel is enabled. -/
def ServesEnabled (cache : ChannelCache) : Prop :=
  ∀ group model, ∀ id ∈ cache.group2model2channels group model,
    ∃ channel, cache.channelsIDM id = some channel ∧ channel.status = ChannelStatusEnabled

/-- The channel stands under its own groups and models only. -/
structure Listed (cache : ChannelCache) (group model : String) (channel : Channel) : Prop where
  enabled : channel.status = ChannelStatusEnabled
  group : group ∈ channel.groups_
  model : model ∈ channel.models_

/-- The invariant: every listed id is cached, with the status and under the names that
`InitChannelCache` would list it for. -/
def Consistent (cache : ChannelCache) : Prop :=
  ∀ group model, ∀ id ∈ cache.group2model2channels group model,
    ∃ channel, cache.channelsIDM id = some channel ∧ cache.Listed group model channel

/-- How often the cache lists the id for a group and a model of the channel, at most. -/
def ListedAtMost (cache : ChannelCache) (n : ℕ) (id : ℤ) (channel : Channel) : Prop :=
  ∀ group ∈ channel.groups_, ∀ model ∈ channel.models_,
    (cache.group2model2channels group model).count id ≤ n

instance (cache : ChannelCache) (n : ℕ) (id : ℤ) (channel : Channel) :
    Decidable (cache.ListedAtMost n id channel) :=
  inferInstanceAs (Decidable (∀ group ∈ channel.groups_, ∀ model ∈ channel.models_, _))

/-- The new status of one key leaves the multi-key channel without an enabled key. -/
def TurnsOff (unmarshal : String → Option (List String)) (channel : Channel) (usingKey : String)
    (status : ℤ) (reason : String) (now : ℤ) : Prop :=
  if channel.getKeys unmarshal = [] then status ≠ ChannelStatusEnabled
  else
    let info := channel.channelInfo.setKeyStatus (channel.keyIndex unmarshal usingKey) status
      reason now
    info.multiKeySize ≤ info.multiKeyStatusList.keys.length

instance (unmarshal : String → Option (List String)) (channel : Channel) (usingKey : String)
    (status : ℤ) (reason : String) (now : ℤ) :
    Decidable (TurnsOff unmarshal channel usingKey status reason now) := by
  unfold TurnsOff
  infer_instance

/-- The step disables no multi-key channel that is still listed, and no other channel that is
listed twice for one group and model. -/
def KeepsServing (unmarshal : String → Option (List String)) (cache : ChannelCache) :
    CacheAction → Prop
  | .initChannelCache _ _ => True
  | .updateChannelStatus channelId usingKey status reason now =>
      match cache.channelsIDM channelId with
      | none => True
      | some channel =>
          if channel.channelInfo.isMultiKey then
            TurnsOff unmarshal channel usingKey status reason now →
              cache.ListedAtMost 0 channelId channel
          else
            channel.status ≠ status → status ≠ ChannelStatusEnabled →
              cache.ListedAtMost 1 channelId channel
  | .cacheUpdateChannelStatus id status =>
      match cache.channelsIDM id with
      | none => True
      | some channel => status ≠ ChannelStatusEnabled → cache.ListedAtMost 1 id channel

instance (unmarshal : String → Option (List String)) (cache : ChannelCache) :
    DecidablePred (cache.KeepsServing unmarshal) := fun a => by
  unfold KeepsServing
  split
  · infer_instance
  · split <;> infer_instance
  · split <;> infer_instance

section

variable {unmarshal : String → Option (List String)} {cache cache' : ChannelCache}

theorem Consistent.servesEnabled (hconsistent : cache.Consistent) : cache.ServesEnabled := by
  intro group model id hid
  obtain ⟨channel, hchannel, hlisted⟩ := hconsistent group model id hid
  exact ⟨channel, hchannel, hlisted.enabled⟩

theorem empty_consistent : Consistent empty := by
  intro group model id hid
  cases hid

theorem keepPollingIndex_sameRoute (old : Option Channel) (channel : Channel) :
    Channel.SameRoute (keepPollingIndex old channel) channel ∧
      (keepPollingIndex old channel).status = channel.status := by
  cases old with
  | none => exact ⟨⟨rfl, rfl, rfl, rfl, rfl, rfl⟩, rfl⟩
  | some oldChannel =>
      rw [keepPollingIndex]
      split <;> exact ⟨⟨rfl, rfl, rfl, rfl, rfl, rfl⟩, rfl⟩

/-- What `InitChannelCache` leaves: the lists of the enabled channels of the table, by
priority, and the rows of the table with their polling indices. -/
theorem initChannelCache_spec {table : ChannelTable} {abilities : List Ability}
    (hinit : cache.initChannelCache table abilities = some cache') :
    (∀ group model, (cache'.group2model2channels group model).Perm
      (newGroup2model2channels table.rows group model)) ∧
    ∀ id, cache'.channelsIDM id =
      (newChannelId2channel table.rows id).map (keepPollingIndex (cache.channelsIDM id)) := by
  rw [initChannelCache] at hinit
  split at hinit
  case isFalse hpanic => cases hinit
  case isTrue hgroups =>
    obtain rfl := Option.some.inj hinit
    exact ⟨fun group model => List.perm_insertionSort _ _, fun id => rfl⟩

theorem initChannelCache_consistent {table : ChannelTable} {abilities : List Ability}
    (hinit : cache.initChannelCache table abilities = some cache') : cache'.Consistent := by
  obtain ⟨hlists, hidm⟩ := initChannelCache_spec hinit
  intro group model id hid
  obtain ⟨channel, hchannel, henabled, rfl, hgroup, hmodel⟩ :=
    mem_newGroup2model2channels.1 ((hlists group model).mem_iff.1 hid)
  have hfound := (newChannelId2channel_eq table channel).2 ⟨hchannel, rfl⟩
  obtain ⟨hroute, hstatus⟩ := keepPollingIndex_sameRoute (cache.channelsIDM channel.id) channel
  refine ⟨_, by rw [hidm, hfound, Option.map_some], ⟨hstatus.trans henabled, ?_, ?_⟩⟩
  · rw [Channel.groups_, hroute.group]
    exact hgroup
  · rw [Channel.models_, hroute.models]
    exact hmodel

/-- A channel that is listed nowhere may be replaced by any other. -/
theorem Consistent.setUnlisted {id : ℤ} {channel : Channel} (hconsistent : cache.Consistent)
    (hunlisted : ∀ group model, id ∉ cache.group2model2channels group model) :
    (cache.setChannel id channel).Consistent := by
  intro group model other hother
  have hne : other ≠ id := fun hsame => hunlisted group model (hsame ▸ hother)
  obtain ⟨found, hfound, hlisted⟩ := hconsistent group model other hother
  exact ⟨found, (if_neg hne).trans hfound, ⟨hlisted.enabled, hlisted.group, hlisted.model⟩⟩

/-- A channel may be replaced by one of the same groups and models that has not been
disabled. -/
theorem Consistent.setSame {id : ℤ} {channel channel' : Channel} (hconsistent : cache.Consistent)
    (hchannel : cache.channelsIDM id = some channel) (hroute : Channel.SameRoute channel' channel)
    (hstatus : channel'.status = channel.status ∨ channel'.status = ChannelStatusEnabled) :
    (cache.setChannel id channel').Consistent := by
  intro group model other hother
  obtain ⟨found, hfound, hlisted⟩ := hconsistent group model other hother
  by_cases hsame : other = id
  · subst hsame
    obtain rfl : channel = found := Option.some.inj (hchannel.symm.trans hfound)
    refine ⟨channel', if_pos rfl, ⟨?_, ?_, ?_⟩⟩
    · rcases hstatus with hsame | henabled
      · exact hsame.trans hlisted.enabled
      · exact henabled
    · rw [Channel.groups_, hroute.group]
      exact hlisted.group
    · rw [Channel.models_, hroute.models]
      exact hlisted.model
  · exact ⟨found, (if_neg hsame).trans hfound, ⟨hlisted.enabled, hlisted.group, hlisted.model⟩⟩

/-- The bound on the channel's own names is a bound on all lists. -/
theorem Consistent.count_le {id : ℤ} {channel : Channel} {n : ℕ} (hconsistent : cache.Consistent)
    (hchannel : cache.channelsIDM id = some channel) (hbound : cache.ListedAtMost n id channel)
    (group model : String) : (cache.group2model2channels group model).count id ≤ n := by
  by_cases hid : id ∈ cache.group2model2channels group model
  · obtain ⟨found, hfound, hlisted⟩ := hconsistent group model id hid
    obtain rfl : channel = found := Option.some.inj (hchannel.symm.trans hfound)
    exact hbound group hlisted.group model hlisted.model
  · rw [List.count_eq_zero_of_not_mem hid]
    exact Nat.zero_le n

/-- A whole channel is disabled or enabled. -/
theorem Consistent.cacheUpdate {id status : ℤ} (hconsistent : cache.Consistent)
    (honce : ∀ channel, cache.channelsIDM id = some channel → status ≠ ChannelStatusEnabled →
      cache.ListedAtMost 1 id channel) :
    (cache.cacheUpdateChannelStatus id status).Consistent := by
  intro group model other hother
  have hother : other ∈ if status = ChannelStatusEnabled then
      cache.group2model2channels group model
    else (cache.group2model2channels group model).erase id := hother
  have hmem : other ∈ cache.group2model2channels group model := by
    split at hother
    case isTrue henabled => exact hother
    case isFalse hdisabled => exact List.mem_of_mem_erase hother
  obtain ⟨found, hfound, hlisted⟩ := hconsistent group model other hmem
  by_cases hsame : other = id
  · -- the id is still listed, so the status is the enabled one
    subst hsame
    by_cases henabled : status = ChannelStatusEnabled
    · refine ⟨{ found with status := status }, ?_, ⟨henabled, hlisted.group, hlisted.model⟩⟩
      show (if other = other then _ else _) = _
      rw [if_pos rfl, hfound]
      rfl
    · rw [if_neg henabled] at hother
      have hcount := hconsistent.count_le hfound (honce found hfound henabled) group model
      have hpositive := List.count_pos_iff.2 hother
      rw [List.count_erase_self] at hpositive
      omega
  · exact ⟨found, (if_neg hsame).trans hfound, ⟨hlisted.enabled, hlisted.group, hlisted.model⟩⟩

/-- The key update keeps the status, unless it turns the channel off or finds no keys. -/
theorem handlerMultiKeyUpdate_status {channel : Channel} {usingKey : String} {status : ℤ}
    {reason : String} {now : ℤ} (hon : ¬TurnsOff unmarshal channel usingKey status reason now) :
    (channel.handlerMultiKeyUpdate unmarshal usingKey status reason now).status =
      channel.status ∨
    (channel.handlerMultiKeyUpdate unmarshal usingKey status reason now).status =
      ChannelStatusEnabled := by
  rw [TurnsOff] at hon
  rw [Channel.handlerMultiKeyUpdate]
  split at hon
  case isTrue hempty =>
    rw [if_pos hempty]
    exact .inr (not_not.1 hon)
  case isFalse hkeys =>
    rw [if_neg hkeys]
    dsimp only at hon ⊢
    rw [if_neg hon]
    exact .inl rfl

/-- A status update on the conditioned paths. -/
theorem Consistent.update {channelId : ℤ} {usingKey : String} {status : ℤ} {reason : String}
    {now : ℤ} (hconsistent : cache.Consistent)
    (hkeeps : cache.KeepsServing unmarshal
      (.updateChannelStatus channelId usingKey status reason now)) :
    (cache.updateChannelStatus unmarshal channelId usingKey status reason now).Consistent := by
  rw [KeepsServing] at hkeeps
  rw [updateChannelStatus]
  cases hchannel : cache.channelsIDM channelId with
  | none => exact hconsistent
  | some channel =>
      rw [hchannel] at hkeeps
      dsimp only at hkeeps ⊢
      split at hkeeps
      case isTrue hmulti =>
        rw [if_pos hmulti]
        by_cases hoff : TurnsOff unmarshal channel usingKey status reason now
        · refine hconsistent.setUnlisted fun group model hid => ?_
          have hnone := hconsistent.count_le hchannel (hkeeps hoff) group model
          have hpositive := List.count_pos_iff.2 hid
          omega
        · exact hconsistent.setSame hchannel
            (Channel.handlerMultiKeyUpdate_sameRoute channel usingKey reason status now)
            (handlerMultiKeyUpdate_status hoff)
      case isFalse hsingle =>
        rw [if_neg hsingle]
        split
        case isTrue hsame => exact hconsistent
        case isFalse hnew =>
          refine hconsistent.cacheUpdate fun found hfound hdisabled => ?_
          obtain rfl : channel = found := Option.some.inj (hchannel.symm.trans hfound)
          exact hkeeps hnew hdisabled

/-- A step on the conditioned paths keeps the invariant. -/
theorem step_consistent {a : CacheAction}
    (hstep : (channelCache unmarshal).step cache a = some cache')
    (hkeeps : cache.KeepsServing unmarshal a) (hconsistent : cache.Consistent) :
    cache'.Consistent := by
  cases a with
  | initChannelCache table abilities => exact initChannelCache_consistent hstep
  | updateChannelStatus channelId usingKey status reason now =>
      obtain rfl := Option.some.inj hstep
      exact hconsistent.update hkeeps
  | cacheUpdateChannelStatus id status =>
      obtain rfl := Option.some.inj hstep
      refine hconsistent.cacheUpdate fun channel hchannel => ?_
      rw [KeepsServing, hchannel] at hkeeps
      exact hkeeps

/-- No step but an initialisation adds to a list. -/
theorem step_lists {a : CacheAction} (hstep : (channelCache unmarshal).step cache a = some cache')
    (hkind : a.isInit = false) (group model : String) :
    cache'.group2model2channels group model ⊆ cache.group2model2channels group model := by
  have herase : ∀ id status, (cache.cacheUpdateChannelStatus id status).group2model2channels
      group model ⊆ cache.group2model2channels group model := by
    intro id status
    rw [cacheUpdateChannelStatus]
    dsimp only
    split
    case isTrue henabled => exact List.Subset.refl _
    case isFalse hdisabled => exact List.erase_subset
  cases a with
  | initChannelCache table abilities => cases hkind
  | cacheUpdateChannelStatus id status =>
      obtain rfl := Option.some.inj hstep
      exact herase id status
  | updateChannelStatus channelId usingKey status reason now =>
      obtain rfl := Option.some.inj hstep
      rw [updateChannelStatus]
      cases cache.channelsIDM channelId with
      | none => exact List.Subset.refl _
      | some channel =>
          dsimp only
          split_ifs with hmulti hsame
          · exact List.Subset.refl _
          · exact List.Subset.refl _
          · exact herase channelId status

/-- An id that is in no list stays out of them until the next initialisation. -/
theorem run_unlisted {id : ℤ} {as : List CacheAction}
    (hunlisted : ∀ group model, id ∉ cache.group2model2channels group model)
    (hkinds : ∀ a ∈ as, a.isInit = false)
    (hrun : (channelCache unmarshal).run cache as = some cache') (group model : String) :
    id ∉ cache'.group2model2channels group model := by
  induction as generalizing cache with
  | nil =>
      obtain rfl : cache = cache' := by simpa using hrun
      exact hunlisted group model
  | cons a as ih =>
      obtain ⟨next, hstep, hrest⟩ := System.run_cons hrun
      refine ih (fun g m hid => ?_) (fun b hb => hkinds b (List.mem_cons_of_mem a hb)) hrest
      exact hunlisted g m (step_lists hstep (hkinds a (List.mem_cons_self ..)) g m hid)

end

end ChannelCache

open ChannelCache

/-- In a run on the conditioned paths the lists hold enabled channels only, and a channel that
is not enabled is in no list until an initialisation finds it enabled. -/
theorem cache_serves_enabled {unmarshal : String → Option (List String)} {as : List CacheAction}
    {cache : ChannelCache}
    (hkeeps : (channelCache unmarshal).Along (KeepsServing unmarshal) empty as)
    (hrun : (channelCache unmarshal).run empty as = some cache) :
    cache.ServesEnabled ∧
      ∀ id channel, cache.channelsIDM id = some channel → channel.status ≠ ChannelStatusEnabled →
        ∀ bs cache', (∀ b ∈ bs, b.isInit = false) →
          (channelCache unmarshal).run cache bs = some cache' →
            ∀ group model, id ∉ cache'.group2model2channels group model := by
  have hconsistent : cache.Consistent :=
    System.invariant_run (I := Consistent)
      (fun hstep hkeeps hinv => step_consistent hstep hkeeps hinv) empty_consistent hkeeps hrun
  refine ⟨hconsistent.servesEnabled, ?_⟩
  intro id channel hchannel hdisabled bs cache' hkinds hrest group model
  refine run_unlisted (fun g m hid => ?_) hkinds hrest group model
  obtain ⟨found, hfound, hlisted⟩ := hconsistent g m id hid
  obtain rfl : channel = found := Option.some.inj (hchannel.symm.trans hfound)
  exact hdisabled hlisted.enabled

/-- A channel with two keys for one model. -/
def sampleCachedChannel (id : ℤ) (isMultiKey : Bool) : Channel where
  id := id
  key := "sk-1\nsk-2"
  status := ChannelStatusEnabled
  weight := some 3
  models := "gpt-4o,o3"
  group := "default"
  priority := some 1
  tag := none
  otherInfo := none
  channelInfo := { ChannelInfo.empty with isMultiKey := isMultiKey, multiKeySize := 2 }

def sampleChannelTable : ChannelTable where
  rows := [sampleCachedChannel 1 false, sampleCachedChannel 2 true]
  nodup := by decide

def sampleCacheInit : CacheAction :=
  .initChannelCache sampleChannelTable (sampleCachedChannel 1 false).abilities

/-- A channel is disabled, and one of the two keys of another. -/
def orderlyChannelCacheRun : List CacheAction :=
  [sampleCacheInit, .updateChannelStatus 1 "" ChannelStatusAutoDisabled "" 10,
    .updateChannelStatus 2 "sk-1" ChannelStatusAutoDisabled "" 10,
    .cacheUpdateChannelStatus 1 ChannelStatusEnabled]

theorem cache_serves_enabled_orderly :
    ∃ cache, (channelCache fun _ => none).run empty orderlyChannelCacheRun = some cache ∧
      cache.group2model2channels "default" "o3" = [2] ∧ cache.ServesEnabled := by
  have hkeeps : (channelCache fun _ => none).Along (KeepsServing fun _ => none) empty
      orderlyChannelCacheRun := by
    decide +kernel
  exact ⟨_, rfl, by decide, (cache_serves_enabled hkeeps rfl).1⟩

/-- Both keys of a multi-key channel are disabled; its id stays in the lists. -/
theorem disabled_multi_key_channel_is_served :
    ¬ ∀ (unmarshal : String → Option (List String)) (as : List CacheAction) (cache : ChannelCache),
      (channelCache unmarshal).run empty as = some cache → cache.ServesEnabled := by
  intro hclaim
  have hserves := hclaim (fun _ => none)
    [sampleCacheInit, .updateChannelStatus 2 "sk-1" ChannelStatusAutoDisabled "" 10,
      .updateChannelStatus 2 "sk-2" ChannelStatusAutoDisabled "" 20] _ rfl
  obtain ⟨channel, hchannel, henabled⟩ := hserves "default" "o3" 2 (by decide)
  obtain rfl := Option.some.inj hchannel
  exact absurd henabled (by decide)

end NewApi.Model
