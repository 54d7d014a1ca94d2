import NewApi.Lib.System
import NewApi.Model.Ability

/-!
# The channel operations on both tables

Every operation that writes channels also has to bring the abilities table along.  The
operations are complete functions here, run one after the other from an empty store with
every statement succeeding, and the question is which of them leave the abilities an exact
image of the channels.
-/

namespace NewApi.Model

open NewApi.Lib

/-- The `channels` and the `abilities` table. -/
structure ChannelStore where
  channels : List Channel
  abilities : List Ability
deriving DecidableEq

/-- The operations with their arguments.  `insert` and `batchInsertChannels` get the
channels with the ids that the database gives them; `cacheStops` says whether
`UpdateChannelStatus` returns at the memory cache. -/
inductive ChannelOp
  | insert (channel : Channel)
  | batchInsertChannels (channels : List Channel)
  | update (channel : Channel)
  | editChannelByTag (tag : String) (newTag models group : Option String)
      (priority : Option ℤ) (weight : Option ℕ)
  | enableChannelByTag (tag : String)
  | disableChannelByTag (tag : String)
  | batchSetChannelTag (ids : List ℤ) (tag : Option String)
  | updateChannelStatus (channelId : ℤ) (usingKey : String) (status : ℤ) (reason : String)
      (now : ℤ) (cacheStops : Bool)
  | delete (id : ℤ)
  | batchDeleteChannels (ids : List ℤ)
  | deleteChannelByStatus (status : ℤ)
  | deleteDisabledChannel
  | fixAbility

/-- The struct write of `Channel.Update`, which selects the row by its id. -/
def Channel.writeTo (unmarshal : String → Option (List String)) (channel row : Channel) :
    Channel :=
  if row.id = channel.id then row.updates unmarshal channel else row

theorem Channel.writeTo_id {unmarshal : String → Option (List String)}
    (channel row : Channel) : (channel.writeTo unmarshal row).id = row.id := by
  rw [writeTo]
  split <;> rfl

/-- The struct write of `EditChannelByTag` on one row. -/
def Channel.editByTag (tag : String) (newTag models group : Option String)
    (priority : Option ℤ) (weight : Option ℕ) (channel : Channel) : Channel :=
  if channel.tag = some tag then
    { channel with
      tag := some (newTag.getD tag)
      models := writeText channel.models (models.getD "")
      group := writeText channel.group (group.getD "")
      priority := priority.or channel.priority
      weight := weight.or channel.weight }
  else channel

def Channel.setStatusByTag (tag : String) (status : ℤ) (channel : Channel) : Channel :=
  if channel.tag = some tag then { channel with status := status } else channel

namespace ChannelStore

def empty : ChannelStore where
  channels := []
  abilities := []

def ids (s : ChannelStore) : List ℤ :=
  s.channels.map Channel.id

def insert (s : ChannelStore) (channel : Channel) : ChannelStore where
  channels := s.channels ++ [channel.create]
  abilities := channel.create.addAbilities s.abilities

/-- Create a batch of channels, then their abilities. -/
def insertBatch (s : ChannelStore) (batch : List Channel) : ChannelStore where
  channels := s.channels ++ batch.map Channel.create
  abilities := (batch.map Channel.create).foldl
    (fun table channel => channel.addAbilities table) s.abilities

def batchInsertChannels (s : ChannelStore) (channels : List Channel) : ChannelStore :=
  (chunk 50 channels).foldl insertBatch s

/-- Write the row if it exists, read it back and derive its abilities again.  When the id is
missing, the failing read leaves the caller's struct to derive them from; when it is zero
the write is refused. -/
def update (unmarshal : String → Option (List String)) (s : ChannelStore) (channel : Channel) :
    ChannelStore :=
  if channel.id = 0 then s
  else
    let channels := s.channels.map (channel.writeTo unmarshal)
    let channel := (channels.find? fun row => row.id = channel.id).getD channel
    { channels := channels, abilities := channel.updateAbilities s.abilities }

/-- `GetChannelsByTag`; its order only decides the order of the abilities. -/
def getChannelsByTag (channels : List Channel) (tag : String) : List Channel :=
  channels.filter fun row => row.tag = some tag

def editChannelByTag (s : ChannelStore) (tag : String) (newTag models group : Option String)
    (priority : Option ℤ) (weight : Option ℕ) : ChannelStore :=
  let channels := s.channels.map (Channel.editByTag tag newTag models group priority weight)
  if models.getD "" ≠ "" ∨ group.getD "" ≠ "" then
    { channels := channels
      abilities := (getChannelsByTag channels (newTag.getD tag)).foldl
        (fun table channel => channel.updateAbilities table) s.abilities }
  else
    { channels := channels
      abilities := s.abilities.map (updateAbilityByTag tag newTag priority weight) }

def setStatusByTag (s : ChannelStore) (tag : String) (status : ℤ) (enabled : Bool) :
    ChannelStore where
  channels := s.channels.map (Channel.setStatusByTag tag status)
  abilities := s.abilities.map (updateAbilityStatusByTag tag enabled)

def enableChannelByTag (s : ChannelStore) (tag : String) : ChannelStore :=
  s.setStatusByTag tag ChannelStatusEnabled true

def disableChannelByTag (s : ChannelStore) (tag : String) : ChannelStore :=
  s.setStatusByTag tag ChannelStatusManuallyDisabled false

/-- The tag is written inside the transaction, but the channels are read outside of it and
so still have their old tags. -/
def batchSetChannelTag (s : ChannelStore) (ids : List ℤ) (tag : Option String) :
    ChannelStore where
  channels := s.channels.map fun row => if row.id ∈ ids then { row with tag := tag } else row
  abilities := (s.channels.filter fun row => row.id ∈ ids).foldl
    (fun table channel => channel.updateAbilities table) s.abilities

/-- Save the row with the new status.  The abilities follow the requested status, for a
multi-key channel only when the status of the channel has changed. -/
def updateChannelStatus (unmarshal : String → Option (List String)) (s : ChannelStore)
    (channelId : ℤ) (usingKey : String) (status : ℤ) (reason : String) (now : ℤ)
    (cacheStops : Bool) : ChannelStore :=
  if cacheStops then s
  else
    match s.channels.find? fun row => row.id = channelId with
    | none => s
    | some channel =>
        if channel.status = status then s
        else
          let saved := channel.setStatus unmarshal usingKey status reason now
          let shouldUpdateAbilities :=
            !channel.channelInfo.isMultiKey || channel.status ≠ saved.status
          { channels := s.channels.map fun row => if row.id = channelId then saved else row
            abilities :=
              if shouldUpdateAbilities then
                s.abilities.map (updateAbilityStatus channelId (status = ChannelStatusEnabled))
              else s.abilities }

/-- Delete channels and their abilities. -/
def deleteBatch (s : ChannelStore) (batch : List ℤ) : ChannelStore where
  channels := s.channels.filter fun row => row.id ∉ batch
  abilities := deleteAbilities s.abilities batch

def delete (s : ChannelStore) (id : ℤ) : ChannelStore :=
  if id = 0 then s else s.deleteBatch [id]

def batchDeleteChannels (s : ChannelStore) (ids : List ℤ) : ChannelStore :=
  (chunk 200 ids).foldl deleteBatch s

/-- Only the channels are deleted. -/
def deleteChannelByStatus (s : ChannelStore) (status : ℤ) : ChannelStore :=
  { s with channels := s.channels.filter fun row => row.status ≠ status }

def deleteDisabledChannel (s : ChannelStore) : ChannelStore :=
  { s with
    channels := s.channels.filter fun row =>
      ¬(row.status = ChannelStatusAutoDisabled ∨ row.status = ChannelStatusManuallyDisabled) }

def fixAbility (s : ChannelStore) : ChannelStore :=
  { s with abilities := Model.fixAbility s.channels }

/-- One operation; an insert with an id that is taken fails. -/
def step (unmarshal : String → Option (List String)) (s : ChannelStore) :
    ChannelOp → Option ChannelStore
  | .insert channel => if channel.id ∈ s.ids then none else some (s.insert channel)
  | .batchInsertChannels channels =>
      if (s.ids ++ channels.map Channel.id).Nodup then some (s.batchInsertChannels channels)
      else none
  | .update channel => some (s.update unmarshal channel)
  | .editChannelByTag tag newTag models group priority weight =>
      some (s.editChannelByTag tag newTag models group priority weight)
  | .enableChannelByTag tag => some (s.enableChannelByTag tag)
  | .disableChannelByTag tag => some (s.disableChannelByTag tag)
  | .batchSetChannelTag ids tag => some (s.batchSetChannelTag ids tag)
  | .updateChannelStatus channelId usingKey status reason now cacheStops =>
      some (s.updateChannelStatus unmarshal channelId usingKey status reason now cacheStops)
  | .delete id => some (s.delete id)
  | .batchDeleteChannels ids => some (s.batchDeleteChannels ids)
  | .deleteChannelByStatus status => some (s.deleteChannelByStatus status)
  | .deleteDisabledChannel => some s.deleteDisabledChannel
  | .fixAbility => some s.fixAbility

/-- The abilities are exactly one row per channel, group and model of the channel, with the
channel's status, priority, weight and tag. -/
structure Mirrored (s : ChannelStore) : Prop where
  nodup : (s.abilities.map Ability.primaryKey).Nodup
  mem : ∀ ability, ability ∈ s.abilities ↔
    ∃ channel ∈ s.channels, ∃ group ∈ channel.groups_, ∃ model ∈ channel.models_,
      ability = channel.ability group model

/-- When a multi-key channel is enabled through one of its keys, a key without an entry in
the status list is left, so that the channel is not disabled instead. -/
def LeavesEnabledKey (unmarshal : String → Option (List String)) (channel : Channel)
    (usingKey : String) : Prop :=
  channel.channelInfo.isMultiKey = true → channel.status ≠ ChannelStatusAutoDisabled →
    channel.getKeys unmarshal ≠ [] →
      ((channel.channelInfo.multiKeyStatusList.erase
        (channel.keyIndex unmarshal usingKey)).keys.length : ℤ) <
          channel.channelInfo.multiKeySize

/-- The operation meets none of the cases in which the abilities are left behind. -/
def KeepsUp (unmarshal : String → Option (List String)) (s : ChannelStore) : ChannelOp → Prop
  | .insert channel => channel.create.KeysDistinct
  | .batchInsertChannels channels => ∀ channel ∈ channels, channel.create.KeysDistinct
  | .update channel =>
      channel.id = 0 ∨ channel.id ∈ s.ids ∧
        ∀ row ∈ s.channels, row.id = channel.id → (row.updates unmarshal channel).KeysDistinct
  | .editChannelByTag tag newTag models group priority weight =>
      if models.getD "" ≠ "" ∨ group.getD "" ≠ "" then
        ∀ row ∈ s.channels,
          (row.editByTag tag newTag models group priority weight).KeysDistinct
      else weight = some 0 → ∀ row ∈ s.channels, row.tag = some tag → row.getWeight = 0
  | .batchSetChannelTag ids tag => ∀ row ∈ s.channels, row.id ∈ ids → row.tag = tag
  | .updateChannelStatus channelId usingKey status _ _ cacheStops =>
      cacheStops = true ∨ status ≠ ChannelStatusEnabled ∨
        ∀ row ∈ s.channels, row.id = channelId → LeavesEnabledKey unmarshal row usingKey
  | .deleteChannelByStatus status => ∀ row ∈ s.channels, row.status ≠ status
  | .deleteDisabledChannel => ∀ row ∈ s.channels,
      row.status ≠ ChannelStatusAutoDisabled ∧ row.status ≠ ChannelStatusManuallyDisabled
  | _ => True

instance (unmarshal : String → Option (List String)) (channel : Channel) (usingKey : String) :
    Decidable (LeavesEnabledKey unmarshal channel usingKey) :=
  inferInstanceAs (Decidable (_ → _ → _ → _))

instance (unmarshal : String → Option (List String)) (s : ChannelStore) :
    ∀ op, Decidable (KeepsUp unmarshal s op)
  | .insert channel => inferInstanceAs (Decidable channel.create.KeysDistinct)
  | .batchInsertChannels channels =>
      inferInstanceAs (Decidable (∀ channel ∈ channels, channel.create.KeysDistinct))
  | .update channel => inferInstanceAs (Decidable (channel.id = 0 ∨ channel.id ∈ s.ids ∧
      ∀ row ∈ s.channels, row.id = channel.id → (row.updates unmarshal channel).KeysDistinct))
  | .editChannelByTag tag newTag models group priority weight =>
      inferInstanceAs (Decidable (if models.getD "" ≠ "" ∨ group.getD "" ≠ "" then
        ∀ row ∈ s.channels,
          (row.editByTag tag newTag models group priority weight).KeysDistinct
      else weight = some 0 → ∀ row ∈ s.channels, row.tag = some tag → row.getWeight = 0))
  | .enableChannelByTag _ => isTrue trivial
  | .disableChannelByTag _ => isTrue trivial
  | .batchSetChannelTag ids tag =>
      inferInstanceAs (Decidable (∀ row ∈ s.channels, row.id ∈ ids → row.tag = tag))
  | .updateChannelStatus channelId usingKey status _ _ cacheStops =>
      inferInstanceAs (Decidable (cacheStops = true ∨ status ≠ ChannelStatusEnabled ∨
        ∀ row ∈ s.channels, row.id = channelId → LeavesEnabledKey unmarshal row usingKey))
  | .delete _ => isTrue trivial
  | .batchDeleteChannels _ => isTrue trivial
  | .deleteChannelByStatus status =>
      inferInstanceAs (Decidable (∀ row ∈ s.channels, row.status ≠ status))
  | .deleteDisabledChannel => inferInstanceAs (Decidable (∀ row ∈ s.channels,
      row.status ≠ ChannelStatusAutoDisabled ∧ row.status ≠ ChannelStatusManuallyDisabled))
  | .fixAbility => isTrue trivial

/-- The invariant of the run: a mirror of channels that have a row for each of their
pairs. -/
structure Kept (s : ChannelStore) : Prop where
  mirrors : abilityView.Mirrors s.channels s.abilities
  distinct : ∀ channel ∈ s.channels, channel.KeysDistinct

variable {unmarshal : String → Option (List String)} {s s' : ChannelStore} {op : ChannelOp}

theorem Kept.mirrored (hkept : Kept s) : Mirrored s := by
  refine ⟨hkept.mirrors.nodup, fun ability => ?_⟩
  rw [hkept.mirrors.mem ability id]
  constructor
  · rintro ⟨channel, hchannel, hrow⟩
    exact ⟨channel, hchannel, (Channel.mem_abilities (hkept.distinct channel hchannel)).1 hrow⟩
  · rintro ⟨channel, hchannel, hrow⟩
    exact ⟨channel, hchannel, (Channel.mem_abilities (hkept.distinct channel hchannel)).2 hrow⟩

theorem empty_kept : Kept empty :=
  ⟨View.mirrors_nil, by simp [empty]⟩

/-- In-place updates of both tables that agree on the derived rows. -/
theorem map_kept {f : Channel → Channel} {g : Ability → Ability} (hkept : Kept s)
    (hid : ∀ row ∈ s.channels, (f row).id = row.id)
    (hmodels : ∀ row ∈ s.channels, (f row).models = row.models)
    (hgroup : ∀ row ∈ s.channels, (f row).group = row.group)
    (hpk : ∀ ability : Ability, (g ability).primaryKey = ability.primaryKey)
    (hability : ∀ row ∈ s.channels, ∀ group model,
      (f row).ability group model = g (row.ability group model)) :
    Kept ⟨s.channels.map f, s.abilities.map g⟩ := by
  constructor
  · refine hkept.mirrors.map hid hpk fun row hrow => ?_
    exact Channel.abilities_map (hmodels row hrow) (hgroup row hrow) (hability row hrow)
  · intro channel hchannel
    obtain ⟨row, hrow, rfl⟩ := List.mem_map.1 hchannel
    exact (Channel.keysDistinct_congr (hmodels row hrow) (hgroup row hrow)).2
      (hkept.distinct row hrow)

/-- An update of channels whose abilities are then derived again. -/
theorem refresh_kept {f : Channel → Channel} {records : List Channel} (hkept : Kept s)
    (hid : ∀ row ∈ s.channels, (f row).id = row.id)
    (hother : ∀ row ∈ s.channels, row.id ∉ records.map Channel.id → f row = row)
    (hrecords : ∀ record ∈ records, record ∈ s.channels.map f)
    (hdistinct : ∀ row ∈ s.channels, (f row).KeysDistinct) :
    Kept ⟨s.channels.map f,
      records.foldl (fun table channel => channel.updateAbilities table) s.abilities⟩ := by
  constructor
  · have houtside : abilityView.MirrorsOutside (fun k => k ∈ records.map Channel.id)
        (s.channels.map f) s.abilities :=
      hkept.mirrors.map_base hid fun row hrow hfresh => by rw [hother row hrow hfresh]
    simp only [updateAbilities_eq]
    refine houtside.refresh_all hrecords (fun row _ hstale => hstale) ?_
    intro ability hability _
    -- a stale row belongs to a channel, since the view was a mirror before
    obtain ⟨row, hrow, hder⟩ := (hkept.mirrors.mem ability id).1 hability
    have howner := abilityView.owner_rows row ability hder
    rw [howner]
    have hkey : abilityView.key (f row) = abilityView.key row := hid row hrow
    exact hkey ▸ List.mem_map_of_mem (List.mem_map_of_mem hrow)
  · intro channel hchannel
    obtain ⟨row, hrow, rfl⟩ := List.mem_map.1 hchannel
    exact hdistinct row hrow

/-- Removing nothing but channels that are not there. -/
theorem filter_kept {p : Channel → Bool} (hkept : Kept s)
    (hall : ∀ row ∈ s.channels, p row = true) :
    Kept { s with channels := s.channels.filter p } := by
  rw [List.filter_eq_self.2 hall]
  exact hkept

theorem insert_kept {channel : Channel} (hkept : Kept s) (hid : channel.id ∉ s.ids)
    (hdistinct : channel.create.KeysDistinct) : Kept (s.insert channel) := by
  constructor
  · rw [insert, addAbilities_eq]
    exact hkept.mirrors.append_one hid
  · intro row hrow
    rcases List.mem_append.1 hrow with hold | hnew
    · exact hkept.distinct row hold
    · obtain rfl : row = channel.create := by simpa using hnew
      exact hdistinct

theorem map_create_id (batch : List Channel) :
    (batch.map Channel.create).map Channel.id = batch.map Channel.id := by
  rw [List.map_map]
  rfl

theorem insertBatch_kept {batch : List Channel} (hkept : Kept s)
    (hids : (s.ids ++ batch.map Channel.id).Nodup)
    (hdistinct : ∀ channel ∈ batch, channel.create.KeysDistinct) :
    Kept (s.insertBatch batch) := by
  constructor
  · rw [insertBatch]
    simp only [addAbilities_eq]
    refine hkept.mirrors.append ?_
    show ((s.channels ++ batch.map Channel.create).map Channel.id).Nodup
    rw [List.map_append, map_create_id]
    exact hids
  · intro row hrow
    rcases List.mem_append.1 hrow with hold | hnew
    · exact hkept.distinct row hold
    · obtain ⟨channel, hchannel, rfl⟩ := List.mem_map.1 hnew
      exact hdistinct channel hchannel

theorem insertBatches_kept {batches : List (List Channel)} (hkept : Kept s)
    (hids : (s.ids ++ batches.flatten.map Channel.id).Nodup)
    (hdistinct : ∀ channel ∈ batches.flatten, channel.create.KeysDistinct) :
    Kept (batches.foldl insertBatch s) := by
  induction batches generalizing s with
  | nil => exact hkept
  | cons batch batches ih =>
      rw [List.flatten_cons] at hids hdistinct
      rw [List.map_append, ← List.append_assoc] at hids
      refine ih (insertBatch_kept hkept (List.Nodup.of_append_left hids) ?_) ?_ ?_
      · exact fun channel hchannel => hdistinct channel (List.mem_append_left _ hchannel)
      · rw [ids, insertBatch, List.map_append, map_create_id]
        exact hids
      · exact fun channel hchannel => hdistinct channel (List.mem_append_right _ hchannel)

theorem batchInsertChannels_kept {channels : List Channel} (hkept : Kept s)
    (hids : (s.ids ++ channels.map Channel.id).Nodup)
    (hdistinct : ∀ channel ∈ channels, channel.create.KeysDistinct) :
    Kept (s.batchInsertChannels channels) := by
  have hflat : (chunk 50 channels).flatten = channels := flatten_chunk (by decide) channels
  refine insertBatches_kept hkept ?_ ?_ <;> rwa [hflat]

theorem update_kept {channel : Channel} (hkept : Kept s) (hid : channel.id ∈ s.ids)
    (hdistinct : ∀ row ∈ s.channels, row.id = channel.id →
      (row.updates unmarshal channel).KeysDistinct) :
    Kept (s.update unmarshal channel) := by
  rw [update]
  split
  case isTrue hzero => exact hkept
  case isFalse hnonzero =>
    obtain ⟨row, hrow, hrowid⟩ := List.mem_map.1 hid
    have hfound : ((s.channels.map (channel.writeTo unmarshal)).find? fun row =>
        row.id = channel.id).isSome := by
      rw [List.find?_isSome]
      exact ⟨_, List.mem_map_of_mem hrow, by simp [Channel.writeTo_id, hrowid]⟩
    obtain ⟨stored, hstored⟩ := Option.isSome_iff_exists.1 hfound
    have hstoredid : stored.id = channel.id := by simpa using List.find?_some hstored
    dsimp only
    rw [hstored, Option.getD_some]
    show Kept ⟨_, [stored].foldl (fun table channel => channel.updateAbilities table) s.abilities⟩
    refine refresh_kept hkept (fun row _ => Channel.writeTo_id channel row) ?_ ?_ ?_
    · intro row _ hother
      have hne : row.id ≠ channel.id := by simpa [hstoredid] using hother
      exact if_neg hne
    · intro record hrecord
      obtain rfl : record = stored := by simpa using hrecord
      exact List.mem_of_find?_eq_some hstored
    · intro row hrow
      rw [Channel.writeTo]
      split
      case isTrue heq => exact hdistinct row hrow heq
      case isFalse hne => exact hkept.distinct row hrow

/-- Editing by tag with the abilities derived again. -/
theorem editChannelByTag_recreate_kept {tag : String} {newTag models group : Option String}
    {priority : Option ℤ} {weight : Option ℕ} (hkept : Kept s)
    (hdistinct : ∀ row ∈ s.channels,
      (row.editByTag tag newTag models group priority weight).KeysDistinct) :
    Kept ⟨s.channels.map (Channel.editByTag tag newTag models group priority weight),
      (getChannelsByTag
        (s.channels.map (Channel.editByTag tag newTag models group priority weight))
        (newTag.getD tag)).foldl (fun table channel => channel.updateAbilities table)
          s.abilities⟩ := by
  have hid : ∀ row : Channel,
      (row.editByTag tag newTag models group priority weight).id = row.id := by
    intro row
    rw [Channel.editByTag]
    split <;> rfl
  refine refresh_kept hkept (fun row _ => hid row) ?_ ?_ hdistinct
  · intro row hrow hother
    -- an edited row has the updated tag, so it is among those derived again
    by_contra hedited
    refine hother ?_
    have htag : row.tag = some tag := by
      by_contra hne
      exact hedited (if_neg hne)
    rw [← hid row]
    refine List.mem_map_of_mem (List.mem_filter.2 ⟨List.mem_map_of_mem hrow, ?_⟩)
    simp [Channel.editByTag, htag]
  · intro record hrecord
    exact (List.mem_filter.1 hrecord).1

/-- Editing by tag with the abilities updated in place: right unless the weight becomes zero,
which the struct write of the abilities skips. -/
theorem editChannelByTag_update_kept {tag : String} {newTag models group : Option String}
    {priority : Option ℤ} {weight : Option ℕ} (hkept : Kept s)
    (hmodels : models.getD "" = "") (hgroup : group.getD "" = "")
    (hweight : weight = some 0 → ∀ row ∈ s.channels, row.tag = some tag → row.getWeight = 0) :
    Kept ⟨s.channels.map (Channel.editByTag tag newTag models group priority weight),
      s.abilities.map (updateAbilityByTag tag newTag priority weight)⟩ := by
  refine map_kept hkept ?_ ?_ ?_ ?_ ?_
  · intro row _
    rw [Channel.editByTag]
    split <;> rfl
  · intro row _
    rw [Channel.editByTag, hmodels]
    split <;> rfl
  · intro row _
    rw [Channel.editByTag, hgroup]
    split <;> rfl
  · intro ability
    rw [updateAbilityByTag]
    split <;> rfl
  · intro row hrow group model
    rw [Channel.editByTag, updateAbilityByTag]
    by_cases htag : row.tag = some tag
    · have hsame : (row.ability group model).tag = some tag := htag
      rw [if_pos htag, if_pos hsame]
      have hnewTag : some (newTag.getD tag) = newTag.or (some tag) := by cases newTag <;> rfl
      have hpriority : (priority.or row.priority).getD 0 = priority.getD (row.priority.getD 0) := by
        cases priority <;> rfl
      have hnewWeight : (weight.or row.weight).getD 0 =
          if weight.getD 0 = 0 then row.weight.getD 0 else weight.getD 0 := by
        cases weight with
        | none => rfl
        | some w =>
            by_cases hzero : w = 0
            · subst hzero
              show 0 = row.getWeight
              exact (hweight rfl row hrow htag).symm
            · simp [hzero]
      simp only [Channel.ability, Channel.getPriority, Channel.getWeight, htag, hnewTag,
        hpriority, hnewWeight]
    · have hother : (row.ability group model).tag ≠ some tag := htag
      rw [if_neg htag, if_neg hother]

theorem editChannelByTag_kept {tag : String} {newTag models group : Option String}
    {priority : Option ℤ} {weight : Option ℕ} (hkept : Kept s)
    (hkeeps : KeepsUp unmarshal s (.editChannelByTag tag newTag models group priority weight)) :
    Kept (s.editChannelByTag tag newTag models group priority weight) := by
  rw [editChannelByTag]
  rw [KeepsUp] at hkeeps
  split
  case isTrue hrecreate =>
    rw [if_pos hrecreate] at hkeeps
    exact editChannelByTag_recreate_kept hkept hkeeps
  case isFalse hupdate =>
    rw [if_neg hupdate] at hkeeps
    rw [not_or, not_not, not_not] at hupdate
    exact editChannelByTag_update_kept hkept hupdate.1 hupdate.2 hkeeps

theorem setStatusByTag_kept {tag : String} {status : ℤ} {enabled : Bool} (hkept : Kept s)
    (henabled : enabled = decide (status = ChannelStatusEnabled)) :
    Kept (s.setStatusByTag tag status enabled) := by
  refine map_kept hkept ?_ ?_ ?_ ?_ ?_
  · intro row _
    rw [Channel.setStatusByTag]
    split <;> rfl
  · intro row _
    rw [Channel.setStatusByTag]
    split <;> rfl
  · intro row _
    rw [Channel.setStatusByTag]
    split <;> rfl
  · intro ability
    rw [updateAbilityStatusByTag]
    split <;> rfl
  · intro row _ group model
    rw [Channel.setStatusByTag, updateAbilityStatusByTag]
    by_cases htag : row.tag = some tag
    · have hsame : (row.ability group model).tag = some tag := htag
      rw [if_pos htag, if_pos hsame, henabled]
      rfl
    · have hother : (row.ability group model).tag ≠ some tag := htag
      rw [if_neg htag, if_neg hother]

/-- The channels are read with their old tags, so only tags that stay leave the tables in
line. -/
theorem batchSetChannelTag_kept {ids : List ℤ} {tag : Option String} (hkept : Kept s)
    (htag : ∀ row ∈ s.channels, row.id ∈ ids → row.tag = tag) :
    Kept (s.batchSetChannelTag ids tag) := by
  have hsame : ∀ row ∈ s.channels,
      (if row.id ∈ ids then { row with tag := tag } else row) = row := by
    intro row hrow
    split
    case isTrue hmem => rw [← htag row hrow hmem]
    case isFalse hother => rfl
  have hchannels : (s.channels.map fun row =>
      if row.id ∈ ids then { row with tag := tag } else row) = s.channels :=
    (List.map_congr_left hsame).trans (List.map_id _)
  refine refresh_kept hkept ?_ ?_ ?_ ?_
  · intro row hrow
    rw [hsame row hrow]
  · intro row hrow _
    exact hsame row hrow
  · intro record hrecord
    rw [hchannels]
    exact (List.mem_filter.1 hrecord).1
  · intro row hrow
    rw [hsame row hrow]
    exact hkept.distinct row hrow

/-- Saving one row with the same route, and its abilities updated in place. -/
theorem saveRow_kept {channel saved : Channel} {g : Ability → Ability} (hkept : Kept s)
    (hmem : channel ∈ s.channels) (hroute : Channel.SameRoute saved channel)
    (hpk : ∀ ability : Ability, (g ability).primaryKey = ability.primaryKey)
    (hsaved : ∀ group model, saved.ability group model = g (channel.ability group model))
    (hother : ∀ ability : Ability, ability.channelId ≠ channel.id → g ability = ability) :
    Kept ⟨s.channels.map fun row => if row.id = channel.id then saved else row,
      s.abilities.map g⟩ := by
  have honly : ∀ row ∈ s.channels, row.id = channel.id → row = channel := fun row hrow hid =>
    View.eq_of_key hkept.mirrors.keys hrow hmem hid
  refine map_kept hkept ?_ ?_ ?_ hpk ?_
  · intro row _
    split
    case isTrue hid => exact hroute.id.trans hid.symm
    case isFalse hne => rfl
  · intro row hrow
    split
    case isTrue hid => exact honly row hrow hid ▸ hroute.models
    case isFalse hne => rfl
  · intro row hrow
    split
    case isTrue hid => exact honly row hrow hid ▸ hroute.group
    case isFalse hne => rfl
  · intro row hrow group model
    split
    case isTrue hid => exact honly row hrow hid ▸ hsaved group model
    case isFalse hne => exact (hother (row.ability group model) hne).symm

/-- The abilities follow the requested status where the saved row is enabled exactly when
enabling was requested. -/
theorem saveStatus_kept {channel saved : Channel} {status : ℤ} (hkept : Kept s)
    (hmem : channel ∈ s.channels) (hroute : Channel.SameRoute saved channel)
    (hstatus : saved.status = ChannelStatusEnabled ↔ status = ChannelStatusEnabled) :
    Kept ⟨s.channels.map fun row => if row.id = channel.id then saved else row,
      s.abilities.map (updateAbilityStatus channel.id (status = ChannelStatusEnabled))⟩ := by
  refine saveRow_kept hkept hmem hroute ?_ ?_ ?_
  · intro ability
    rw [updateAbilityStatus]
    split <;> rfl
  · intro group model
    have hsame : (channel.ability group model).channelId = channel.id := rfl
    rw [updateAbilityStatus, if_pos hsame]
    simp only [Channel.ability, Channel.getPriority, Channel.getWeight, hroute.id,
      hroute.priority, hroute.weight, hroute.tag, hstatus]
  · intro ability hne
    rw [updateAbilityStatus, if_neg hne]

/-- A row saved with its old status leaves its abilities right. -/
theorem saveSameStatus_kept {channel saved : Channel} (hkept : Kept s)
    (hmem : channel ∈ s.channels) (hroute : Channel.SameRoute saved channel)
    (hstatus : channel.status = saved.status) :
    Kept ⟨s.channels.map fun row => if row.id = channel.id then saved else row,
      s.abilities⟩ := by
  have hrow := saveRow_kept (g := id) hkept hmem hroute (fun _ => rfl) (fun group model => by
    simp only [Channel.ability, Channel.getPriority, Channel.getWeight, hroute.id,
      hroute.priority, hroute.weight, hroute.tag, hstatus, id_eq]) (fun _ _ => rfl)
  rwa [List.map_id] at hrow

/-- A status change that is not swallowed by the key list enables the channel exactly when
that was requested. -/
theorem setStatus_enabled {channel : Channel} {usingKey reason : String} {status now : ℤ}
    (hkeeps : status ≠ ChannelStatusEnabled ∨ LeavesEnabledKey unmarshal channel usingKey)
    (hchanges : channel.channelInfo.isMultiKey = true →
      channel.status ≠ (channel.setStatus unmarshal usingKey status reason now).status) :
    (channel.setStatus unmarshal usingKey status reason now).status = ChannelStatusEnabled ↔
      status = ChannelStatusEnabled := by
  rw [Channel.setStatus] at hchanges ⊢
  cases hmulti : channel.channelInfo.isMultiKey with
  | false => exact Iff.rfl
  | true =>
      have hne := hchanges hmulti
      rw [hmulti, if_pos rfl, Channel.handlerMultiKeyUpdate] at hne
      rw [if_pos rfl, Channel.handlerMultiKeyUpdate]
      by_cases hkeys : channel.getKeys unmarshal = []
      · rw [if_pos hkeys]
      · rw [if_neg hkeys] at hne ⊢
        dsimp only at hne ⊢
        split
        case isTrue hall =>
          -- all keys are off now, which enabling one of them must not lead to
          rw [if_pos hall] at hne
          have hdisabled : ChannelStatusAutoDisabled ≠ ChannelStatusEnabled := by decide
          refine iff_of_false hdisabled fun henable => ?_
          have hleft := hkeeps.resolve_left (not_not.2 henable) hmulti hne hkeys
          rw [ChannelInfo.setKeyStatus, if_pos henable] at hall
          exact absurd hall (Int.not_le.2 hleft)
        case isFalse hsome =>
          rw [if_neg hsome] at hne
          exact absurd rfl hne

theorem updateChannelStatus_kept {channelId status now : ℤ} {usingKey reason : String}
    {cacheStops : Bool} (hkept : Kept s)
    (hkeeps : KeepsUp unmarshal s
      (.updateChannelStatus channelId usingKey status reason now cacheStops)) :
    Kept (s.updateChannelStatus unmarshal channelId usingKey status reason now cacheStops) := by
  rw [updateChannelStatus]
  cases cacheStops with
  | true => exact hkept
  | false =>
      rw [if_neg (by simp)]
      cases hfind : s.channels.find? fun row => row.id = channelId with
      | none => exact hkept
      | some channel =>
          have hmem : channel ∈ s.channels := List.mem_of_find?_eq_some hfind
          obtain rfl : channel.id = channelId := by simpa using List.find?_some hfind
          have hroute : Channel.SameRoute
              (channel.setStatus unmarshal usingKey status reason now) channel :=
            Channel.setStatus_sameRoute channel usingKey reason status now
          have hkey : status ≠ ChannelStatusEnabled ∨ LeavesEnabledKey unmarshal channel usingKey :=
            (hkeeps.resolve_left (by simp)).imp_right fun hall => hall channel hmem rfl
          dsimp only
          by_cases hsame : channel.status = status
          · rwa [if_pos hsame]
          · rw [if_neg hsame]
            split
            case isTrue hupdate =>
              refine saveStatus_kept hkept hmem hroute (setStatus_enabled hkey fun hmulti => ?_)
              simpa [hmulti] using hupdate
            case isFalse hkeep =>
              rw [Bool.or_eq_true, not_or] at hkeep
              exact saveSameStatus_kept hkept hmem hroute (by simpa using hkeep.2)

theorem deleteBatch_kept {batch : List ℤ} (hkept : Kept s) : Kept (s.deleteBatch batch) := by
  constructor
  · exact hkept.mirrors.filter (p := fun row => decide (row.id ∉ batch))
      (q := fun id : ℤ => decide (id ∉ batch)) fun _ _ => rfl
  · intro row hrow
    exact hkept.distinct row (List.mem_of_mem_filter hrow)

theorem deleteBatches_kept {batches : List (List ℤ)} (hkept : Kept s) :
    Kept (batches.foldl deleteBatch s) := by
  induction batches generalizing s with
  | nil => exact hkept
  | cons batch batches ih => exact ih (deleteBatch_kept hkept)

theorem delete_kept {id : ℤ} (hkept : Kept s) : Kept (s.delete id) := by
  rw [delete]
  split
  case isTrue hzero => exact hkept
  case isFalse hnonzero => exact deleteBatch_kept hkept

/-- Adding the rows of channels batch by batch: the rows deleted before each batch are none,
since its channels have no rows yet. -/
theorem fixBatches_mirrors {base : List Channel} {table : List Ability}
    {batches : List (List Channel)} (hmirrors : abilityView.Mirrors base table)
    (hids : ((base ++ batches.flatten).map Channel.id).Nodup) :
    abilityView.Mirrors (base ++ batches.flatten)
      (batches.foldl (fun table batch =>
        batch.foldl (fun table channel => channel.addAbilities table)
          (deleteAbilities table (batch.map Channel.id))) table) := by
  induction batches generalizing base table with
  | nil => simpa using hmirrors
  | cons batch batches ih =>
      rw [List.flatten_cons, ← List.append_assoc] at hids ⊢
      have hbatch : ((base ++ batch).map Channel.id).Nodup := by
        rw [List.map_append] at hids
        exact List.Nodup.of_append_left hids
      refine ih ?_ hids
      have hnone : deleteAbilities table (batch.map Channel.id) = table := by
        refine hmirrors.remove_new fun k hk hknown => ?_
        rw [List.map_append] at hbatch
        exact (List.disjoint_of_nodup_append hbatch) hknown hk
      dsimp only
      rw [hnone]
      simp only [addAbilities_eq]
      exact hmirrors.append hbatch

/-- `FixAbility` makes the abilities right whatever they were before. -/
theorem fixAbility_kept (hids : s.ids.Nodup)
    (hdistinct : ∀ row ∈ s.channels, row.KeysDistinct) : Kept s.fixAbility := by
  refine ⟨?_, hdistinct⟩
  have hflat : (chunk 50 s.channels).flatten = s.channels := flatten_chunk (by decide) _
  have hstart : abilityView.Mirrors [] [] := View.mirrors_nil
  have hall : (([] ++ (chunk 50 s.channels).flatten).map Channel.id).Nodup := by
    rw [List.nil_append, hflat]
    exact hids
  have hfixed := fixBatches_mirrors hstart hall
  rwa [List.nil_append, hflat] at hfixed

/-- Step lemma: an operation outside the known gaps keeps the tables in line. -/
theorem step_kept (hstep : s.step unmarshal op = some s') (hkeeps : KeepsUp unmarshal s op)
    (hkept : Kept s) : Kept s' := by
  cases op with
  | insert channel =>
      rw [step] at hstep
      split at hstep
      case isTrue htaken => cases hstep
      case isFalse hfresh =>
        cases hstep
        exact insert_kept hkept hfresh hkeeps
  | batchInsertChannels channels =>
      rw [step] at hstep
      split at hstep
      case isTrue hids =>
        cases hstep
        exact batchInsertChannels_kept hkept hids hkeeps
      case isFalse htaken => cases hstep
  | update channel =>
      cases hstep
      rcases hkeeps with hzero | ⟨hid, hdistinct⟩
      · rwa [update, if_pos hzero]
      · exact update_kept hkept hid hdistinct
  | editChannelByTag tag newTag models group priority weight =>
      cases hstep
      exact editChannelByTag_kept hkept hkeeps
  | enableChannelByTag tag =>
      cases hstep
      exact setStatusByTag_kept hkept rfl
  | disableChannelByTag tag =>
      cases hstep
      exact setStatusByTag_kept hkept rfl
  | batchSetChannelTag ids tag =>
      cases hstep
      exact batchSetChannelTag_kept hkept hkeeps
  | updateChannelStatus channelId usingKey status reason now cacheStops =>
      cases hstep
      exact updateChannelStatus_kept hkept hkeeps
  | delete id =>
      cases hstep
      exact delete_kept hkept
  | batchDeleteChannels ids =>
      cases hstep
      exact deleteBatches_kept hkept
  | deleteChannelByStatus status =>
      cases hstep
      exact filter_kept hkept fun row hrow => by simpa using hkeeps row hrow
  | deleteDisabledChannel =>
      cases hstep
      refine filter_kept hkept fun row hrow => ?_
      obtain ⟨hauto, hmanual⟩ := hkeeps row hrow
      simp [hauto, hmanual]
  | fixAbility =>
      cases hstep
      exact fixAbility_kept hkept.mirrors.keys hkept.distinct

end ChannelStore

open ChannelStore

/-- The channel operations as a system. -/
def channelStore (unmarshal : String → Option (List String)) :
    System ChannelStore ChannelOp where
  step := ChannelStore.step unmarshal

/-- Run lemma: from an empty store, operations outside the known gaps leave exactly one
ability per channel, group and model, with the channel's data. -/
theorem abilities_mirror_channels {unmarshal : String → Option (List String)}
    {s : ChannelStore} {ops : List ChannelOp}
    (hkeeps : (channelStore unmarshal).Along (KeepsUp unmarshal) empty ops)
    (hrun : (channelStore unmarshal).run empty ops = some s) : Mirrored s :=
  (System.invariant_run (I := Kept) (fun hstep hkeeps hkept => step_kept hstep hkeeps hkept)
    empty_kept hkeeps hrun).mirrored

/-- An enabled channel with two models for two groups. -/
def sampleChannel (id : ℤ) : Channel where
  id := id
  key := "sk-1"
  status := 0
  weight := some 3
  models := "gpt-4o,o3"
  group := "default,vip"
  priority := none
  tag := some "pool"
  otherInfo := none
  channelInfo := ChannelInfo.empty

def orderlyChannelOps : List ChannelOp :=
  [.insert (sampleChannel 1), .batchInsertChannels [sampleChannel 2, sampleChannel 3],
    .disableChannelByTag "pool", .editChannelByTag "pool" (some "spare") none none (some 5) none,
    .updateChannelStatus 1 "" ChannelStatusEnabled "" 10 false,
    .update { sampleChannel 2 with models := "o3" }, .delete 3, .fixAbility]

theorem abilities_mirror_channels_orderly :
    ∃ s, (channelStore fun _ => none).run empty orderlyChannelOps = some s ∧
      s.abilities.length = 6 ∧ Mirrored s := by
  have hkeeps : (channelStore fun _ => none).Along (KeepsUp fun _ => none) empty
      orderlyChannelOps := by
    decide
  exact ⟨_, rfl, by decide, abilities_mirror_channels hkeeps rfl⟩

/-- Deleting channels by status leaves their abilities behind. -/
theorem deleteChannelByStatus_leaves_abilities :
    ¬ ∀ (unmarshal : String → Option (List String)) (s : ChannelStore) (ops : List ChannelOp),
      (channelStore unmarshal).run empty ops = some s → Mirrored s := by
  intro hclaim
  have hrun : (channelStore fun _ => none).run empty
      [.insert (sampleChannel 1), .deleteChannelByStatus ChannelStatusEnabled] =
        some ⟨[], (sampleChannel 1).create.abilities⟩ := by
    decide
  have hrow : (sampleChannel 1).create.ability "default" "o3" ∈
      (sampleChannel 1).create.abilities := by
    decide
  obtain ⟨channel, hchannel, -⟩ := ((hclaim _ _ _ hrun).mem _).1 hrow
  cases hchannel

end NewApi.Model
