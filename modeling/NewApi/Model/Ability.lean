import NewApi.Lib.View
import NewApi.Model.Channel

/-!
# Abilities

One row of the `abilities` table says that a channel serves a model for a group.  The rows
are derived from the channels table: `abilityView` is that derivation, and the functions of
this file keep the table in line with it, by inserting, by deriving again or by updating
columns in place.
-/

namespace NewApi.Model

open NewApi.Lib NewApi.Lib.Strings

structure Ability where
  group : String
  model : String
  channelId : ℤ
  enabled : Bool
  priority : ℤ
  weight : ℕ
  tag : Option String
deriving DecidableEq

/-- The primary key of the table. -/
def Ability.primaryKey (ability : Ability) : String × String × ℤ :=
  (ability.group, ability.model, ability.channelId)

namespace Channel

/-- The row of a channel for one group and one model. -/
def ability (channel : Channel) (group model : String) : Ability where
  group := group
  model := model
  channelId := channel.id
  enabled := channel.status = ChannelStatusEnabled
  priority := channel.getPriority
  weight := channel.getWeight
  tag := channel.tag

def models_ (channel : Channel) : List String :=
  split channel.models ','

def groups_ (channel : Channel) : List String :=
  split channel.group ','

/-- The key under which a pair of a group and a model enters `abilitySet`. -/
def pairKey (pair : String × String) : String :=
  pair.1 ++ "|" ++ pair.2

/-- The pairs of a group and a model that get a row: those whose key is not in `abilitySet`
yet, in the order of the two loops. -/
def abilityPairs (channel : Channel) : List (String × String) :=
  channel.models_.foldl (fun pairs model =>
    channel.groups_.foldl (fun pairs group => insertIgnore pairKey pairs (group, model)) pairs) []

/-- The rows that `AddAbilities` and `UpdateAbilities` create. -/
def abilities (channel : Channel) : List Ability :=
  channel.abilityPairs.map fun pair => channel.ability pair.1 pair.2

/-- No two pairs of the channel have the same key. -/
def KeysDistinct (channel : Channel) : Prop :=
  ∀ group ∈ channel.groups_, ∀ model ∈ channel.models_,
    ∀ group' ∈ channel.groups_, ∀ model' ∈ channel.models_,
      pairKey (group, model) = pairKey (group', model') → group = group' ∧ model = model'

instance (channel : Channel) : Decidable channel.KeysDistinct :=
  inferInstanceAs (Decidable (∀ group ∈ channel.groups_, ∀ model ∈ channel.models_,
    ∀ group' ∈ channel.groups_, ∀ model' ∈ channel.models_,
      pairKey (group, model) = pairKey (group', model') → group = group' ∧ model = model'))

/-- The two loops are one pass over the pairs. -/
theorem abilityPairs_eq (channel : Channel) :
    channel.abilityPairs =
      (channel.models_.flatMap fun model => channel.groups_.map fun group => (group, model)).foldl
        (insertIgnore pairKey) [] := by
  rw [abilityPairs, List.foldl_flatMap]
  simp only [List.foldl_map]

theorem mem_pairs {channel : Channel} {pair : String × String} :
    pair ∈ (channel.models_.flatMap fun model =>
        channel.groups_.map fun group => (group, model)) ↔
      pair.1 ∈ channel.groups_ ∧ pair.2 ∈ channel.models_ := by
  simp only [List.mem_flatMap, List.mem_map]
  constructor
  · rintro ⟨model, hmodel, group, hgroup, rfl⟩
    exact ⟨hgroup, hmodel⟩
  · rintro ⟨hgroup, hmodel⟩
    exact ⟨pair.2, hmodel, pair.1, hgroup, rfl⟩

/-- Distinct keys make distinct rows. -/
theorem abilities_nodup (channel : Channel) :
    (channel.abilities.map Ability.primaryKey).Nodup := by
  have hkeys : (channel.abilityPairs.map pairKey).Nodup := by
    rw [abilityPairs_eq]
    exact insertIgnore_foldl_nodup (by simp)
  have hpairs : channel.abilityPairs.Nodup := hkeys.of_map
  rw [abilities, List.map_map]
  refine hpairs.map fun pair pair' heq => ?_
  simp only [Function.comp_apply, Ability.primaryKey, ability, Prod.mk.injEq] at heq
  exact Prod.ext heq.1 heq.2.1

theorem abilities_channelId {channel : Channel} {ability : Ability}
    (hmem : ability ∈ channel.abilities) : ability.channelId = channel.id := by
  obtain ⟨pair, -, rfl⟩ := List.mem_map.1 hmem
  rfl

/-- A channel whose keys are distinct gets a row for every group and model. -/
theorem mem_abilities {channel : Channel} (hdistinct : channel.KeysDistinct)
    {ability : Ability} :
    ability ∈ channel.abilities ↔
      ∃ group ∈ channel.groups_, ∃ model ∈ channel.models_,
        ability = channel.ability group model := by
  rw [abilities, List.mem_map, abilityPairs_eq]
  constructor
  · rintro ⟨pair, hpair, rfl⟩
    have hgiven := (mem_insertIgnore_foldl hpair).resolve_left (by simp)
    obtain ⟨hgroup, hmodel⟩ := mem_pairs.1 hgiven
    exact ⟨pair.1, hgroup, pair.2, hmodel, rfl⟩
  · rintro ⟨group, hgroup, model, hmodel, rfl⟩
    have hgiven := mem_pairs.2 (⟨hgroup, hmodel⟩ : (group, model).1 ∈ _ ∧ (group, model).2 ∈ _)
    -- the pair itself entered, since nothing else has its key
    have hentered := pk_mem_insertIgnore_foldl (.inr (List.mem_map_of_mem (f := pairKey) hgiven) :
      pairKey (group, model) ∈ ([] : List (String × String)).map pairKey ∨ _)
    obtain ⟨pair, hpair, hkey⟩ := List.mem_map.1 hentered
    have hother := (mem_insertIgnore_foldl hpair).resolve_left (by simp)
    obtain ⟨hgroup', hmodel'⟩ := mem_pairs.1 hother
    obtain ⟨hg, hm⟩ := hdistinct pair.1 hgroup' pair.2 hmodel' group hgroup model hmodel hkey
    exact ⟨pair, hpair, by rw [hg, hm]⟩

/-- Rows that are the same up to an update of the columns, for channels with the same
groups and models. -/
theorem abilities_map {channel channel' : Channel} {f : Ability → Ability}
    (hmodels : channel'.models = channel.models) (hgroup : channel'.group = channel.group)
    (hability : ∀ group model, channel'.ability group model = f (channel.ability group model)) :
    channel'.abilities = channel.abilities.map f := by
  have hpairs : channel'.abilityPairs = channel.abilityPairs := by
    rw [abilityPairs, abilityPairs, models_, models_, groups_, groups_, hmodels, hgroup]
  rw [abilities, abilities, hpairs, List.map_map]
  exact List.map_congr_left fun pair _ => hability pair.1 pair.2

theorem keysDistinct_congr {channel channel' : Channel}
    (hmodels : channel'.models = channel.models) (hgroup : channel'.group = channel.group) :
    channel'.KeysDistinct ↔ channel.KeysDistinct := by
  rw [KeysDistinct, KeysDistinct, models_, models_, groups_, groups_, hmodels, hgroup]

end Channel

/-- The abilities table as a view of the channels table. -/
def abilityView : View Channel Ability ℤ (String × String × ℤ) where
  key := Channel.id
  rows := Channel.abilities
  pk := Ability.primaryKey
  owner := fun pk => pk.2.2
  owner_rows := fun _ _ hmem => Channel.abilities_channelId hmem
  nodup_rows := Channel.abilities_nodup

/-- `Create` in batches, keeping rows that are already there. -/
def createAbilities (table : List Ability) (abilities : List Ability) : List Ability :=
  (chunk 50 abilities).foldl
    (fun table batch => batch.foldl (insertIgnore Ability.primaryKey) table) table

def deleteAbilities (table : List Ability) (channelIds : List ℤ) : List Ability :=
  table.filter fun ability => decide (ability.channelId ∉ channelIds)

namespace Channel

def addAbilities (channel : Channel) (table : List Ability) : List Ability :=
  createAbilities table channel.abilities

/-- Delete the rows of the channel and add them anew. -/
def updateAbilities (channel : Channel) (table : List Ability) : List Ability :=
  createAbilities (deleteAbilities table [channel.id]) channel.abilities

end Channel

def updateAbilityStatus (channelId : ℤ) (status : Bool) (ability : Ability) : Ability :=
  if ability.channelId = channelId then { ability with enabled := status } else ability

def updateAbilityStatusByTag (tag : String) (status : Bool) (ability : Ability) : Ability :=
  if ability.tag = some tag then { ability with enabled := status } else ability

/-- The struct write skips a weight of zero. -/
def updateAbilityByTag (tag : String) (newTag : Option String) (priority : Option ℤ)
    (weight : Option ℕ) (ability : Ability) : Ability :=
  if ability.tag = some tag then
    { ability with
      tag := newTag.or ability.tag
      priority := priority.getD ability.priority
      weight := if weight.getD 0 = 0 then ability.weight else weight.getD 0 }
  else ability

/-- Truncate the table, then add the rows of all channels in batches. -/
def fixAbility (channels : List Channel) : List Ability :=
  (chunk 50 channels).foldl (fun table batch =>
    batch.foldl (fun table channel => channel.addAbilities table)
      (deleteAbilities table (batch.map Channel.id))) []

theorem createAbilities_eq (table abilities : List Ability) :
    createAbilities table abilities =
      abilities.foldl (insertIgnore Ability.primaryKey) table := by
  rw [createAbilities, ← List.foldl_flatten, flatten_chunk (by decide)]

theorem addAbilities_eq (channel : Channel) (table : List Ability) :
    channel.addAbilities table = abilityView.add table channel :=
  createAbilities_eq table channel.abilities

theorem updateAbilities_eq (channel : Channel) (table : List Ability) :
    channel.updateAbilities table = abilityView.refresh table channel :=
  createAbilities_eq (deleteAbilities table [channel.id]) channel.abilities

end NewApi.Model
