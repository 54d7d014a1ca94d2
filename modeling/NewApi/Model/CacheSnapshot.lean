import NewApi.Lib.PartialLoop
import NewApi.Model.AbilityMirror
import NewApi.Model.ChannelCache

/-!
# Building the cache from a snapshot of two tables

`InitChannelCache` makes the maps of the groups from the abilities and fills them from the channels.
It reads the two tables one after the other, and the functions that change both write one after the
other, so that an enabled channel may have a group that no ability has.  The group has no map then,
and the first write into it panics.
-/

namespace NewApi.Model

open NewApi.Lib

namespace ChannelCache

/-! ## The loops -/

/-- `newGroup2model2channels`. -/
abbrev ListMaps := AList fun _ : String => AList fun _ : String => List ℤ

/-- Each group of an ability gets an empty map. -/
def makeGroups (abilities : List Ability) : ListMaps :=
  abilities.foldl (fun maps ability => maps.insert ability.group ∅) ∅

/-- The write of the innermost loop: into the nil map of a missing group it panics. -/
def appendId (id : ℤ) (group : String) (maps : ListMaps) (model : String) : Option ListMaps :=
  (maps.lookup group).map fun models =>
    maps.insert group (models.insert model ((models.lookup model).getD [] ++ [id]))

def appendGroup (channel : Channel) (maps : ListMaps) (group : String) : Option ListMaps :=
  channel.models_.foldlM (appendId channel.id group) maps

def appendChannel (maps : ListMaps) (channel : Channel) : Option ListMaps :=
  if channel.status ≠ ChannelStatusEnabled then some maps
  else channel.groups_.foldlM (appendGroup channel) maps

/-- The ids by falling priority. -/
def byPriority (idm : ℤ → Option Channel) (ids : List ℤ) : List ℤ :=
  ids.insertionSort fun i j => priorityOf idm j ≤ priorityOf idm i

/-- The comparisons dereference the channels of the ids, if there is anything to compare. -/
def sortIds (idm : ℤ → Option Channel) (ids : List ℤ) : Option (List ℤ) :=
  if ids.length ≤ 1 ∨ ∀ id ∈ ids, (idm id).isSome then
    some (byPriority idm ids)
  else none

/-- The body of the loop that sorts. -/
def sortList (idm : ℤ → Option Channel) (maps : ListMaps) (place : String × String) :
    Option ListMaps :=
  (maps.lookup place.1).bind fun models =>
    (models.lookup place.2).bind fun ids =>
      (sortIds idm ids).map fun sorted => maps.insert place.1 (models.insert place.2 sorted)

/-- The places of the lists, in some order. -/
def places (maps : ListMaps) : List (String × String) :=
  maps.entries.flatMap fun entry => entry.2.keys.map fun model => (entry.1, model)

/-- The list at a place. -/
def listAt (maps : ListMaps) (group model : String) : List ℤ :=
  ((maps.lookup group).bind fun models => models.lookup model).getD []

/-- `InitChannelCache` on what it has read from the two tables, with its panics. -/
def initChannelCacheLoops (old : ChannelCache) (table : ChannelTable) (abilities : List Ability) :
    Option ChannelCache :=
  let idm := newChannelId2channel table.rows
  (table.rows.foldlM appendChannel (makeGroups abilities)).bind fun maps =>
    ((places maps).foldlM (sortList idm) maps).map fun sorted =>
      { group2model2channels := listAt sorted
        channelsIDM := fun id => (idm id).map (keepPollingIndex (old.channelsIDM id)) }

/-- Every group of an enabled channel is one of an ability. -/
def GroupsKnown (table : ChannelTable) (abilities : List Ability) : Prop :=
  ∀ channel ∈ table.rows, channel.status = ChannelStatusEnabled →
    ∀ group ∈ channel.groups_, group ∈ abilities.map Ability.group

/-- The lists go down in priority, and every enabled channel stands under each of its groups and
models. -/
structure ListsEnabled (cache : ChannelCache) (table : ChannelTable) : Prop where
  sorted : ∀ group model, (cache.group2model2channels group model).Pairwise fun i j =>
    priorityOf cache.channelsIDM j ≤ priorityOf cache.channelsIDM i
  listed : ∀ channel ∈ table.rows, channel.status = ChannelStatusEnabled →
    ∀ group ∈ channel.groups_, ∀ model ∈ channel.models_,
      channel.id ∈ cache.group2model2channels group model

section

variable {maps : ListMaps} {lists : String → String → List ℤ} {groups : List String}
  {channel : Channel} {id : ℤ} {group model : String} {idm : ℤ → Option Channel}

/-- The maps are there for these groups and hold these lists. -/
structure Represents (groups : List String) (maps : ListMaps) (lists : String → String → List ℤ) :
    Prop where
  groups : ∀ group, group ∈ maps ↔ group ∈ groups
  lists : ∀ group model, listAt maps group model = lists group model

theorem makeGroups_represents (abilities : List Ability) :
    Represents (abilities.map Ability.group) (makeGroups abilities) fun _ _ => [] := by
  have hfold : ∀ (abilities : List Ability) (maps : ListMaps) (groups : List String),
      Represents groups maps (fun _ _ => []) →
        Represents (groups ++ abilities.map Ability.group)
          (abilities.foldl (fun maps ability => maps.insert ability.group ∅) maps)
          fun _ _ => [] := by
    intro abilities
    induction abilities with
    | nil =>
        intro maps groups hrepresents
        rw [List.map_nil, List.append_nil]
        exact hrepresents
    | cons ability abilities ih =>
        intro maps groups hrepresents
        rw [List.map_cons, ← List.singleton_append, ← List.append_assoc, List.foldl_cons]
        refine ih _ _ ⟨fun group => ?_, fun group model => ?_⟩
        · rw [AList.mem_insert, hrepresents.groups, List.mem_append, List.mem_singleton, or_comm]
        · by_cases hgroup : group = ability.group
          · rw [hgroup, listAt, AList.lookup_insert]
            rfl
          · rw [listAt, AList.lookup_insert_ne hgroup]
            exact hrepresents.lists group model
  have hall := hfold abilities ∅ [] ⟨fun group => by simp, fun group model => rfl⟩
  exact hall

/-- A write puts a list at its place. -/
theorem Represents.insert (hrepresents : Represents groups maps lists)
    {models : AList fun _ : String => List ℤ} (hmodels : maps.lookup group = some models)
    (model : String) (ids : List ℤ) :
    Represents groups (maps.insert group (models.insert model ids))
      fun g m => if g = group ∧ m = model then ids else lists g m := by
  have hmem : group ∈ maps := AList.lookup_isSome.1 (by rw [hmodels]; rfl)
  constructor
  · intro other
    rw [AList.mem_insert, hrepresents.groups]
    refine or_iff_right_of_imp fun hsame => ?_
    rw [hsame]
    exact (hrepresents.groups group).1 hmem
  · intro g m
    by_cases hg : g = group
    · subst hg
      rw [listAt, AList.lookup_insert, Option.bind_some]
      by_cases hm : m = model
      · rw [hm, AList.lookup_insert, if_pos ⟨rfl, rfl⟩]
        rfl
      · rw [AList.lookup_insert_ne hm, if_neg fun hplace => hm hplace.2, ← hrepresents.lists,
          listAt, hmodels]
        rfl
    · rw [listAt, AList.lookup_insert_ne hg, if_neg fun hplace => hg hplace.1]
      exact hrepresents.lists g m

theorem appendId_defined (hrepresents : Represents groups maps lists) :
    DefinedIff (group ∈ groups) (appendId id group maps model) fun maps' =>
      Represents groups maps' (push lists id group model) := by
  rw [← hrepresents.groups]
  unfold appendId
  constructor
  · intro hmem
    obtain ⟨models, hmodels⟩ := Option.isSome_iff_exists.1 (AList.lookup_isSome.2 hmem)
    have hold : (models.lookup model).getD [] = lists group model := by
      rw [← hrepresents.lists, listAt, hmodels, Option.bind_some]
    have hinsert := hrepresents.insert hmodels model (lists group model ++ [id])
    refine ⟨maps.insert group (models.insert model (lists group model ++ [id])), ?_,
      hinsert.groups, fun g m => (hinsert.lists g m).trans ?_⟩
    · rw [hmodels, Option.map_some, hold]
    · rw [push]
      by_cases hplace : g = group ∧ m = model
      · rw [if_pos hplace, if_pos hplace, hplace.1, hplace.2]
      · rw [if_neg hplace, if_neg hplace]
  · intro hmem
    rw [AList.lookup_eq_none.2 hmem]
    rfl

theorem models_ne_nil (channel : Channel) : channel.models_ ≠ [] := by
  intro hnone
  rw [Channel.models_, Strings.split, List.map_eq_nil_iff] at hnone
  exact List.splitOn_ne_nil _ _ hnone

theorem appendGroup_defined (hrepresents : Represents groups maps lists) :
    DefinedIff (group ∈ groups) (appendGroup channel maps group) fun maps' =>
      Represents groups maps'
        (channel.models_.foldl (fun lists model => push lists channel.id group model) lists) := by
  have hloop := DefinedIff.foldlM (l := channel.models_) (f := appendId channel.id group)
    (g := fun lists model => push lists channel.id group model)
    (I := Represents groups) (P := fun _ => group ∈ groups)
    (fun model _ maps lists hrepresents => appendId_defined hrepresents) hrepresents
  refine hloop.congr ⟨fun hall => ?_, fun hgroup _ _ => hgroup⟩ fun _ hmaps => hmaps
  obtain ⟨model, hmodel⟩ := List.exists_mem_of_ne_nil _ (models_ne_nil channel)
  exact hall model hmodel

/-- The groups of an enabled channel. -/
theorem appendChannel_defined (hrepresents : Represents groups maps lists) :
    DefinedIff (channel.status = ChannelStatusEnabled → ∀ group ∈ channel.groups_, group ∈ groups)
      (appendChannel maps channel) fun maps' =>
        Represents groups maps' (if channel.status = ChannelStatusEnabled then enlist lists channel
          else lists) := by
  unfold appendChannel
  by_cases henabled : channel.status = ChannelStatusEnabled
  · rw [if_neg (not_not.2 henabled), if_pos henabled]
    have hloop := DefinedIff.foldlM (l := channel.groups_) (f := appendGroup channel)
      (I := Represents groups) (P := fun group => group ∈ groups)
      (fun group _ maps lists hrepresents => appendGroup_defined hrepresents) hrepresents
    exact hloop.congr ⟨fun hall _ => hall, fun hall => hall henabled⟩ fun _ hmaps => hmaps
  · rw [if_pos henabled, if_neg henabled]
    refine (DefinedIff.pure (R := fun maps' => Represents groups maps' lists) hrepresents).congr ?_
      fun _ hmaps => hmaps
    exact ⟨fun _ henabled' => absurd henabled' henabled, fun _ => trivial⟩

/-- The loop over the channels. -/
theorem appendChannels_defined (table : ChannelTable) (abilities : List Ability) :
    DefinedIff (GroupsKnown table abilities)
      (table.rows.foldlM appendChannel (makeGroups abilities)) fun maps =>
        Represents (abilities.map Ability.group) maps (newGroup2model2channels table.rows) := by
  have hloop := DefinedIff.foldlM (l := table.rows) (f := appendChannel)
    (g := fun lists channel => if channel.status = ChannelStatusEnabled then enlist lists channel
      else lists)
    (I := Represents (abilities.map Ability.group))
    (P := fun channel => channel.status = ChannelStatusEnabled →
      ∀ group ∈ channel.groups_, group ∈ abilities.map Ability.group)
    (fun channel _ maps lists hrepresents => appendChannel_defined hrepresents)
    (makeGroups_represents abilities)
  refine hloop.congr Iff.rfl fun maps hmaps => ?_
  rw [newGroup2model2channels, List.foldl_filter]
  simpa only [decide_eq_true_eq] using hmaps

theorem byPriority_pairwise (idm : ℤ → Option Channel) (ids : List ℤ) :
    (byPriority idm ids).Pairwise fun i j => priorityOf idm j ≤ priorityOf idm i := by
  have htotal : Std.Total fun i j : ℤ => priorityOf idm j ≤ priorityOf idm i :=
    ⟨fun i j => le_total (priorityOf idm j) (priorityOf idm i)⟩
  have htrans : IsTrans ℤ fun i j => priorityOf idm j ≤ priorityOf idm i :=
    ⟨fun i j k hij hjk => le_trans hjk hij⟩
  exact List.pairwise_insertionSort _ ids

theorem mem_byPriority {ids : List ℤ} : id ∈ byPriority idm ids ↔ id ∈ ids :=
  List.mem_insertionSort _

/-- Sorting twice is sorting once. -/
theorem byPriority_byPriority (idm : ℤ → Option Channel) (ids : List ℤ) :
    byPriority idm (byPriority idm ids) = byPriority idm ids :=
  (byPriority_pairwise idm ids).insertionSort_eq

/-- A list is at the place. -/
def HasList (maps : ListMaps) (place : String × String) : Prop :=
  ∃ models, maps.lookup place.1 = some models ∧ place.2 ∈ models

theorem mem_places {place : String × String} : place ∈ places maps ↔ HasList maps place := by
  unfold places HasList
  rw [List.mem_flatMap]
  constructor
  · intro hplace
    obtain ⟨⟨g, models⟩, hentry, hmodel⟩ := hplace
    obtain ⟨model, hkey, rfl⟩ := List.mem_map.1 hmodel
    exact ⟨models, AList.mem_lookup_iff.2 hentry, AList.mem_keys.2 hkey⟩
  · intro hplace
    obtain ⟨models, hmodels, hmodel⟩ := hplace
    exact ⟨⟨place.1, models⟩, AList.mem_lookup_iff.1 hmodels,
      List.mem_map.2 ⟨place.2, AList.mem_keys.1 hmodel, rfl⟩⟩

/-- What the loop that sorts does to the list at a place. -/
def sortAt (idm : ℤ → Option Channel) (lists : String → String → List ℤ)
    (place : String × String) : String → String → List ℤ :=
  fun g m => if g = place.1 ∧ m = place.2 then byPriority idm (lists place.1 place.2) else lists g m

/-- In the loop that sorts, the lists are there and their ids have channels. -/
structure Sortable (idm : ℤ → Option Channel) (groups : List String)
    (open_ : List (String × String)) (maps : ListMaps)
    (lists : String → String → List ℤ) : Prop where
  represents : Represents groups maps lists
  places : ∀ place ∈ open_, HasList maps place
  ids : ∀ group model, ∀ id ∈ lists group model, (idm id).isSome

theorem sortList_defined {open_ : List (String × String)} {place : String × String}
    (hplace : place ∈ open_) (hsortable : Sortable idm groups open_ maps lists) :
    DefinedIff True (sortList idm maps place) fun maps' =>
      Sortable idm groups open_ maps' (sortAt idm lists place) := by
  obtain ⟨models, hmodels, hmodel⟩ := hsortable.places place hplace
  obtain ⟨ids, hids⟩ := Option.isSome_iff_exists.1 (AList.lookup_isSome.2 hmodel)
  have hlist : lists place.1 place.2 = ids := by
    rw [← hsortable.represents.lists, listAt, hmodels, Option.bind_some, hids]
    rfl
  have hsort : sortIds idm ids = some (byPriority idm ids) :=
    if_pos (.inr fun id hid => hsortable.ids place.1 place.2 id (by rwa [hlist]))
  have hresult : sortList idm maps place =
      some (maps.insert place.1 (models.insert place.2 (byPriority idm ids))) := by
    rw [sortList, hmodels, Option.bind_some, hids, Option.bind_some, hsort, Option.map_some]
  rw [hresult]
  refine DefinedIff.pure ⟨?_, fun other hother => ?_, fun g m id hid => ?_⟩
  · have hinsert := hsortable.represents.insert hmodels place.2 (byPriority idm ids)
    unfold sortAt
    rw [hlist]
    exact hinsert
  · obtain ⟨others, hothers, hmem⟩ := hsortable.places other hother
    by_cases hgroup : other.1 = place.1
    · rw [hgroup, hmodels] at hothers
      obtain rfl := Option.some.inj hothers
      refine ⟨_, by rw [hgroup, AList.lookup_insert], (AList.mem_insert _).2 (.inr hmem)⟩
    · exact ⟨others, by rw [AList.lookup_insert_ne hgroup, hothers], hmem⟩
  · unfold sortAt at hid
    split at hid
    · exact hsortable.ids place.1 place.2 id (mem_byPriority.1 hid)
    · exact hsortable.ids g m id hid

/-- The loop sorts every list that it meets. -/
theorem foldl_sortAt (order : List (String × String)) (g m : String) :
    order.foldl (sortAt idm) lists g m =
      if (g, m) ∈ order then byPriority idm (lists g m) else lists g m := by
  induction order generalizing lists with
  | nil => rfl
  | cons place order ih =>
      rw [List.foldl_cons, ih]
      by_cases hplace : g = place.1 ∧ m = place.2
      · have hsame : (g, m) = place := Prod.ext hplace.1 hplace.2
        rw [sortAt, if_pos hplace, hsame, if_pos List.mem_cons_self, byPriority_byPriority,
          ite_self, hplace.1, hplace.2]
      · have hother : (g, m) ≠ place := fun hsame => hplace (by rw [← hsame]; exact ⟨rfl, rfl⟩)
        rw [sortAt, if_neg hplace]
        simp only [List.mem_cons, hother, false_or]

theorem listAt_of_not_mem_places (hplace : (group, model) ∉ places maps) :
    listAt maps group model = [] := by
  unfold listAt
  cases hmodels : maps.lookup group with
  | none => rfl
  | some models =>
      cases hids : models.lookup model with
      | none => rw [Option.bind_some, hids, Option.getD_none]
      | some ids =>
          have hmem : model ∈ models := AList.lookup_isSome.1 (by rw [hids]; rfl)
          exact absurd (mem_places.2 ⟨models, hmodels, hmem⟩) hplace

/-- The loop over all lists. -/
theorem sortLists_defined (hrepresents : Represents groups maps lists)
    (hids : ∀ group model, ∀ id ∈ lists group model, (idm id).isSome) :
    DefinedIff True ((places maps).foldlM (sortList idm) maps) fun sorted =>
      ∀ group model, listAt sorted group model = byPriority idm (lists group model) := by
  have hloop := DefinedIff.foldlM (l := places maps) (f := sortList idm) (g := sortAt idm)
    (I := Sortable idm groups (places maps)) (P := fun _ => True)
    (fun place hplace maps' lists' hsortable => sortList_defined hplace hsortable)
    ⟨hrepresents, fun place hplace => mem_places.1 hplace, hids⟩
  refine hloop.congr ⟨fun _ => trivial, fun _ _ _ => trivial⟩ fun sorted hsorted group model => ?_
  rw [hsorted.represents.lists, foldl_sortAt]
  split
  case isTrue => rfl
  case isFalse hplace =>
    have hempty : lists group model = [] := by
      rw [← hrepresents.lists, listAt_of_not_mem_places hplace]
    rw [hempty]
    rfl

theorem initChannelCache_of_known (old : ChannelCache) {table : ChannelTable}
    {abilities : List Ability} (hknown : GroupsKnown table abilities) :
    old.initChannelCache table abilities = some
      { group2model2channels := fun group model =>
          byPriority (newChannelId2channel table.rows)
            (newGroup2model2channels table.rows group model)
        channelsIDM := fun id =>
          (newChannelId2channel table.rows id).map (keepPollingIndex (old.channelsIDM id)) } :=
  if_pos hknown

theorem initChannelCache_of_not_known (old : ChannelCache) {table : ChannelTable}
    {abilities : List Ability} (hknown : ¬ GroupsKnown table abilities) :
    old.initChannelCache table abilities = none :=
  if_neg hknown

/-- The loops build what the specification of `InitChannelCache` says, and panic where it says. -/
theorem initChannelCacheLoops_eq (old : ChannelCache) (table : ChannelTable)
    (abilities : List Ability) :
    initChannelCacheLoops old table abilities = old.initChannelCache table abilities := by
  have happend := appendChannels_defined table abilities
  unfold initChannelCacheLoops
  by_cases hknown : GroupsKnown table abilities
  · obtain ⟨maps, hmaps, hrepresents⟩ := happend.1 hknown
    have hids : ∀ group model, ∀ id ∈ newGroup2model2channels table.rows group model,
        (newChannelId2channel table.rows id).isSome := by
      intro group model id hid
      obtain ⟨channel, hrow, -, rfl, -, -⟩ := mem_newGroup2model2channels.1 hid
      rw [(newChannelId2channel_eq table channel).2 ⟨hrow, rfl⟩]
      rfl
    obtain ⟨sorted, hsorted, hlists⟩ := (sortLists_defined hrepresents hids).1 trivial
    dsimp only
    rw [initChannelCache_of_known old hknown, hmaps, Option.bind_some, hsorted, Option.map_some,
      Option.some.injEq, ChannelCache.mk.injEq]
    exact ⟨funext fun group => funext fun model => hlists group model, rfl⟩
  · rw [initChannelCache_of_not_known old hknown, happend.2 hknown]
    rfl

theorem priorityOf_cached {old cache : ChannelCache} {table : ChannelTable}
    {abilities : List Ability} (hinit : old.initChannelCache table abilities = some cache)
    (id : ℤ) :
    priorityOf cache.channelsIDM id = priorityOf (newChannelId2channel table.rows) id := by
  unfold priorityOf
  rw [(initChannelCache_spec hinit).2]
  cases newChannelId2channel table.rows id with
  | none => rfl
  | some channel =>
      obtain ⟨hroute, -⟩ := keepPollingIndex_sameRoute (old.channelsIDM id) channel
      rw [Option.map_some, Option.map_some, Option.map_some, Channel.getPriority, hroute.priority]
      rfl

/-- On whatever it reads from the two tables, `InitChannelCache` completes with sorted lists of all
enabled channels exactly if every group of an enabled channel is one of an ability. -/
theorem cache_init_iff (old : ChannelCache) (table : ChannelTable) (abilities : List Ability) :
    (∃ cache, initChannelCacheLoops old table abilities = some cache ∧ cache.ListsEnabled table) ↔
      GroupsKnown table abilities := by
  rw [initChannelCacheLoops_eq]
  constructor
  · intro hinit
    by_contra hunknown
    obtain ⟨cache, hinit, -⟩ := hinit
    rw [initChannelCache_of_not_known old hunknown] at hinit
    cases hinit
  · intro hknown
    have hinit := initChannelCache_of_known old hknown
    refine ⟨_, hinit, fun group model => ?_, fun channel hrow henabled group hgroup model
      hmodel => ?_⟩
    · refine (byPriority_pairwise _ _).imp fun {i j} hle => ?_
      rw [priorityOf_cached hinit, priorityOf_cached hinit]
      exact hle
    · rw [((initChannelCache_spec hinit).1 group model).mem_iff, mem_newGroup2model2channels]
      exact ⟨channel, hrow, henabled, rfl, hgroup, hmodel⟩

end

end ChannelCache

/-! ## Between two writes -/

/-- The rows after the first write of `Insert`; the abilities follow with the second. -/
def ChannelStore.insertRow (s : ChannelStore) (channel : Channel) : ChannelStore :=
  { s with channels := s.channels ++ [channel.create] }

/-- A channel of a new group, read before its abilities are there. -/
theorem new_group_panics :
    ¬ ∀ (s : ChannelStore) (channel : Channel) (table : ChannelTable), s.Mirrored →
      table.rows = (s.insertRow channel).channels →
      ∃ cache,
        ChannelCache.initChannelCacheLoops ChannelCache.empty table s.abilities = some cache ∧
        cache.ListsEnabled table := by
  intro hclaim
  have hempty : ChannelStore.empty.Mirrored := ⟨List.nodup_nil, fun ability =>
    ⟨fun hability => (nomatch hability), fun hrow => by
      obtain ⟨row, hrow, -⟩ := hrow
      cases hrow⟩⟩
  have hinit := hclaim ChannelStore.empty (sampleChannel 1) ⟨[(sampleChannel 1).create], by decide⟩
    hempty rfl
  exact absurd ((ChannelCache.cache_init_iff _ _ _).1 hinit) (by
    intro hknown
    exact absurd (hknown _ (List.mem_singleton_self _) rfl "default" (by decide +kernel))
      (by decide +kernel))

end NewApi.Model
