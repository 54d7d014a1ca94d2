import Mathlib.Data.Finset.Card
import NewApi.Model.AbilityMirror
import NewApi.Model.ChannelCache

/-!
# The status of one key in the cache and in the tables

`UpdateChannelStatus` of a multi-key channel changes the status list of the cached channel and that
of the stored row, each with the same function, and brings the abilities along.  The theorem of
this file says when one call does that exactly: for the key that it was called for, in both stores,
with the channel enabled as long as one of its keys is.
-/

namespace NewApi.Model

namespace Channel

/- The JSON decoder for an array of raw values. -/
variable (unmarshal : String → Option (List String))

/-- A key without an entry is enabled. -/
def keyStatus (channel : Channel) (i : ℕ) : ℤ :=
  (channel.channelInfo.multiKeyStatusList.lookup i).getD ChannelStatusEnabled

def SomeKeyEnabled (channel : Channel) : Prop :=
  ∃ i < (channel.getKeys unmarshal).length, channel.keyStatus i = ChannelStatusEnabled

/-- The first enabled place from the polling index on, around the end of the keys. -/
def polledPlace (channel : Channel) (pollingIndex : ℤ) : Option ℕ :=
  let n := (channel.getKeys unmarshal).length
  let start := if pollingIndex < 0 ∨ n ≤ pollingIndex then 0 else pollingIndex.toNat
  ((List.range n).map fun i => (start + i) % n).find? fun i =>
    channel.keyStatus i = ChannelStatusEnabled

/-- A multi-key channel: its size counts the keys, its status list has entries of its keys only,
and no key stands there twice. -/
structure MultiKey (channel : Channel) : Prop where
  multi : channel.channelInfo.isMultiKey = true
  size : channel.channelInfo.multiKeySize = (channel.getKeys unmarshal).length
  range : ∀ i ∈ channel.channelInfo.multiKeyStatusList, i < (channel.getKeys unmarshal).length
  nodup : (channel.getKeys unmarshal).Nodup

/-- The status of the key has been set, and that of no other key. -/
structure KeySet (channel channel' : Channel) (usingKey : String) (status : ℤ) (reason : String)
    (now : ℤ) : Prop where
  set : ∀ i, (channel.getKeys unmarshal)[i]? = some usingKey → channel'.keyStatus i = status ∧
    (status ≠ ChannelStatusEnabled →
      channel'.channelInfo.multiKeyDisabledReason.lookup i = some reason ∧
      channel'.channelInfo.multiKeyDisabledTime.lookup i = some now)
  others : ∀ i < (channel.getKeys unmarshal).length,
    (channel.getKeys unmarshal)[i]? ≠ some usingKey →
      channel'.keyStatus i = channel.keyStatus i ∧
      (usingKey ∈ channel.getKeys unmarshal →
        channel'.channelInfo.multiKeyDisabledReason.lookup i =
          channel.channelInfo.multiKeyDisabledReason.lookup i ∧
        channel'.channelInfo.multiKeyDisabledTime.lookup i =
          channel.channelInfo.multiKeyDisabledTime.lookup i)

/-- The channel is enabled exactly while one of its keys is. -/
def Honest (channel : Channel) : Prop :=
  channel.status = ChannelStatusEnabled ↔ channel.SomeKeyEnabled unmarshal

/-- The key is one of the channel's, or the first key, which is taken for it, has that status. -/
def FindsKey (channel : Channel) (usingKey : String) (status : ℤ) : Prop :=
  channel.getKeys unmarshal = [] ∨ usingKey ∈ channel.getKeys unmarshal ∨
    channel.keyStatus 0 = status

/-- The last key without an entry is disabled. -/
def LastKey (channel : Channel) (usingKey : String) (status : ℤ) : Prop :=
  status ≠ ChannelStatusEnabled ∧ ∀ i < (channel.getKeys unmarshal).length,
    i ≠ channel.keyIndex unmarshal usingKey → i ∈ channel.channelInfo.multiKeyStatusList

/-- The channel need not be enabled again: it is enabled, or the last of its keys goes. -/
def FollowsKeys (channel : Channel) (usingKey : String) (status : ℤ) : Prop :=
  if channel.getKeys unmarshal = [] then status ≠ ChannelStatusEnabled
  else
    (channel.LastKey unmarshal usingKey status → ∀ i < (channel.getKeys unmarshal).length,
      i ≠ channel.keyIndex unmarshal usingKey → channel.keyStatus i ≠ ChannelStatusEnabled) ∧
    (¬ channel.LastKey unmarshal usingKey status → channel.status = ChannelStatusEnabled)

/-- The abilities of the channel are enabled while one of its keys is. -/
def AbilitiesHonest (channel : Channel) (abilities : List Ability) : Prop :=
  ∀ ability ∈ abilities, ability.channelId = channel.id →
    (ability.enabled = true ↔ channel.SomeKeyEnabled unmarshal)

/-- The abilities need not be changed, unless the status of the channel changes too. -/
def AbilitiesFollow (channel : Channel) (abilities : List Ability) (usingKey : String)
    (status : ℤ) : Prop :=
  channel.getKeys unmarshal ≠ [] → ∀ ability ∈ abilities, ability.channelId = channel.id →
    (channel.LastKey unmarshal usingKey status → channel.status = ChannelStatusAutoDisabled →
      ability.enabled = false) ∧
    (¬ channel.LastKey unmarshal usingKey status → ability.enabled = true)

section

variable {unmarshal} {channel : Channel} {usingKey reason : String} {status now : ℤ}

/-- Status list, reasons and times after the status of one key was recorded. -/
theorem setKeyStatus_lookup (info : ChannelInfo) (index i : ℕ) (status : ℤ) (reason : String)
    (now : ℤ) :
    ((info.setKeyStatus index status reason now).multiKeyStatusList.lookup i).getD
        ChannelStatusEnabled =
      if i = index then status
      else (info.multiKeyStatusList.lookup i).getD ChannelStatusEnabled := by
  unfold ChannelInfo.setKeyStatus
  split
  case isTrue henabled =>
    by_cases hi : i = index
    · subst hi
      simp [henabled]
    · simp [hi]
  case isFalse =>
    by_cases hi : i = index
    · subst hi
      simp
    · simp [hi]

theorem setKeyStatus_disabled (info : ChannelInfo) (index : ℕ) (reason : String) (now : ℤ)
    (hdisabled : status ≠ ChannelStatusEnabled) :
    (info.setKeyStatus index status reason now).multiKeyDisabledReason.lookup index = some reason ∧
    (info.setKeyStatus index status reason now).multiKeyDisabledTime.lookup index = some now := by
  rw [ChannelInfo.setKeyStatus, if_neg hdisabled]
  exact ⟨AList.lookup_insert _, AList.lookup_insert _⟩

theorem setKeyStatus_others (info : ChannelInfo) {index i : ℕ} (status : ℤ) (reason : String)
    (now : ℤ) (hi : i ≠ index) :
    (info.setKeyStatus index status reason now).multiKeyDisabledReason.lookup i =
      info.multiKeyDisabledReason.lookup i ∧
    (info.setKeyStatus index status reason now).multiKeyDisabledTime.lookup i =
      info.multiKeyDisabledTime.lookup i := by
  unfold ChannelInfo.setKeyStatus
  split
  · exact ⟨rfl, rfl⟩
  · exact ⟨AList.lookup_insert_ne hi, AList.lookup_insert_ne hi⟩

theorem mem_setKeyStatus (info : ChannelInfo) (index i : ℕ) (status : ℤ) (reason : String)
    (now : ℤ) :
    i ∈ (info.setKeyStatus index status reason now).multiKeyStatusList ↔
      (i = index ∧ status ≠ ChannelStatusEnabled) ∨ (i ≠ index ∧ i ∈ info.multiKeyStatusList) := by
  unfold ChannelInfo.setKeyStatus
  split
  case isTrue henabled =>
    rw [AList.mem_erase]
    simp [henabled]
  case isFalse hdisabled =>
    rw [AList.mem_insert]
    by_cases hi : i = index <;> simp [hi, hdisabled]

/-- The index of a key is its place, and some place where the key is unknown. -/
theorem keyIndex_lt (usingKey : String) (hkeys : channel.getKeys unmarshal ≠ []) :
    channel.keyIndex unmarshal usingKey < (channel.getKeys unmarshal).length := by
  unfold keyIndex
  cases hfind : (channel.getKeys unmarshal).findIdx? (· = usingKey) with
  | none => exact List.length_pos_iff.2 hkeys
  | some i => exact (List.findIdx?_eq_some_iff_getElem.1 hfind).1

theorem getElem_keyIndex (hmem : usingKey ∈ channel.getKeys unmarshal) :
    (channel.getKeys unmarshal)[channel.keyIndex unmarshal usingKey]? = some usingKey := by
  unfold keyIndex
  cases hfind : (channel.getKeys unmarshal).findIdx? (· = usingKey) with
  | none =>
      have hnone := List.findIdx?_eq_none_iff.1 hfind usingKey hmem
      simp at hnone
  | some i =>
      obtain ⟨hlt, hkey, -⟩ := List.findIdx?_eq_some_iff_getElem.1 hfind
      rw [Option.getD_some, List.getElem?_eq_getElem hlt]
      exact congrArg some (by simpa using hkey)

theorem keyIndex_of_notMem (hmem : usingKey ∉ channel.getKeys unmarshal) :
    channel.keyIndex unmarshal usingKey = 0 := by
  have hnone : (channel.getKeys unmarshal).findIdx? (· = usingKey) = none := by
    refine List.findIdx?_eq_none_iff.2 fun key hkey => ?_
    have hne : key ≠ usingKey := fun heq => hmem (heq ▸ hkey)
    simpa using hne
  rw [keyIndex, hnone, Option.getD_none]

/-- The place of a key in a list without repetitions. -/
theorem eq_keyIndex (hchannel : channel.MultiKey unmarshal) {i : ℕ}
    (hi : (channel.getKeys unmarshal)[i]? = some usingKey) :
    i = channel.keyIndex unmarshal usingKey := by
  obtain ⟨hlt, rfl⟩ := List.getElem?_eq_some_iff.1 hi
  have hindex := getElem_keyIndex (List.getElem_mem hlt)
  obtain ⟨hlt', heq⟩ := List.getElem?_eq_some_iff.1 hindex
  exact (hchannel.nodup.getElem_inj_iff.1 heq).symm

/-- A list of entries of the first `n` keys is full when every one of them has an entry. -/
theorem full_iff {list : AList fun _ : ℕ => ℤ} {n : ℕ} (hrange : ∀ i ∈ list, i < n) :
    n ≤ list.keys.length ↔ ∀ i < n, i ∈ list := by
  have hcard : list.keys.toFinset.card = list.keys.length :=
    List.toFinset_card_of_nodup list.keys_nodup
  have hsub : list.keys.toFinset ⊆ Finset.range n := by
    intro i hi
    exact Finset.mem_range.2 (hrange i (List.mem_toFinset.1 hi))
  constructor
  · intro hfull i hi
    have heq : list.keys.toFinset = Finset.range n := by
      refine Finset.eq_of_subset_of_card_le hsub ?_
      rwa [Finset.card_range, hcard]
    have hmem : i ∈ list.keys.toFinset := heq ▸ Finset.mem_range.2 hi
    exact AList.mem_keys.2 (List.mem_toFinset.1 hmem)
  · intro hall
    have hsup : Finset.range n ⊆ list.keys.toFinset := by
      intro i hi
      exact List.mem_toFinset.2 (AList.mem_keys.1 (hall i (Finset.mem_range.1 hi)))
    have hle := Finset.card_le_card hsup
    rwa [Finset.card_range, hcard] at hle

/-- The channel is turned off exactly with its last key. -/
theorem turnsOff_iff (usingKey reason : String) (status now : ℤ)
    (hchannel : channel.MultiKey unmarshal)
    (hkeys : channel.getKeys unmarshal ≠ []) :
    (channel.channelInfo.setKeyStatus (channel.keyIndex unmarshal usingKey) status reason
        now).multiKeySize ≤
      (channel.channelInfo.setKeyStatus (channel.keyIndex unmarshal usingKey) status reason
        now).multiKeyStatusList.keys.length ↔
      channel.LastKey unmarshal usingKey status := by
  have hsize : (channel.channelInfo.setKeyStatus (channel.keyIndex unmarshal usingKey) status
      reason now).multiKeySize = (channel.getKeys unmarshal).length := by
    rw [← hchannel.size]
    unfold ChannelInfo.setKeyStatus
    split <;> rfl
  have hrange : ∀ i ∈ (channel.channelInfo.setKeyStatus (channel.keyIndex unmarshal usingKey)
      status reason now).multiKeyStatusList, i < (channel.getKeys unmarshal).length := by
    intro i hi
    rcases (mem_setKeyStatus ..).1 hi with ⟨rfl, -⟩ | ⟨-, hold⟩
    · exact keyIndex_lt usingKey hkeys
    · exact hchannel.range i hold
  rw [hsize, Int.ofNat_le, full_iff hrange]
  constructor
  · intro hall
    refine ⟨?_, fun i hi hne => ?_⟩
    · rcases (mem_setKeyStatus ..).1 (hall _ (keyIndex_lt usingKey hkeys)) with
        ⟨-, hstatus⟩ | ⟨hne, -⟩
      · exact hstatus
      · exact absurd rfl hne
    · rcases (mem_setKeyStatus ..).1 (hall i hi) with ⟨rfl, -⟩ | ⟨-, hold⟩
      · exact absurd rfl hne
      · exact hold
  · rintro ⟨hstatus, hall⟩ i hi
    by_cases hne : i = channel.keyIndex unmarshal usingKey
    · exact (mem_setKeyStatus ..).2 (.inl ⟨hne, hstatus⟩)
    · exact (mem_setKeyStatus ..).2 (.inr ⟨hne, hall i hi hne⟩)

/-- What the key update of a channel with keys does. -/
theorem handlerMultiKeyUpdate_spec (usingKey reason : String) (status now : ℤ)
    (hchannel : channel.MultiKey unmarshal) (hkeys : channel.getKeys unmarshal ≠ []) :
    (channel.handlerMultiKeyUpdate unmarshal usingKey status reason now).channelInfo =
      channel.channelInfo.setKeyStatus (channel.keyIndex unmarshal usingKey) status reason now ∧
    (channel.LastKey unmarshal usingKey status →
      (channel.handlerMultiKeyUpdate unmarshal usingKey status reason now).status =
        ChannelStatusAutoDisabled) ∧
    (¬ channel.LastKey unmarshal usingKey status →
      (channel.handlerMultiKeyUpdate unmarshal usingKey status reason now).status =
        channel.status) := by
  have hoff := turnsOff_iff usingKey reason status now hchannel hkeys
  rw [handlerMultiKeyUpdate, if_neg hkeys]
  dsimp only
  split
  case isTrue hfull => exact ⟨rfl, fun _ => rfl, fun hleft => absurd (hoff.1 hfull) hleft⟩
  case isFalse hfull => exact ⟨rfl, fun hlast => absurd (hoff.2 hlast) hfull, fun _ => rfl⟩

theorem handlerMultiKeyUpdate_key :
    (channel.handlerMultiKeyUpdate unmarshal usingKey status reason now).key = channel.key := by
  rw [handlerMultiKeyUpdate]
  split
  · rfl
  · dsimp only
    split <;> rfl

theorem getKeys_congr {other : Channel} (hkey : other.key = channel.key) :
    other.getKeys unmarshal = channel.getKeys unmarshal := by
  rw [getKeys, getKeys, hkey]

theorem keyStatus_handler (hchannel : channel.MultiKey unmarshal)
    (hkeys : channel.getKeys unmarshal ≠ []) (i : ℕ) :
    (channel.handlerMultiKeyUpdate unmarshal usingKey status reason now).keyStatus i =
      if i = channel.keyIndex unmarshal usingKey then status else channel.keyStatus i := by
  rw [keyStatus, (handlerMultiKeyUpdate_spec usingKey reason status now hchannel hkeys).1]
  exact setKeyStatus_lookup ..

/-- The key update is exact when it finds the key. -/
theorem keySet_iff (hchannel : channel.MultiKey unmarshal) :
    KeySet unmarshal channel (channel.handlerMultiKeyUpdate unmarshal usingKey status reason now)
      usingKey status reason now ↔ channel.FindsKey unmarshal usingKey status := by
  by_cases hkeys : channel.getKeys unmarshal = []
  · refine iff_of_true ⟨fun i hi => ?_, fun i hi => ?_⟩ (.inl hkeys)
    · rw [hkeys] at hi
      cases hi
    · rw [hkeys] at hi
      cases hi
  have hindex := keyIndex_lt usingKey hkeys
  have hinfo := (handlerMultiKeyUpdate_spec usingKey reason status now hchannel hkeys).1
  constructor
  · intro hset
    by_cases hmem : usingKey ∈ channel.getKeys unmarshal
    · exact .inr (.inl hmem)
    · -- The first key was taken for the unknown one.
      have hfirst : channel.keyIndex unmarshal usingKey = 0 := keyIndex_of_notMem hmem
      have hother : (channel.getKeys unmarshal)[0]? ≠ some usingKey := fun heq =>
        hmem (List.mem_of_getElem? heq)
      have hsame := (hset.others 0 (hfirst ▸ hindex) hother).1
      rw [keyStatus_handler hchannel hkeys, if_pos hfirst.symm] at hsame
      exact .inr (.inr hsame.symm)
  · intro hfinds
    have hcases := hfinds.resolve_left hkeys
    refine ⟨fun i hi => ?_, fun i hi hne => ?_⟩
    · obtain rfl := eq_keyIndex hchannel hi
      rw [keyStatus_handler hchannel hkeys, if_pos rfl, hinfo]
      exact ⟨rfl, setKeyStatus_disabled _ _ _ _⟩
    · rw [keyStatus_handler hchannel hkeys, hinfo]
      by_cases hplace : i = channel.keyIndex unmarshal usingKey
      · -- Only the place of an unknown key is not that key.
        have hmem : usingKey ∉ channel.getKeys unmarshal := by
          intro hmem
          rw [hplace] at hne
          exact hne (getElem_keyIndex hmem)
        have hfirst := keyIndex_of_notMem hmem
        rw [if_pos hplace, hplace, hfirst]
        exact ⟨(hcases.resolve_left hmem).symm, fun h => absurd h hmem⟩
      · rw [if_neg hplace]
        exact ⟨rfl, fun _ => setKeyStatus_others _ _ _ _ hplace⟩

/-- Whether a key is left enabled. -/
theorem someKeyEnabled_handler (hchannel : channel.MultiKey unmarshal)
    (hkeys : channel.getKeys unmarshal ≠ []) :
    (channel.handlerMultiKeyUpdate unmarshal usingKey status reason now).SomeKeyEnabled unmarshal ↔
      status = ChannelStatusEnabled ∨ ∃ i < (channel.getKeys unmarshal).length,
        i ≠ channel.keyIndex unmarshal usingKey ∧ channel.keyStatus i = ChannelStatusEnabled := by
  rw [SomeKeyEnabled, getKeys_congr handlerMultiKeyUpdate_key]
  constructor
  · rintro ⟨i, hi, henabled⟩
    rw [keyStatus_handler hchannel hkeys] at henabled
    by_cases hplace : i = channel.keyIndex unmarshal usingKey
    · rw [if_pos hplace] at henabled
      exact .inl henabled
    · rw [if_neg hplace] at henabled
      exact .inr ⟨i, hi, hplace, henabled⟩
  · rintro (hstatus | ⟨i, hi, hplace, henabled⟩)
    · refine ⟨_, keyIndex_lt usingKey hkeys, ?_⟩
      rw [keyStatus_handler hchannel hkeys, if_pos rfl]
      exact hstatus
    · refine ⟨i, hi, ?_⟩
      rw [keyStatus_handler hchannel hkeys, if_neg hplace]
      exact henabled

/-- A key is left enabled unless the last one goes. -/
theorem someKeyEnabled_of_not_lastKey (reason : String) (now : ℤ)
    (hchannel : channel.MultiKey unmarshal)
    (hkeys : channel.getKeys unmarshal ≠ [])
    (hleft : ¬ channel.LastKey unmarshal usingKey status) :
    (channel.handlerMultiKeyUpdate unmarshal usingKey status reason now).SomeKeyEnabled
      unmarshal := by
  rw [someKeyEnabled_handler hchannel hkeys]
  by_cases hstatus : status = ChannelStatusEnabled
  · exact .inl hstatus
  · rw [LastKey, not_and] at hleft
    have hsome := hleft hstatus
    push Not at hsome
    obtain ⟨i, hi, hplace, hnone⟩ := hsome
    refine .inr ⟨i, hi, hplace, ?_⟩
    rw [keyStatus, AList.lookup_eq_none.2 hnone, Option.getD_none]

/-- After the key update the channel is enabled exactly while one of its keys is, when it need not
be enabled again. -/
theorem honest_iff (hchannel : channel.MultiKey unmarshal) :
    (channel.handlerMultiKeyUpdate unmarshal usingKey status reason now).Honest unmarshal ↔
      channel.FollowsKeys unmarshal usingKey status := by
  unfold FollowsKeys
  by_cases hkeys : channel.getKeys unmarshal = []
  · rw [if_pos hkeys, Honest, SomeKeyEnabled, getKeys_congr handlerMultiKeyUpdate_key, hkeys,
      handlerMultiKeyUpdate, if_pos hkeys]
    simp
  rw [if_neg hkeys]
  obtain ⟨-, hoff, hon⟩ := handlerMultiKeyUpdate_spec usingKey reason status now hchannel hkeys
  by_cases hlast : channel.LastKey unmarshal usingKey status
  · have hdisabled : ChannelStatusAutoDisabled ≠ ChannelStatusEnabled := by decide
    rw [Honest, hoff hlast, someKeyEnabled_handler hchannel hkeys]
    constructor
    · intro hhonest
      refine ⟨fun _ i hi hplace henabled => ?_, fun hleft => absurd hlast hleft⟩
      exact hdisabled (hhonest.2 (.inr ⟨i, hi, hplace, henabled⟩))
    · rintro ⟨hnone, -⟩
      refine iff_of_false hdisabled ?_
      rintro (hstatus | ⟨i, hi, hplace, henabled⟩)
      · exact hlast.1 hstatus
      · exact hnone hlast i hi hplace henabled
  · rw [Honest, hon hlast]
    have hsome := someKeyEnabled_of_not_lastKey reason now hchannel hkeys hlast
    constructor
    · intro hhonest
      exact ⟨fun h => absurd h hlast, fun _ => hhonest.2 hsome⟩
    · rintro ⟨-, henabled⟩
      exact iff_of_true (henabled hlast) hsome

/-- Abilities of a channel whose status was set. -/
theorem enabled_of_mem_map {abilities : List Ability} {ability : Ability} {id : ℤ} {enabled : Bool}
    (hmem : ability ∈ abilities.map (updateAbilityStatus id enabled))
    (hid : ability.channelId = id) : ability.enabled = enabled := by
  obtain ⟨old, -, rfl⟩ := List.mem_map.1 hmem
  by_cases hold : old.channelId = id
  · rw [updateAbilityStatus, if_pos hold]
  · rw [updateAbilityStatus, if_neg hold] at hid
    exact absurd hid hold

/-- The abilities after a key update of the stored row. -/
theorem abilitiesHonest_iff {abilities : List Ability} (hchannel : channel.MultiKey unmarshal)
    (hnew : channel.status ≠ status) (hfollows : channel.FollowsKeys unmarshal usingKey status) :
    (channel.handlerMultiKeyUpdate unmarshal usingKey status reason now).AbilitiesHonest unmarshal
      (if channel.status ≠
          (channel.handlerMultiKeyUpdate unmarshal usingKey status reason now).status then
        abilities.map (updateAbilityStatus channel.id (status = ChannelStatusEnabled))
      else abilities) ↔ channel.AbilitiesFollow unmarshal abilities usingKey status := by
  have hid : (channel.handlerMultiKeyUpdate unmarshal usingKey status reason now).id =
      channel.id :=
    (handlerMultiKeyUpdate_sameRoute channel usingKey reason status now).id
  have hhonest : (channel.handlerMultiKeyUpdate unmarshal usingKey status reason now).Honest
      unmarshal :=
    (honest_iff hchannel).2 hfollows
  rw [AbilitiesHonest, hid, AbilitiesFollow]
  by_cases hkeys : channel.getKeys unmarshal = []
  · rw [FollowsKeys, if_pos hkeys] at hfollows
    have hstatus : (channel.handlerMultiKeyUpdate unmarshal usingKey status reason now).status =
        status := by
      rw [handlerMultiKeyUpdate, if_pos hkeys]
    rw [hstatus, if_pos hnew]
    refine iff_of_true (fun ability hmem hability => ?_) fun hsome => absurd hkeys hsome
    have hnone := mt hhonest.2 (by rwa [hstatus])
    rw [enabled_of_mem_map hmem hability]
    simp [hfollows, hnone]
  obtain ⟨-, hoff, hon⟩ := handlerMultiKeyUpdate_spec usingKey reason status now hchannel hkeys
  by_cases hlast : channel.LastKey unmarshal usingKey status
  · have hdisabled : ChannelStatusAutoDisabled ≠ ChannelStatusEnabled := by decide
    have hnone := mt hhonest.2 (hoff hlast ▸ hdisabled)
    rw [hoff hlast]
    by_cases hauto : channel.status = ChannelStatusAutoDisabled
    · rw [if_neg (not_not.2 hauto)]
      constructor
      · intro hall _ ability hmem hability
        refine ⟨fun _ _ => ?_, fun hleft => absurd hlast hleft⟩
        exact Bool.eq_false_iff.2 fun henabled => hnone ((hall ability hmem hability).1 henabled)
      · intro hall ability hmem hability
        have hfalse := (hall hkeys ability hmem hability).1 hlast hauto
        simp [hfalse, hnone]
    · rw [if_pos hauto]
      refine iff_of_true (fun ability hmem hability => ?_) fun _ ability _ _ =>
        ⟨fun _ h => absurd h hauto, fun hleft => absurd hlast hleft⟩
      rw [enabled_of_mem_map hmem hability]
      simp [hlast.1, hnone]
  · have hsome := someKeyEnabled_of_not_lastKey reason now hchannel hkeys hlast
    rw [hon hlast, if_neg (not_not.2 rfl)]
    constructor
    · intro hall _ ability hmem hability
      exact ⟨fun h => absurd h hlast, fun _ => (hall ability hmem hability).2 hsome⟩
    · intro hall ability hmem hability
      exact iff_of_true ((hall hkeys ability hmem hability).2 hlast) hsome

end

end Channel

/-- The cache, and the tables behind it. -/
structure ChannelStores where
  cache : ChannelCache
  store : ChannelStore

namespace ChannelStores

/-- `UpdateChannelStatus` with the memory cache enabled. -/
def updateChannelStatus (unmarshal : String → Option (List String)) (s : ChannelStores)
    (channelId : ℤ) (usingKey : String) (status : ℤ) (reason : String) (now : ℤ) :
    ChannelStores where
  cache := s.cache.updateChannelStatus unmarshal channelId usingKey status reason now
  store :=
    let cacheStops :=
      match s.cache.channelsIDM channelId with
      | none => true
      | some channel => !channel.channelInfo.isMultiKey && channel.status = status
    s.store.updateChannelStatus unmarshal channelId usingKey status reason now cacheStops

/-- What a call leaves when the status of one key is exact: cached channel and stored row have the
key's status set and no other key's, and both and the abilities are enabled exactly while a key
is. -/
structure Exact (unmarshal : String → Option (List String)) (s' : ChannelStores) (channelId : ℤ)
    (cached row : Channel) (usingKey : String) (status : ℤ) (reason : String) (now : ℤ) : Prop where
  cache : ∃ cached', s'.cache.channelsIDM channelId = some cached' ∧
    Channel.KeySet unmarshal cached cached' usingKey status reason now ∧ cached'.Honest unmarshal
  store : ∃ row', s'.store.channels.find? (fun channel => channel.id = channelId) = some row' ∧
    Channel.KeySet unmarshal row row' usingKey status reason now ∧ row'.Honest unmarshal ∧
    row'.AbilitiesHonest unmarshal s'.store.abilities

/-- The condition: both copies find the key and need not be enabled again.  A stored row that
already has the requested status is left as it is, so that it has to be right already; else its
abilities need not be changed without it. -/
structure Settled (unmarshal : String → Option (List String)) (s : ChannelStores)
    (cached row : Channel) (usingKey : String) (status : ℤ) (reason : String) (now : ℤ) : Prop where
  cacheKey : cached.FindsKey unmarshal usingKey status
  cacheStatus : cached.FollowsKeys unmarshal usingKey status
  same : row.status = status → Channel.KeySet unmarshal row row usingKey status reason now ∧
    row.Honest unmarshal ∧ row.AbilitiesHonest unmarshal s.store.abilities
  new : row.status ≠ status → row.FindsKey unmarshal usingKey status ∧
    row.FollowsKeys unmarshal usingKey status ∧
    row.AbilitiesFollow unmarshal s.store.abilities usingKey status

section

variable {unmarshal : String → Option (List String)} {s : ChannelStores} {cached row : Channel}
  {channelId : ℤ} {usingKey reason : String} {status now : ℤ}

/-- The cached channel after the call. -/
theorem updateChannelStatus_cache (usingKey reason : String) (status now : ℤ)
    (hcached : s.cache.channelsIDM channelId = some cached)
    (hmulti : cached.MultiKey unmarshal) :
    (s.updateChannelStatus unmarshal channelId usingKey status reason now).cache.channelsIDM
        channelId =
      some (cached.handlerMultiKeyUpdate unmarshal usingKey status reason now) := by
  rw [updateChannelStatus, ChannelCache.updateChannelStatus, hcached]
  simp [hmulti.multi, ChannelCache.setChannel]

/-- The tables after the call. -/
theorem updateChannelStatus_store (usingKey reason : String) (status now : ℤ)
    (hcached : s.cache.channelsIDM channelId = some cached)
    (hmulti : cached.MultiKey unmarshal)
    (hrow : s.store.channels.find? (fun channel => channel.id = channelId) = some row)
    (hrowMulti : row.MultiKey unmarshal) :
    (s.updateChannelStatus unmarshal channelId usingKey status reason now).store =
      if row.status = status then s.store
      else
        let saved := row.handlerMultiKeyUpdate unmarshal usingKey status reason now
        { channels := s.store.channels.map fun channel =>
            if channel.id = channelId then saved else channel
          abilities :=
            if row.status ≠ saved.status then
              s.store.abilities.map (updateAbilityStatus channelId (status = ChannelStatusEnabled))
            else s.store.abilities } := by
  rw [updateChannelStatus, ChannelStore.updateChannelStatus, hcached, hrow]
  simp [hmulti.multi, hrowMulti.multi, Channel.setStatus]

/-- The row found after one was saved in its place. -/
theorem find_saved {channels : List Channel} {saved : Channel} (hid : saved.id = channelId)
    (hrow : channels.find? (fun channel => channel.id = channelId) = some row) :
    (channels.map fun channel => if channel.id = channelId then saved else channel).find?
      (fun channel => channel.id = channelId) = some saved := by
  have hsame : (fun channel : Channel => decide (channel.id = channelId)) ∘
      (fun channel => if channel.id = channelId then saved else channel) =
      fun channel => decide (channel.id = channelId) := by
    funext channel
    by_cases hchannel : channel.id = channelId <;> simp [hchannel, hid]
  have hfound : row.id = channelId := by simpa using List.find?_some hrow
  rw [List.find?_map, hsame, hrow, Option.map_some, if_pos hfound]

end

end ChannelStores

open ChannelStores

/-- One call of `UpdateChannelStatus` on a multi-key channel is exact in the cache, the channels
table and the abilities, if and only if the condition holds. -/
theorem multi_key_status_exact {unmarshal : String → Option (List String)} {s : ChannelStores}
    {channelId : ℤ} {usingKey : String} {status : ℤ} {reason : String} {now : ℤ}
    {cached row : Channel} (hcached : s.cache.channelsIDM channelId = some cached)
    (hrow : s.store.channels.find? (fun channel => channel.id = channelId) = some row)
    (hcachedMulti : cached.MultiKey unmarshal) (hrowMulti : row.MultiKey unmarshal) :
    Exact unmarshal (s.updateChannelStatus unmarshal channelId usingKey status reason now) channelId
      cached row usingKey status reason now ↔
    Settled unmarshal s cached row usingKey status reason now := by
  have hid : row.id = channelId := by simpa using List.find?_some hrow
  have hcache := updateChannelStatus_cache usingKey reason status now hcached hcachedMulti
  have hstore := updateChannelStatus_store usingKey reason status now hcached hcachedMulti hrow
    hrowMulti
  have hcacheIff : (∃ cached', (s.updateChannelStatus unmarshal channelId usingKey status reason
        now).cache.channelsIDM channelId = some cached' ∧
      Channel.KeySet unmarshal cached cached' usingKey status reason now ∧
        cached'.Honest unmarshal) ↔
      cached.FindsKey unmarshal usingKey status ∧ cached.FollowsKeys unmarshal usingKey status := by
    rw [hcache]
    simp only [Option.some.injEq, exists_eq_left', Channel.keySet_iff hcachedMulti,
      Channel.honest_iff hcachedMulti]
  have hstoreIff : (∃ row', (s.updateChannelStatus unmarshal channelId usingKey status reason
        now).store.channels.find? (fun channel => channel.id = channelId) = some row' ∧
      Channel.KeySet unmarshal row row' usingKey status reason now ∧ row'.Honest unmarshal ∧
        row'.AbilitiesHonest unmarshal (s.updateChannelStatus unmarshal channelId usingKey status
          reason now).store.abilities) ↔
      (row.status = status → Channel.KeySet unmarshal row row usingKey status reason now ∧
        row.Honest unmarshal ∧ row.AbilitiesHonest unmarshal s.store.abilities) ∧
      (row.status ≠ status → row.FindsKey unmarshal usingKey status ∧
        row.FollowsKeys unmarshal usingKey status ∧
        row.AbilitiesFollow unmarshal s.store.abilities usingKey status) := by
    by_cases hsame : row.status = status
    · -- The stored row is left alone.
      rw [hstore, if_pos hsame, hrow]
      simp only [Option.some.injEq, exists_eq_left', hsame, true_implies, not_true, false_implies,
        and_true, ne_eq]
    · rw [hstore, if_neg hsame]
      have hsaved : (row.handlerMultiKeyUpdate unmarshal usingKey status reason now).id =
          channelId :=
        (Channel.handlerMultiKeyUpdate_sameRoute row usingKey reason status now).id.trans hid
      dsimp only
      rw [find_saved hsaved hrow]
      simp only [Option.some.injEq, exists_eq_left', hsame, false_implies, true_and, ne_eq,
        not_false_eq_true, true_implies, Channel.keySet_iff hrowMulti,
        Channel.honest_iff hrowMulti]
      refine and_congr_right fun _ => and_congr_right fun hfollows => ?_
      exact hid ▸ Channel.abilitiesHonest_iff hrowMulti hsame hfollows
  constructor
  · intro hexact
    obtain ⟨hkey, hstatus⟩ := hcacheIff.1 hexact.cache
    obtain ⟨hunchanged, hchanged⟩ := hstoreIff.1 hexact.store
    exact ⟨hkey, hstatus, hunchanged, hchanged⟩
  · intro hsettled
    exact ⟨hcacheIff.2 ⟨hsettled.cacheKey, hsettled.cacheStatus⟩,
      hstoreIff.2 ⟨hsettled.same, hsettled.new⟩⟩

/-- An enabled channel with the keys `sk-1` and `sk-2`, cached as it is stored. -/
def sampleStores : ChannelStores where
  cache := ChannelCache.empty.setChannel 2 (sampleCachedChannel 2 true)
  store :=
    { channels := [sampleCachedChannel 2 true]
      abilities := (sampleCachedChannel 2 true).abilities }

theorem sampleCachedChannel_multiKey :
    (sampleCachedChannel 2 true).MultiKey fun _ => none where
  multi := rfl
  size := by decide
  range := nofun
  nodup := by decide

theorem multi_key_status_exact_second :
    Exact (fun _ => none)
      (sampleStores.updateChannelStatus (fun _ => none) 2 "sk-2" ChannelStatusAutoDisabled "429" 10)
      2 (sampleCachedChannel 2 true) (sampleCachedChannel 2 true) "sk-2" ChannelStatusAutoDisabled
      "429" 10 := by
  refine (multi_key_status_exact rfl rfl sampleCachedChannel_multiKey
    sampleCachedChannel_multiKey).2 ?_
  have hfinds : (sampleCachedChannel 2 true).FindsKey (fun _ => none) "sk-2"
      ChannelStatusAutoDisabled :=
    .inr (.inl (by decide))
  -- The first key has no entry.
  have hleft : ¬ (sampleCachedChannel 2 true).LastKey (fun _ => none) "sk-2"
      ChannelStatusAutoDisabled :=
    fun hlast => absurd (hlast.2 0 (by decide) (by decide)) (by decide)
  have hfollows : (sampleCachedChannel 2 true).FollowsKeys (fun _ => none) "sk-2"
      ChannelStatusAutoDisabled := by
    rw [Channel.FollowsKeys, if_neg (by decide)]
    exact ⟨fun h => absurd h hleft, fun _ => rfl⟩
  refine ⟨hfinds, hfollows, fun hsame => absurd hsame (by decide), fun _ => ⟨hfinds, hfollows, ?_⟩⟩
  exact fun _ ability hmem _ => ⟨fun h => absurd h hleft, fun _ =>
    (by decide : ∀ ability ∈ sampleStores.store.abilities, ability.enabled = true) ability hmem⟩

/-- A key that is not of the channel disables the first one. -/
theorem unknown_key_disables_first :
    ¬ ∀ (unmarshal : String → Option (List String)) (s : ChannelStores) (channelId : ℤ)
      (usingKey : String) (status : ℤ) (reason : String) (now : ℤ) (channel : Channel),
      s.cache.channelsIDM channelId = some channel →
      s.store.channels.find? (fun row => row.id = channelId) = some channel →
      channel.MultiKey unmarshal → channel.Honest unmarshal →
      channel.AbilitiesHonest unmarshal s.store.abilities →
      Exact unmarshal (s.updateChannelStatus unmarshal channelId usingKey status reason now)
        channelId channel channel usingKey status reason now := by
  intro hclaim
  have henabled : (sampleCachedChannel 2 true).SomeKeyEnabled fun _ => none :=
    ⟨0, by decide, by decide⟩
  have habilities : ∀ ability ∈ sampleStores.store.abilities, ability.enabled = true := by
    decide
  have hexact := hclaim (fun _ => none) sampleStores 2 "sk-3" ChannelStatusAutoDisabled "429" 10
    (sampleCachedChannel 2 true) rfl rfl sampleCachedChannel_multiKey
    (iff_of_true rfl henabled) fun ability hmem _ => iff_of_true (habilities ability hmem) henabled
  obtain ⟨cached', hcached', hset, -⟩ := hexact.cache
  rw [updateChannelStatus_cache _ _ _ _ rfl sampleCachedChannel_multiKey] at hcached'
  obtain rfl := Option.some.inj hcached'
  have hfinds := (Channel.keySet_iff sampleCachedChannel_multiKey).1 hset
  rcases hfinds with hempty | hmem | hfirst
  · exact absurd hempty (by decide)
  · exact absurd hmem (by decide)
  · exact absurd hfirst (by decide)

end NewApi.Model
