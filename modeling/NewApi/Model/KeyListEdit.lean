import NewApi.Model.MultiKeyManage

/-!
# Editing the key list of a multi-key channel

The status, the reason and the time of a disabled key stand in maps from the place of the key.
`UpdateChannel` takes the stored maps over and `Channel.Update` drops the statuses behind the end of
the new list, but nothing else: unlike the deletions of `ManageMultiKeys` it does not move the
entries to where their keys stand now.
-/

namespace NewApi.Model

theorem ChannelInfo.mem_entries {info : ChannelInfo} {keys : List String} {entry : KeyEntry} :
    entry ∈ info.entries 0 keys ↔ ∃ i key, keys[i]? = some key ∧ info.entry i key = entry := by
  constructor
  · intro hentry
    obtain ⟨i, hi⟩ := List.mem_iff_getElem?.1 hentry
    obtain ⟨key, hkey⟩ := ChannelInfo.eq_entry_of_getElem? hi
    exact ⟨i, key, hkey⟩
  · intro hentry
    obtain ⟨i, key, hkey, rfl⟩ := hentry
    exact List.mem_of_getElem? (ChannelInfo.getElem?_entries_of_eq hkey)

namespace Channel

/- The JSON decoder for an array of raw values. -/
variable (unmarshal : String → Option (List String))

/-- The entries went with their keys, and a key that is new is enabled. -/
structure EntriesFollow (row row' : Channel) : Prop where
  kept : ∀ entry ∈ row.entries unmarshal, ∀ entry' ∈ row'.entries unmarshal,
    entry'.key = entry.key → entry' = entry
  added : ∀ entry' ∈ row'.entries unmarshal,
    entry'.key ∉ row.getKeys unmarshal → entry'.status = ChannelStatusEnabled

/-- The stored maps say the same of the two places of a key that is in the old list and in the new
one, and have no disabled status at the place of a key that is new. -/
structure PlacesAgree (row : Channel) (newKeys : List String) : Prop where
  kept : ∀ i j key, (row.getKeys unmarshal)[i]? = some key → newKeys[j]? = some key →
    row.channelInfo.entry j key = row.channelInfo.entry i key
  added : ∀ j key, newKeys[j]? = some key → key ∉ row.getKeys unmarshal →
    row.keyStatus j = ChannelStatusEnabled

section

variable {unmarshal} {row edited : Channel}

/-- The entries of the saved row are those that stand at the new places in the maps of the edit. -/
theorem entries_updates (hmulti : edited.channelInfo.isMultiKey = true) :
    (row.updates unmarshal edited).entries unmarshal =
      edited.channelInfo.entries 0 ((row.updates unmarshal edited).getKeys unmarshal) :=
  (updates_spec unmarshal row edited.key hmulti).1

/-- The save of a key list keeps the statuses, reasons and times with their keys exactly if the keys
move between places of which the stored maps say the same. -/
theorem key_list_edit_iff (hmulti : row.channelInfo.isMultiKey = true) (mode : String)
    (hinfo : edited.channelInfo = { row.channelInfo with multiKeyMode := mode }) :
    EntriesFollow unmarshal row (row.updates unmarshal edited) ↔
      PlacesAgree unmarshal row ((row.updates unmarshal edited).getKeys unmarshal) := by
  have hedited : edited.channelInfo.isMultiKey = true := by
    rw [hinfo]
    exact hmulti
  have hentries : (row.updates unmarshal edited).entries unmarshal =
      row.channelInfo.entries 0 ((row.updates unmarshal edited).getKeys unmarshal) := by
    rw [entries_updates hedited, hinfo]
    exact ChannelInfo.entries_congr fun _ _ _ _ => rfl
  constructor
  · intro hfollow
    constructor
    · intro i j key hold hnew
      refine hfollow.kept _ (ChannelInfo.mem_entries.2 ⟨i, key, hold, rfl⟩) _ ?_ rfl
      rw [hentries]
      exact ChannelInfo.mem_entries.2 ⟨j, key, hnew, rfl⟩
    · intro j key hnew hadded
      refine hfollow.added (row.channelInfo.entry j key) ?_ hadded
      rw [hentries]
      exact ChannelInfo.mem_entries.2 ⟨j, key, hnew, rfl⟩
  · intro hagree
    constructor
    · intro entry hentry entry' hentry' hkey
      rw [hentries] at hentry'
      obtain ⟨i, key, hold, rfl⟩ := ChannelInfo.mem_entries.1 hentry
      obtain ⟨j, key', hnew, rfl⟩ := ChannelInfo.mem_entries.1 hentry'
      obtain rfl : key' = key := hkey
      exact hagree.kept i j key' hold hnew
    · intro entry' hentry' hadded
      rw [hentries] at hentry'
      obtain ⟨j, key, hnew, rfl⟩ := ChannelInfo.mem_entries.1 hentry'
      exact hagree.added j key hnew hadded

/-- A list that only grew at its end keeps the places of its keys. -/
theorem placesAgree_append {more : List String}
    (hnodup : (row.getKeys unmarshal ++ more).Nodup)
    (hrange : ∀ i ∈ row.channelInfo.multiKeyStatusList, i < (row.getKeys unmarshal).length) :
    PlacesAgree unmarshal row (row.getKeys unmarshal ++ more) := by
  constructor
  · intro i j key hold hnew
    have hi := (List.getElem?_eq_some_iff.1 hold).1
    have hsame : (row.getKeys unmarshal ++ more)[i]? = some key := by
      rw [List.getElem?_append_left hi]
      exact hold
    have hplace : i = j := (List.getElem?_inj (by rw [List.length_append]; omega) hnodup).1
      (hsame.trans hnew.symm)
    rw [hplace]
  · intro j key hnew hadded
    have hbehind : (row.getKeys unmarshal).length ≤ j := by
      by_contra hlt
      rw [List.getElem?_append_left (by omega)] at hnew
      exact hadded (List.mem_of_getElem? hnew)
    have hnone : row.channelInfo.multiKeyStatusList.lookup j = none :=
      AList.lookup_eq_none.2 fun hmem => absurd (hrange j hmem) (by omega)
    rw [keyStatus, hnone]
    rfl

end

end Channel

/-- A channel of three keys, of which the first was disabled. -/
def sampleKeyListRow : Channel :=
  { sampleChannel 1 with
    key := "sk-1\nsk-2\nsk-3"
    channelInfo :=
      { ChannelInfo.empty with
        isMultiKey := true
        multiKeySize := 3
        multiKeyStatusList := AList.singleton 0 ChannelStatusAutoDisabled
        multiKeyDisabledReason := AList.singleton 0 "invalid key"
        multiKeyDisabledTime := AList.singleton 0 1700000000 } }

/-- The edit of its key text. -/
def editKeys (key : String) : Channel :=
  { sampleKeyListRow with key := key }

theorem key_list_edit_append :
    ((sampleKeyListRow.updates (fun _ => none) (editKeys "sk-1\nsk-2\nsk-3\nsk-4")).getKeys
      fun _ => none) = ["sk-1", "sk-2", "sk-3", "sk-4"] ∧
    Channel.EntriesFollow (fun _ => none) sampleKeyListRow
      (sampleKeyListRow.updates (fun _ => none) (editKeys "sk-1\nsk-2\nsk-3\nsk-4")) := by
  have hkeys : ((sampleKeyListRow.updates (fun _ => none)
      (editKeys "sk-1\nsk-2\nsk-3\nsk-4")).getKeys fun _ => none) =
        sampleKeyListRow.getKeys (fun _ => none) ++ ["sk-4"] := by
    decide +kernel
  refine ⟨by decide +kernel, (Channel.key_list_edit_iff rfl "" rfl).2 ?_⟩
  rw [hkeys]
  refine Channel.placesAgree_append (by decide +kernel) fun i hi => ?_
  obtain rfl : i = 0 := by
    rw [AList.mem_keys] at hi
    exact List.mem_singleton.1 hi
  decide +kernel

/-- Taking the disabled key out disables the one behind it. -/
theorem removed_key_disables_next :
    ¬ ∀ row edited : Channel, row.channelInfo.isMultiKey = true →
      edited.channelInfo = row.channelInfo → (row.getKeys fun _ => none).Nodup →
      ((row.updates (fun _ => none) edited).getKeys fun _ => none).Nodup →
      Channel.EntriesFollow (fun _ => none) row (row.updates (fun _ => none) edited) := by
  intro hclaim
  have hfollow := hclaim sampleKeyListRow (editKeys "sk-2\nsk-3") rfl rfl (by decide +kernel)
    (by decide +kernel)
  have hentry := hfollow.kept ⟨"sk-2", ChannelStatusEnabled, none, none⟩ (by decide +kernel)
    ⟨"sk-2", ChannelStatusAutoDisabled, some 1700000000, some "invalid key"⟩ (by decide +kernel) rfl
  exact absurd hentry (by decide)

end NewApi.Model
