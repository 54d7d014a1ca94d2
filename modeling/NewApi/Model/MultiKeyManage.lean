import NewApi.Model.MultiKeyStatus

/-!
# Managing the keys of a multi-key channel

`ManageMultiKeys` edits the loaded row (the status list, the reasons and the times are maps from
the place of a key, and a deletion re-indexes them by hand) and writes it with `Channel.Update`.
What it is for is said on the list of the keys, each with its status, time and reason: set one
status, set them all, remove some keys.
-/

namespace NewApi.Model

open NewApi.Lib.Strings

/-! ## The list of keys -/

structure KeyEntry where
  key : String
  status : ℤ
  disabledTime : Option ℤ
  disabledReason : Option String
deriving DecidableEq

/-- The actions with the index in the request. -/
inductive MultiKeyAction
  | disableKey (keyIndex : Option ℤ)
  | enableKey (keyIndex : Option ℤ)
  | enableAllKeys
  | disableAllKeys
  | deleteKey (keyIndex : Option ℤ)
  | deleteDisabledKeys
deriving DecidableEq

namespace KeyEntry

def enable (entry : KeyEntry) : KeyEntry :=
  ⟨entry.key, ChannelStatusEnabled, none, none⟩

def disable (entry : KeyEntry) : KeyEntry :=
  { entry with status := ChannelStatusManuallyDisabled }

/-- What an action does to the list. -/
def apply (entries : List KeyEntry) : MultiKeyAction → List KeyEntry
  | .disableKey keyIndex => entries.modify (keyIndex.getD 0).toNat disable
  | .enableKey keyIndex => entries.modify (keyIndex.getD 0).toNat enable
  | .enableAllKeys => entries.map enable
  | .disableAllKeys =>
      entries.map fun entry => if entry.status = ChannelStatusEnabled then entry.disable else entry
  | .deleteKey keyIndex => entries.eraseIdx (keyIndex.getD 0).toNat
  | .deleteDisabledKeys => entries.filter fun entry => entry.status ≠ ChannelStatusAutoDisabled

end KeyEntry

namespace ChannelInfo

/-- The entry of the key at a place. -/
def entry (info : ChannelInfo) (i : ℕ) (key : String) : KeyEntry :=
  ⟨key, (info.multiKeyStatusList.lookup i).getD ChannelStatusEnabled,
    info.multiKeyDisabledTime.lookup i, info.multiKeyDisabledReason.lookup i⟩

/-- The entries of keys that stand from a place on. -/
def entries (info : ChannelInfo) : ℕ → List String → List KeyEntry
  | _, [] => []
  | i, key :: keys => info.entry i key :: info.entries (i + 1) keys

end ChannelInfo

/-! ## The handler -/

/-- The keys that a deletion leaves, and the maps for them. -/
structure Reindexed where
  remainingKeys : List String
  newStatusList : AList fun _ : ℕ => ℤ
  newDisabledTime : AList fun _ : ℕ => ℤ
  newDisabledReason : AList fun _ : ℕ => String

namespace Reindexed

def empty : Reindexed :=
  ⟨[], ∅, ∅, ∅⟩

/-- Copy an entry, if there is one, to its new place. -/
def copyEntry {β : Type} (list : AList fun _ : ℕ => β) (newIndex : ℕ) (old : Option β) :
    AList fun _ : ℕ => β :=
  match old with
  | some value => list.insert newIndex value
  | none => list

/-- Keep the key at a place. -/
def push (acc : Reindexed) (info : ChannelInfo) (i : ℕ) (key : String) (keepsTime : Bool) :
    Reindexed where
  remainingKeys := acc.remainingKeys ++ [key]
  newStatusList := copyEntry acc.newStatusList acc.remainingKeys.length
    ((info.multiKeyStatusList.lookup i).filter fun status => status ≠ ChannelStatusEnabled)
  newDisabledTime := copyEntry acc.newDisabledTime acc.remainingKeys.length
    (if keepsTime then info.multiKeyDisabledTime.lookup i else none)
  newDisabledReason := copyEntry acc.newDisabledReason acc.remainingKeys.length
    (if keepsTime then info.multiKeyDisabledReason.lookup i else none)

/-- The loops of the two deletions: which places keep their key, and which of these keep the time
and the reason. -/
def loop (info : ChannelInfo) (keeps keepsTime : ℕ → Bool) :
    ℕ → List String → Reindexed → Reindexed
  | _, [], acc => acc
  | i, key :: keys, acc =>
      loop info keeps keepsTime (i + 1) keys
        (if keeps i then acc.push info i key (keepsTime i) else acc)

/-- The info with the maps of the remaining keys. -/
def toInfo (acc : Reindexed) (info : ChannelInfo) : ChannelInfo :=
  { info with
    multiKeySize := acc.remainingKeys.length
    multiKeyStatusList := acc.newStatusList
    multiKeyDisabledTime := acc.newDisabledTime
    multiKeyDisabledReason := acc.newDisabledReason }

end Reindexed

namespace Channel

/- The JSON decoder for an array of raw values. -/
variable (unmarshal : String → Option (List String))

/-- The abstraction: the keys of the channel with their entries. -/
def entries (channel : Channel) : List KeyEntry :=
  channel.channelInfo.entries 0 (channel.getKeys unmarshal)

/-- The places that `disable_all_keys` disables. -/
def enabledPlaces (channel : Channel) : List ℕ :=
  (List.range channel.channelInfo.multiKeySize.toNat).filter fun i =>
    channel.keyStatus i = ChannelStatusEnabled

/-- An index of the request that is in range. -/
def checkIndex (channel : Channel) (missing : String) : Option ℤ → Except String ℕ
  | none => .error missing
  | some keyIndex =>
      if keyIndex < 0 ∨ channel.channelInfo.multiKeySize ≤ keyIndex then .error "密钥索引超出范围"
      else .ok keyIndex.toNat

def remainingWithout (channel : Channel) (keyIndex : ℕ) : Reindexed :=
  Reindexed.loop channel.channelInfo (fun i => i ≠ keyIndex) (fun _ => true) 0
    (channel.getKeys unmarshal) .empty

/-- Manually disabled keys keep their time and reason; those of enabled keys are not copied. -/
def remainingNotAutoDisabled (channel : Channel) : Reindexed :=
  Reindexed.loop channel.channelInfo
    (fun i => channel.keyStatus i ≠ ChannelStatusAutoDisabled)
    (fun i => channel.keyStatus i ≠ ChannelStatusEnabled) 0 (channel.getKeys unmarshal) .empty

/-- The channel with the remaining keys only. -/
def withKeys (channel : Channel) (remaining : Reindexed) : Channel :=
  { channel with
    key := join '\n' remaining.remainingKeys
    channelInfo := remaining.toInfo channel.channelInfo }

/-- The edit of an action, and what it reports when the edited row has been written. -/
def editMultiKeys (channel : Channel) : MultiKeyAction → Except String (Channel × String)
  | .disableKey keyIndex => do
      let keyIndex ← channel.checkIndex "未指定要禁用的密钥索引" keyIndex
      let info := channel.channelInfo
      .ok ({ channel with
        channelInfo := { info with
          multiKeyStatusList :=
            info.multiKeyStatusList.insert keyIndex ChannelStatusManuallyDisabled } }, "密钥已禁用")
  | .enableKey keyIndex => do
      let keyIndex ← channel.checkIndex "未指定要启用的密钥索引" keyIndex
      let info := channel.channelInfo
      .ok ({ channel with
        channelInfo := { info with
          multiKeyStatusList := info.multiKeyStatusList.erase keyIndex
          multiKeyDisabledTime := info.multiKeyDisabledTime.erase keyIndex
          multiKeyDisabledReason := info.multiKeyDisabledReason.erase keyIndex } }, "密钥已启用")
  | .enableAllKeys =>
      .ok ({ channel with
        channelInfo := { channel.channelInfo with
          multiKeyStatusList := ∅
          multiKeyDisabledTime := ∅
          multiKeyDisabledReason := ∅ } },
        s!"已启用 {channel.channelInfo.multiKeyStatusList.keys.length} 个密钥")
  | .disableAllKeys =>
      let places := channel.enabledPlaces
      if places = [] then .error "没有可禁用的密钥"
      else
        .ok ({ channel with
          channelInfo := { channel.channelInfo with
            multiKeyStatusList := places.foldl
              (fun list i => list.insert i ChannelStatusManuallyDisabled)
              channel.channelInfo.multiKeyStatusList } },
          s!"已禁用 {places.length} 个密钥")
  | .deleteKey keyIndex => do
      let keyIndex ← channel.checkIndex "未指定要删除的密钥索引" keyIndex
      let remaining := channel.remainingWithout unmarshal keyIndex
      if remaining.remainingKeys = [] then .error "不能删除最后一个密钥"
      else .ok (channel.withKeys remaining, "密钥已删除")
  | .deleteDisabledKeys =>
      let remaining := channel.remainingNotAutoDisabled unmarshal
      let deletedCount := (channel.getKeys unmarshal).length - remaining.remainingKeys.length
      if deletedCount = 0 then .error "没有需要删除的自动禁用密钥"
      else .ok (channel.withKeys remaining, s!"已删除 {deletedCount} 个自动禁用的密钥")

/-- The stored row after the request, and its answer.  `Update` can fail at the write of the row,
or behind it at the abilities. -/
def manageMultiKeys (row : Channel) (action : MultiKeyAction)
    (updateError abilitiesError : Option String) : Channel × Except String String :=
  if !row.channelInfo.isMultiKey then (row, .error "该渠道不是多密钥模式")
  else
    match row.editMultiKeys unmarshal action with
    | .error message => (row, .error message)
    | .ok (channel, message) =>
        match updateError with
        | some err => (row, .error err)
        | none =>
            match abilitiesError with
            | some err => (row.updates unmarshal channel, .error err)
            | none => (row.updates unmarshal channel, .ok message)

/-! ## What the request is for -/

/-- The same row: every column, and each map at each place. -/
structure SameRow (row row' : Channel) : Prop where
  columns : { row' with channelInfo := row.channelInfo } = row
  info : { row'.channelInfo with
    multiKeyStatusList := row.channelInfo.multiKeyStatusList
    multiKeyDisabledReason := row.channelInfo.multiKeyDisabledReason
    multiKeyDisabledTime := row.channelInfo.multiKeyDisabledTime } = row.channelInfo
  status : ∀ i, row'.channelInfo.multiKeyStatusList.lookup i =
    row.channelInfo.multiKeyStatusList.lookup i
  reason : ∀ i, row'.channelInfo.multiKeyDisabledReason.lookup i =
    row.channelInfo.multiKeyDisabledReason.lookup i
  time : ∀ i, row'.channelInfo.multiKeyDisabledTime.lookup i =
    row.channelInfo.multiKeyDisabledTime.lookup i

/-- A request that succeeds does to the list of the keys what its action says, and the size counts
the keys; one that fails leaves the row alone. -/
def Refines (row : Channel) (action : MultiKeyAction) (result : Channel × Except String String) :
    Prop :=
  match result.2 with
  | .ok _ => result.1.entries unmarshal = KeyEntry.apply (row.entries unmarshal) action ∧
      result.1.channelInfo.multiKeySize = (result.1.getKeys unmarshal).length
  | .error _ => SameRow row result.1

/-- A stored multi-key channel. -/
structure Stored (channel : Channel) : Prop where
  multi : channel.channelInfo.isMultiKey = true
  range : ∀ i ∈ channel.channelInfo.multiKeyStatusList, (i : ℤ) < channel.channelInfo.multiKeySize

/-- The index is there and in range. -/
def InRange (channel : Channel) (keyIndex : Option ℤ) : Prop :=
  ∃ i, keyIndex = some i ∧ 0 ≤ i ∧ i < channel.channelInfo.multiKeySize

/-- The key text is an empty array: it has no keys, and counts as one. -/
def EmptyArray (channel : Channel) : Prop :=
  channel.key ≠ "" ∧ channel.getKeys unmarshal = []

/-- The keys that are left when the automatically disabled ones are gone. -/
def keysNotAutoDisabled (channel : Channel) : List String :=
  ((channel.entries unmarshal).filter fun entry => entry.status ≠ ChannelStatusAutoDisabled).map
    KeyEntry.key

/-- The action has something to do and may do it. -/
def Accepts (row : Channel) : MultiKeyAction → Prop
  | .disableKey keyIndex => row.InRange keyIndex
  | .enableKey keyIndex => row.InRange keyIndex
  | .enableAllKeys => True
  | .disableAllKeys =>
      ∃ i : ℕ, (i : ℤ) < row.channelInfo.multiKeySize ∧ row.keyStatus i = ChannelStatusEnabled
  | .deleteKey keyIndex => row.InRange keyIndex ∧
      (row.getKeys unmarshal).eraseIdx (keyIndex.getD 0).toNat ≠ []
  | .deleteDisabledKeys =>
      ∃ i < (row.getKeys unmarshal).length, row.keyStatus i = ChannelStatusAutoDisabled

/-- The elements of a key text that is an array. -/
def asArray (text : String) : Option (List String) :=
  if hasPrefix (trimSpace text) "[" then unmarshal (trimSpace text) else none

/-- Keys that one can write as lines and read again: an empty text is not written at all, one that
happens to be an array is read as that, and lines have no line end in them and are not trimmed. -/
def Rejoins (row : Channel) (keys : List String) : Prop :=
  let text := join '\n' keys
  if text = "" then keys = row.getKeys unmarshal
  else
    match asArray unmarshal text with
    | some values => values = keys
    | none => (∀ key ∈ keys, '\n' ∉ key.toList) ∧ keys.head? ≠ some "" ∧ keys.getLast? ≠ some ""

/-- An enabled key has no time and no reason left. -/
def NoTraces (row : Channel) : Prop :=
  ∀ i < (row.getKeys unmarshal).length, row.keyStatus i = ChannelStatusEnabled →
    row.channelInfo.multiKeyDisabledTime.lookup i = none ∧
      row.channelInfo.multiKeyDisabledReason.lookup i = none

/-- What the action relies on. -/
def Rewrites (row : Channel) : MultiKeyAction → Prop
  | .disableKey _ | .enableKey _ | .enableAllKeys => ¬row.EmptyArray unmarshal
  | .disableAllKeys => ¬row.EmptyArray unmarshal ∧
      ∀ i < (row.getKeys unmarshal).length, row.keyStatus i = ChannelStatusEnabled →
        (i : ℤ) < row.channelInfo.multiKeySize
  | .deleteKey keyIndex =>
      row.Rejoins unmarshal ((row.getKeys unmarshal).eraseIdx (keyIndex.getD 0).toNat)
  | .deleteDisabledKeys =>
      row.Rejoins unmarshal (row.keysNotAutoDisabled unmarshal) ∧ row.NoTraces unmarshal

/-- The action finds everything as it would make it. -/
def FindsDone (row : Channel) : MultiKeyAction → Prop
  | .disableKey keyIndex =>
      row.channelInfo.multiKeySize = countKeys unmarshal row.key ∧
        row.channelInfo.multiKeyStatusList.lookup (keyIndex.getD 0).toNat =
          some ChannelStatusManuallyDisabled
  | .enableKey keyIndex =>
      row.channelInfo.multiKeySize = countKeys unmarshal row.key ∧
        row.channelInfo.multiKeyStatusList.lookup (keyIndex.getD 0).toNat = none ∧
        row.channelInfo.multiKeyDisabledTime.lookup (keyIndex.getD 0).toNat = none ∧
        row.channelInfo.multiKeyDisabledReason.lookup (keyIndex.getD 0).toNat = none
  | .enableAllKeys =>
      row.channelInfo.multiKeySize = countKeys unmarshal row.key ∧ ∀ i,
        row.channelInfo.multiKeyStatusList.lookup i = none ∧
        row.channelInfo.multiKeyDisabledTime.lookup i = none ∧
        row.channelInfo.multiKeyDisabledReason.lookup i = none
  | .disableAllKeys | .deleteKey _ | .deleteDisabledKeys => False

/-- What a JSON array has for elements: texts that are not empty, and shorter than the array
however they are joined. -/
structure ArrayDecoder : Prop where
  nonempty : ∀ text values, unmarshal text = some values → "" ∉ values
  shorter : ∀ text values, unmarshal text = some values →
    (join '\n' values).length < text.length

end Channel

/-! ## The entries of the keys -/

namespace ChannelInfo

variable {info info' : ChannelInfo}

theorem entries_getElem? (i n : ℕ) (keys : List String) :
    (info.entries i keys)[n]? = keys[n]?.map (info.entry (i + n)) := by
  induction keys generalizing i n with
  | nil => simp [entries]
  | cons key keys ih =>
      cases n with
      | zero => simp [entries]
      | succ n =>
          rw [entries, List.getElem?_cons_succ, List.getElem?_cons_succ, ih, Nat.add_right_comm,
            Nat.add_assoc]

theorem getElem?_entries_of_eq {n : ℕ} {keys : List String} {key : String}
    (hkey : keys[n]? = some key) : (info.entries 0 keys)[n]? = some (info.entry n key) := by
  rw [entries_getElem?, hkey, Nat.zero_add, Option.map_some]

theorem eq_entry_of_getElem? {n : ℕ} {keys : List String} {entry : KeyEntry}
    (hentry : (info.entries 0 keys)[n]? = some entry) :
    ∃ key, keys[n]? = some key ∧ info.entry n key = entry := by
  rw [entries_getElem?, Nat.zero_add] at hentry
  exact Option.map_eq_some_iff.1 hentry

@[simp] theorem length_entries (i : ℕ) (keys : List String) :
    (info.entries i keys).length = keys.length := by
  induction keys generalizing i with
  | nil => rfl
  | cons key keys ih => rw [entries, List.length_cons, ih, List.length_cons]

@[simp] theorem map_key_entries (i : ℕ) (keys : List String) :
    (info.entries i keys).map KeyEntry.key = keys := by
  induction keys generalizing i with
  | nil => rfl
  | cons key keys ih =>
      rw [entries, List.map_cons, ih]
      rfl

theorem entries_concat (i : ℕ) (keys : List String) (key : String) :
    info.entries i (keys ++ [key]) = info.entries i keys ++ [info.entry (i + keys.length) key] := by
  induction keys generalizing i with
  | nil => rfl
  | cons first keys ih =>
      rw [List.cons_append, entries, ih, entries, List.cons_append, List.length_cons]
      simp only [Nat.add_comm, Nat.add_left_comm]

/-- The entries depend on the maps at the places of the keys only. -/
theorem entries_congr {i : ℕ} {keys : List String}
    (hsame : ∀ n, i ≤ n → n < i + keys.length → ∀ key, info.entry n key = info'.entry n key) :
    info.entries i keys = info'.entries i keys := by
  refine List.ext_getElem? fun n => ?_
  rw [entries_getElem?, entries_getElem?]
  cases hkey : keys[n]? with
  | none => rfl
  | some key =>
      have hn := (List.getElem?_eq_some_iff.1 hkey).1
      rw [Option.map_some, Option.map_some, hsame (i + n) (Nat.le_add_right i n) (by omega)]

end ChannelInfo

namespace Reindexed

variable {info base : ChannelInfo} {acc : Reindexed} {keeps keepsTime : ℕ → Bool}

/-- No map has an entry behind the remaining keys. -/
structure Fresh (acc : Reindexed) : Prop where
  status : ∀ n, acc.remainingKeys.length ≤ n → acc.newStatusList.lookup n = none
  time : ∀ n, acc.remainingKeys.length ≤ n → acc.newDisabledTime.lookup n = none
  reason : ∀ n, acc.remainingKeys.length ≤ n → acc.newDisabledReason.lookup n = none

theorem copyEntry_lookup {β : Type} {list : AList fun _ : ℕ => β} {newIndex : ℕ} {old : Option β}
    (hnone : list.lookup newIndex = none) (n : ℕ) :
    (copyEntry list newIndex old).lookup n = if n = newIndex then old else list.lookup n := by
  cases old with
  | none =>
      by_cases hn : n = newIndex
      · rw [if_pos hn, hn]
        exact hnone
      · rw [if_neg hn]
        rfl
  | some value =>
      by_cases hn : n = newIndex
      · subst hn
        rw [if_pos rfl]
        exact AList.lookup_insert _
      · rw [if_neg hn]
        exact AList.lookup_insert_ne hn

/-- The entry that a kept key gets. -/
def keptEntry (info : ChannelInfo) (keepsTime : ℕ → Bool) (i : ℕ) (key : String) : KeyEntry :=
  if keepsTime i then info.entry i key
  else { info.entry i key with disabledTime := none, disabledReason := none }

theorem push_fresh (hfresh : acc.Fresh) (i : ℕ) (key : String) (keeps : Bool) :
    (acc.push info i key keeps).Fresh := by
  have hlength : (acc.push info i key keeps).remainingKeys.length =
      acc.remainingKeys.length + 1 := by
    simp [push]
  refine ⟨fun n hn => ?_, fun n hn => ?_, fun n hn => ?_⟩
  · rw [hlength] at hn
    rw [push, copyEntry_lookup (hfresh.status _ le_rfl), if_neg (by omega)]
    exact hfresh.status n (by omega)
  · rw [hlength] at hn
    rw [push, copyEntry_lookup (hfresh.time _ le_rfl), if_neg (by omega)]
    exact hfresh.time n (by omega)
  · rw [hlength] at hn
    rw [push, copyEntry_lookup (hfresh.reason _ le_rfl), if_neg (by omega)]
    exact hfresh.reason n (by omega)

theorem push_entries (hfresh : acc.Fresh) (i : ℕ) (key : String) :
    ((acc.push info i key (keepsTime i)).toInfo base).entries 0
        (acc.push info i key (keepsTime i)).remainingKeys =
      (acc.toInfo base).entries 0 acc.remainingKeys ++ [keptEntry info keepsTime i key] := by
  have hold : ((acc.push info i key (keepsTime i)).toInfo base).entries 0 acc.remainingKeys =
      (acc.toInfo base).entries 0 acc.remainingKeys := by
    refine ChannelInfo.entries_congr fun n _ hn other => ?_
    have hne : n ≠ acc.remainingKeys.length := by omega
    simp only [ChannelInfo.entry, toInfo, push, copyEntry_lookup (hfresh.status _ le_rfl),
      copyEntry_lookup (hfresh.time _ le_rfl), copyEntry_lookup
        (hfresh.reason _ le_rfl), if_neg hne]
  have hnew : ((acc.push info i key (keepsTime i)).toInfo base).entry acc.remainingKeys.length key =
      keptEntry info keepsTime i key := by
    simp only [ChannelInfo.entry, keptEntry, toInfo, push, if_true,
      copyEntry_lookup (hfresh.status _ le_rfl), copyEntry_lookup (hfresh.time _ le_rfl),
      copyEntry_lookup (hfresh.reason _ le_rfl)]
    have hstatus : ((info.multiKeyStatusList.lookup i).filter fun status =>
        status ≠ ChannelStatusEnabled).getD ChannelStatusEnabled =
          (info.multiKeyStatusList.lookup i).getD ChannelStatusEnabled := by
      cases info.multiKeyStatusList.lookup i with
      | none => rfl
      | some status =>
          by_cases henabled : status = ChannelStatusEnabled <;> simp [Option.filter, henabled]
    rw [hstatus]
    cases keepsTime i <;> rfl
  have hkeys : (acc.push info i key (keepsTime i)).remainingKeys = acc.remainingKeys ++ [key] := rfl
  rw [hkeys, ChannelInfo.entries_concat, hold, Nat.zero_add, hnew]

/-- The kept keys with the entries that they keep. -/
def kept (info : ChannelInfo) (keeps keepsTime : ℕ → Bool) : ℕ → List String → List KeyEntry
  | _, [] => []
  | i, key :: keys =>
      if keeps i then keptEntry info keepsTime i key :: kept info keeps keepsTime (i + 1) keys
      else kept info keeps keepsTime (i + 1) keys

/-- The loop leaves the kept keys, each with its own entry. -/
theorem loop_entries (hfresh : acc.Fresh) (i : ℕ) (keys : List String) :
    ((loop info keeps keepsTime i keys acc).toInfo base).entries 0
        (loop info keeps keepsTime i keys acc).remainingKeys =
      (acc.toInfo base).entries 0 acc.remainingKeys ++ kept info keeps keepsTime i keys := by
  induction keys generalizing i acc with
  | nil => simp [loop, kept]
  | cons key keys ih =>
      rw [loop, kept]
      split
      case isTrue =>
        rw [ih (push_fresh hfresh i key (keepsTime i)), push_entries hfresh, List.append_assoc,
          List.singleton_append]
      case isFalse => rw [ih hfresh]

theorem empty_fresh : empty.Fresh :=
  ⟨fun _ _ => rfl, fun _ _ => rfl, fun _ _ => rfl⟩

theorem loop_fresh (hfresh : acc.Fresh) (i : ℕ) (keys : List String) :
    (loop info keeps keepsTime i keys acc).Fresh := by
  induction keys generalizing i acc with
  | nil => exact hfresh
  | cons key keys ih =>
      rw [loop]
      split
      · exact ih (push_fresh hfresh i key (keepsTime i)) (i + 1)
      · exact ih hfresh (i + 1)

end Reindexed

/-! ## The written row -/

namespace Channel

variable {unmarshal : String → Option (List String)} {row channel : Channel} {key : String}
  {info : ChannelInfo}

theorem getKeys_eq (unmarshal : String → Option (List String)) (hkey : channel.key ≠ "") :
    channel.getKeys unmarshal =
      (asArray unmarshal channel.key).getD (split (trim channel.key (· = '\n')) '\n') := by
  rw [getKeys, if_neg hkey, asArray]
  dsimp only
  -- the lines are not to be computed
  generalize split (trim channel.key (· = '\n')) '\n' = lines
  split <;> rfl

/-- The count and the list of the keys agree unless the key text is an empty array. -/
theorem countKeys_eq_iff :
    countKeys unmarshal channel.key = (channel.getKeys unmarshal).length ↔
      ¬channel.EmptyArray unmarshal := by
  rw [EmptyArray, countKeys]
  by_cases hempty : channel.key = ""
  · simp [hempty, getKeys]
  · have hlines := split_ne_nil (trim channel.key (· = '\n')) '\n'
    have harray : (if hasPrefix (trimSpace channel.key) "[" then
        (unmarshal (trimSpace channel.key)).getD [] else []) =
          (asArray unmarshal channel.key).getD [] := by
      rw [asArray]
      split <;> rfl
    rw [if_neg hempty, getKeys_eq unmarshal hempty]
    dsimp only
    rw [harray]
    cases asArray unmarshal channel.key with
    | none => simp [hempty, hlines]
    | some values =>
        cases values with
        | nil => simp [hempty, hlines]
        | cons value values => simp

theorem length_getKeys_le (unmarshal : String → Option (List String)) (channel : Channel) :
    (channel.getKeys unmarshal).length ≤ countKeys unmarshal channel.key := by
  by_cases hempty : channel.EmptyArray unmarshal
  · rw [hempty.2]
    exact Nat.zero_le _
  · exact (countKeys_eq_iff.2 hempty).ge

theorem lookup_foldl_erase (size : ℕ) (places : List ℕ) (list : AList fun _ : ℕ => ℤ) (n : ℕ) :
    (places.foldl (fun list i => if size ≤ i then list.erase i else list) list).lookup n =
      if n ∈ places ∧ size ≤ n then none else list.lookup n := by
  induction places generalizing list with
  | nil => simp
  | cons i places ih =>
      rw [List.foldl_cons, ih]
      by_cases hn : n = i
      · subst hn
        by_cases hsize : size ≤ n <;> simp [hsize]
      · by_cases hsize : size ≤ i <;> simp [hn, hsize, AList.lookup_erase_ne hn]

theorem lookup_foldl_insert (status : ℤ) (places : List ℕ) (list : AList fun _ : ℕ => ℤ) (n : ℕ) :
    (places.foldl (fun list i => list.insert i status) list).lookup n =
      if n ∈ places then some status else list.lookup n := by
  induction places generalizing list with
  | nil => simp
  | cons i places ih =>
      rw [List.foldl_cons, ih]
      by_cases hn : n = i
      · subst hn
        simp
      · simp [hn, AList.lookup_insert_ne hn]

/-- The size is counted again, and no status is left behind it. -/
theorem recount_lookup (unmarshal : String → Option (List String)) (row channel : Channel)
    (hmulti : channel.channelInfo.isMultiKey = true) (n : ℕ) :
    (channel.recount unmarshal row).multiKeyStatusList.lookup n =
      if countKeys unmarshal (writeText row.key channel.key) ≤ n then none
      else channel.channelInfo.multiKeyStatusList.lookup n := by
  rw [recount, if_pos hmulti]
  dsimp only
  rw [lookup_foldl_erase]
  by_cases hn : n ∈ channel.channelInfo.multiKeyStatusList.keys
  · simp [hn]
  · have hnone : channel.channelInfo.multiKeyStatusList.lookup n = none :=
      AList.lookup_eq_none.2 fun hmem => hn (AList.mem_keys.1 hmem)
    simp [hnone]

/-- The row after the write of another key text and channel info. -/
theorem updates_edited (hmulti : info.isMultiKey = true) :
    row.updates unmarshal { row with key := key, channelInfo := info } =
      { row with
        key := writeText row.key key
        channelInfo := recount unmarshal { row with key := key, channelInfo := info } row } := by
  have hinfo : recount unmarshal { row with key := key, channelInfo := info } row ≠
      ChannelInfo.empty := by
    intro heq
    have hnot := congrArg ChannelInfo.isMultiKey heq
    rw [recount, if_pos hmulti] at hnot
    exact Bool.noConfusion (hmulti.symm.trans hnot)
  have htext : ∀ text : String, writeText text text = text := by
    intro text
    rw [writeText, ite_id]
  rw [updates, writeNonZero]
  dsimp only
  rw [if_neg hinfo, htext, htext, ite_id]
  simp

/-- The entries are those of the edited info, and the size is the count of the keys. -/
theorem updates_spec (unmarshal : String → Option (List String)) (row : Channel) (key : String)
    (hmulti : info.isMultiKey = true) :
    let row' := row.updates unmarshal { row with key := key, channelInfo := info }
    row'.entries unmarshal = info.entries 0 (row'.getKeys unmarshal) ∧
      row'.channelInfo.multiKeySize = countKeys unmarshal row'.key ∧
      row'.key = writeText row.key key := by
  rw [updates_edited hmulti]
  dsimp only
  refine ⟨?_, by rw [recount, if_pos hmulti], rfl⟩
  refine ChannelInfo.entries_congr fun n _ hn other => ?_
  have hcount : ¬countKeys unmarshal (writeText row.key key) ≤ n := by
    have hle := length_getKeys_le unmarshal { row with
      key := writeText row.key key
      channelInfo := recount unmarshal { row with key := key, channelInfo := info } row }
    dsimp only at hle
    omega
  rw [ChannelInfo.entry, ChannelInfo.entry, recount_lookup _ _ _ hmulti, if_neg hcount]
  rw [recount, if_pos hmulti]

end Channel

/-! ## What a success leaves -/

namespace Reindexed

variable {info : ChannelInfo} {keeps keepsTime : ℕ → Bool} {keys : List String}

theorem loop_kept (base : ChannelInfo) :
    ((loop info keeps keepsTime 0 keys empty).toInfo base).entries 0
    (loop info keeps keepsTime 0 keys empty).remainingKeys = kept info keeps keepsTime 0 keys := by
  rw [loop_entries empty_fresh]
  rfl

theorem remainingKeys_loop : (loop info keeps keepsTime 0 keys empty).remainingKeys =
    (kept info keeps keepsTime 0 keys).map KeyEntry.key := by
  rw [← loop_kept info, ChannelInfo.map_key_entries]

/-- Without one place the list is the one without that element. -/
theorem kept_without (place i : ℕ) (keys : List String) :
    kept info (fun n => n ≠ place) (fun _ => true) i keys =
      if i ≤ place then (info.entries i keys).eraseIdx (place - i) else info.entries i keys := by
  induction keys generalizing i with
  | nil => simp [kept, ChannelInfo.entries]
  | cons key keys ih =>
      rw [kept, ih, ChannelInfo.entries]
      rcases Nat.lt_trichotomy i place with hlt | rfl | hgt
      · obtain ⟨n, hn⟩ := Nat.exists_eq_add_of_lt hlt
        have hsub : place - i = n + 1 := by omega
        have hsub' : place - (i + 1) = n := by omega
        simp [hlt.ne, hlt.le, Nat.succ_le_of_lt hlt, hsub, hsub', keptEntry]
      · simp
      · simp [hgt.ne', hgt.not_ge, Nat.not_le_of_gt (Nat.lt_succ_of_lt hgt), keptEntry]

end Reindexed

namespace KeyEntry

/-- An entry as a deletion copies it. -/
def clear (entry : KeyEntry) : KeyEntry :=
  if entry.status = ChannelStatusEnabled then
    { entry with disabledTime := none, disabledReason := none }
  else entry

theorem clear_key (entry : KeyEntry) : entry.clear.key = entry.key := by
  rw [clear]
  split <;> rfl

theorem clear_status (entry : KeyEntry) : entry.clear.status = entry.status := by
  rw [clear]
  split <;> rfl

theorem clear_eq_self_iff {entry : KeyEntry} : entry.clear = entry ↔
    (entry.status = ChannelStatusEnabled →
      entry.disabledTime = none ∧ entry.disabledReason = none) := by
  rw [clear]
  split
  case isTrue henabled =>
    cases entry with
    | mk key status disabledTime disabledReason =>
        have hstatus : status = ChannelStatusEnabled := henabled
        simp [hstatus, eq_comm]
  case isFalse henabled => simp [henabled]

theorem map_clear_eq_self_iff {list : List KeyEntry} :
    list.map clear = list ↔ ∀ entry ∈ list, entry.clear = entry := by
  have hid := List.map_inj_left (f := clear) (g := id) (l := list)
  rwa [List.map_id] at hid

end KeyEntry

namespace Channel

variable {unmarshal : String → Option (List String)} {row channel : Channel} {info : ChannelInfo}
  {keys : List String} {target : List KeyEntry}

theorem kept_not_auto_disabled (channel : Channel) (i : ℕ) (keys : List String) :
    Reindexed.kept channel.channelInfo (fun n => channel.keyStatus n ≠ ChannelStatusAutoDisabled)
        (fun n => channel.keyStatus n ≠ ChannelStatusEnabled) i keys =
      ((channel.channelInfo.entries i keys).filter
        fun entry => entry.status ≠ ChannelStatusAutoDisabled).map KeyEntry.clear := by
  induction keys generalizing i with
  | nil => rfl
  | cons key keys ih =>
      have hstatus : (channel.channelInfo.entry i key).status = channel.keyStatus i := rfl
      have hclear : (channel.channelInfo.entry i key).clear =
          Reindexed.keptEntry channel.channelInfo
            (fun n => channel.keyStatus n ≠ ChannelStatusEnabled) i key := by
        rw [KeyEntry.clear, Reindexed.keptEntry, hstatus]
        by_cases henabled : channel.keyStatus i = ChannelStatusEnabled
        · simp [henabled, hstatus]
        · simp [henabled]
      rw [Reindexed.kept, ih, ChannelInfo.entries, List.filter_cons, hstatus]
      split
      case isTrue => rw [List.map_cons, hclear]
      case isFalse => rfl

theorem remainingKeys_not_auto_disabled (unmarshal : String → Option (List String))
    (row : Channel) :
    (row.remainingNotAutoDisabled unmarshal).remainingKeys =
    row.keysNotAutoDisabled unmarshal := by
  rw [remainingNotAutoDisabled, Reindexed.remainingKeys_loop, kept_not_auto_disabled, List.map_map,
    keysNotAutoDisabled, entries]
  exact List.map_congr_left fun entry _ => entry.clear_key

theorem remainingKeys_without (unmarshal : String → Option (List String))
    (row : Channel) (place : ℕ) :
    (row.remainingWithout unmarshal place).remainingKeys =
    (row.getKeys unmarshal).eraseIdx place := by
  rw [remainingWithout, Reindexed.remainingKeys_loop, Reindexed.kept_without, if_pos (Nat.zero_le _),
    Nat.sub_zero, ← List.eraseIdx_map, ChannelInfo.map_key_entries]

theorem entries_remaining (unmarshal : String → Option (List String)) (row : Channel) :
    ((row.remainingNotAutoDisabled unmarshal).toInfo row.channelInfo).entries 0
        (row.remainingNotAutoDisabled unmarshal).remainingKeys =
      ((row.entries unmarshal).filter
        fun entry => entry.status ≠ ChannelStatusAutoDisabled).map KeyEntry.clear := by
  rw [remainingNotAutoDisabled, Reindexed.loop_kept, kept_not_auto_disabled]
  rfl

/-- No automatically disabled key is left. -/
theorem remaining_not_auto_disabled (unmarshal : String → Option (List String)) (row : Channel)
    (i : ℕ) : (row.remainingNotAutoDisabled unmarshal).newStatusList.lookup i ≠
      some ChannelStatusAutoDisabled := by
  intro hdisabled
  cases hkey : (row.remainingNotAutoDisabled unmarshal).remainingKeys[i]? with
  | none =>
      have hnone := (Reindexed.loop_fresh Reindexed.empty_fresh 0 (row.getKeys unmarshal)).status i
        (List.getElem?_eq_none_iff.1 hkey)
      exact Option.some_ne_none _ (hdisabled.symm.trans hnone)
  | some key =>
      let info := (row.remainingNotAutoDisabled unmarshal).toInfo row.channelInfo
      have hentry : (info.entries 0 (row.remainingNotAutoDisabled unmarshal).remainingKeys)[i]? =
          some (info.entry i key) :=
        ChannelInfo.getElem?_entries_of_eq hkey
      rw [entries_remaining] at hentry
      obtain ⟨entry, hmem, hclear⟩ := List.mem_map.1 (List.mem_of_getElem? hentry)
      have hstatus : (info.entry i key).status = ChannelStatusAutoDisabled :=
        congrArg (Option.getD · ChannelStatusEnabled) hdisabled
      rw [← hclear, entry.clear_status] at hstatus
      exact of_decide_eq_true (List.mem_filter.1 hmem).2 hstatus

/-- The kept entries are unchanged exactly where the enabled ones have nothing to lose. -/
theorem clear_entries_iff : ((row.entries unmarshal).filter
      fun entry => entry.status ≠ ChannelStatusAutoDisabled).map KeyEntry.clear =
        (row.entries unmarshal).filter (fun entry => entry.status ≠ ChannelStatusAutoDisabled) ↔
      row.NoTraces unmarshal := by
  rw [KeyEntry.map_clear_eq_self_iff]
  constructor
  · intro hsame i hi henabled
    have hentry : (row.entries unmarshal)[i]? =
        some (row.channelInfo.entry i ((row.getKeys unmarshal).get ⟨i, hi⟩)) :=
      ChannelInfo.getElem?_entries_of_eq (List.getElem?_eq_getElem hi)
    refine KeyEntry.clear_eq_self_iff.1 (hsame _ (List.mem_filter.2
      ⟨List.mem_of_getElem? hentry, ?_⟩)) henabled
    have hstatus : (row.channelInfo.entry i ((row.getKeys unmarshal).get ⟨i, hi⟩)).status =
        ChannelStatusEnabled := henabled
    rw [hstatus]
    rfl
  · intro htraces entry hentry
    obtain ⟨i, hi⟩ := List.mem_iff_getElem?.1 (List.mem_filter.1 hentry).1
    obtain ⟨key, hkey, rfl⟩ := ChannelInfo.eq_entry_of_getElem? hi
    exact KeyEntry.clear_eq_self_iff.2 (htraces i (List.getElem?_eq_some_iff.1 hkey).1)

/-- The keys of the written row are those that were joined. -/
theorem getKeys_written_iff {row' : Channel}
    (hkey : row'.key = writeText row.key (join '\n' keys)) :
    row'.getKeys unmarshal = keys ↔ row.Rejoins unmarshal keys := by
  rw [Rejoins]
  by_cases htext : join '\n' keys = ""
  · rw [writeText, if_pos htext] at hkey
    rw [if_pos htext, getKeys_congr hkey, eq_comm]
  · rw [writeText, if_neg htext] at hkey
    rw [if_neg htext, getKeys_eq unmarshal (by rw [hkey]; exact htext), hkey]
    cases asArray unmarshal (join '\n' keys) with
    | some values => rfl
    | none =>
        rw [Option.getD_none]
        exact split_trim_join_iff htext

/-- A write that leaves the key text. -/
theorem success_same_key (hmulti : info.isMultiKey = true) :
    let row' := row.updates unmarshal { row with channelInfo := info }
    (row'.entries unmarshal = target ∧
        row'.channelInfo.multiKeySize = (row'.getKeys unmarshal).length) ↔
      ¬row.EmptyArray unmarshal ∧ info.entries 0 (row.getKeys unmarshal) = target := by
  obtain ⟨hentries, hsize, hkey⟩ :=
    updates_spec unmarshal row row.key hmulti
  have hkey' := hkey.trans (ite_id row.key)
  dsimp only
  rw [hentries, hsize, hkey', getKeys_congr hkey', and_comm]
  exact and_congr_left' (Int.ofNat_inj.trans countKeys_eq_iff)

/-- A write of the keys that are left. -/
theorem success_withKeys {remaining : Reindexed} (hmulti : row.channelInfo.isMultiKey = true)
    (hkeys : row.getKeys unmarshal ≠ [])
    (htarget : target.map KeyEntry.key = remaining.remainingKeys) :
    let row' := row.updates unmarshal (row.withKeys remaining)
    (row'.entries unmarshal = target ∧
        row'.channelInfo.multiKeySize = (row'.getKeys unmarshal).length) ↔
      row.Rejoins unmarshal remaining.remainingKeys ∧
        (remaining.toInfo row.channelInfo).entries 0 remaining.remainingKeys = target := by
  have hmulti' : (remaining.toInfo row.channelInfo).isMultiKey = true := hmulti
  obtain ⟨hentries, hsize, hkey⟩ :=
    updates_spec unmarshal row (join '\n' remaining.remainingKeys) hmulti'
  intro row'
  have hrejoins : row'.getKeys unmarshal = remaining.remainingKeys ↔ _ := getKeys_written_iff hkey
  constructor
  · rintro ⟨hdone, -⟩
    have hsame : row'.getKeys unmarshal = remaining.remainingKeys := by
      rw [← htarget, ← hdone]
      exact (ChannelInfo.map_key_entries 0 _).symm
    refine ⟨hrejoins.1 hsame, ?_⟩
    rw [← hdone, ← hsame]
    exact hentries.symm
  · rintro ⟨hback, hdone⟩
    have hsame := hrejoins.2 hback
    have hwritten : row'.entries unmarshal =
        (remaining.toInfo row.channelInfo).entries 0 (row'.getKeys unmarshal) := hentries
    refine ⟨?_, ?_⟩
    · rw [hwritten, hsame, hdone]
    · have hfull : ¬EmptyArray unmarshal row' := by
        rintro ⟨-, hnone⟩
        have hnil := hsame.symm.trans hnone
        rw [hnil] at hback
        exact hkeys hback.symm
      exact hsize.trans (Int.ofNat_inj.2 (countKeys_eq_iff.2 hfull))

end Channel

/-! ## What a failure behind the write leaves -/

namespace Channel

variable {unmarshal : String → Option (List String)} {row : Channel} {info : ChannelInfo}
  {key : String} {place : ℕ}

/-- The row is as before when its key text is not replaced by another one, its size counts the keys
already, and the new maps are the old ones. -/
theorem sameRow_updates_iff (key : String) (info : ChannelInfo) (hstored : row.Stored)
    (hinfo : { info with
      multiKeySize := row.channelInfo.multiKeySize
      multiKeyStatusList := row.channelInfo.multiKeyStatusList
      multiKeyDisabledReason := row.channelInfo.multiKeyDisabledReason
      multiKeyDisabledTime := row.channelInfo.multiKeyDisabledTime } = row.channelInfo) :
    SameRow row (row.updates unmarshal { row with key := key, channelInfo := info }) ↔
      writeText row.key key = row.key ∧
      row.channelInfo.multiKeySize = countKeys unmarshal row.key ∧
      (∀ n < countKeys unmarshal row.key,
        info.multiKeyStatusList.lookup n = row.channelInfo.multiKeyStatusList.lookup n) ∧
      (∀ n, info.multiKeyDisabledReason.lookup n =
        row.channelInfo.multiKeyDisabledReason.lookup n) ∧
      ∀ n, info.multiKeyDisabledTime.lookup n = row.channelInfo.multiKeyDisabledTime.lookup n := by
  have hmulti : info.isMultiKey = true :=
    (congrArg ChannelInfo.isMultiKey hinfo).trans hstored.multi
  have hcount := recount_lookup unmarshal row { row with key := key, channelInfo := info } hmulti
  rw [updates_edited hmulti]
  dsimp only at hcount
  constructor
  · intro hsame
    have hkey : writeText row.key key = row.key := congrArg Channel.key hsame.columns
    have hsize := congrArg ChannelInfo.multiKeySize hsame.info
    have hreason := hsame.reason
    have htime := hsame.time
    rw [recount, if_pos hmulti] at hsize hreason htime
    dsimp only at hsize hreason htime
    rw [hkey] at hsize
    refine ⟨hkey, hsize.symm, fun n hn => ?_, hreason, htime⟩
    have hstatus := hsame.status n
    rw [hcount, hkey, if_neg (Nat.not_le_of_gt hn)] at hstatus
    exact hstatus
  · rintro ⟨hkey, hsize, hstatus, hreason, htime⟩
    refine ⟨by rw [hkey], ?_, fun n => ?_, ?_, ?_⟩
    · rw [recount, if_pos hmulti, hkey]
      dsimp only
      rw [← hsize]
      exact hinfo
    · dsimp only
      rw [hcount, hkey]
      split
      case isTrue hn =>
        have hnone : row.channelInfo.multiKeyStatusList.lookup n = none := by
          refine AList.lookup_eq_none.2 fun hmem => ?_
          have hlt := hstored.range n hmem
          omega
        exact hnone.symm
      case isFalse hn => exact hstatus n (Nat.lt_of_not_le hn)
    · rw [recount, if_pos hmulti]
      exact hreason
    · rw [recount, if_pos hmulti]
      exact htime

theorem key_ne_of_getKeys_ne (hkeys : row.getKeys unmarshal ≠ []) : row.key ≠ "" := by
  intro hkey
  rw [getKeys, if_pos hkey] at hkeys
  exact hkeys rfl

theorem unmarshal_of_asArray {text : String} {values : List String}
    (hvalues : asArray unmarshal text = some values) :
    unmarshal (trimSpace text) = some values := by
  rw [asArray] at hvalues
  split at hvalues
  · exact hvalues
  · cases hvalues

/-- The text of all keys is no longer than the key text. -/
theorem length_join_getKeys_le (harray : ArrayDecoder unmarshal)
    (hkeys : row.getKeys unmarshal ≠ []) :
    (join '\n' (row.getKeys unmarshal)).length ≤ row.key.length := by
  rw [getKeys_eq unmarshal (key_ne_of_getKeys_ne hkeys)]
  cases hvalues : asArray unmarshal row.key with
  | none =>
      rw [Option.getD_none, join_split]
      exact length_trim_le _ _
  | some values =>
      have hshorter := harray.shorter _ _ (unmarshal_of_asArray hvalues)
      have htrim := length_trim_le row.key isSpace
      rw [Option.getD_some]
      rw [trimSpace] at hshorter
      omega

/-- No line of several is empty at an end, and no element of an array is. -/
theorem without_ne_empty (harray : ArrayDecoder unmarshal)
    (hplace : place < (row.getKeys unmarshal).length) :
    (row.getKeys unmarshal).eraseIdx place ≠ [""] := by
  intro hrest
  have hkeys : row.getKeys unmarshal ≠ [] := List.ne_nil_of_length_pos (Nat.zero_lt_of_lt hplace)
  have hlength := List.length_eraseIdx_of_lt hplace
  rw [hrest, List.length_singleton] at hlength
  have heq := getKeys_eq unmarshal (key_ne_of_getKeys_ne hkeys)
  cases hvalues : asArray unmarshal row.key with
  | some values =>
      rw [hvalues, Option.getD_some] at heq
      have hempty : "" ∈ (row.getKeys unmarshal).eraseIdx place := by
        rw [hrest]
        exact List.mem_singleton_self _
      refine harray.nonempty _ _ (unmarshal_of_asArray hvalues) ?_
      rw [← heq]
      exact List.mem_of_mem_eraseIdx hempty
  | none =>
      rw [hvalues, Option.getD_none] at heq
      have hends := trim_ends (c := '\n') row.key
      rw [← join_split (c := '\n') (trim row.key (· = '\n')), ← heq] at hends
      obtain ⟨first, second, htwo⟩ := List.length_eq_two.1 (by omega :
        (row.getKeys unmarshal).length = 2)
      rw [htwo] at hrest hends hplace
      rw [join, join, String.toList_append, String.toList_append] at hends
      -- either the first or the second of the two lines is the one that is left
      rcases place with _ | _ | place
      · obtain rfl : second = "" := List.head_eq_of_cons_eq hrest
        exact hends.2 (by simp)
      · obtain rfl : first = "" := List.head_eq_of_cons_eq hrest
        exact hends.1 (by simp)
      · have htwo : place + 2 < 2 := hplace
        omega

/-- A key text with more than one key is another one without one of them. -/
theorem text_without_ne (harray : ArrayDecoder unmarshal)
    (hplace : place < (row.getKeys unmarshal).length)
    (hrest : (row.getKeys unmarshal).eraseIdx place ≠ []) :
    writeText row.key (join '\n' ((row.getKeys unmarshal).eraseIdx place)) ≠ row.key := by
  have hkeys : row.getKeys unmarshal ≠ [] := List.ne_nil_of_length_pos (Nat.zero_lt_of_lt hplace)
  have hlt := length_join_eraseIdx_lt (c := '\n') hplace hrest
  have hle := length_join_getKeys_le harray hkeys
  rw [writeText, if_neg fun hempty =>
    without_ne_empty harray hplace (eq_of_join_eq_empty hrest hempty)]
  intro hsame
  rw [hsame] at hlt
  omega

end Channel

/-! ## The actions one by one -/

namespace ChannelInfo

variable {info info' : ChannelInfo} {keys : List String}

theorem entries_modify {place : ℕ} {f : KeyEntry → KeyEntry}
    (hplace : ∀ key, info'.entry place key = f (info.entry place key))
    (hothers : ∀ n ≠ place, ∀ key, info'.entry n key = info.entry n key) :
    info'.entries 0 keys = (info.entries 0 keys).modify place f := by
  refine List.ext_getElem? fun n => ?_
  rw [entries_getElem?, List.getElem?_modify, entries_getElem?, Nat.zero_add]
  by_cases hn : place = n
  · subst hn
    cases keys[place]? with
    | none => rfl
    | some key => simp [hplace]
  · cases keys[n]? with
    | none => rfl
    | some key => simp [hn, hothers n (Ne.symm hn)]

theorem entries_map_iff {f : KeyEntry → KeyEntry} : info'.entries 0 keys =
    (info.entries 0 keys).map f ↔
      ∀ n key, keys[n]? = some key → info'.entry n key = f (info.entry n key) := by
  constructor
  · intro hsame n key hkey
    have hn : (info'.entries 0 keys)[n]? = ((info.entries 0 keys).map f)[n]? := by rw [hsame]
    rw [List.getElem?_map, entries_getElem?, entries_getElem?, Nat.zero_add, hkey] at hn
    exact Option.some.inj hn
  · intro hentries
    refine List.ext_getElem? fun n => ?_
    rw [List.getElem?_map, entries_getElem?, entries_getElem?, Nat.zero_add]
    cases hkey : keys[n]? with
    | none => rfl
    | some key => rw [Option.map_some, Option.map_some, Option.map_some, hentries n key hkey]

end ChannelInfo

namespace Channel

variable {unmarshal : String → Option (List String)} {row : Channel} {keyIndex : Option ℤ}

theorem checkIndex_ok (missing : String) (hindex : row.InRange keyIndex) :
    row.checkIndex missing keyIndex = .ok (keyIndex.getD 0).toNat := by
  obtain ⟨i, rfl, hfirst, hlast⟩ := hindex
  rw [checkIndex, if_neg (by omega), Option.getD_some]

theorem checkIndex_error (missing : String) (hindex : ¬row.InRange keyIndex) :
    ∃ message, row.checkIndex missing keyIndex = .error message := by
  cases keyIndex with
  | none => exact ⟨missing, rfl⟩
  | some i =>
      rw [checkIndex]
      split
      case isTrue => exact ⟨_, rfl⟩
      case isFalse hrange =>
        push Not at hrange
        exact absurd ⟨i, rfl, hrange⟩ hindex

theorem toNat_lt_of_inRange (hindex : row.InRange keyIndex) :
    ((keyIndex.getD 0).toNat : ℤ) < row.channelInfo.multiKeySize := by
  obtain ⟨i, rfl, hfirst, hlast⟩ := hindex
  rw [Option.getD_some]
  omega

theorem mem_enabledPlaces {i : ℕ} : i ∈ row.enabledPlaces ↔
    (i : ℤ) < row.channelInfo.multiKeySize ∧ row.keyStatus i = ChannelStatusEnabled := by
  rw [enabledPlaces, List.mem_filter, List.mem_range, decide_eq_true_iff]
  refine and_congr_left' ?_
  omega

/-- What an accepted request has to show: how its edited row, once written, relates to the list
operation, and when it is the old row. -/
def EditsTo (unmarshal : String → Option (List String)) (row : Channel) (action : MultiKeyAction) :
    Prop :=
  ∃ channel message, row.editMultiKeys unmarshal action = .ok (channel, message) ∧
    let row' := row.updates unmarshal channel
    ((row'.entries unmarshal = KeyEntry.apply (row.entries unmarshal) action ∧
        row'.channelInfo.multiKeySize = (row'.getKeys unmarshal).length) ↔
      row.Rewrites unmarshal action) ∧
    (SameRow row row' ↔ row.FindsDone unmarshal action)

/-- An action that changes the maps only. -/
theorem editsTo_of_info {action : MultiKeyAction} {message : String} (info : ChannelInfo)
    (hstored : row.Stored) (hinfo : { info with
      multiKeySize := row.channelInfo.multiKeySize
      multiKeyStatusList := row.channelInfo.multiKeyStatusList
      multiKeyDisabledReason := row.channelInfo.multiKeyDisabledReason
      multiKeyDisabledTime := row.channelInfo.multiKeyDisabledTime } = row.channelInfo)
    (hedit : row.editMultiKeys unmarshal action = .ok ({ row with channelInfo := info }, message))
    (hsuccess : ¬row.EmptyArray unmarshal ∧
        info.entries 0 (row.getKeys unmarshal) = KeyEntry.apply (row.entries unmarshal) action ↔
      row.Rewrites unmarshal action)
    (hfailure : row.channelInfo.multiKeySize = countKeys unmarshal row.key ∧
        (∀ n < countKeys unmarshal row.key,
          info.multiKeyStatusList.lookup n = row.channelInfo.multiKeyStatusList.lookup n) ∧
        (∀ n, info.multiKeyDisabledReason.lookup n =
          row.channelInfo.multiKeyDisabledReason.lookup n) ∧
        (∀ n, info.multiKeyDisabledTime.lookup n =
          row.channelInfo.multiKeyDisabledTime.lookup n) ↔
      row.FindsDone unmarshal action) : EditsTo unmarshal row action := by
  have hmulti : info.isMultiKey = true :=
    (congrArg ChannelInfo.isMultiKey hinfo).trans hstored.multi
  refine ⟨_, message, hedit, (success_same_key hmulti).trans hsuccess, ?_⟩
  exact (sameRow_updates_iff row.key info hstored hinfo).trans
    ((and_iff_right (ite_id _)).trans hfailure)

theorem editsTo_disableKey (hstored : row.Stored) (hindex : row.InRange keyIndex) :
    EditsTo unmarshal row (.disableKey keyIndex) := by
  refine editsTo_of_info { row.channelInfo with
    multiKeyStatusList := row.channelInfo.multiKeyStatusList.insert (keyIndex.getD 0).toNat
      ChannelStatusManuallyDisabled } hstored rfl
        (by rw [editMultiKeys, checkIndex_ok _ hindex]; rfl)
    ?_ ?_
  · refine and_iff_left (ChannelInfo.entries_modify (fun key => ?_) fun n hn key => ?_)
    · rw [ChannelInfo.entry, AList.lookup_insert]
      rfl
    · rw [ChannelInfo.entry, AList.lookup_insert_ne hn]
      rfl
  · have hlt := toNat_lt_of_inRange hindex
    constructor
    · rintro ⟨hsize, hstatus, -, -⟩
      refine ⟨hsize, ?_⟩
      rw [← hstatus _ (by omega), AList.lookup_insert]
    · rintro ⟨hsize, hdone⟩
      refine ⟨hsize, fun n _ => ?_, fun _ => rfl, fun _ => rfl⟩
      by_cases hn : n = (keyIndex.getD 0).toNat
      · rw [hn, AList.lookup_insert, hdone]
      · rw [AList.lookup_insert_ne hn]

theorem editsTo_enableKey (hstored : row.Stored) (hindex : row.InRange keyIndex) :
    EditsTo unmarshal row (.enableKey keyIndex) := by
  refine editsTo_of_info { row.channelInfo with
    multiKeyStatusList := row.channelInfo.multiKeyStatusList.erase (keyIndex.getD 0).toNat
    multiKeyDisabledTime := row.channelInfo.multiKeyDisabledTime.erase (keyIndex.getD 0).toNat
    multiKeyDisabledReason := row.channelInfo.multiKeyDisabledReason.erase (keyIndex.getD 0).toNat }
    hstored rfl (by rw [editMultiKeys, checkIndex_ok _ hindex]; rfl) ?_ ?_
  · refine and_iff_left (ChannelInfo.entries_modify (fun key => ?_) fun n hn key => ?_)
    · rw [ChannelInfo.entry, AList.lookup_erase, AList.lookup_erase, AList.lookup_erase]
      rfl
    · rw [ChannelInfo.entry, AList.lookup_erase_ne hn, AList.lookup_erase_ne hn,
        AList.lookup_erase_ne hn]
      rfl
  · have hlt := toNat_lt_of_inRange hindex
    constructor
    · rintro ⟨hsize, hstatus, hreason, htime⟩
      refine ⟨hsize, ?_, ?_, ?_⟩
      · rw [← hstatus _ (by omega), AList.lookup_erase]
      · rw [← htime, AList.lookup_erase]
      · rw [← hreason, AList.lookup_erase]
    · rintro ⟨hsize, hstatus, htime, hreason⟩
      have herase : ∀ {β : Type} (list : AList fun _ : ℕ => β),
          list.lookup (keyIndex.getD 0).toNat = none →
            ∀ n, (list.erase (keyIndex.getD 0).toNat).lookup n = list.lookup n := by
        intro β list hnone n
        by_cases hn : n = (keyIndex.getD 0).toNat
        · rw [hn, AList.lookup_erase, hnone]
        · rw [AList.lookup_erase_ne hn]
      exact ⟨hsize, fun n _ => herase _ hstatus n, herase _ hreason, herase _ htime⟩

theorem editsTo_enableAllKeys (hstored : row.Stored) :
    EditsTo unmarshal row .enableAllKeys := by
  refine editsTo_of_info { row.channelInfo with
    multiKeyStatusList := ∅
    multiKeyDisabledTime := ∅
    multiKeyDisabledReason := ∅ } hstored rfl rfl ?_ ?_
  · exact and_iff_left (ChannelInfo.entries_map_iff.2 fun n key _ => rfl)
  · constructor
    · rintro ⟨hsize, hstatus, hreason, htime⟩
      refine ⟨hsize, fun n => ⟨?_, (htime n).symm, (hreason n).symm⟩⟩
      refine AList.lookup_eq_none.2 fun hmem => ?_
      have hlt := hstored.range n hmem
      exact AList.lookup_eq_none.1 (hstatus n (by omega)).symm hmem
    · rintro ⟨hsize, hnone⟩
      exact ⟨hsize, fun n _ => (hnone n).1.symm, fun n => (hnone n).2.2.symm,
        fun n => (hnone n).2.1.symm⟩

theorem editsTo_disableAllKeys (hstored : row.Stored)
    (haccepts : row.Accepts unmarshal .disableAllKeys) :
    EditsTo unmarshal row .disableAllKeys := by
  obtain ⟨i, hi, henabled⟩ := haccepts
  have hplace : i ∈ row.enabledPlaces := mem_enabledPlaces.2 ⟨hi, henabled⟩
  refine editsTo_of_info { row.channelInfo with
    multiKeyStatusList := row.enabledPlaces.foldl
      (fun list i => list.insert i ChannelStatusManuallyDisabled)
      row.channelInfo.multiKeyStatusList } hstored rfl
    (by rw [editMultiKeys, if_neg (List.ne_nil_of_mem hplace)]) ?_ ?_
  · refine and_congr_right' (ChannelInfo.entries_map_iff.trans ?_)
    constructor
    · intro hsame n hn hstatus
      by_contra hsize
      have hnot : n ∉ row.enabledPlaces := fun hmem => hsize (mem_enabledPlaces.1 hmem).1
      have hentry := congrArg KeyEntry.status (hsame n _ (List.getElem?_eq_getElem hn))
      have hold : (row.channelInfo.entry n ((row.getKeys unmarshal).get ⟨n, hn⟩)).status =
          ChannelStatusEnabled := hstatus
      rw [ChannelInfo.entry, lookup_foldl_insert, if_neg hnot] at hentry
      have hne : ChannelStatusEnabled ≠ ChannelStatusManuallyDisabled := by decide
      exact hne (hold.symm.trans (hentry.trans (congrArg KeyEntry.status (if_pos hold))))
    · intro hcovered n key hkey
      have hn := (List.getElem?_eq_some_iff.1 hkey).1
      have hentry : (row.channelInfo.entry n key).status = row.keyStatus n := rfl
      rw [ChannelInfo.entry, lookup_foldl_insert, hentry]
      by_cases hstatus : row.keyStatus n = ChannelStatusEnabled
      · rw [if_pos (mem_enabledPlaces.2 ⟨hcovered n hn hstatus, hstatus⟩), if_pos hstatus]
        rfl
      · rw [if_neg fun hmem => hstatus (mem_enabledPlaces.1 hmem).2, if_neg hstatus]
        rfl
  · refine iff_of_false ?_ not_false
    rintro ⟨hsize, hstatus, -, -⟩
    have hsame := hstatus i (by omega)
    rw [lookup_foldl_insert, if_pos hplace] at hsame
    rw [keyStatus, ← hsame] at henabled
    exact absurd henabled (by decide)

/-- A deletion. -/
theorem editsTo_of_remaining {action : MultiKeyAction} (remaining : Reindexed)
    (hstored : row.Stored) (hkeys : row.getKeys unmarshal ≠ [])
    (hedit : ∃ message, row.editMultiKeys unmarshal action = .ok (row.withKeys remaining, message))
    (htarget : (KeyEntry.apply (row.entries unmarshal) action).map KeyEntry.key =
      remaining.remainingKeys)
    (hsuccess : row.Rejoins unmarshal remaining.remainingKeys ∧
        (remaining.toInfo row.channelInfo).entries 0 remaining.remainingKeys =
          KeyEntry.apply (row.entries unmarshal) action ↔ row.Rewrites unmarshal action)
    (hchanges : writeText row.key (join '\n' remaining.remainingKeys) = row.key →
      row.channelInfo.multiKeySize = countKeys unmarshal row.key →
      ∃ n < countKeys unmarshal row.key,
        remaining.newStatusList.lookup n ≠ row.channelInfo.multiKeyStatusList.lookup n)
    (hnot : ¬row.FindsDone unmarshal action) : EditsTo unmarshal row action := by
  obtain ⟨message, hmessage⟩ := hedit
  refine ⟨_, message, hmessage, (success_withKeys hstored.multi hkeys htarget).trans hsuccess, ?_⟩
  refine (sameRow_updates_iff _ (remaining.toInfo row.channelInfo) hstored rfl).trans
    (iff_of_false ?_ hnot)
  rintro ⟨hkey, hsize, hstatus, -, -⟩
  obtain ⟨n, hn, hne⟩ := hchanges hkey hsize
  exact hne (hstatus n hn)

theorem editsTo_deleteKey (harray : ArrayDecoder unmarshal) (hstored : row.Stored)
    (haccepts : row.Accepts unmarshal (.deleteKey keyIndex)) :
    EditsTo unmarshal row (.deleteKey keyIndex) := by
  obtain ⟨hindex, hrest⟩ := haccepts
  have hremaining := remainingKeys_without unmarshal row (keyIndex.getD 0).toNat
  have hkeys : row.getKeys unmarshal ≠ [] := by
    intro hnil
    rw [hnil] at hrest
    exact hrest rfl
  have hfull : ¬row.EmptyArray unmarshal := fun hempty => hkeys hempty.2
  refine editsTo_of_remaining (row.remainingWithout unmarshal (keyIndex.getD 0).toNat) hstored hkeys
    ?_ ?_ ?_ ?_ not_false
  · rw [editMultiKeys, checkIndex_ok _ hindex]
    exact ⟨_, if_neg (by rwa [hremaining])⟩
  · rw [hremaining, KeyEntry.apply, ← List.eraseIdx_map]
    exact congrArg (List.eraseIdx · _) (ChannelInfo.map_key_entries 0 _)
  · rw [hremaining]
    refine and_iff_left ?_
    rw [← hremaining, remainingWithout, Reindexed.loop_kept, Reindexed.kept_without,
      if_pos (Nat.zero_le _), Nat.sub_zero]
    rfl
  · intro hkey hsize
    rw [hremaining] at hkey
    rw [countKeys_eq_iff.2 hfull] at hsize
    have hlt := toNat_lt_of_inRange hindex
    exact absurd hkey (text_without_ne harray (by omega) hrest)

theorem editsTo_deleteDisabledKeys (hstored : row.Stored)
    (haccepts : row.Accepts unmarshal .deleteDisabledKeys) :
    EditsTo unmarshal row .deleteDisabledKeys := by
  obtain ⟨i, hi, hdisabled⟩ := haccepts
  have hremaining := remainingKeys_not_auto_disabled unmarshal row
  have hkeys : row.getKeys unmarshal ≠ [] := List.ne_nil_of_length_pos (Nat.zero_lt_of_lt hi)
  have hentry : (row.entries unmarshal)[i]? =
      some (row.channelInfo.entry i ((row.getKeys unmarshal).get ⟨i, hi⟩)) :=
    ChannelInfo.getElem?_entries_of_eq (List.getElem?_eq_getElem hi)
  have hfewer : (row.keysNotAutoDisabled unmarshal).length < (row.getKeys unmarshal).length := by
    rw [keysNotAutoDisabled, List.length_map, ← ChannelInfo.length_entries 0 (row.getKeys unmarshal)]
    refine List.length_filter_lt_length_iff_exists.2 ⟨_, List.mem_of_getElem? hentry, ?_⟩
    rw [decide_eq_true_iff, not_not]
    exact hdisabled
  refine editsTo_of_remaining (row.remainingNotAutoDisabled unmarshal) hstored hkeys ?_ ?_ ?_ ?_
    not_false
  · rw [editMultiKeys]
    exact ⟨_, if_neg (by rw [hremaining]; omega)⟩
  · rw [hremaining]
    rfl
  · rw [hremaining]
    refine and_congr_right' ?_
    rw [← hremaining, entries_remaining]
    exact clear_entries_iff
  · -- the status list loses the entry of the disabled key
    intro _ hsize
    have hlist := remaining_not_auto_disabled unmarshal row i
    refine ⟨i, lt_of_lt_of_le hi (length_getKeys_le unmarshal row), fun hsame => hlist ?_⟩
    rw [hsame]
    cases hlookup : row.channelInfo.multiKeyStatusList.lookup i with
    | none =>
        rw [keyStatus, hlookup] at hdisabled
        exact absurd hdisabled (by decide)
    | some status =>
        rw [keyStatus, hlookup] at hdisabled
        exact congrArg some hdisabled

theorem edit_error {action : MultiKeyAction} (haccepts : ¬row.Accepts unmarshal action) :
    ∃ message, row.editMultiKeys unmarshal action = .error message := by
  cases action with
  | disableKey keyIndex =>
      obtain ⟨message, herror⟩ := checkIndex_error "未指定要禁用的密钥索引" haccepts
      exact ⟨message, by rw [editMultiKeys, herror]; rfl⟩
  | enableKey keyIndex =>
      obtain ⟨message, herror⟩ := checkIndex_error "未指定要启用的密钥索引" haccepts
      exact ⟨message, by rw [editMultiKeys, herror]; rfl⟩
  | enableAllKeys => exact absurd trivial haccepts
  | disableAllKeys =>
      have hplaces : row.enabledPlaces = [] := List.eq_nil_iff_forall_not_mem.2 fun i hi =>
        haccepts ⟨i, mem_enabledPlaces.1 hi⟩
      exact ⟨_, by rw [editMultiKeys, if_pos hplaces]⟩
  | deleteKey keyIndex =>
      by_cases hindex : row.InRange keyIndex
      · have hrest := not_not.1 fun hne => haccepts ⟨hindex, hne⟩
        rw [editMultiKeys, checkIndex_ok _ hindex]
        exact ⟨_, if_pos (by rwa [remainingKeys_without])⟩
      · obtain ⟨message, herror⟩ := checkIndex_error "未指定要删除的密钥索引" hindex
        exact ⟨message, by rw [editMultiKeys, herror]; rfl⟩
  | deleteDisabledKeys =>
      have hall : (row.entries unmarshal).filter
          (fun entry => entry.status ≠ ChannelStatusAutoDisabled) = row.entries unmarshal := by
        refine List.filter_eq_self.2 fun entry hentry => decide_eq_true fun hdisabled => haccepts ?_
        obtain ⟨i, hi⟩ := List.mem_iff_getElem?.1 hentry
        obtain ⟨key, hkey, rfl⟩ := ChannelInfo.eq_entry_of_getElem? hi
        exact ⟨i, (List.getElem?_eq_some_iff.1 hkey).1, hdisabled⟩
      have hkeys : row.keysNotAutoDisabled unmarshal = row.getKeys unmarshal := by
        rw [keysNotAutoDisabled, hall]
        exact ChannelInfo.map_key_entries 0 _
      rw [editMultiKeys]
      exact ⟨_, if_pos (by rw [remainingKeys_not_auto_disabled, hkeys, Nat.sub_self])⟩

theorem editsTo (harray : ArrayDecoder unmarshal) (hstored : row.Stored) {action : MultiKeyAction}
    (haccepts : row.Accepts unmarshal action) : EditsTo unmarshal row action := by
  cases action with
  | disableKey keyIndex => exact editsTo_disableKey hstored haccepts
  | enableKey keyIndex => exact editsTo_enableKey hstored haccepts
  | enableAllKeys => exact editsTo_enableAllKeys hstored
  | disableAllKeys => exact editsTo_disableAllKeys hstored haccepts
  | deleteKey keyIndex => exact editsTo_deleteKey harray hstored haccepts
  | deleteDisabledKeys => exact editsTo_deleteDisabledKeys hstored haccepts

theorem SameRow.refl (row : Channel) : SameRow row row :=
  ⟨rfl, rfl, fun _ => rfl, fun _ => rfl, fun _ => rfl⟩

/-- A request does to the list of the keys what it says, or nothing when it fails, exactly where
either it changes nothing in any case, or what it relies on holds: in a request that succeeds the
keys that are left can be read again from the lines that they are joined to, and in one whose
abilities cannot be written the row was already as the action leaves it. -/
theorem manage_multi_keys_refines (harray : ArrayDecoder unmarshal) (hstored : row.Stored)
    (action : MultiKeyAction) (updateError abilitiesError : Option String) :
    row.Refines unmarshal action
        (row.manageMultiKeys unmarshal action updateError abilitiesError) ↔
      (row.Accepts unmarshal action → updateError = none →
        (abilitiesError = none → row.Rewrites unmarshal action) ∧
        (abilitiesError ≠ none → row.FindsDone unmarshal action)) := by
  rw [manageMultiKeys, hstored.multi, Bool.not_true, if_neg Bool.false_ne_true]
  by_cases haccepts : row.Accepts unmarshal action
  · obtain ⟨channel, message, hedit, hsuccess, hfailure⟩ := editsTo harray hstored haccepts
    rw [hedit]
    cases updateError with
    | some err => exact iff_of_true (SameRow.refl row) fun _ hnone => nomatch hnone
    | none =>
        cases abilitiesError with
        | none =>
            exact hsuccess.trans ⟨fun hrewrites _ _ => ⟨fun _ => hrewrites, fun hne => absurd rfl hne⟩,
              fun hall => (hall haccepts rfl).1 rfl⟩
        | some err =>
            exact hfailure.trans ⟨fun hdone _ _ => ⟨nofun, fun _ => hdone⟩,
              fun hall => (hall haccepts rfl).2 (Option.some_ne_none err)⟩
  · obtain ⟨message, herror⟩ := edit_error haccepts
    rw [herror]
    exact iff_of_true (SameRow.refl row) fun haccepts' => absurd haccepts' haccepts

/-- A channel with one key that has been disabled automatically. -/
def sampleKeyRow (key : String) (size : ℤ) (place : ℕ) : Channel :=
  { sampleCachedChannel 2 true with
    key := key
    channelInfo :=
      { (sampleCachedChannel 2 true).channelInfo with
        multiKeySize := size
        multiKeyStatusList := (∅ : AList fun _ : ℕ => ℤ).insert place ChannelStatusAutoDisabled } }

theorem sampleKeyRow_stored (key : String) {size : ℤ} {place : ℕ} (hplace : (place : ℤ) < size) :
    (sampleKeyRow key size place).Stored where
  multi := rfl
  range := by
    intro i hi
    rcases (AList.mem_insert _).1 hi with rfl | hnone
    · exact hplace
    · exact absurd hnone (AList.notMem_empty i)

theorem no_arrays : ArrayDecoder fun _ => none :=
  ⟨fun _ _ hvalues => (nomatch hvalues), fun _ _ hvalues => (nomatch hvalues)⟩

theorem manage_multi_keys_refines_second :
    (sampleKeyRow "sk-1\nsk-2\nsk-3" 3 1).Refines (fun _ => none) (.deleteKey (some 1))
      ((sampleKeyRow "sk-1\nsk-2\nsk-3" 3 1).manageMultiKeys (fun _ => none) (.deleteKey (some 1))
        none none) := by
  apply (manage_multi_keys_refines no_arrays (sampleKeyRow_stored _ (by decide)) _ none none).2
  intro _ _
  refine ⟨fun _ => ?_, fun hne => absurd rfl hne⟩
  have hkeys : (sampleKeyRow "sk-1\nsk-2\nsk-3" 3 1).getKeys (fun _ => none) =
      ["sk-1", "sk-2", "sk-3"] := by
    decide
  have hlines : asArray (fun _ => none) (join '\n' ["sk-1", "sk-3"]) = none := by
    rw [asArray, ite_id]
  rw [Rewrites, hkeys]
  show Rejoins (fun _ => none) _ ["sk-1", "sk-3"]
  rw [Rejoins, if_neg (by decide), hlines]
  exact ⟨by decide, by decide, by decide⟩

/-- When all keys are disabled automatically, their deletion enables them again. -/
theorem delete_disabled_keys_enables :
    ¬ ∀ (unmarshal : String → Option (List String)) (row : Channel) (action : MultiKeyAction)
      (updateError abilitiesError : Option String), ArrayDecoder unmarshal → row.Stored →
      row.channelInfo.multiKeySize = (row.getKeys unmarshal).length →
      row.Refines unmarshal action
        (row.manageMultiKeys unmarshal action updateError abilitiesError) := by
  intro hclaim
  have hstored : (sampleKeyRow "sk-2" 1 0).Stored := sampleKeyRow_stored _ (by decide)
  have hkeys : (sampleKeyRow "sk-2" 1 0).getKeys (fun _ => none) = ["sk-2"] := by decide
  have hedits : EditsTo (fun _ => none) (sampleKeyRow "sk-2" 1 0) .deleteDisabledKeys :=
    editsTo_deleteDisabledKeys hstored ⟨0, by rw [hkeys]; exact Nat.one_pos, by decide⟩
  obtain ⟨channel, message, hedit, hsuccess, -⟩ := hedits
  have hrefines := hclaim (fun _ => none) (sampleKeyRow "sk-2" 1 0) .deleteDisabledKeys none none
    no_arrays hstored (by rw [hkeys]; rfl)
  rw [manageMultiKeys, hstored.multi, Bool.not_true, if_neg Bool.false_ne_true, hedit] at hrefines
  obtain ⟨hrejoins, -⟩ := hsuccess.1 hrefines
  have hnone : (sampleKeyRow "sk-2" 1 0).keysNotAutoDisabled (fun _ => none) = [] := by
    rw [keysNotAutoDisabled, entries, hkeys]
    rfl
  have hempty : join '\n' [] = "" := rfl
  rw [hnone, Rejoins, if_pos hempty, hkeys] at hrejoins
  cases hrejoins

end Channel

end NewApi.Model
