import Mathlib.Algebra.Ring.Int.Defs
import NewApi.Model.MultiKeyManage

/-!
# Concurrent writes to a channel row

The used quota of a channel is moved by atomic relative updates.  The same row is written from
copies: `UpdateChannelStatus` saves all of a copy but the key, the polling of the keys saves its
`channel_info` column, `ManageMultiKeys` and `UpdateChannel` write the nonzero fields with
`Channel.Update`.  Each database statement is one action here.  The status lock and the polling
locks are left out: they cover some of the reads and writes only, and a lock takes interleavings
away.
-/

namespace NewApi.Model

open NewApi.Lib NewApi.Lib.Strings

/-- The row with the columns that are written besides those for routing. -/
structure ChannelRow (F : Type) extends Channel where
  usedQuota : ℤ
  balance : F

/-- What a status belongs to. -/
inductive StatusTarget where
  | channel
  | key (key : String)
deriving DecidableEq

/-- An operation on a status, with the value that it sets it to; a key that is deleted has no
status. -/
structure StatusChange where
  target : StatusTarget
  status : Option ℤ
deriving DecidableEq

/-- The requests that write the row from a copy.  `usesVertexKeys` says that the channel of the
request has the type and settings for keys that are JSON objects. -/
inductive ChannelRequest (F : Type) where
  | updateChannelStatus (usingKey : String) (status : ℤ) (reason : String) (now : ℤ)
  | getNextEnabledKey
  | manageMultiKeys (action : MultiKeyAction)
  | updateChannel (patch : ChannelRow F) (multiKeyMode keyMode : Option String)
      (usesVertexKeys : Bool)

/-- An edited copy and the statuses that it is meant to change. -/
structure RowEdit (F : Type) where
  channel : ChannelRow F
  changes : List StatusChange

/-- Where a request stands.  `Channel.Update` has its copy before and after it reads the stored
key again. -/
inductive ChannelWriter (F : Type) where
  | saving (channel : ChannelRow F) (usingKey : String) (status : ℤ) (reason : String) (now : ℤ)
  | polling (channel : ChannelRow F)
  | savingInfo (info : ChannelInfo)
  | updating (channel : ChannelRow F) (request : ChannelRequest F)
  | writing (channel : ChannelRow F) (request : ChannelRequest F) (existing : Channel)
  | returned (changes : List StatusChange)

/-- The stored row and the requests on it, in the order in which they have read it. -/
structure ChannelRowState (F : Type) where
  row : ChannelRow F
  writers : List (ChannelWriter F)

/-- The atomic actions; a statement may fail. -/
inductive ChannelRowAction (F : Type) where
  | updateChannelUsedQuota (quota : ℤ) (ok : Bool)
  | updateBalance (balance : F) (ok : Bool)
  | start (request : ChannelRequest F)
  | advance (writer : ℕ) (ok : Bool)

/-! ## The requests -/

namespace Channel

/- The JSON decoder for an array of raw values. -/
variable (unmarshal : String → Option (List String))

/-- The status changes that a call of `UpdateChannelStatus` makes to its copy. -/
def statusChanges (channel : Channel) (usingKey : String) (status : ℤ) (reason : String)
    (now : ℤ) : List StatusChange :=
  let channel' := channel.setStatus unmarshal usingKey status reason now
  if channel.channelInfo.isMultiKey ∧ channel.getKeys unmarshal ≠ [] then
    (if usingKey ∈ channel.getKeys unmarshal then [⟨.key usingKey, some status⟩] else []) ++
      (if channel'.status = channel.status then [] else [⟨.channel, some channel'.status⟩])
  else [⟨.channel, some status⟩]

/-- The changes to the keys at some places. -/
def changesAt (channel : Channel) (places : List ℕ) (status : Option ℤ) : List StatusChange :=
  (places.filterMap fun i => (channel.getKeys unmarshal)[i]?).map fun key => ⟨.key key, status⟩

/-- The status changes of an action of `ManageMultiKeys`. -/
def manageChanges (channel : Channel) : MultiKeyAction → List StatusChange
  | .disableKey keyIndex =>
      channel.changesAt unmarshal [(keyIndex.getD 0).toNat] (some ChannelStatusManuallyDisabled)
  | .enableKey keyIndex =>
      channel.changesAt unmarshal [(keyIndex.getD 0).toNat] (some ChannelStatusEnabled)
  | .enableAllKeys =>
      channel.changesAt unmarshal (List.range (channel.getKeys unmarshal).length)
        (some ChannelStatusEnabled)
  | .disableAllKeys =>
      channel.changesAt unmarshal channel.enabledPlaces (some ChannelStatusManuallyDisabled)
  | .deleteKey keyIndex => channel.changesAt unmarshal [(keyIndex.getD 0).toNat] none
  | .deleteDisabledKeys =>
      channel.changesAt unmarshal
        ((List.range (channel.getKeys unmarshal).length).filter fun i =>
          channel.keyStatus i = ChannelStatusAutoDisabled) none

/-- The keys that `UpdateChannel` takes for those of the stored key text. -/
def existingKeys (key : String) : List String :=
  if hasPrefix (trimSpace key) "[" then (unmarshal (trimSpace key)).getD []
  else split (trim key (· = '\n')) '\n'

/-- The keys of an appended key text. -/
def newKeys (getVertexArrayKeys : String → Except String (List String)) (usesVertexKeys : Bool)
    (key : String) : Except String (List String) :=
  if usesVertexKeys then
    if hasPrefix (trimSpace key) "[" then
      match getVertexArrayKeys key with
      | .error err => .error ("追加密钥解析失败: " ++ err)
      | .ok keys => .ok keys
    else .ok [key]
  else .ok (((split key '\n').map trimSpace).filter fun key => key ≠ "")

/-- The new keys, trimmed, that have not been seen. -/
def dedupedNewKeys : List String → List String → List String
  | _, [] => []
  | seen, key :: keys =>
      let normalized := trimSpace key
      if normalized = "" ∨ normalized ∈ seen then dedupedNewKeys seen keys
      else normalized :: dedupedNewKeys (normalized :: seen) keys

/-- The key text of an update in the mode `append`. -/
def appendKeys (getVertexArrayKeys : String → Except String (List String)) (usesVertexKeys : Bool)
    (origin key : String) : Except String String :=
  match newKeys getVertexArrayKeys usesVertexKeys key with
  | .error err => .error err
  | .ok keys =>
      let existing := existingKeys unmarshal origin
      let seen := (existing.map trimSpace).filter fun key => key ≠ ""
      .ok (join '\n' (existing ++ dedupedNewKeys seen keys))

/-- The channel info that polling saves. -/
def polledInfo (channel : Channel) (pollingIndex : ℤ) : ChannelInfo :=
  match channel.polledPlace unmarshal pollingIndex with
  | some i =>
      { channel.channelInfo with
        multiKeyPollingIndex := ((i + 1) % (channel.getKeys unmarshal).length : ℕ) }
  | none => channel.channelInfo

end Channel

section

variable {F : Type} [Zero F] [DecidableEq F] (unmarshal : String → Option (List String))
  (getVertexArrayKeys : String → Except String (List String))

namespace ChannelRequest

/-- `UpdateChannel` appends its keys to those of a multi-key channel. -/
def Appends (channel : Channel) (keyMode : Option String) : Prop :=
  keyMode = some "append" ∧ channel.channelInfo.isMultiKey ∧ channel.key ≠ ""

instance (channel : Channel) (keyMode : Option String) : Decidable (Appends channel keyMode) :=
  inferInstanceAs (Decidable (_ ∧ _ ∧ _))

/-- The change of the channel's status by a struct write. -/
def patchChanges (status : ℤ) : List StatusChange :=
  if status = 0 then [] else [⟨.channel, some status⟩]

/-- The edit of the copy by a request that ends in `Channel.Update`, where it accepts. -/
def edit (channel : ChannelRow F) : ChannelRequest F → Option (RowEdit F)
  | .manageMultiKeys action =>
      if channel.channelInfo.isMultiKey then
        match channel.editMultiKeys unmarshal action with
        | .error _ => none
        | .ok (channel', _) =>
            some
              { channel := { channel with toChannel := channel' }
                changes := channel.toChannel.manageChanges unmarshal action }
      else none
  | .updateChannel patch multiKeyMode keyMode usesVertexKeys =>
      let info :=
        { channel.channelInfo with
          multiKeyMode := Channel.writeText channel.channelInfo.multiKeyMode
            (multiKeyMode.getD "") }
      if Appends channel.toChannel keyMode then
        match Channel.appendKeys unmarshal getVertexArrayKeys usesVertexKeys channel.key
            patch.key with
        | .error _ => none
        | .ok key =>
            some { channel := { patch with key := key, channelInfo := info },
                   changes := patchChanges patch.status }
      else
        some
          { channel := { patch with channelInfo := info }
            changes := patchChanges patch.status ++
              if patch.key = "" then []
              else (channel.getKeys unmarshal).map fun key => ⟨.key key, none⟩ }
  | _ => none

/-- A request that ends in `Channel.Update` goes on where its edit is accepted. -/
def openUpdate (row : ChannelRow F) (request : ChannelRequest F) : ChannelWriter F :=
  match request.edit unmarshal getVertexArrayKeys row with
  | some _ => .updating row request
  | none => .returned []

/-- The first read of a request: how it goes on, or that it stops there. -/
def load (row : ChannelRow F) : ChannelRequest F → ChannelWriter F
  | .updateChannelStatus usingKey status reason now =>
      if row.status = status then .returned [] else .saving row usingKey status reason now
  | .getNextEnabledKey =>
      if row.channelInfo.isMultiKey ∧ row.channelInfo.multiKeyMode = "polling" ∧
          ∃ i ∈ List.range (row.getKeys unmarshal).length,
            row.keyStatus i = ChannelStatusEnabled then
        .polling row
      else .returned []
  | .manageMultiKeys action => openUpdate unmarshal getVertexArrayKeys row (.manageMultiKeys action)
  | .updateChannel patch multiKeyMode keyMode usesVertexKeys =>
      openUpdate unmarshal getVertexArrayKeys row
        (.updateChannel patch multiKeyMode keyMode usesVertexKeys)

end ChannelRequest

namespace ChannelRowState

/-- The next statement of a request. -/
def advance (s : ChannelRowState F) (i : ℕ) (ok : Bool) :
    ChannelWriter F → Option (ChannelRowState F)
  | .saving channel usingKey status reason now =>
      let saved := channel.setStatus unmarshal usingKey status reason now
      some <|
        if ok then
          { row := { channel with toChannel := { saved with key := s.row.key } }
            writers := s.writers.set i
              (.returned (channel.statusChanges unmarshal usingKey status reason now)) }
        else { s with writers := s.writers.set i (.returned []) }
  | .polling channel =>
      some
        { s with
          writers := s.writers.set i
            (if ok then
              .savingInfo (channel.polledInfo unmarshal s.row.channelInfo.multiKeyPollingIndex)
            else .returned []) }
  | .savingInfo info =>
      some
        { row := if ok then { s.row with channelInfo := info } else s.row
          writers := s.writers.set i (.returned []) }
  | .updating channel request =>
      -- The key that is read again is empty where that fails.
      let existing := if ok then s.row.toChannel else { s.row.toChannel with key := "" }
      some { s with writers := s.writers.set i (.writing channel request existing) }
  | .writing channel request existing => do
      let edit ← request.edit unmarshal getVertexArrayKeys channel
      let written : Channel :=
        { edit.channel.toChannel with
          channelInfo := edit.channel.recount unmarshal existing }
      some <|
        if ok then
          { row :=
              { toChannel := s.row.writeNonZero written
                usedQuota :=
                  if edit.channel.usedQuota = 0 then s.row.usedQuota else edit.channel.usedQuota
                balance := if edit.channel.balance = 0 then s.row.balance
                  else edit.channel.balance }
            writers := s.writers.set i (.returned edit.changes) }
        else { s with writers := s.writers.set i (.returned []) }
  | .returned _ => none

def step (s : ChannelRowState F) : ChannelRowAction F → Option (ChannelRowState F)
  | .updateChannelUsedQuota quota ok =>
      some (if ok then { s with row := { s.row with usedQuota := s.row.usedQuota + quota } } else s)
  | .updateBalance balance ok =>
      some (if ok then { s with row := { s.row with balance := balance } } else s)
  | .start request =>
      some { s with writers := s.writers ++ [request.load unmarshal getVertexArrayKeys s.row] }
  | .advance i ok => do
      let writer ← s.writers[i]?
      s.advance unmarshal getVertexArrayKeys i ok writer

end ChannelRowState

/-- Any number of quota updates and row-writing requests on one channel, interleaved. -/
def channelRow : System (ChannelRowState F) (ChannelRowAction F) where
  step := ChannelRowState.step unmarshal getVertexArrayKeys

end

/-! ## No update is lost -/

namespace Channel

variable (unmarshal : String → Option (List String))

/-- The row shows a status: for a key, at one of its places. -/
def HasStatus (channel : Channel) : StatusTarget → ℤ → Prop
  | .channel, status => channel.status = status
  | .key key, status =>
      ∃ i, (channel.getKeys unmarshal)[i]? = some key ∧ channel.keyStatus i = status

/-- The two agree on the status of the keys. -/
def SameStatuses (channel row : Channel) : Prop :=
  channel.channelInfo.isMultiKey = row.channelInfo.isMultiKey ∧
    ∀ i, channel.keyStatus i = row.keyStatus i

/-- A write that shows its own changes and leaves the other statuses. -/
structure Moves (row row' : Channel) (changes : List StatusChange) : Prop where
  others : ∀ target status, (∀ change ∈ changes, change.target ≠ target) →
    row.HasStatus unmarshal target status → row'.HasStatus unmarshal target status
  own : ∀ change ∈ changes, ∀ status ∈ change.status, row'.HasStatus unmarshal change.target status

end Channel

section

variable {F : Type} [Zero F] [DecidableEq F] (unmarshal : String → Option (List String))
  (getVertexArrayKeys : String → Except String (List String))

/-- The keys that a deletion leaves can be read back. -/
def MultiKeyAction.KeepsKeys (channel : Channel) : MultiKeyAction → Prop
  | .deleteKey keyIndex =>
      channel.Rejoins unmarshal ((channel.getKeys unmarshal).eraseIdx (keyIndex.getD 0).toNat)
  | .deleteDisabledKeys => channel.Rejoins unmarshal (channel.keysNotAutoDisabled unmarshal)
  | _ => True

/-- The keys that the request keeps are read back where they have been. -/
def ChannelRequest.KeepsKeys (channel : Channel) : ChannelRequest F → Prop
  | .manageMultiKeys action => action.KeepsKeys unmarshal channel
  | .updateChannel patch _ keyMode usesVertexKeys => Appends channel keyMode → ∀ key,
      Channel.appendKeys unmarshal getVertexArrayKeys usesVertexKeys channel.key
        patch.key = .ok key →
        channel.getKeys unmarshal <+:
          { channel with key := Channel.writeText channel.key key }.getKeys unmarshal
  | _ => True

namespace ChannelRowState

/-- No request that has read the row later has changed one of these statuses already. -/
def NotOvertaken (s : ChannelRowState F) (i : ℕ) (changes : List StatusChange) : Prop :=
  ∀ j > i, ∀ later : List StatusChange, s.writers[j]? = some (.returned later) →
    ∀ change ∈ changes, ∀ change' ∈ later, change'.target ≠ change.target

/-- The write finds the columns that it stores as they were read, apart from what it changes. -/
def WritesCurrent (s : ChannelRowState F) (i : ℕ) : ChannelWriter F → Prop
  | .saving channel usingKey status reason now =>
      let changes := channel.statusChanges unmarshal usingKey status reason now
      channel.usedQuota = s.row.usedQuota ∧
        Channel.SameStatuses channel.toChannel s.row.toChannel ∧
        (channel.channelInfo.isMultiKey = true →
          channel.key = s.row.key ∧ channel.FindsKey unmarshal usingKey status) ∧
        ((∀ change ∈ changes, change.target ≠ .channel) → channel.status = s.row.status) ∧
        s.NotOvertaken i changes
  | .savingInfo info =>
      Channel.SameStatuses { s.row.toChannel with channelInfo := info } s.row.toChannel
  | .writing channel request existing =>
      ∀ edit, request.edit unmarshal getVertexArrayKeys channel = some edit →
        (edit.channel.usedQuota = 0 ∨ edit.channel.usedQuota = s.row.usedQuota) ∧
        Channel.SameStatuses channel.toChannel s.row.toChannel ∧ channel.key = s.row.key ∧
        (edit.channel.key = "" → existing.key = s.row.key) ∧
        ((∀ change ∈ edit.changes, change.target ≠ .channel) →
          edit.channel.status = 0 ∨ edit.channel.status = s.row.status) ∧
        request.KeepsKeys unmarshal getVertexArrayKeys channel.toChannel ∧
        s.NotOvertaken i edit.changes
  | _ => True

/-- No write of a copy is stale. -/
def NoStaleSave (s : ChannelRowState F) : ChannelRowAction F → Prop
  | .advance i true => ∀ writer, s.writers[i]? = some writer →
      s.WritesCurrent unmarshal getVertexArrayKeys i writer
  | _ => True

/-- A recorded amount of used quota. -/
def usedDelta (_ : ChannelRowState F) : ChannelRowAction F → ℤ
  | .updateChannelUsedQuota quota true => quota
  | _ => 0

/-- A status that a request has changed is in the row, unless a request that has read the row later
has changed it too. -/
def StatusesKept (s : ChannelRowState F) : Prop :=
  ∀ (i : ℕ) (changes : List StatusChange), s.writers[i]? = some (.returned changes) →
    ∀ change ∈ changes, (∀ status ∈ change.status, s.row.HasStatus unmarshal change.target status) ∨
      ∃ j > i, ∃ later : List StatusChange, s.writers[j]? = some (.returned later) ∧
        ∃ change' ∈ later, change'.target = change.target

end ChannelRowState

end

/-! ## What the writes of a copy do -/

namespace Channel

variable {unmarshal : String → Option (List String)} {channel row : Channel}
  {usingKey reason : String} {status now : ℤ}

theorem keyStatus_handlerMultiKeyUpdate (usingKey reason : String) (status now : ℤ)
    (hkeys : channel.getKeys unmarshal ≠ []) (i : ℕ) :
    (channel.handlerMultiKeyUpdate unmarshal usingKey status reason now).keyStatus i =
      if i = channel.keyIndex unmarshal usingKey then status else channel.keyStatus i := by
  have hinfo : (channel.handlerMultiKeyUpdate unmarshal usingKey status reason now).channelInfo =
      channel.channelInfo.setKeyStatus (channel.keyIndex unmarshal usingKey) status reason now := by
    rw [handlerMultiKeyUpdate, if_neg hkeys]
    dsimp only
    split <;> rfl
  rw [keyStatus, hinfo, setKeyStatus_lookup]
  rfl

theorem mem_statusChanges {change : StatusChange} (hmulti : channel.channelInfo.isMultiKey = true)
    (hkeys : channel.getKeys unmarshal ≠ []) :
    change ∈ channel.statusChanges unmarshal usingKey status reason now ↔
      (usingKey ∈ channel.getKeys unmarshal ∧ change = ⟨.key usingKey, some status⟩) ∨
      ((channel.handlerMultiKeyUpdate unmarshal usingKey status reason now).status ≠ channel.status ∧
        change = ⟨.channel, some
          (channel.handlerMultiKeyUpdate unmarshal usingKey status reason now).status⟩) := by
  rw [statusChanges, if_pos ⟨hmulti, hkeys⟩, setStatus, if_pos hmulti, List.mem_append]
  refine or_congr ?_ ?_
  · split <;> simp [*]
  · split <;> simp [*]

/-- The save of `UpdateChannelStatus` on a multi-key channel. -/
theorem setKeyStatus_moves (hmulti : channel.channelInfo.isMultiKey = true)
    (hkeys : channel.getKeys unmarshal ≠ []) (hsame : SameStatuses channel row)
    (htext : channel.key = row.key) (hfinds : channel.FindsKey unmarshal usingKey status)
    (hstatus : (∀ change ∈ channel.statusChanges unmarshal usingKey status reason now,
      change.target ≠ .channel) → channel.status = row.status) :
    Moves unmarshal row
      { channel.handlerMultiKeyUpdate unmarshal usingKey status reason now with key := row.key }
      (channel.statusChanges unmarshal usingKey status reason now) := by
  have hkeyStatus := keyStatus_handlerMultiKeyUpdate usingKey reason status now hkeys
  have hrow : row.getKeys unmarshal = channel.getKeys unmarshal := getKeys_congr htext.symm
  refine ⟨fun target value huntouched hold => ?_, fun change hchange value hvalue => ?_⟩
  · cases target with
    | channel =>
        have hkept : (channel.handlerMultiKeyUpdate unmarshal usingKey status reason now).status =
            channel.status := by
          by_contra hne
          exact huntouched _ ((mem_statusChanges hmulti hkeys).2 (.inr ⟨hne, rfl⟩)) rfl
        exact hkept.trans ((hstatus huntouched).trans hold)
    | key key =>
        obtain ⟨i, hi, rfl⟩ := hold
        refine ⟨i, hi, (hkeyStatus i).trans ?_⟩
        rw [← hsame.2 i]
        by_cases hmem : usingKey ∈ channel.getKeys unmarshal
        · refine if_neg fun hindex => ?_
          have hkey := getElem_keyIndex hmem
          rw [← hindex, ← hrow, hi] at hkey
          obtain rfl := Option.some.inj hkey
          exact huntouched _ ((mem_statusChanges hmulti hkeys).2 (.inl ⟨hmem, rfl⟩)) rfl
        · -- the first key, which is taken for the unknown one, has the status already
          have hfirst : channel.keyStatus 0 = status :=
            (hfinds.resolve_left hkeys).resolve_left hmem
          rw [keyIndex_of_notMem hmem]
          split
          case isTrue hzero => rw [hzero, hfirst]
          case isFalse => rfl
  · rcases (mem_statusChanges hmulti hkeys).1 hchange with ⟨hmem, rfl⟩ | ⟨-, rfl⟩
    · obtain rfl := Option.some.inj hvalue
      refine ⟨channel.keyIndex unmarshal usingKey, ?_, (hkeyStatus _).trans (if_pos rfl)⟩
      rw [← getElem_keyIndex hmem, ← hrow]
      rfl
    · exact Option.some.inj hvalue

/-- The save of `UpdateChannelStatus` on a channel without a list of keys. -/
theorem setChannelStatus_moves
    (hsingle : ¬(channel.channelInfo.isMultiKey = true ∧ channel.getKeys unmarshal ≠ []))
    (hsame : SameStatuses channel row) :
    Moves unmarshal row { channel.setStatus unmarshal usingKey status reason now with key := row.key }
      (channel.statusChanges unmarshal usingKey status reason now) := by
  have hset : (channel.setStatus unmarshal usingKey status reason now).status = status ∧
      (channel.setStatus unmarshal usingKey status reason now).channelInfo =
        channel.channelInfo := by
    rw [setStatus]
    split
    case isTrue hmulti =>
      have hkeys := not_not.1 fun hne => hsingle ⟨hmulti, hne⟩
      rw [handlerMultiKeyUpdate, if_pos hkeys]
      exact ⟨rfl, rfl⟩
    case isFalse => exact ⟨rfl, rfl⟩
  rw [statusChanges, if_neg hsingle]
  refine ⟨fun target value huntouched hold => ?_, fun change hchange value hvalue => ?_⟩
  · cases target with
    | channel => exact absurd rfl (huntouched _ (List.mem_singleton_self _))
    | key key =>
        obtain ⟨i, hi, rfl⟩ := hold
        refine ⟨i, hi, ?_⟩
        rw [← hsame.2 i, keyStatus, hset.2]
        rfl
  · obtain rfl := List.mem_singleton.1 hchange
    exact hset.1.trans (Option.some.inj hvalue)

/-- The save of `UpdateChannelStatus`. -/
theorem setStatus_moves (hsame : SameStatuses channel row)
    (hkey : channel.channelInfo.isMultiKey = true →
      channel.key = row.key ∧ channel.FindsKey unmarshal usingKey status)
    (hstatus : (∀ change ∈ channel.statusChanges unmarshal usingKey status reason now,
      change.target ≠ .channel) → channel.status = row.status) :
    Moves unmarshal row { channel.setStatus unmarshal usingKey status reason now with key := row.key }
      (channel.statusChanges unmarshal usingKey status reason now) := by
  by_cases hmulti : channel.channelInfo.isMultiKey = true ∧ channel.getKeys unmarshal ≠ []
  · obtain ⟨htext, hfinds⟩ := hkey hmulti.1
    rw [setStatus, if_pos hmulti.1]
    exact setKeyStatus_moves hmulti.1 hmulti.2 hsame htext hfinds hstatus
  · exact setChannelStatus_moves hmulti hsame

/-- The save of the polling index. -/
theorem savedInfo_moves {info : ChannelInfo}
    (hsame : SameStatuses { row with channelInfo := info } row) :
    Moves unmarshal row { row with channelInfo := info } [] := by
  refine ⟨fun target value _ hold => ?_, nofun⟩
  cases target with
  | channel => exact hold
  | key key =>
      obtain ⟨i, hi, rfl⟩ := hold
      exact ⟨i, hi, hsame.2 i⟩

/-- The row that `Update` makes of the copy itself. -/
def applied (channel edited : Channel) : Channel :=
  { edited with
    key := writeText channel.key edited.key
    status := if edited.status = 0 then channel.status else edited.status }

/-- The status of a key in the written row. -/
theorem writeNonZero_keyStatus {edited existing : Channel} {i : ℕ}
    (hexisting : edited.key = "" → existing.key = row.key)
    (hsingle : edited.channelInfo.isMultiKey = false → edited.keyStatus i = row.keyStatus i)
    (hi : i < ((row.writeNonZero
      { edited with channelInfo := edited.recount unmarshal existing }).getKeys unmarshal).length) :
    (row.writeNonZero
      { edited with channelInfo := edited.recount unmarshal existing }).keyStatus i =
      edited.keyStatus i := by
  have htext : writeText existing.key edited.key = writeText row.key edited.key := by
    rw [writeText, writeText]
    split
    case isTrue hempty => exact hexisting hempty
    case isFalse => rfl
  have hle := length_getKeys_le unmarshal
    (row.writeNonZero { edited with channelInfo := edited.recount unmarshal existing })
  cases hmulti : edited.channelInfo.isMultiKey with
  | true =>
      have hnonempty : edited.recount unmarshal existing ≠ ChannelInfo.empty := by
        intro heq
        have hnot := congrArg ChannelInfo.isMultiKey heq
        rw [recount, if_pos hmulti] at hnot
        exact Bool.noConfusion (hmulti.symm.trans hnot)
      have hlookup := recount_lookup unmarshal existing edited hmulti i
      have hcount : ¬countKeys unmarshal (writeText existing.key edited.key) ≤ i := by
        rw [htext]
        exact Nat.not_le_of_gt (lt_of_lt_of_le hi hle)
      rw [if_neg hcount] at hlookup
      rw [keyStatus, writeNonZero, if_neg hnonempty, hlookup]
      rfl
  | false =>
      have hrecount : edited.recount unmarshal existing = edited.channelInfo := by
        rw [recount, hmulti]
        rfl
      rw [hrecount, keyStatus, writeNonZero]
      dsimp only
      split
      case isTrue hempty => exact (hsingle hmulti).symm
      case isFalse => rfl

/-- What an edit moves in the copy, its write moves in a row that is as it was read. -/
theorem updates_moves {edited existing : Channel} {changes : List StatusChange}
    (hmoves : Moves unmarshal channel (channel.applied edited) changes)
    (hsame : SameStatuses channel row) (htext : channel.key = row.key)
    (hexisting : edited.key = "" → existing.key = row.key)
    (hsingle : edited.channelInfo.isMultiKey = false →
      ∀ i, edited.keyStatus i = channel.keyStatus i)
    (hnonzero : ∀ change ∈ changes, change.target = .channel → edited.status ≠ 0)
    (hstatus : (∀ change ∈ changes, change.target ≠ .channel) →
      edited.status = 0 ∨ edited.status = row.status) :
    Moves unmarshal row
      (row.writeNonZero { edited with channelInfo := edited.recount unmarshal existing })
        changes := by
  have hkeys : row.getKeys unmarshal = channel.getKeys unmarshal := getKeys_congr htext.symm
  have hkeys' : (row.writeNonZero { edited with channelInfo := edited.recount unmarshal existing
      }).getKeys unmarshal = (channel.applied edited).getKeys unmarshal := by
    refine getKeys_congr ?_
    rw [writeNonZero, applied, htext]
  have hshown : ∀ key status, (channel.applied edited).HasStatus unmarshal (.key key) status →
      (row.writeNonZero { edited with channelInfo := edited.recount unmarshal existing }).HasStatus
        unmarshal (.key key) status := by
    rintro key status ⟨i, hi, rfl⟩
    rw [← hkeys'] at hi
    refine ⟨i, hi, writeNonZero_keyStatus hexisting (fun hmulti => ?_)
      (List.getElem?_eq_some_iff.1 hi).1⟩
    rw [hsingle hmulti, hsame.2]
  refine ⟨fun target value huntouched hold => ?_, fun change hchange value hvalue => ?_⟩
  · cases target with
    | channel =>
        have hkept : (if edited.status = 0 then row.status else edited.status) = row.status := by
          split
          case isTrue => rfl
          case isFalse hne => exact (hstatus huntouched).resolve_left hne
        exact hkept.trans hold
    | key key =>
        refine hshown key value (hmoves.others _ _ huntouched ?_)
        obtain ⟨i, hi, rfl⟩ := hold
        exact ⟨i, hkeys ▸ hi, hsame.2 i⟩
  · have hown := hmoves.own change hchange value hvalue
    cases htarget : change.target with
    | channel =>
        rw [htarget] at hown
        have hne := hnonzero change hchange htarget
        exact (if_neg hne).trans ((if_neg hne).symm.trans hown)
    | key key =>
        rw [htarget] at hown
        exact hshown key value hown

theorem mem_changesAt {change : StatusChange} {places : List ℕ} {value : Option ℤ} :
    change ∈ channel.changesAt unmarshal places value ↔
      ∃ i ∈ places, ∃ key, (channel.getKeys unmarshal)[i]? = some key ∧
        change = ⟨.key key, value⟩ := by
  rw [changesAt, List.mem_map]
  constructor
  · rintro ⟨key, hkey, rfl⟩
    obtain ⟨i, hi, hget⟩ := List.mem_filterMap.1 hkey
    exact ⟨i, hi, key, hget, rfl⟩
  · rintro ⟨i, hi, key, hget, rfl⟩
    exact ⟨key, List.mem_filterMap.2 ⟨i, hi, hget⟩, rfl⟩

/-- An edit that sets the status of the keys at some places. -/
theorem setPlaces_moves {channel' : Channel} {places : List ℕ} (hkey : channel'.key = channel.key)
    (hstatus : channel'.status = channel.status)
    (hset : ∀ i < (channel.getKeys unmarshal).length,
      channel'.keyStatus i = if i ∈ places then status else channel.keyStatus i) :
    Moves unmarshal channel channel' (channel.changesAt unmarshal places (some status)) := by
  have hkeys : channel'.getKeys unmarshal = channel.getKeys unmarshal := getKeys_congr hkey
  refine ⟨fun target value huntouched hold => ?_, fun change hchange value hvalue => ?_⟩
  · cases target with
    | channel => exact hstatus.trans hold
    | key key =>
        obtain ⟨i, hi, rfl⟩ := hold
        refine ⟨i, hkeys ▸ hi, (hset i (List.getElem?_eq_some_iff.1 hi).1).trans (if_neg ?_)⟩
        exact fun hplace => huntouched _ (mem_changesAt.2 ⟨i, hplace, key, hi, rfl⟩) rfl
  · obtain ⟨i, hplace, key, hi, rfl⟩ := mem_changesAt.1 hchange
    obtain rfl := Option.some.inj hvalue
    exact ⟨i, hkeys ▸ hi, (hset i (List.getElem?_eq_some_iff.1 hi).1).trans (if_pos hplace)⟩

/-- An edit that removes the keys at some places. -/
theorem removePlaces_moves {channel' : Channel} {places : List ℕ}
    (hstatus : channel'.status = channel.status)
    (hkept : ∀ i key, (channel.getKeys unmarshal)[i]? = some key → i ∉ places →
      channel'.HasStatus unmarshal (.key key) (channel.keyStatus i)) :
    Moves unmarshal channel channel' (channel.changesAt unmarshal places none) := by
  refine ⟨fun target value huntouched hold => ?_, fun change hchange value hvalue => ?_⟩
  · cases target with
    | channel => exact hstatus.trans hold
    | key key =>
        obtain ⟨i, hi, rfl⟩ := hold
        refine hkept i key hi fun hplace => ?_
        exact huntouched _ (mem_changesAt.2 ⟨i, hplace, key, hi, rfl⟩) rfl
  · obtain ⟨i, -, key, -, rfl⟩ := mem_changesAt.1 hchange
    exact nomatch hvalue

/-- The status of a key, read off the entries. -/
theorem hasStatus_key_iff {key : String} : channel.HasStatus unmarshal (.key key) status ↔
    ∃ entry ∈ channel.entries unmarshal, entry.key = key ∧ entry.status = status := by
  constructor
  · rintro ⟨i, hi, rfl⟩
    exact ⟨channel.channelInfo.entry i key,
      List.mem_of_getElem? (ChannelInfo.getElem?_entries_of_eq hi), rfl, rfl⟩
  · rintro ⟨entry, hentry, rfl, rfl⟩
    obtain ⟨i, hi⟩ := List.mem_iff_getElem?.1 hentry
    obtain ⟨key, hkey, rfl⟩ := ChannelInfo.eq_entry_of_getElem? hi
    exact ⟨i, hkey, rfl⟩

/-- The keys that a deletion leaves keep their status. -/
theorem withKeys_hasStatus {remaining : Reindexed} {entry : KeyEntry}
    (hrejoins : channel.Rejoins unmarshal remaining.remainingKeys)
    (hentry : entry ∈ (remaining.toInfo channel.channelInfo).entries 0 remaining.remainingKeys) :
    (channel.applied (channel.withKeys remaining)).HasStatus unmarshal (.key entry.key)
      entry.status := by
  have hkeys : (channel.applied (channel.withKeys remaining)).getKeys unmarshal =
      remaining.remainingKeys := (getKeys_written_iff rfl).2 hrejoins
  refine hasStatus_key_iff.2 ⟨entry, ?_, rfl, rfl⟩
  rw [entries, hkeys]
  exact hentry

theorem applied_status {edited : Channel} (hstatus : edited.status = channel.status) :
    (channel.applied edited).status = channel.status := by
  rw [applied, hstatus, ite_id]

theorem applied_key {edited : Channel} (hkey : edited.key = channel.key) :
    (channel.applied edited).key = channel.key := by
  rw [applied, hkey, writeText, ite_id]

theorem accepts_of_edit_ok {action : MultiKeyAction} {edited : Channel} {message : String}
    (hedit : channel.editMultiKeys unmarshal action = .ok (edited, message)) :
    channel.Accepts unmarshal action := by
  by_contra hnot
  obtain ⟨message', herror⟩ := edit_error hnot
  cases hedit.symm.trans herror

/-- What an action of `ManageMultiKeys` moves in the copy. -/
theorem editMultiKeys_moves {action : MultiKeyAction} {edited : Channel} {message : String}
    (hedit : channel.editMultiKeys unmarshal action = .ok (edited, message))
    (hkeeps : action.KeepsKeys unmarshal channel) :
    Moves unmarshal channel (channel.applied edited) (channel.manageChanges unmarshal action) ∧
      edited.channelInfo.isMultiKey = channel.channelInfo.isMultiKey := by
  have haccepts := accepts_of_edit_ok hedit
  cases action with
  | disableKey keyIndex =>
      rw [editMultiKeys, checkIndex_ok _ haccepts] at hedit
      obtain rfl := congrArg Prod.fst (Except.ok.inj hedit)
      refine ⟨setPlaces_moves (applied_key rfl) (applied_status rfl) fun i _ => ?_, rfl⟩
      rw [keyStatus, applied]
      dsimp only
      by_cases hi : i = (keyIndex.getD 0).toNat
      · rw [hi, AList.lookup_insert, if_pos (List.mem_singleton_self _)]
        rfl
      · rw [AList.lookup_insert_ne hi, if_neg fun hmem => hi (List.mem_singleton.1 hmem)]
        rfl
  | enableKey keyIndex =>
      rw [editMultiKeys, checkIndex_ok _ haccepts] at hedit
      obtain rfl := congrArg Prod.fst (Except.ok.inj hedit)
      refine ⟨setPlaces_moves (applied_key rfl) (applied_status rfl) fun i _ => ?_, rfl⟩
      rw [keyStatus, applied]
      dsimp only
      by_cases hi : i = (keyIndex.getD 0).toNat
      · rw [hi, AList.lookup_erase, if_pos (List.mem_singleton_self _)]
        rfl
      · rw [AList.lookup_erase_ne hi, if_neg fun hmem => hi (List.mem_singleton.1 hmem)]
        rfl
  | enableAllKeys =>
      obtain rfl := congrArg Prod.fst (Except.ok.inj hedit)
      refine ⟨setPlaces_moves (applied_key rfl) (applied_status rfl) fun i hi => ?_, rfl⟩
      rw [if_pos (List.mem_range.2 hi)]
      rfl
  | disableAllKeys =>
      obtain ⟨i, hplace⟩ := haccepts
      have hplaces : channel.enabledPlaces ≠ [] := List.ne_nil_of_mem (mem_enabledPlaces.2 hplace)
      rw [editMultiKeys, if_neg hplaces] at hedit
      obtain rfl := congrArg Prod.fst (Except.ok.inj hedit)
      refine ⟨setPlaces_moves (applied_key rfl) (applied_status rfl) fun i _ => ?_, rfl⟩
      rw [keyStatus, applied]
      dsimp only
      rw [lookup_foldl_insert]
      split <;> rfl
  | deleteKey keyIndex =>
      obtain ⟨hindex, hrest⟩ := haccepts
      have hremaining := remainingKeys_without unmarshal channel (keyIndex.getD 0).toNat
      rw [editMultiKeys, checkIndex_ok _ hindex] at hedit
      replace hedit := (if_neg (by rwa [hremaining])).symm.trans hedit
      obtain rfl := congrArg Prod.fst (Except.ok.inj hedit)
      refine ⟨removePlaces_moves (applied_status rfl) fun i key hi hplace => ?_, rfl⟩
      have hentry : channel.channelInfo.entry i key ∈
          ((channel.remainingWithout unmarshal (keyIndex.getD 0).toNat).toInfo
            channel.channelInfo).entries 0
              (channel.remainingWithout unmarshal (keyIndex.getD 0).toNat).remainingKeys := by
        rw [remainingWithout, Reindexed.loop_kept, Reindexed.kept_without, if_pos (Nat.zero_le _),
          Nat.sub_zero]
        refine List.mem_eraseIdx_iff_getElem?.2 ⟨i, fun heq => hplace ?_,
          ChannelInfo.getElem?_entries_of_eq hi⟩
        exact List.mem_singleton.2 heq
      have hrejoins : channel.Rejoins unmarshal
          (channel.remainingWithout unmarshal (keyIndex.getD 0).toNat).remainingKeys := by
        rw [hremaining]
        exact hkeeps
      exact withKeys_hasStatus hrejoins hentry
  | deleteDisabledKeys =>
      have hremaining := remainingKeys_not_auto_disabled unmarshal channel
      rw [editMultiKeys] at hedit
      split at hedit
      case isTrue => cases hedit
      case isFalse =>
        simp only [Except.ok.injEq, Prod.mk.injEq] at hedit
        obtain ⟨rfl, -⟩ := hedit
        refine ⟨removePlaces_moves (applied_status rfl) fun i key hi hplace => ?_, rfl⟩
        have hstatus : channel.keyStatus i ≠ ChannelStatusAutoDisabled := fun hdisabled =>
          hplace (List.mem_filter.2
            ⟨List.mem_range.2 (List.getElem?_eq_some_iff.1 hi).1, decide_eq_true hdisabled⟩)
        have hentry : (channel.channelInfo.entry i key).clear ∈
            ((channel.remainingNotAutoDisabled unmarshal).toInfo channel.channelInfo).entries 0
              (channel.remainingNotAutoDisabled unmarshal).remainingKeys := by
          rw [entries_remaining]
          exact List.mem_map_of_mem (List.mem_filter.2
            ⟨List.mem_of_getElem? (ChannelInfo.getElem?_entries_of_eq hi), decide_eq_true hstatus⟩)
        have hrejoins : channel.Rejoins unmarshal
            (channel.remainingNotAutoDisabled unmarshal).remainingKeys := by
          rw [hremaining]
          exact hkeeps
        have hshown := withKeys_hasStatus hrejoins hentry
        rwa [KeyEntry.clear_key, KeyEntry.clear_status] at hshown

theorem key_of_mem_manageChanges {action : MultiKeyAction} {change : StatusChange}
    (hchange : change ∈ channel.manageChanges unmarshal action) :
    ∃ key, change.target = .key key := by
  have hat : ∃ places value, channel.manageChanges unmarshal action =
      channel.changesAt unmarshal places value := by
    cases action <;> exact ⟨_, _, rfl⟩
  obtain ⟨places, value, hchanges⟩ := hat
  rw [hchanges] at hchange
  obtain ⟨-, -, key, -, rfl⟩ := mem_changesAt.1 hchange
  exact ⟨key, rfl⟩

/-- What `UpdateChannel` moves in the copy: the channel's status, and the keys that it replaces. -/
theorem patch_moves {edited : Channel} {changes : List StatusChange}
    (hinfo : ∀ i, edited.keyStatus i = channel.keyStatus i)
    (hchanges : ∀ change ∈ changes, (edited.status ≠ 0 ∧ change = ⟨.channel, some edited.status⟩) ∨
      ∃ key, change = ⟨.key key, none⟩)
    (htouched : edited.status ≠ 0 → ⟨.channel, some edited.status⟩ ∈ changes)
    (hkeys : ∀ key : String, (∀ change ∈ changes, change.target ≠ .key key) → ∀ i : ℕ,
      (channel.getKeys unmarshal)[i]? = some key →
        ((channel.applied edited).getKeys unmarshal)[i]? = some key) :
    Moves unmarshal channel (channel.applied edited) changes := by
  refine ⟨fun target value huntouched hold => ?_, fun change hchange value hvalue => ?_⟩
  · cases target with
    | channel =>
        have hzero : edited.status = 0 := by
          by_contra hne
          exact huntouched _ (htouched hne) rfl
        exact (if_pos hzero).trans hold
    | key key =>
        obtain ⟨i, hi, rfl⟩ := hold
        exact ⟨i, hkeys key huntouched i hi, hinfo i⟩
  · rcases hchanges change hchange with ⟨hne, rfl⟩ | ⟨key, rfl⟩
    · exact (if_neg hne).trans (Option.some.inj hvalue)
    · exact nomatch hvalue

end Channel

section

variable {F : Type} [Zero F] [DecidableEq F] {unmarshal : String → Option (List String)}
  {getVertexArrayKeys : String → Except String (List String)}

namespace ChannelRequest

open Channel

theorem mem_patchChanges {status : ℤ} {change : StatusChange} :
    change ∈ patchChanges status ↔ status ≠ 0 ∧ change = ⟨.channel, some status⟩ := by
  rw [patchChanges]
  split <;> simp [*]

omit [Zero F] [DecidableEq F] in
/-- The edit of a request moves in its copy what it lists. -/
theorem edit_moves {request : ChannelRequest F} {channel : ChannelRow F} {edit : RowEdit F}
    (hedit : request.edit unmarshal getVertexArrayKeys channel = some edit)
    (hkeeps : request.KeepsKeys unmarshal getVertexArrayKeys channel.toChannel) :
    Moves unmarshal channel.toChannel (channel.applied edit.channel.toChannel) edit.changes ∧
      (∀ change ∈ edit.changes, change.target = .channel → edit.channel.status ≠ 0) ∧
      (edit.channel.channelInfo.isMultiKey = false →
        ∀ i, edit.channel.keyStatus i = channel.keyStatus i) := by
  cases request with
  | updateChannelStatus usingKey status reason now => exact nomatch hedit
  | getNextEnabledKey => exact nomatch hedit
  | manageMultiKeys action =>
      rw [ChannelRequest.edit] at hedit
      split at hedit
      case isFalse => exact nomatch hedit
      case isTrue hmulti =>
        cases hmanage : channel.editMultiKeys unmarshal action with
        | error message =>
            rw [hmanage] at hedit
            exact nomatch hedit
        | ok edited =>
            rw [hmanage] at hedit
            obtain rfl := Option.some.inj hedit
            obtain ⟨hmoves, hsame⟩ := editMultiKeys_moves hmanage hkeeps
            refine ⟨hmoves, fun change hchange htarget => ?_, fun hsingle => ?_⟩
            · obtain ⟨key, hkey⟩ := key_of_mem_manageChanges hchange
              exact nomatch hkey.symm.trans htarget
            · rw [hsame, hmulti] at hsingle
              exact nomatch hsingle
  | updateChannel patch multiKeyMode keyMode usesVertexKeys =>
      rw [ChannelRequest.edit] at hedit
      dsimp only at hedit
      split at hedit
      case isTrue happends =>
        cases hkey :
            appendKeys unmarshal getVertexArrayKeys usesVertexKeys channel.key patch.key with
        | error message =>
            rw [hkey] at hedit
            exact nomatch hedit
        | ok key =>
            rw [hkey] at hedit
            obtain rfl := Option.some.inj hedit
            refine ⟨patch_moves (fun _ => rfl) (fun change hchange => .inl (mem_patchChanges.1 hchange))
              (fun hne => mem_patchChanges.2 ⟨hne, rfl⟩) fun other _ i hi => ?_,
              fun change hchange _ => (mem_patchChanges.1 hchange).1, fun _ _ => rfl⟩
            -- the appended keys stand behind the existing ones
            obtain ⟨rest, hrest⟩ := hkeeps happends key hkey
            have hkeys : (channel.applied { patch.toChannel with
                key := key
                channelInfo := { channel.channelInfo with
                  multiKeyMode := writeText channel.channelInfo.multiKeyMode
                    (multiKeyMode.getD "") } }).getKeys unmarshal =
                channel.getKeys unmarshal ++ rest := by
              rw [hrest]
              exact getKeys_congr rfl
            rw [hkeys]
            exact List.getElem?_append_left (List.getElem?_eq_some_iff.1 hi).1 ▸ hi
      case isFalse happends =>
        obtain rfl := Option.some.inj hedit
        have hreplaced : ∀ change ∈ (if patch.key = "" then []
            else (channel.getKeys unmarshal).map fun key => ⟨.key key, none⟩ : List StatusChange),
            ∃ key, change = ⟨.key key, none⟩ := by
          intro change hchange
          split at hchange
          · cases hchange
          · obtain ⟨key, -, rfl⟩ := List.mem_map.1 hchange
            exact ⟨key, rfl⟩
        refine ⟨patch_moves (fun _ => rfl) (fun change hchange => ?_)
          (fun hne => List.mem_append_left _ (mem_patchChanges.2 ⟨hne, rfl⟩))
          fun key huntouched i hi => ?_, fun change hchange htarget => ?_, fun _ _ => rfl⟩
        · rcases List.mem_append.1 hchange with hchannel | hkey
          · exact .inl (mem_patchChanges.1 hchannel)
          · exact .inr (hreplaced change hkey)
        · by_cases hempty : patch.key = ""
          · rw [← hi]
            refine congrArg (fun keys : List String => keys[i]?) (getKeys_congr ?_)
            exact if_pos hempty
          · refine absurd rfl (huntouched ⟨.key key, none⟩ (List.mem_append_right _ ?_))
            rw [if_neg hempty]
            exact List.mem_map_of_mem (List.mem_of_getElem? hi)
        · rcases List.mem_append.1 hchange with hchannel | hkey
          · exact (mem_patchChanges.1 hchannel).1
          · obtain ⟨key, rfl⟩ := hreplaced change hkey
            exact nomatch htarget

end ChannelRequest

namespace ChannelRowState

open Channel

variable {s s' : ChannelRowState F} {a : ChannelRowAction F}

omit [Zero F] [DecidableEq F] in
theorem load_returned {request : ChannelRequest F} {row : ChannelRow F}
    {changes : List StatusChange}
    (hload : request.load unmarshal getVertexArrayKeys row = .returned changes) : changes = [] := by
  cases request with
  | updateChannelStatus usingKey status reason now =>
      rw [ChannelRequest.load] at hload
      split at hload <;> cases hload
      rfl
  | getNextEnabledKey =>
      rw [ChannelRequest.load] at hload
      split at hload <;> cases hload
      rfl
  | manageMultiKeys action =>
      rw [ChannelRequest.load, ChannelRequest.openUpdate] at hload
      split at hload <;> cases hload
      rfl
  | updateChannel patch multiKeyMode keyMode usesVertexKeys =>
      rw [ChannelRequest.load, ChannelRequest.openUpdate] at hload
      split at hload <;> cases hload
      rfl

/-- A step that leaves the statuses of the row, and the statuses that requests have changed. -/
structure Quiet (s s' : ChannelRowState F) : Prop where
  row : s'.row.toChannel = s.row.toChannel
  kept : ∀ (i : ℕ) (changes : List StatusChange), s.writers[i]? = some (.returned changes) →
    s'.writers[i]? = some (.returned changes)
  fresh : ∀ (i : ℕ) (changes : List StatusChange), s'.writers[i]? = some (.returned changes) →
    s.writers[i]? = some (.returned changes) ∨ changes = []

/-- A step that is the write of a request. -/
def Writes (unmarshal : String → Option (List String)) (s s' : ChannelRowState F) : Prop :=
  ∃ i changes, s'.writers = s.writers.set i (.returned changes) ∧ i < s.writers.length ∧
    (∀ done, s.writers[i]? ≠ some (.returned done)) ∧ s.NotOvertaken i changes ∧
    Moves unmarshal s.row.toChannel s'.row.toChannel changes

omit [Zero F] [DecidableEq F] in
theorem quiet_set {i : ℕ} {writer writer' : ChannelWriter F}
    (hrow : s'.row.toChannel = s.row.toChannel)
    (hwriters : s'.writers = s.writers.set i writer') (hwriter : s.writers[i]? = some writer)
    (hopen : ∀ done, writer ≠ .returned done)
    (hquiet : ∀ done, writer' = .returned done → done = []) :
    Quiet s s' := by
  refine ⟨hrow, fun j changes hj => ?_, fun j changes hj => ?_⟩
  · have hne : i ≠ j := by
      rintro rfl
      exact hopen changes (Option.some.inj (hwriter.symm.trans hj))
    rw [hwriters, List.getElem?_set_ne hne]
    exact hj
  · rw [hwriters] at hj
    by_cases hij : i = j
    · subst hij
      rw [List.getElem?_set_self (List.getElem?_eq_some_iff.1 hwriter).1] at hj
      exact .inr (hquiet changes (Option.some.inj hj))
    · rw [List.getElem?_set_ne hij] at hj
      exact .inl hj

/-- The next statement of a request. -/
theorem advance_cases {i : ℕ} {ok : Bool} {writer : ChannelWriter F}
    (hwriter : s.writers[i]? = some writer)
    (hstep : s.advance unmarshal getVertexArrayKeys i ok writer = some s')
    (hcurrent : ok = true → s.WritesCurrent unmarshal getVertexArrayKeys i writer) :
    s'.row.usedQuota = s.row.usedQuota ∧ (Quiet s s' ∨ Writes unmarshal s s') := by
  have hlt := (List.getElem?_eq_some_iff.1 hwriter).1
  cases writer with
  | saving channel usingKey status reason now =>
      obtain rfl := Option.some.inj hstep
      cases ok with
      | false =>
          exact ⟨rfl, .inl (quiet_set rfl rfl hwriter (fun _ => nofun) fun _ h => by cases h; rfl)⟩
      | true =>
          obtain ⟨hquota, hsame, hkey, hstatus, hovertaken⟩ := hcurrent rfl
          refine ⟨hquota, .inr ⟨i, _, rfl, hlt, fun done hdone => ?_, hovertaken, ?_⟩⟩
          · cases hwriter.symm.trans hdone
          · exact setStatus_moves hsame hkey hstatus
  | polling channel =>
      obtain rfl := Option.some.inj hstep
      refine ⟨rfl, .inl (quiet_set rfl rfl hwriter (fun _ => nofun) fun done hdone => ?_)⟩
      split at hdone <;> cases hdone
      rfl
  | savingInfo info =>
      obtain rfl := Option.some.inj hstep
      cases ok with
      | false =>
          exact ⟨rfl, .inl (quiet_set rfl rfl hwriter (fun _ => nofun) fun _ h => by cases h; rfl)⟩
      | true =>
          refine ⟨rfl, .inr ⟨i, [], rfl, hlt, fun done hdone => ?_, fun _ _ _ _ _ h => ?_, ?_⟩⟩
          · cases hwriter.symm.trans hdone
          · cases h
          · exact savedInfo_moves (hcurrent rfl)
  | updating channel request =>
      obtain rfl := Option.some.inj hstep
      exact ⟨rfl, .inl (quiet_set rfl rfl hwriter (fun _ => nofun) fun _ => nofun)⟩
  | writing channel request existing =>
      cases hedit : request.edit unmarshal getVertexArrayKeys channel with
      | none =>
          rw [advance, hedit] at hstep
          exact nomatch hstep
      | some edit =>
          rw [advance, hedit] at hstep
          obtain rfl := Option.some.inj hstep
          cases ok with
          | false =>
              exact ⟨rfl, .inl (quiet_set rfl rfl hwriter (fun _ => nofun) fun _ h => by cases h; rfl)⟩
          | true =>
              obtain ⟨hquota, hsame, hkey, hexisting, hstatus, hkeeps, hovertaken⟩ :=
                hcurrent rfl edit hedit
              obtain ⟨hmoves, hnonzero, hsingle⟩ := ChannelRequest.edit_moves hedit hkeeps
              refine ⟨?_, .inr ⟨i, _, rfl, hlt, fun done hdone => ?_, hovertaken, ?_⟩⟩
              · refine (ite_eq_left_iff.2 fun hne => ?_)
                exact hquota.resolve_left hne
              · cases hwriter.symm.trans hdone
              · exact updates_moves hmoves hsame hkey hexisting hsingle hnonzero hstatus
  | returned changes => exact nomatch hstep

/-- Inversion of a step that writes nothing stale. -/
theorem step_cases (hstep : s.step unmarshal getVertexArrayKeys a = some s')
    (hcurrent : s.NoStaleSave unmarshal getVertexArrayKeys a) :
    s'.row.usedQuota = s.row.usedQuota + s.usedDelta a ∧ (Quiet s s' ∨ Writes unmarshal s s') := by
  cases a with
  | updateChannelUsedQuota quota ok =>
      obtain rfl := Option.some.inj hstep
      cases ok with
      | false => exact ⟨(add_zero _).symm, .inl ⟨rfl, fun _ _ h => h, fun _ _ h => .inl h⟩⟩
      | true => exact ⟨rfl, .inl ⟨rfl, fun _ _ h => h, fun _ _ h => .inl h⟩⟩
  | updateBalance balance ok =>
      obtain rfl := Option.some.inj hstep
      cases ok with
      | false => exact ⟨(add_zero _).symm, .inl ⟨rfl, fun _ _ h => h, fun _ _ h => .inl h⟩⟩
      | true => exact ⟨(add_zero _).symm, .inl ⟨rfl, fun _ _ h => h, fun _ _ h => .inl h⟩⟩
  | start request =>
      obtain rfl := Option.some.inj hstep
      refine ⟨(add_zero _).symm, .inl ⟨rfl, fun i changes hi => ?_, fun i changes hi => ?_⟩⟩
      · rw [List.getElem?_append_left (List.getElem?_eq_some_iff.1 hi).1]
        exact hi
      · rcases Nat.lt_or_ge i s.writers.length with hlt | hge
        · rw [List.getElem?_append_left hlt] at hi
          exact .inl hi
        · rw [List.getElem?_append_right hge, List.getElem?_singleton] at hi
          split at hi
          · exact .inr (load_returned (Option.some.inj hi))
          · cases hi
  | advance i ok =>
      cases hwriter : s.writers[i]? with
      | none =>
          rw [step, hwriter] at hstep
          exact nomatch hstep
      | some writer =>
          rw [step, hwriter] at hstep
          have hcases := advance_cases hwriter hstep fun hok => by
            subst hok
            exact hcurrent writer hwriter
          exact ⟨hcases.1.trans (by cases ok <;> exact (add_zero _).symm), hcases.2⟩

omit [Zero F] [DecidableEq F] in
theorem kept_of_quiet (hquiet : Quiet s s') (hkept : s.StatusesKept unmarshal) :
    s'.StatusesKept unmarshal := by
  intro i changes hi change hchange
  rcases hquiet.fresh i changes hi with hold | rfl
  · rcases hkept i changes hold change hchange with hshown | ⟨j, hj, later, hlater, hsame⟩
    · left
      rw [hquiet.row]
      exact hshown
    · exact .inr ⟨j, hj, later, hquiet.kept j later hlater, hsame⟩
  · cases hchange

omit [Zero F] [DecidableEq F] in
theorem kept_of_writes (hwrites : Writes unmarshal s s') (hkept : s.StatusesKept unmarshal) :
    s'.StatusesKept unmarshal := by
  obtain ⟨i, changes, hwriters, hlt, hopen, hovertaken, hmoves⟩ := hwrites
  have hset : ∀ j ≠ i, s'.writers[j]? = s.writers[j]? := by
    intro j hj
    rw [hwriters, List.getElem?_set_ne (Ne.symm hj)]
  have hself : s'.writers[i]? = some (.returned changes) := by
    rw [hwriters, List.getElem?_set_self hlt]
  intro j done hj change hchange
  by_cases hij : j = i
  · subst hij
    obtain rfl := ChannelWriter.returned.inj (Option.some.inj (hself.symm.trans hj))
    exact .inl (hmoves.own change hchange)
  · rw [hset j hij] at hj
    rcases hkept j done hj change hchange with hshown | ⟨k, hk, later, hlater, hsame⟩
    · by_cases htouched : ∃ change' ∈ changes, change'.target = change.target
      · -- the request that writes now has read the row later, or is not overtaken
        obtain ⟨change', hchange', hsame⟩ := htouched
        rcases Nat.lt_or_gt_of_ne hij with hbefore | hafter
        · exact .inr ⟨i, hbefore, changes, hself, change', hchange', hsame⟩
        · exact absurd hsame.symm (hovertaken j hafter done hj change' hchange' change hchange)
      · refine .inl fun status hstatus => hmoves.others _ _ (fun change' hchange' hsame => ?_)
          (hshown status hstatus)
        exact htouched ⟨change', hchange', hsame⟩
    · refine .inr ⟨k, hk, later, ?_, hsame⟩
      rw [hset k fun hki => hopen later (hki ▸ hlater)]
      exact hlater

end ChannelRowState

end

/-- A row nobody is working on. -/
def ChannelRowState.start {F : Type} (row : ChannelRow F) : ChannelRowState F where
  row := row
  writers := []

open ChannelRowState

/-- No stale save, no lost update: the used quota ends as its initial value plus all recorded
amounts, and every status that a request has changed is in the row, unless a request that has read
the row later has changed it too. -/
theorem channel_row_keeps_updates {F : Type} [Zero F] [DecidableEq F]
    {unmarshal : String → Option (List String)}
    {getVertexArrayKeys : String → Except String (List String)} {row : ChannelRow F}
    {s' : ChannelRowState F} {as : List (ChannelRowAction F)}
    (hfresh : (channelRow unmarshal getVertexArrayKeys).Along
      (NoStaleSave unmarshal getVertexArrayKeys) (start row) as)
    (hrun : (channelRow unmarshal getVertexArrayKeys).run (start row) as = some s') :
    s'.row.usedQuota =
        row.usedQuota + (channelRow unmarshal getVertexArrayKeys).tally usedDelta (start row) as ∧
      s'.StatusesKept unmarshal := by
  constructor
  · exact System.tally_run (I := fun _ => True) (f := fun s => s.row.usedQuota)
      (fun _ _ _ => trivial) (fun hstep hcurrent _ => (step_cases hstep hcurrent).1) trivial hfresh
      hrun
  · refine System.invariant_run (fun hstep hcurrent hkept => ?_) ?_ hfresh hrun
    · rcases (step_cases hstep hcurrent).2 with hquiet | hwrites
      · exact kept_of_quiet hquiet hkept
      · exact kept_of_writes hwrites hkept
    · exact fun _ _ hnone => nomatch hnone

def sampleChannelRow (isMultiKey : Bool) : ChannelRow ℤ :=
  { sampleCachedChannel 2 isMultiKey with usedQuota := 5, balance := 0 }

/-- A key is disabled; the used quota is only recorded when the row has been saved. -/
def orderlyChannelRowRun : List (ChannelRowAction ℤ) :=
  [.start (.updateChannelStatus "sk-1" ChannelStatusAutoDisabled "429" 10), .updateBalance 3 true,
    .advance 0 true, .updateChannelUsedQuota 7 true]

theorem channel_row_keeps_updates_orderly :
    ∃ s', (channelRow (fun _ => none) (fun _ => .error "")).run (start (sampleChannelRow true))
        orderlyChannelRowRun = some s' ∧
      s'.row.usedQuota = 12 ∧ s'.StatusesKept fun _ => none := by
  have hfresh : (channelRow (fun _ => none) (fun _ => .error "")).Along
      (NoStaleSave (fun _ => none) fun _ => .error "") (start (sampleChannelRow true))
      orderlyChannelRowRun := by
    refine ⟨trivial, trivial, fun writer hwriter => ?_, trivial, trivial⟩
    obtain rfl := Option.some.inj hwriter
    refine ⟨rfl, ⟨rfl, fun _ => rfl⟩, fun _ => ⟨rfl, .inr (.inl (by decide))⟩, fun _ => rfl, ?_⟩
    intro j hj later hlater
    have hnone : [ChannelWriter.saving (sampleChannelRow true) "sk-1" ChannelStatusAutoDisabled "429"
        10][j]? = none := List.getElem?_eq_none hj
    cases hlater.symm.trans hnone
  obtain ⟨hquota, hkept⟩ := channel_row_keeps_updates hfresh rfl
  exact ⟨_, rfl, hquota.trans rfl, hkept⟩

/-- A call of `UpdateChannelStatus` reads the row, an amount is recorded, and the save puts the old
used quota back. -/
def staleChannelRowRun : List (ChannelRowAction ℤ) :=
  [.start (.updateChannelStatus "" ChannelStatusAutoDisabled "401" 10),
    .updateChannelUsedQuota 7 true, .advance 0 true]

theorem stale_channel_save_loses_used_quota :
    ¬ ∀ (unmarshal : String → Option (List String))
      (getVertexArrayKeys : String → Except String (List String)) (row : ChannelRow ℤ)
      (as : List (ChannelRowAction ℤ)) (s' : ChannelRowState ℤ),
      (channelRow unmarshal getVertexArrayKeys).run (start row) as = some s' →
        s'.row.usedQuota =
          row.usedQuota + (channelRow unmarshal getVertexArrayKeys).tally usedDelta
            (start row) as := by
  intro hclaim
  have hlost := hclaim (fun _ => none) (fun _ => .error "") (sampleChannelRow false)
    staleChannelRowRun _ rfl
  exact absurd hlost (by decide)

end NewApi.Model
