import Mathlib.Data.List.AList
import NewApi.Lib.Strings

/-!
# Channels

A row of the `channels` table with the columns that routing and the abilities table depend
on, the defaults a new row gets, the struct write of `Channel.Update` and the status of the
single keys of a multi-key channel.
-/

namespace NewApi.Model

open NewApi.Lib.Strings

def ChannelStatusEnabled : ℤ := 1

def ChannelStatusManuallyDisabled : ℤ := 2

def ChannelStatusAutoDisabled : ℤ := 3

/-- The `channel_info` column.  A map that is nil and one that is empty are the same
here. -/
structure ChannelInfo where
  isMultiKey : Bool
  multiKeySize : ℤ
  multiKeyStatusList : AList fun _ : ℕ => ℤ
  multiKeyDisabledReason : AList fun _ : ℕ => String
  multiKeyDisabledTime : AList fun _ : ℕ => ℤ
  multiKeyPollingIndex : ℤ
  multiKeyMode : String
deriving DecidableEq

/-- The zero value of the struct. -/
def ChannelInfo.empty : ChannelInfo where
  isMultiKey := false
  multiKeySize := 0
  multiKeyStatusList := ∅
  multiKeyDisabledReason := ∅
  multiKeyDisabledTime := ∅
  multiKeyPollingIndex := 0
  multiKeyMode := ""

/-- Record the status of one key; an enabled key has no entry. -/
def ChannelInfo.setKeyStatus (info : ChannelInfo) (keyIndex : ℕ) (status : ℤ)
    (reason : String) (now : ℤ) : ChannelInfo :=
  if status = ChannelStatusEnabled then
    { info with multiKeyStatusList := info.multiKeyStatusList.erase keyIndex }
  else
    { info with
      multiKeyStatusList := info.multiKeyStatusList.insert keyIndex status
      multiKeyDisabledReason := info.multiKeyDisabledReason.insert keyIndex reason
      multiKeyDisabledTime := info.multiKeyDisabledTime.insert keyIndex now }

/-- The entries of the `other_info` column that a status change writes. -/
structure OtherInfo where
  statusReason : String
  statusTime : ℤ
deriving DecidableEq

/-- A row of the `channels` table, and the Go struct for it: a pointer is an `Option`. -/
structure Channel where
  id : ℤ
  key : String
  status : ℤ
  weight : Option ℕ
  models : String
  group : String
  priority : Option ℤ
  tag : Option String
  otherInfo : Option OtherInfo
  channelInfo : ChannelInfo
deriving DecidableEq

namespace Channel

def getPriority (channel : Channel) : ℤ :=
  channel.priority.getD 0

def getWeight (channel : Channel) : ℕ :=
  channel.weight.getD 0

/-- A text column after a struct write, which skips the empty text. -/
def writeText (old new : String) : String :=
  if new = "" then old else new

/-- `Create` stores the default of a column where the struct's field is zero. -/
def create (channel : Channel) : Channel :=
  { channel with
    status := if channel.status = 0 then ChannelStatusEnabled else channel.status
    weight := some channel.getWeight
    group := writeText "default" channel.group
    priority := some channel.getPriority }

section Keys

/- The JSON decoder for an array of raw values. -/
variable (unmarshal : String → Option (List String))

/-- The keys in a key text: the elements of a JSON array, else the lines. -/
def getKeys (channel : Channel) : List String :=
  if channel.key = "" then []
  else
    let trimmed := trimSpace channel.key
    let lines := split (trim channel.key (· = '\n')) '\n'
    if hasPrefix trimmed "[" then (unmarshal trimmed).getD lines else lines

/-- The key count of `Channel.Update`.  Unlike `getKeys` it falls back to the lines also
when the array is empty. -/
def countKeys (keyStr : String) : ℕ :=
  if keyStr = "" then 0
  else
    let trimmed := trimSpace keyStr
    let keys := if hasPrefix trimmed "[" then (unmarshal trimmed).getD [] else []
    if keys = [] then (split (trim keyStr (· = '\n')) '\n').length else keys.length

/-- The channel info that `Channel.Update` is about to write: a multi-key channel gets its
key count recalculated and loses the status of keys it no longer has.  `existing` is the
stored row. -/
def recount (channel existing : Channel) : ChannelInfo :=
  let info := channel.channelInfo
  if info.isMultiKey then
    let keyStr := writeText existing.key channel.key
    let size := countKeys unmarshal keyStr
    { info with
      multiKeySize := size
      multiKeyStatusList := info.multiKeyStatusList.keys.foldl
        (fun list idx => if size ≤ idx then list.erase idx else list) info.multiKeyStatusList }
  else info

/-- `DB.Model(channel).Updates(channel)` on the stored row: zero fields are not written. -/
def writeNonZero (row channel : Channel) : Channel where
  id := row.id
  key := writeText row.key channel.key
  status := if channel.status = 0 then row.status else channel.status
  weight := channel.weight.or row.weight
  models := writeText row.models channel.models
  group := writeText row.group channel.group
  priority := channel.priority.or row.priority
  tag := channel.tag.or row.tag
  otherInfo := channel.otherInfo.or row.otherInfo
  channelInfo :=
    if channel.channelInfo = ChannelInfo.empty then row.channelInfo else channel.channelInfo

/-- The write of `Channel.Update` to the stored row. -/
def updates (row channel : Channel) : Channel :=
  row.writeNonZero { channel with channelInfo := channel.recount unmarshal row }

/-- The position of a key in the key text, the first one when it is not there. -/
def keyIndex (channel : Channel) (usingKey : String) : ℕ :=
  ((channel.getKeys unmarshal).findIdx? (· = usingKey)).getD 0

/-- Set the status of one key; when no key is left the whole channel is disabled. -/
def handlerMultiKeyUpdate (channel : Channel) (usingKey : String) (status : ℤ)
    (reason : String) (now : ℤ) : Channel :=
  if channel.getKeys unmarshal = [] then { channel with status := status }
  else
    let keyIndex := channel.keyIndex unmarshal usingKey
    let info := channel.channelInfo.setKeyStatus keyIndex status reason now
    if info.multiKeySize ≤ info.multiKeyStatusList.keys.length then
      { channel with
        channelInfo := info
        status := ChannelStatusAutoDisabled
        otherInfo := some ⟨"All keys are disabled", now⟩ }
    else { channel with channelInfo := info }

/-- The row that `UpdateChannelStatus` saves. -/
def setStatus (channel : Channel) (usingKey : String) (status : ℤ) (reason : String)
    (now : ℤ) : Channel :=
  if channel.channelInfo.isMultiKey then
    channel.handlerMultiKeyUpdate unmarshal usingKey status reason now
  else { channel with status := status, otherInfo := some ⟨reason, now⟩ }

variable {unmarshal}

/-- Two rows that route alike up to their status. -/
structure SameRoute (channel other : Channel) : Prop where
  id : channel.id = other.id
  models : channel.models = other.models
  group : channel.group = other.group
  priority : channel.priority = other.priority
  weight : channel.weight = other.weight
  tag : channel.tag = other.tag

/-- The key update touches nothing that routing uses but the status. -/
theorem handlerMultiKeyUpdate_sameRoute (channel : Channel) (usingKey reason : String)
    (status now : ℤ) :
    SameRoute (channel.handlerMultiKeyUpdate unmarshal usingKey status reason now) channel := by
  rw [handlerMultiKeyUpdate]
  -- the empty key list, the last key gone, a key left
  split
  · exact ⟨rfl, rfl, rfl, rfl, rfl, rfl⟩
  · dsimp only
    split <;> exact ⟨rfl, rfl, rfl, rfl, rfl, rfl⟩

theorem setStatus_sameRoute (channel : Channel) (usingKey reason : String) (status now : ℤ) :
    SameRoute (channel.setStatus unmarshal usingKey status reason now) channel := by
  rw [setStatus]
  split
  case isTrue hmulti => exact handlerMultiKeyUpdate_sameRoute channel usingKey reason status now
  case isFalse hsingle => exact ⟨rfl, rfl, rfl, rfl, rfl, rfl⟩

end Keys

end Channel

end NewApi.Model
