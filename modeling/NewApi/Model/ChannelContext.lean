import NewApi.Lib.Choice
import NewApi.Model.ApiError
import NewApi.Model.MultiKeyStatus
import NewApi.Model.Task

/-!
# The channel in the request context

`SetupContextForSelectedChannel` writes what an attempt needs of its channel into the context
of the request, where `InitChannelMeta` reads it.  All attempts of a request share the context,
and some of its entries are only written for some channels.  The theorem of this file says in
which retry sequences every attempt reads what it would read with its channel alone, and has
drawn an enabled key of that channel.
-/

namespace NewApi.Model

open NewApi.Lib

def ErrorCodeChannelNoAvailableKey : String := "channel:no_available_key"

def MultiKeyModeRandom : String := "random"

def ChannelTypeAzure : ℤ := 3

def ChannelTypeXunfei : ℤ := 18

def ChannelCloudflare : ℤ := 39

def ChannelTypeMokaAI : ℤ := 44

/-- The default base URLs of the channel types. -/
def ChannelBaseURLs : List String :=
  ["", "https://api.openai.com", "https://oa.api2d.net", "", "http://localhost:11434",
    "https://api.openai-sb.com", "https://api.openaimax.com", "https://api.ohmygpt.com", "",
    "https://api.caipacity.com", "https://api.aiproxy.io", "", "https://api.api2gpt.com",
    "https://api.aigc2d.com", "https://api.anthropic.com", "https://aip.baidubce.com",
    "https://open.bigmodel.cn", "https://dashscope.aliyuncs.com", "", "https://api.360.cn",
    "https://openrouter.ai/api", "https://api.aiproxy.io", "https://fastgpt.run/api/openapi",
    "https://hunyuan.tencentcloudapi.com", "https://generativelanguage.googleapis.com",
    "https://api.moonshot.cn", "https://open.bigmodel.cn", "https://api.perplexity.ai", "", "", "",
    "https://api.lingyiwanwu.com", "", "", "https://api.cohere.ai", "https://api.minimax.chat", "",
    "https://api.dify.ai", "https://api.jina.ai", "https://api.cloudflare.com",
    "https://api.siliconflow.cn", "", "https://api.mistral.ai", "https://api.deepseek.com",
    "https://api.moka.ai", "https://ark.cn-beijing.volces.com", "https://qianfan.baidubce.com", "",
    "https://api.x.ai", "https://api.coze.cn", "https://api.klingai.com",
    "https://visual.volcengineapi.com", "https://api.vidu.cn", "https://llm.submodel.ai",
    "https://ark.cn-beijing.volces.com", "https://api.openai.com", "https://api.replicate.com",
    "https://chatgpt.com"]

/-- A row of the `channels` table with the columns that an attempt reads. -/
structure ConfiguredChannel extends Channel where
  channelType : ℤ
  createdTime : ℤ
  openAIOrganization : Option String
  baseURL : Option String
  other : String
  modelMapping : Option String
  statusCodeMapping : Option String
  setting : Option String
  otherSettings : String
  paramOverride : Option String
  headerOverride : Option String

/-- The JSON decoders: what is left in the target after a text was decoded, also when that
fails, and the zero values.  A map that is nil and one that is empty are the same here. -/
structure ChannelJson (S O M : Type) where
  keys : String → Option (List String)
  setting : String → S
  noSetting : S
  otherSettings : String → O
  noOtherSettings : O
  object : String → M
  noObject : M

variable {S O M : Type} (json : ChannelJson S O M)

namespace ConfiguredChannel

variable (channel : ConfiguredChannel)

/-- A column is decoded if it is neither null nor empty. -/
def decode {α : Type} (unmarshal : String → α) (zero : α) (column : Option String) : α :=
  match column with
  | none => zero
  | some text => if text = "" then zero else unmarshal text

def getSetting : S :=
  decode json.setting json.noSetting channel.setting

def getOtherSettings : O :=
  decode json.otherSettings json.noOtherSettings (some channel.otherSettings)

def getParamOverride : M :=
  decode json.object json.noObject channel.paramOverride

def getHeaderOverride : M :=
  decode json.object json.noObject channel.headerOverride

def getModelMapping : String :=
  channel.modelMapping.getD ""

def getStatusCodeMapping : String :=
  channel.statusCodeMapping.getD ""

/-- The default URL of the type takes the place of an empty one; a type without an entry in
the list is an index out of range. -/
def getBaseURL : Option String :=
  match channel.baseURL with
  | none => some ""
  | some url =>
      if url ≠ "" then some url
      else if 0 ≤ channel.channelType then ChannelBaseURLs[channel.channelType.toNat]? else none

/-- The text of an organization, empty when there is none. -/
def organization : String :=
  channel.openAIOrganization.getD ""

/-- The indices of the keys that are enabled. -/
def enabledIdx : List ℕ :=
  (List.range (channel.getKeys json.keys).length).filter fun i =>
    channel.keyStatus i = ChannelStatusEnabled

/-- The first enabled key from the polling index on. -/
def nextIdx (multiKeyPollingIndex : ℤ) : Option ℕ :=
  channel.polledPlace json.keys multiKeyPollingIndex

/-- The key that the mode of the channel picks, if `first` and `rest` are the enabled ones;
`cachedInfo` is what `CacheGetChannelInfo` returns. -/
def pickIdx (rand : Rand) (cachedInfo : Except String ChannelInfo) (first : ℕ) (rest : List ℕ) :
    Except NewAPIError ℕ :=
  if channel.channelInfo.multiKeyMode = MultiKeyModeRandom then
    .ok ((first :: rest).getD (rand.intn (first :: rest).length) first)
  else if channel.channelInfo.multiKeyMode = ChannelCache.ConstantMultiKeyModePolling then
    match cachedInfo with
    | .error err => .error (NewAPIError.newError err ErrorCodeGetChannelFailed).withSkipRetry
    | .ok info => .ok ((channel.nextIdx json info.multiKeyPollingIndex).getD first)
  else .ok first

/-- The key and its index. -/
def getNextEnabledKey (rand : Rand) (cachedInfo : Except String ChannelInfo) :
    Except NewAPIError (String × ℕ) :=
  if channel.channelInfo.isMultiKey = false then .ok (channel.key, 0)
  else if channel.getKeys json.keys = [] then
    .error (NewAPIError.newError "no keys available" ErrorCodeChannelNoAvailableKey)
  else
    match channel.enabledIdx json with
    | [] => .error (NewAPIError.newError "no enabled keys" ErrorCodeChannelNoAvailableKey)
    | first :: rest =>
        match channel.pickIdx json rand cachedInfo first rest with
        | .error err => .error err
        | .ok idx => .ok ((channel.getKeys json.keys).getD idx "", idx)

variable {json channel} {i : ℕ} {first : ℕ} {rest : List ℕ} {rand : Rand}
  {cachedInfo : Except String ChannelInfo}

theorem mem_enabledIdx : i ∈ channel.enabledIdx json ↔
    i < (channel.getKeys json.keys).length ∧ channel.keyStatus i = ChannelStatusEnabled := by
  rw [enabledIdx, List.mem_filter, List.mem_range, decide_eq_true_eq]

theorem enabledIdx_eq_nil :
    channel.enabledIdx json = [] ↔ ¬ channel.SomeKeyEnabled json.keys := by
  rw [List.eq_nil_iff_forall_not_mem]
  constructor
  · intro hnone ⟨i, hi, henabled⟩
    exact hnone i (mem_enabledIdx.2 ⟨hi, henabled⟩)
  · intro hnone i hi
    obtain ⟨hlt, henabled⟩ := mem_enabledIdx.1 hi
    exact hnone ⟨i, hlt, henabled⟩

/-- The polling finds enabled keys only. -/
theorem nextIdx_enabled {index : ℤ} (hnext : channel.nextIdx json index = some i) :
    i ∈ channel.enabledIdx json := by
  unfold nextIdx Channel.polledPlace at hnext
  have henabled := List.find?_some hnext
  obtain ⟨k, hk, hik⟩ := List.mem_map.1 (List.mem_of_find?_eq_some hnext)
  rw [List.mem_range] at hk
  rw [mem_enabledIdx]
  refine ⟨?_, of_decide_eq_true henabled⟩
  rw [← hik]
  exact Nat.mod_lt _ (by omega)

/-- Every mode picks an enabled key. -/
theorem pickIdx_enabled (henabled : channel.enabledIdx json = first :: rest)
    (hpick : channel.pickIdx json rand cachedInfo first rest = .ok i) :
    i ∈ channel.enabledIdx json := by
  have hfirst : first ∈ channel.enabledIdx json := by
    rw [henabled]
    exact List.mem_cons_self ..
  unfold pickIdx at hpick
  split at hpick
  case isTrue hrandom =>
    obtain rfl := Except.ok.inj hpick
    have hlt : rand.intn (first :: rest).length < (first :: rest).length :=
      rand.intn_lt (Nat.succ_pos rest.length)
    rw [henabled, List.getD_eq_getElem _ _ hlt]
    exact List.getElem_mem hlt
  case isFalse =>
    split at hpick
    case isTrue hpolling =>
      cases hinfo : cachedInfo with
      | error err =>
          rw [hinfo] at hpick
          cases hpick
      | ok info =>
          rw [hinfo] at hpick
          obtain rfl := Except.ok.inj hpick
          cases hnext : channel.nextIdx json info.multiKeyPollingIndex with
          | none => exact hfirst
          | some idx => exact nextIdx_enabled hnext
    case isFalse =>
      obtain rfl := Except.ok.inj hpick
      exact hfirst

end ConfiguredChannel

/-! ## The context -/

/-- A channel that was selected, with what its key is drawn by. -/
structure ChannelTurn where
  channel : ConfiguredChannel
  rand : Rand
  cachedInfo : Except String ChannelInfo

namespace ChannelTurn

variable (turn : ChannelTurn)

def getNextEnabledKey : Except NewAPIError (String × ℕ) :=
  turn.channel.getNextEnabledKey json turn.rand turn.cachedInfo

/-- An enabled key can be drawn: the channel has one, and if it is polled its cached entry is
found. -/
def HasKey : Prop :=
  turn.channel.channelInfo.isMultiKey = true → turn.channel.SomeKeyEnabled json.keys ∧
    (turn.channel.channelInfo.multiKeyMode = ChannelCache.ConstantMultiKeyModePolling →
      ∃ info, turn.cachedInfo = .ok info)

/-- The index of the key that is drawn. -/
def keyIdx : ℕ :=
  match turn.channel.enabledIdx json with
  | [] => 0
  | first :: rest =>
      ((turn.channel.pickIdx json turn.rand turn.cachedInfo first rest).toOption).getD 0

/-- The key that is drawn. -/
def apiKey : String :=
  if turn.channel.channelInfo.isMultiKey then
    (turn.channel.getKeys json.keys).getD (turn.keyIdx json) ""
  else turn.channel.key

variable {turn}

theorem pickIdx_ok (hpolling :
    turn.channel.channelInfo.multiKeyMode = ChannelCache.ConstantMultiKeyModePolling →
      ∃ info, turn.cachedInfo = .ok info) (first : ℕ) (rest : List ℕ) :
    ∃ idx, turn.channel.pickIdx json turn.rand turn.cachedInfo first rest = .ok idx := by
  unfold ConfiguredChannel.pickIdx
  split
  case isTrue => exact ⟨_, rfl⟩
  case isFalse =>
    split
    case isTrue hmode =>
      obtain ⟨info, hinfo⟩ := hpolling hmode
      rw [hinfo]
      exact ⟨_, rfl⟩
    case isFalse => exact ⟨_, rfl⟩

variable {json}

/-- The key of a single-key channel, or the enabled key at the index of the draw. -/
theorem getNextEnabledKey_ok (hkey : turn.HasKey json) :
    ∃ idx, turn.getNextEnabledKey json = .ok (turn.apiKey json, idx) ∧
      (turn.channel.channelInfo.isMultiKey = true → idx = turn.keyIdx json ∧
        (turn.channel.getKeys json.keys)[idx]? = some (turn.apiKey json) ∧
        turn.channel.keyStatus idx = ChannelStatusEnabled) := by
  unfold getNextEnabledKey ConfiguredChannel.getNextEnabledKey apiKey
  cases hmulti : turn.channel.channelInfo.isMultiKey with
  | false => exact ⟨0, rfl, fun h => absurd h Bool.false_ne_true⟩
  | true =>
      obtain ⟨⟨i, hi, hstatus⟩, hpolling⟩ := hkey hmulti
      have hkeys : turn.channel.getKeys json.keys ≠ [] :=
        List.ne_nil_of_length_pos (by omega)
      rw [if_neg Bool.true_eq_false_eq_False, if_neg hkeys, if_pos rfl]
      cases henabled : turn.channel.enabledIdx json with
      | nil => exact absurd ⟨i, hi, hstatus⟩ (ConfiguredChannel.enabledIdx_eq_nil.1 henabled)
      | cons first rest =>
          obtain ⟨idx, hpick⟩ := pickIdx_ok json hpolling first rest
          have hidx : turn.keyIdx json = idx := by
            unfold keyIdx
            rw [henabled]
            simp only [hpick, Except.toOption, Option.getD_some]
          obtain ⟨hlt, henabledIdx⟩ := ConfiguredChannel.mem_enabledIdx.1
            (ConfiguredChannel.pickIdx_enabled henabled hpick)
          refine ⟨idx, ?_, fun _ => ⟨hidx.symm, ?_, henabledIdx⟩⟩
          · simp only [hpick, hidx]
          · rw [hidx, List.getElem?_eq_getElem hlt, List.getD_eq_getElem _ _ hlt]

theorem getNextEnabledKey_err (hkey : ¬ turn.HasKey json) :
    ∃ err, turn.getNextEnabledKey json = .error err := by
  unfold HasKey at hkey
  push Not at hkey
  obtain ⟨hmulti, hkey⟩ := hkey
  unfold getNextEnabledKey ConfiguredChannel.getNextEnabledKey
  rw [if_neg (by simp [hmulti])]
  split
  case isTrue => exact ⟨_, rfl⟩
  case isFalse =>
    cases henabled : turn.channel.enabledIdx json with
    | nil => exact ⟨_, rfl⟩
    | cons first rest =>
        have hsome : turn.channel.SomeKeyEnabled json.keys := by
          by_contra hnone
          rw [ConfiguredChannel.enabledIdx_eq_nil.2 hnone] at henabled
          cases henabled
        obtain ⟨hpolling, hinfo⟩ := hkey hsome
        cases hcached : turn.cachedInfo with
        | ok info => exact absurd hcached (hinfo info)
        | error err =>
            have hmode : turn.channel.channelInfo.multiKeyMode ≠ MultiKeyModeRandom := by
              rw [hpolling]
              decide
            refine ⟨(NewAPIError.newError err ErrorCodeGetChannelFailed).withSkipRetry, ?_⟩
            simp only [ConfiguredChannel.pickIdx, if_neg hmode, if_pos hpolling]

end ChannelTurn

/-- The entries of the request context that describe the channel; an entry that was never set
is absent. -/
structure ChannelContext (S O M : Type) where
  originalModel : Option String
  channelId : Option ℤ
  channelType : Option ℤ
  createTime : Option ℤ
  setting : Option S
  otherSetting : Option O
  paramOverride : Option M
  headerOverride : Option M
  organization : Option String
  modelMapping : Option String
  statusCodeMapping : Option String
  isMultiKey : Option Bool
  multiKeyIndex : Option ℕ
  channelKey : Option String
  baseUrl : Option String
  apiVersion : Option String
  region : Option String

/-- The channel as an attempt reads it: `ChannelMeta` and the two mappings. -/
structure ChannelMeta (S O M : Type) where
  channelType : ℤ
  channelId : ℤ
  channelIsMultiKey : Bool
  channelMultiKeyIndex : ℕ
  channelBaseUrl : String
  apiVersion : String
  apiKey : String
  organization : String
  channelCreateTime : ℤ
  paramOverride : M
  headersOverride : M
  upstreamModelName : String
  channelSetting : S
  channelOtherSettings : O
  modelMapping : String
  statusCodeMapping : String

/-- How the setup of the context ends. -/
inductive SetupResult
  | done
  | failed (newAPIError : NewAPIError)
  | outOfRange

namespace ChannelContext

/-- The context of a new request. -/
def empty : ChannelContext S O M where
  originalModel := none
  channelId := none
  channelType := none
  createTime := none
  setting := none
  otherSetting := none
  paramOverride := none
  headerOverride := none
  organization := none
  modelMapping := none
  statusCodeMapping := none
  isMultiKey := none
  multiKeyIndex := none
  channelKey := none
  baseUrl := none
  apiVersion := none
  region := none

/-- The entries that are written before the key is drawn. -/
def setChannel (channel : ConfiguredChannel) (ctx : ChannelContext S O M) :
    ChannelContext S O M :=
  { ctx with
    channelId := some channel.id
    channelType := some channel.channelType
    createTime := some channel.createdTime
    setting := some (channel.getSetting json)
    otherSetting := some (channel.getOtherSettings json)
    paramOverride := some (channel.getParamOverride json)
    headerOverride := some (channel.getHeaderOverride json)
    organization :=
      match channel.openAIOrganization with
      | none => ctx.organization
      | some organization => if organization ≠ "" then some organization else ctx.organization
    modelMapping := some channel.getModelMapping
    statusCodeMapping := some channel.getStatusCodeMapping }

/-- Only a multi-key channel writes the index. -/
def setKey (channel : ConfiguredChannel) (key : String) (index : ℕ)
    (ctx : ChannelContext S O M) : ChannelContext S O M :=
  { ctx with
    isMultiKey := some channel.channelInfo.isMultiKey
    multiKeyIndex := if channel.channelInfo.isMultiKey then some index else ctx.multiKeyIndex
    channelKey := some key }

/-- The column `other` is the API version or the region of some types. -/
def setOther (channel : ConfiguredChannel) (ctx : ChannelContext S O M) : ChannelContext S O M :=
  if channel.channelType = ChannelTypeAzure then { ctx with apiVersion := some channel.other }
  else if channel.channelType = ChannelTypeVertexAi then { ctx with region := some channel.other }
  else if channel.channelType = ChannelTypeXunfei then { ctx with apiVersion := some channel.other }
  else if channel.channelType = ChannelTypeGemini then { ctx with apiVersion := some channel.other }
  else if channel.channelType = ChannelCloudflare then { ctx with apiVersion := some channel.other }
  else if channel.channelType = ChannelTypeMokaAI then { ctx with apiVersion := some channel.other }
  else ctx

def setupContextForSelectedChannel (modelName : String) (selected : Option ChannelTurn)
    (ctx : ChannelContext S O M) : ChannelContext S O M × SetupResult :=
  let ctx := { ctx with originalModel := some modelName }
  match selected with
  | none =>
      (ctx, .failed
        (NewAPIError.newError "channel is nil" ErrorCodeGetChannelFailed).withSkipRetry)
  | some turn =>
      let ctx := ctx.setChannel json turn.channel
      match turn.getNextEnabledKey json with
      | .error newAPIError => (ctx, .failed newAPIError)
      | .ok (key, index) =>
          let ctx := ctx.setKey turn.channel key index
          match turn.channel.getBaseURL with
          | none => (ctx, .outOfRange)
          | some url => ({ ctx with baseUrl := some url }.setOther turn.channel, .done)

/-- `InitChannelMeta`; `query` is the `api-version` of the request's URL. -/
def initChannelMeta (query : String) (ctx : ChannelContext S O M) : ChannelMeta S O M :=
  let channelType := ctx.channelType.getD 0
  { channelType := channelType
    channelId := ctx.channelId.getD 0
    channelIsMultiKey := ctx.isMultiKey.getD false
    channelMultiKeyIndex := ctx.multiKeyIndex.getD 0
    channelBaseUrl := ctx.baseUrl.getD ""
    apiVersion :=
      if channelType = ChannelTypeVertexAi then ctx.region.getD ""
      else if channelType = ChannelTypeAzure ∧ query ≠ "" then query
      else ctx.apiVersion.getD ""
    apiKey := ctx.channelKey.getD ""
    organization := ctx.organization.getD ""
    channelCreateTime := ctx.createTime.getD 0
    paramOverride := ctx.paramOverride.getD json.noObject
    headersOverride := ctx.headerOverride.getD json.noObject
    upstreamModelName := ctx.originalModel.getD ""
    channelSetting := ctx.setting.getD json.noSetting
    channelOtherSettings := ctx.otherSetting.getD json.noOtherSettings
    modelMapping := ctx.modelMapping.getD ""
    statusCodeMapping := ctx.statusCodeMapping.getD "" }

end ChannelContext

/-! ## The attempts of a request -/

/-- An attempt: the channel that was selected for it, and the channel that it reads. -/
structure ChannelAttempt (S O M : Type) where
  turn : ChannelTurn
  channelMeta : ChannelMeta S O M

variable (modelName query : String)

/-- The retries with the channels that `getChannel` selects; an error of the setup ends them. -/
def retryAttempts : ChannelContext S O M → List ChannelTurn → List (ChannelAttempt S O M)
  | _, [] => []
  | ctx, turn :: turns =>
      match ctx.setupContextForSelectedChannel json modelName (some turn) with
      | (ctx, .done) => ⟨turn, ctx.initChannelMeta json query⟩ :: retryAttempts ctx turns
      | (_, _) => []

/-- The attempts of a request.  `Distribute` goes on without a look at the error of the
setup. -/
def channelAttempts (first : ChannelTurn) (retries : List ChannelTurn) :
    List (ChannelAttempt S O M) :=
  match ChannelContext.empty.setupContextForSelectedChannel json modelName (some first) with
  | (_, .outOfRange) => []
  | (ctx, _) =>
      ⟨first, ctx.initChannelMeta json query⟩ :: retryAttempts json modelName query ctx retries

namespace ChannelAttempt

variable (attempt : ChannelAttempt S O M)

/-- The attempt reads what it would read as the first one of a request. -/
def Isolated : Prop :=
  attempt.channelMeta =
    (ChannelContext.empty.setupContextForSelectedChannel json modelName
      (some attempt.turn)).1.initChannelMeta json query

/-- The key of the attempt was drawn for it, and it is an enabled one of the channel. -/
def Keyed : Prop :=
  ∃ index, attempt.turn.getNextEnabledKey json = .ok (attempt.channelMeta.apiKey, index) ∧
    (attempt.turn.channel.channelInfo.isMultiKey = true →
      (attempt.turn.channel.getKeys json.keys)[index]? = some attempt.channelMeta.apiKey ∧
      attempt.turn.channel.keyStatus index = ChannelStatusEnabled)

end ChannelAttempt

/-! ## What earlier channels leave behind -/

/-- The entries that not every channel writes. -/
structure Leftover where
  organization : String
  multiKeyIndex : ℕ
  apiVersion : String

def Leftover.none : Leftover :=
  ⟨"", 0, ""⟩

/-- The types with an API version in the column `other`. -/
def ConfiguredChannel.Versioned (channel : ConfiguredChannel) : Prop :=
  channel.channelType ∈
    [ChannelTypeAzure, ChannelTypeXunfei, ChannelTypeGemini, ChannelCloudflare, ChannelTypeMokaAI]

instance (channel : ConfiguredChannel) : Decidable channel.Versioned :=
  inferInstanceAs (Decidable (_ ∈ _))

/-- What is left behind after one more channel. -/
def Leftover.after (left : Leftover) (turn : ChannelTurn) : Leftover where
  organization :=
    if turn.channel.organization = "" then left.organization else turn.channel.organization
  multiKeyIndex :=
    if turn.channel.channelInfo.isMultiKey then turn.keyIdx json else left.multiKeyIndex
  apiVersion := if turn.channel.Versioned then turn.channel.other else left.apiVersion

namespace ChannelTurn

variable (turn : ChannelTurn)

/-- The channel writes the entry itself, or does not read it, or nothing is left there. -/
structure Unaffected (left : Leftover) : Prop where
  organization : turn.channel.organization = "" → left.organization = ""
  multiKeyIndex : turn.channel.channelInfo.isMultiKey = false → left.multiKeyIndex = 0
  apiVersion : turn.channel.channelType ≠ ChannelTypeVertexAi → ¬ turn.channel.Versioned →
    left.apiVersion = ""

/-- The channel as an attempt reads it when that is left behind, its own entries included. -/
def channelMeta (left : Leftover) : ChannelMeta S O M where
  channelType := turn.channel.channelType
  channelId := turn.channel.id
  channelIsMultiKey := turn.channel.channelInfo.isMultiKey
  channelMultiKeyIndex := left.multiKeyIndex
  channelBaseUrl := turn.channel.getBaseURL.getD ""
  apiVersion :=
    if turn.channel.channelType = ChannelTypeVertexAi then turn.channel.other
    else if turn.channel.channelType = ChannelTypeAzure ∧ query ≠ "" then query
    else left.apiVersion
  apiKey := turn.apiKey json
  organization := left.organization
  channelCreateTime := turn.channel.createdTime
  paramOverride := turn.channel.getParamOverride json
  headersOverride := turn.channel.getHeaderOverride json
  upstreamModelName := modelName
  channelSetting := turn.channel.getSetting json
  channelOtherSettings := turn.channel.getOtherSettings json
  modelMapping := turn.channel.getModelMapping
  statusCodeMapping := turn.channel.getStatusCodeMapping

/-- The setup of the context succeeds. -/
def SetsUp : Prop :=
  turn.HasKey json ∧ turn.channel.getBaseURL ≠ none

variable {json modelName query turn}

/-- What is left behind is read, unless the channel is unaffected by it. -/
theorem channelMeta_eq_iff {left : Leftover} :
    turn.channelMeta json modelName query (left.after json turn) =
        turn.channelMeta json modelName query (Leftover.none.after json turn) ↔
      turn.Unaffected left := by
  -- three entries are not always written, and each of them is read
  constructor
  · intro hsame
    refine ⟨fun hnone => ?_, fun hsingle => ?_, fun hvertex hversioned => ?_⟩
    · have horganization := congrArg ChannelMeta.organization hsame
      simpa only [channelMeta, Leftover.after, Leftover.none, if_pos hnone] using horganization
    · have hindex := congrArg ChannelMeta.channelMultiKeyIndex hsame
      simpa only [channelMeta, Leftover.after, Leftover.none, hsingle, if_neg Bool.false_ne_true]
        using hindex
    · have hversion := congrArg ChannelMeta.apiVersion hsame
      have hazure : ¬ (turn.channel.channelType = ChannelTypeAzure ∧ query ≠ "") :=
        fun hazure => hversioned (List.mem_of_mem_head? (by rw [hazure.1]; rfl))
      simpa only [channelMeta, Leftover.after, Leftover.none, if_neg hvertex, if_neg hversioned,
        if_neg hazure] using hversion
  · intro hunaffected
    have horganization : (left.after json turn).organization =
        (Leftover.none.after json turn).organization := by
      simp only [Leftover.after]
      split
      case isTrue hnone => exact hunaffected.organization hnone
      case isFalse => rfl
    have hindex : (left.after json turn).multiKeyIndex =
        (Leftover.none.after json turn).multiKeyIndex := by
      simp only [Leftover.after]
      split
      case isTrue => rfl
      case isFalse hsingle => exact hunaffected.multiKeyIndex (Bool.eq_false_of_not_eq_true hsingle)
    by_cases hvertex : turn.channel.channelType = ChannelTypeVertexAi
    · simp only [channelMeta, horganization, hindex, if_pos hvertex]
    · have hversion : (left.after json turn).apiVersion =
          (Leftover.none.after json turn).apiVersion := by
        simp only [Leftover.after]
        split
        case isTrue => rfl
        case isFalse hversioned => exact hunaffected.apiVersion hvertex hversioned
      simp only [channelMeta, horganization, hindex, hversion]

end ChannelTurn

/-- Every retry whose setup succeeds is unaffected by what the channels before it leave. -/
def Clean : Leftover → List ChannelTurn → Prop
  | _, [] => True
  | left, turn :: turns =>
      turn.SetsUp json → turn.Unaffected left ∧ Clean (left.after json turn) turns

namespace ChannelContext

variable {json modelName query} {turn : ChannelTurn} {ctx : ChannelContext S O M}

def leftover (ctx : ChannelContext S O M) : Leftover where
  organization := ctx.organization.getD ""
  multiKeyIndex := ctx.multiKeyIndex.getD 0
  apiVersion := ctx.apiVersion.getD ""

/-- Only Vertex writes the region, and it writes no version. -/
theorem setOther_eq (channel : ConfiguredChannel) (ctx : ChannelContext S O M) :
    ctx.setOther channel =
      { ctx with
        apiVersion := if channel.Versioned then some channel.other else ctx.apiVersion
        region :=
          if channel.channelType = ChannelTypeVertexAi then some channel.other
            else ctx.region } := by
  unfold setOther
  by_cases hversioned : channel.Versioned
  · have hvertex : channel.channelType ≠ ChannelTypeVertexAi := by
      intro hvertex
      rw [ConfiguredChannel.Versioned, hvertex] at hversioned
      exact absurd hversioned (by decide)
    rw [if_pos hversioned, if_neg hvertex, if_neg hvertex]
    simp only [ConfiguredChannel.Versioned, List.mem_cons, List.not_mem_nil, or_false] at hversioned
    rcases hversioned with hazure | hxunfei | hgemini | hcloudflare | hmoka <;> simp [*]
  · rw [if_neg hversioned]
    simp only [ConfiguredChannel.Versioned, List.mem_cons, List.not_mem_nil, or_false, not_or]
      at hversioned
    obtain ⟨hazure, hxunfei, hgemini, hcloudflare, hmoka⟩ := hversioned
    rw [if_neg hazure, if_neg hxunfei, if_neg hgemini, if_neg hcloudflare, if_neg hmoka]
    split <;> rfl

theorem setChannel_organization (channel : ConfiguredChannel) (ctx : ChannelContext S O M) :
    (ctx.setChannel json channel).organization.getD "" =
      if channel.organization = "" then ctx.organization.getD "" else channel.organization := by
  unfold setChannel ConfiguredChannel.organization
  cases channel.openAIOrganization with
  | none => rfl
  | some organization =>
      by_cases hnone : organization = ""
      · simp [hnone]
      · simp [hnone]

/-- The context after a setup that succeeded. -/
def afterSetup (json : ChannelJson S O M) (modelName : String) (turn : ChannelTurn) (key : String)
    (index : ℕ) (url : String) (ctx : ChannelContext S O M) : ChannelContext S O M :=
  { ({ ctx with originalModel := some modelName }.setChannel json turn.channel).setKey
      turn.channel key index with baseUrl := some url }.setOther turn.channel

theorem afterSetup_leftover {key url : String} {index : ℕ}
    (hindex : turn.channel.channelInfo.isMultiKey = true → index = turn.keyIdx json) :
    (ctx.afterSetup json modelName turn key index url).leftover =
      ctx.leftover.after json turn := by
  unfold afterSetup
  rw [setOther_eq]
  unfold leftover Leftover.after
  rw [Leftover.mk.injEq]
  refine ⟨?_, ?_, ?_⟩
  · exact @setChannel_organization S O M json turn.channel _
  · show Option.getD (if turn.channel.channelInfo.isMultiKey then some index
      else ctx.multiKeyIndex) 0 = _
    cases hmulti : turn.channel.channelInfo.isMultiKey with
    | false => rfl
    | true => exact hindex hmulti
  · show Option.getD (if turn.channel.Versioned then some turn.channel.other
      else ctx.apiVersion) "" = _
    split <;> rfl

/-- The attempt reads the entries of its channel and what is left behind. -/
theorem afterSetup_channelMeta {url : String} {index : ℕ}
    (hindex : turn.channel.channelInfo.isMultiKey = true → index = turn.keyIdx json)
    (hurl : turn.channel.getBaseURL = some url) :
    (ctx.afterSetup json modelName turn (turn.apiKey json) index url).initChannelMeta json query =
      turn.channelMeta json modelName query (ctx.leftover.after json turn) := by
  have hleftover := @afterSetup_leftover S O M json modelName turn ctx (turn.apiKey json) url index
    hindex
  unfold afterSetup at hleftover ⊢
  rw [setOther_eq] at hleftover ⊢
  rw [← hleftover]
  unfold initChannelMeta ChannelTurn.channelMeta
  rw [hurl, ChannelMeta.mk.injEq]
  refine ⟨rfl, rfl, rfl, rfl, rfl, ?_, rfl, rfl, rfl, rfl, rfl, rfl, rfl, rfl, rfl, rfl⟩
  show (if turn.channel.channelType = ChannelTypeVertexAi then
      Option.getD (if turn.channel.channelType = ChannelTypeVertexAi then some turn.channel.other
        else ctx.region) ""
    else if turn.channel.channelType = ChannelTypeAzure ∧ query ≠ "" then query else _) = _
  by_cases hvertex : turn.channel.channelType = ChannelTypeVertexAi
  · simp only [if_pos hvertex]
    rfl
  · simp only [if_neg hvertex]
    rfl

theorem setup_done (hsets : turn.SetsUp json) :
    ∃ ctx', ctx.setupContextForSelectedChannel json modelName (some turn) = (ctx', .done) ∧
      ctx'.leftover = ctx.leftover.after json turn ∧
      ctx'.initChannelMeta json query =
        turn.channelMeta json modelName query (ctx.leftover.after json turn) := by
  obtain ⟨hkey, hurl⟩ := hsets
  obtain ⟨index, hnext, hindex⟩ := ChannelTurn.getNextEnabledKey_ok hkey
  obtain ⟨url, hurl⟩ := Option.ne_none_iff_exists'.1 hurl
  refine ⟨ctx.afterSetup json modelName turn (turn.apiKey json) index url, ?_,
    afterSetup_leftover fun hmulti => (hindex hmulti).1,
    afterSetup_channelMeta (fun hmulti => (hindex hmulti).1) hurl⟩
  simp only [setupContextForSelectedChannel, hnext, hurl, afterSetup]

/-- Without a key the setup fails. -/
theorem setup_failed (hkey : ¬ turn.HasKey json) :
    ∃ ctx' err, ctx.setupContextForSelectedChannel json modelName (some turn) =
      (ctx', .failed err) := by
  obtain ⟨err, hnext⟩ := ChannelTurn.getNextEnabledKey_err hkey
  refine ⟨{ ctx with originalModel := some modelName }.setChannel json turn.channel, err, ?_⟩
  simp only [setupContextForSelectedChannel, hnext]

theorem setup_outOfRange (hkey : turn.HasKey json) (hurl : turn.channel.getBaseURL = none) :
    ∃ ctx', ctx.setupContextForSelectedChannel json modelName (some turn) =
      (ctx', .outOfRange) := by
  obtain ⟨index, hnext, _⟩ := ChannelTurn.getNextEnabledKey_ok hkey
  refine ⟨({ ctx with originalModel := some modelName }.setChannel json turn.channel).setKey
    turn.channel (turn.apiKey json) index, ?_⟩
  simp only [setupContextForSelectedChannel, hnext, hurl]

end ChannelContext

/-! ## The whole sequence -/

section

variable {json : ChannelJson S O M} {modelName query : String} {turn first : ChannelTurn}
  {turns retries : List ChannelTurn} {ctx ctx' : ChannelContext S O M}

/-- The attempt after a setup that succeeded has its key, and is isolated when nothing that is
left behind affects it. -/
theorem attempt_ok_iff (hsets : turn.SetsUp json) {attempt : ChannelAttempt S O M}
    (hturn : attempt.turn = turn)
    (hmeta : attempt.channelMeta =
      turn.channelMeta json modelName query (ctx.leftover.after json turn)) :
    attempt.Isolated json modelName query ∧ attempt.Keyed json ↔ turn.Unaffected ctx.leftover := by
  obtain ⟨fresh, hfresh, _, hread⟩ := @ChannelContext.setup_done S O M json modelName query turn
    .empty hsets
  have hkeyed : attempt.Keyed json := by
    obtain ⟨index, hnext, hindex⟩ := ChannelTurn.getNextEnabledKey_ok hsets.1
    have hkey : attempt.channelMeta.apiKey = turn.apiKey json := by
      rw [hmeta]
      rfl
    unfold ChannelAttempt.Keyed
    rw [hturn, hkey]
    exact ⟨index, hnext, fun hmulti => (hindex hmulti).2⟩
  rw [and_iff_left hkeyed]
  unfold ChannelAttempt.Isolated
  rw [hturn, hfresh, hread, hmeta]
  exact ChannelTurn.channelMeta_eq_iff

/-- A retry whose setup fails is not made. -/
theorem retryAttempts_of_not_setsUp (hsets : ¬ turn.SetsUp json) :
    retryAttempts json modelName query ctx (turn :: turns) = [] := by
  rw [retryAttempts]
  by_cases hkey : turn.HasKey json
  · have hurl : turn.channel.getBaseURL = none := by
      by_contra hurl
      exact hsets ⟨hkey, hurl⟩
    obtain ⟨ctx', hsetup⟩ :=
      @ChannelContext.setup_outOfRange S O M json modelName turn ctx hkey hurl
    rw [hsetup]
  · obtain ⟨ctx', err, hsetup⟩ := @ChannelContext.setup_failed S O M json modelName turn ctx hkey
    rw [hsetup]

/-- The retries are isolated and keyed exactly when none is affected by what is left behind. -/
theorem retryAttempts_ok_iff :
    (∀ attempt ∈ retryAttempts json modelName query ctx turns,
      attempt.Isolated json modelName query ∧ attempt.Keyed json) ↔
      Clean json ctx.leftover turns := by
  induction turns generalizing ctx with
  | nil => simp [retryAttempts, Clean]
  | cons turn turns ih =>
      rw [Clean]
      -- a retry that is not set up ends the request
      by_cases hsets : turn.SetsUp json
      · obtain ⟨ctx', hsetup, hleft, hmeta⟩ := @ChannelContext.setup_done S O M json modelName query
          turn ctx hsets
        rw [retryAttempts, hsetup]
        dsimp only
        rw [List.forall_mem_cons, attempt_ok_iff hsets rfl hmeta, ih, hleft, forall_prop_of_true hsets]
      · rw [retryAttempts_of_not_setsUp hsets]
        exact ⟨fun _ hdone => absurd hdone hsets, fun _ attempt hattempt => absurd hattempt
          List.not_mem_nil⟩

/-- The attempt that is made without a key. -/
theorem not_keyed_of_not_hasKey {attempt : ChannelAttempt S O M}
    (hkey : ¬ attempt.turn.HasKey json) :
    ¬ attempt.Keyed json := by
  rintro ⟨index, hnext, _⟩
  obtain ⟨err, herr⟩ := ChannelTurn.getNextEnabledKey_err hkey
  rw [herr] at hnext
  cases hnext

/-- Every attempt of a request reads its own channel only and has drawn an enabled key of it,
exactly when the first channel has a key to draw and no retry is affected by what the channels
before it leave in the context. -/
theorem attempts_isolated_iff (json : ChannelJson S O M) (modelName query : String)
    (first : ChannelTurn) (retries : List ChannelTurn) :
    (∀ attempt ∈ channelAttempts json modelName query first retries,
      attempt.Isolated json modelName query ∧ attempt.Keyed json) ↔
      first.HasKey json ∧ (first.channel.getBaseURL ≠ none →
        Clean json (Leftover.none.after json first) retries) := by
  unfold channelAttempts
  by_cases hkey : first.HasKey json
  · rw [and_iff_right hkey]
    by_cases hurl : first.channel.getBaseURL = none
    · obtain ⟨ctx', hsetup⟩ := @ChannelContext.setup_outOfRange S O M json modelName first .empty
        hkey hurl
      rw [hsetup]
      exact ⟨fun _ hdone => absurd hurl hdone, fun _ attempt hattempt => absurd hattempt
        List.not_mem_nil⟩
    · obtain ⟨ctx', hsetup, hleft, hmeta⟩ := @ChannelContext.setup_done S O M json modelName query
        first .empty ⟨hkey, hurl⟩
      rw [hsetup, forall_prop_of_true hurl]
      dsimp only
      -- nothing is left in a new context
      have hfirst : first.Unaffected (ChannelContext.empty (S := S) (O := O) (M := M)).leftover :=
        ⟨fun _ => rfl, fun _ => rfl, fun _ _ => rfl⟩
      rw [List.forall_mem_cons, attempt_ok_iff ⟨hkey, hurl⟩ rfl hmeta, and_iff_right hfirst,
        retryAttempts_ok_iff, hleft]
      rfl
  -- `Distribute` drops the error, and the first attempt is made all the same
  · obtain ⟨ctx', err, hsetup⟩ :=
      @ChannelContext.setup_failed S O M json modelName first .empty hkey
    rw [hsetup]
    dsimp only
    constructor
    · intro hok
      exact absurd (hok _ (List.mem_cons_self ..)).2 (not_keyed_of_not_hasKey hkey)
    · intro hok
      exact absurd hok.1 hkey

end

/-- Decoders that know no settings. -/
def sampleChannelJson : ChannelJson Unit Unit Unit where
  keys _ := none
  setting _ := ()
  noSetting := ()
  otherSettings _ := ()
  noOtherSettings := ()
  object _ := ()
  noObject := ()

/-- An OpenAI channel with one key, which is disabled if it is a multi-key channel. -/
def sampleConfiguredChannel (id : ℤ) (isMultiKey : Bool) (openAIOrganization : Option String) :
    ConfiguredChannel where
  id := id
  key := "sk-1"
  status := ChannelStatusEnabled
  weight := none
  models := "o3"
  group := "default"
  priority := none
  tag := none
  otherInfo := none
  channelInfo :=
    { ChannelInfo.empty with
      isMultiKey := isMultiKey
      multiKeySize := if isMultiKey then 1 else 0
      multiKeyStatusList := if isMultiKey then AList.singleton 0 ChannelStatusAutoDisabled else ∅
      multiKeyMode := if isMultiKey then MultiKeyModeRandom else "" }
  channelType := 1
  createdTime := 1700000000
  openAIOrganization := openAIOrganization
  baseURL := some ""
  other := ""
  modelMapping := none
  statusCodeMapping := none
  setting := none
  otherSettings := ""
  paramOverride := none
  headerOverride := none

def sampleChannelTurn (channel : ConfiguredChannel) : ChannelTurn :=
  ⟨channel, Choice.constRand 0, .error "not cached"⟩

/-- After a channel of an organization the next channel is asked with that organization; and a
first channel whose only key is disabled is asked with an empty key. -/
theorem organization_leaks_and_key_missing :
    (∃ attempt ∈ channelAttempts sampleChannelJson "o3" ""
        (sampleChannelTurn (sampleConfiguredChannel 1 false (some "org-a")))
        [sampleChannelTurn (sampleConfiguredChannel 2 false none)],
      attempt.channelMeta.channelId = 2 ∧ attempt.channelMeta.organization = "org-a" ∧
        ¬ attempt.Isolated sampleChannelJson "o3" "") ∧
    ∃ attempt ∈ channelAttempts sampleChannelJson "o3" ""
        (sampleChannelTurn (sampleConfiguredChannel 3 true none)) [],
      attempt.channelMeta.channelId = 3 ∧ attempt.channelMeta.apiKey = "" ∧
        ¬ attempt.Keyed sampleChannelJson := by
  refine ⟨⟨_, List.mem_cons_of_mem _ (List.mem_cons_self ..), rfl, rfl, ?_⟩,
    ⟨_, List.mem_cons_self .., rfl, rfl, ?_⟩⟩
  · intro hisolated
    have horganization := congrArg ChannelMeta.organization hisolated
    exact absurd horganization (by decide)
  · rintro ⟨index, hnext, _⟩
    cases hnext

end NewApi.Model
