import NewApi.Lib.DecimalValue
import NewApi.Lib.Rounding
import NewApi.Lib.System
import NewApi.Model.Relay

/-!
# A realtime session

`Relay` pre-consumes quota for a realtime request, `OpenaiRealtimeHandler` debits the usage of every
response while the session runs, and `PostWssConsumeQuota` records the quota of the summed usage
when it has ended.  Nothing settles the difference.
-/

namespace NewApi.Model

open NewApi.Lib

/-! ## The price of a request -/

/-- The settings that pricing reads besides those of billing. -/
structure RealtimeSettings (F : Type) extends RelaySettings F where
  preConsumedQuota : ℤ
  enableFreeModelPreConsume : Bool
  modelPrice : String → Option F
  modelRatio : String → F × Bool × String
  cacheRatio : String → F
  createCacheRatio : String → F
  imageRatio : String → F
  groupRatio : String → F
  groupGroupRatio : String → String → Option F

/-- `types.TokenCountMeta` as far as pricing reads it. -/
structure TokenCountMeta (F : Type) where
  maxTokens : ℤ
  imagePriceRatio : F

/-- The rest of the relay info, and the auto group in the request context.  No code sets the field
`UsePrice` of the relay info. -/
structure RealtimeRequest where
  originModelName : String
  userGroup : String
  usingGroup : String
  autoGroup : Option String
  acceptUnsetRatioModel : Bool
  usePrice : Bool
deriving DecidableEq

/-- `GenRelayInfoWs`. -/
def genRelayInfoWs (originModelName userGroup usingGroup : String) (autoGroup : Option String)
    (acceptUnsetRatioModel : Bool) : RealtimeRequest where
  originModelName := originModelName
  userGroup := userGroup
  usingGroup := usingGroup
  autoGroup := autoGroup
  acceptUnsetRatioModel := acceptUnsetRatioModel
  usePrice := false

/-- `dto.RealtimeUsage`, with its token details. -/
@[ext]
structure RealtimeUsage where
  totalTokens : ℤ
  inputTokens : ℤ
  outputTokens : ℤ
  inputCachedTokens : ℤ
  inputTextTokens : ℤ
  inputAudioTokens : ℤ
  outputTextTokens : ℤ
  outputAudioTokens : ℤ
deriving DecidableEq

namespace RealtimeUsage

def zero : RealtimeUsage := ⟨0, 0, 0, 0, 0, 0, 0, 0⟩

def add (u v : RealtimeUsage) : RealtimeUsage where
  totalTokens := u.totalTokens + v.totalTokens
  inputTokens := u.inputTokens + v.inputTokens
  outputTokens := u.outputTokens + v.outputTokens
  inputCachedTokens := u.inputCachedTokens + v.inputCachedTokens
  inputTextTokens := u.inputTextTokens + v.inputTextTokens
  inputAudioTokens := u.inputAudioTokens + v.inputAudioTokens
  outputTextTokens := u.outputTextTokens + v.outputTextTokens
  outputAudioTokens := u.outputAudioTokens + v.outputAudioTokens

instance : Zero RealtimeUsage := ⟨zero⟩
instance : Add RealtimeUsage := ⟨add⟩

/-- Tokens counted as input. -/
def addInput (u : RealtimeUsage) (textToken audioToken : ℤ) : RealtimeUsage :=
  { u with
    totalTokens := u.totalTokens + (textToken + audioToken)
    inputTokens := u.inputTokens + (textToken + audioToken)
    inputTextTokens := u.inputTextTokens + textToken
    inputAudioTokens := u.inputAudioTokens + audioToken }

/-- Tokens counted as output. -/
def addOutput (u : RealtimeUsage) (textToken audioToken : ℤ) : RealtimeUsage :=
  { u with
    totalTokens := u.totalTokens + (textToken + audioToken)
    outputTokens := u.outputTokens + (textToken + audioToken)
    outputTextTokens := u.outputTextTokens + textToken
    outputAudioTokens := u.outputAudioTokens + audioToken }

/-- The `QuotaInfo` of both billing functions.  Neither sets its `ModelPrice`. -/
def quotaInfo {F : Type} [Float64 F] (u : RealtimeUsage) (modelName : String) (usePrice : Bool)
    (modelRatio groupRatio : F) : QuotaInfo F where
  inputTextTokens := u.inputTextTokens
  inputAudioTokens := u.inputAudioTokens
  outputTextTokens := u.outputTextTokens
  outputAudioTokens := u.outputAudioTokens
  modelName := modelName
  usePrice := usePrice
  modelPrice := Float64.ofInt 0
  modelRatio := modelRatio
  groupRatio := groupRatio

end RealtimeUsage

section

variable {F : Type} [Float64 F] (cfg : RealtimeSettings F)

/-- The ratio of the user's group to the group in use. -/
def handleGroupRatio (req : RealtimeRequest) : F :=
  let usingGroup := req.autoGroup.getD req.usingGroup
  (cfg.groupGroupRatio req.userGroup usingGroup).getD (cfg.groupRatio usingGroup)

def modelPriceHelper (req : RealtimeRequest) (promptTokens : ℤ) (tokenMeta : TokenCountMeta F) :
    Except NewAPIError (PriceData F) :=
  let groupRatio := handleGroupRatio cfg req
  let price : PriceData F :=
    { freeModel := false
      modelPrice := Float64.ofInt (-1)
      modelRatio := Float64.ofInt 0
      completionRatio := Float64.ofInt 0
      cacheRatio := Float64.ofInt 0
      cacheCreationRatio := Float64.ofInt 0
      cacheCreation5mRatio := Float64.ofInt 0
      cacheCreation1hRatio := Float64.ofInt 0
      imageRatio := Float64.ofInt 0
      otherRatios := []
      usePrice := false
      quotaToPreConsume := 0
      groupRatio := groupRatio }
  match cfg.modelPrice req.originModelName with
  | none =>
      let preConsumedTokens := max promptTokens cfg.preConsumedQuota
      let preConsumedTokens :=
        if tokenMeta.maxTokens ≠ 0 then preConsumedTokens + tokenMeta.maxTokens
        else preConsumedTokens
      let (modelRatio, success, matchName) := cfg.modelRatio req.originModelName
      if !success && !req.acceptUnsetRatioModel then
        .error (NewAPIError.newError
          ("模型 " ++ matchName ++ " 倍率或价格未配置，请联系管理员设置或开始自用模式；Model " ++ matchName ++
            " ratio or price not set, please set or start self-use mode") "model_price_error")
      else
        let cacheCreationRatio := cfg.createCacheRatio req.originModelName
        let free := !cfg.enableFreeModelPreConsume &&
          (Float64.eq groupRatio (Float64.ofInt 0) || Float64.eq modelRatio (Float64.ofInt 0))
        .ok
          { price with
            freeModel := free
            modelRatio := modelRatio
            completionRatio := cfg.completionRatio req.originModelName
            cacheRatio := cfg.cacheRatio req.originModelName
            cacheCreationRatio := cacheCreationRatio
            cacheCreation5mRatio := cacheCreationRatio
            cacheCreation1hRatio := cacheCreationRatio * (Float64.ofInt 8 / Float64.ofInt 5)
            imageRatio := cfg.imageRatio req.originModelName
            quotaToPreConsume :=
              if free then 0
              else
                Float64.toInt (Float64.ofInt preConsumedTokens * (modelRatio * groupRatio)) }
  | some modelPrice =>
      let modelPrice :=
        if Float64.eq tokenMeta.imagePriceRatio (Float64.ofInt 0) then modelPrice
        else modelPrice * tokenMeta.imagePriceRatio
      let free := !cfg.enableFreeModelPreConsume &&
        (Float64.eq groupRatio (Float64.ofInt 0) || Float64.eq modelPrice (Float64.ofInt 0))
      .ok
        { price with
          freeModel := free
          modelPrice := modelPrice
          usePrice := true
          quotaToPreConsume :=
            if free then 0 else Float64.toInt (modelPrice * cfg.quotaPerUnit * groupRatio) }

/-! ## The session -/

/-- What a debit reads: the user's quota, and of the token whether it is unlimited and its remaining
quota. -/
structure WssFunds where
  userQuota : Except String ℤ
  token : Except String (Bool × ℤ)

/-- The group ratio of a debit. -/
def actualGroupRatio (req : RealtimeRequest) : F :=
  let (groupRatio, usingGroup) :=
    match req.autoGroup with
    | some autoGroup => (cfg.groupRatio autoGroup, autoGroup)
    | none => (cfg.groupRatio req.usingGroup, req.usingGroup)
  (cfg.groupGroupRatio req.userGroup usingGroup).getD groupRatio

/-- Debit the usage of one response. -/
def preWssConsumeQuota (req : RealtimeRequest) (s : RelayState F) (funds : WssFunds)
    (usage : RealtimeUsage) : RelayState F × Option String :=
  if req.usePrice then (s, none)
  else
    match funds.userQuota with
    | .error err => (s, some err)
    | .ok userQuota =>
        match funds.token with
        | .error err => (s, some err)
        | .ok (unlimitedQuota, remainQuota) =>
            let modelRatio := (cfg.modelRatio req.originModelName).1
            let quota := calculateAudioQuota cfg.toPriceSettings
              (usage.quotaInfo req.originModelName req.usePrice modelRatio
                (actualGroupRatio cfg req))
            if userQuota < quota then
              (s, some ("user quota is not enough, user quota: " ++ cfg.formatQuota userQuota ++
                ", need quota: " ++ cfg.formatQuota quota))
            else if !unlimitedQuota && remainQuota < quota then
              (s, some ("token quota is not enough, token remain quota: " ++
                cfg.formatQuota remainQuota ++ ", need quota: " ++ cfg.formatQuota quota))
            else
              let (db, err) := s.db.postConsumeQuota s.info.toPayer quota
              ({ s with db := db }, err)

/-- A running session.  `usage` collects what the upstream reports until it is debited,
`localUsage` what the gateway counts itself, and `charges` counts the calls of
`preConsumeUsage`. -/
structure RealtimeState (F : Type) where
  relay : RelayState F
  usage : RealtimeUsage
  localUsage : RealtimeUsage
  sumUsage : RealtimeUsage
  charges : ℕ

/-- A message of the client, with its tokens; a message of the upstream that is no `response.done`;
a `response.done` with its usage, or with the tokens counted for it.  A message that cannot be
counted or passed on ends the session with an error. -/
inductive RealtimeEvent where
  | client (textToken audioToken : ℤ)
  | server (textToken audioToken : ℤ)
  | responseDone (realtimeUsage : Option RealtimeUsage) (textToken audioToken : ℤ)
      (funds : WssFunds)

def preConsumeUsage (req : RealtimeRequest) (s : RealtimeState F) (funds : WssFunds)
    (usage : RealtimeUsage) : RealtimeState F × Option String :=
  let (relay, err) := preWssConsumeQuota cfg req s.relay funds usage
  ({ s with relay := relay, sumUsage := s.sumUsage + usage, charges := s.charges + 1 }, err)

namespace RealtimeState

/-- One message; `none` when its usage cannot be debited, which ends the session with an error. -/
def step (req : RealtimeRequest) (s : RealtimeState F) : RealtimeEvent → Option (RealtimeState F)
  | .client textToken audioToken =>
      some { s with localUsage := s.localUsage.addInput textToken audioToken }
  | .server textToken audioToken =>
      some { s with localUsage := s.localUsage.addOutput textToken audioToken }
  | .responseDone (some realtimeUsage) _ _ funds =>
      match preConsumeUsage cfg req s funds (s.usage + realtimeUsage) with
      | (_, some _) => none
      | (s, none) => some { s with usage := 0, localUsage := 0 }
  | .responseDone none textToken audioToken funds =>
      match preConsumeUsage cfg req s funds (s.localUsage.addInput textToken audioToken) with
      | (_, some _) => none
      | (s, none) => some { s with localUsage := 0 }

/-- A connection was closed: the remaining usages are debited, whether or not that succeeds. -/
def close (req : RealtimeRequest) (s : RealtimeState F) (usageFunds localFunds : WssFunds) :
    RealtimeState F :=
  let s :=
    if s.usage.totalTokens ≠ 0 then (preConsumeUsage cfg req s usageFunds s.usage).1 else s
  if s.localUsage.totalTokens ≠ 0 then (preConsumeUsage cfg req s localFunds s.localUsage).1 else s

def start (relay : RelayState F) : RealtimeState F where
  relay := relay
  usage := 0
  localUsage := 0
  sumUsage := 0
  charges := 0

end RealtimeState

/-- The messages of a session. -/
def realtimeSession (req : RealtimeRequest) : System (RealtimeState F) RealtimeEvent where
  step := RealtimeState.step cfg req

/-- Record the quota of the summed usage. -/
def postWssConsumeQuota (s : RelayState F) (modelName : String) (usage : RealtimeUsage) :
    RelayState F :=
  let price := s.info.priceData
  let quota :=
    if usage.totalTokens = 0 then 0
    else
      calculateAudioQuota cfg.toPriceSettings
        (usage.quotaInfo modelName price.usePrice price.modelRatio price.groupRatio)
  let db :=
    if usage.totalTokens = 0 then s.db
    else
      (s.db.updateUserUsedQuotaAndRequestCount s.info.userId quota 1).updateChannelUsedQuota
        s.info.channelId quota
  { s with db := db, trace := s.trace ++ [.consumed quota] }

/-- `WssHelper` on a connection that ends normally.  `InitChannelMeta` sets `UpstreamModelName` to
the model of the request. -/
def wssHelper (req : RealtimeRequest) (relay : RelayState F) (events : List RealtimeEvent)
    (usageFunds localFunds : WssFunds) : Option (RealtimeState F) := do
  let s ← (realtimeSession cfg req).run (.start relay) events
  let s := s.close cfg req usageFunds localFunds
  some { s with relay := postWssConsumeQuota cfg s.relay req.originModelName s.sumUsage }

/-- `Relay` from the priced request to the channel that opens the session. -/
def admitRealtime (adm : Admission) (db : DB) (info : RelayInfo F) (price : PriceData F) :
    Except NewAPIError (RelayState F) :=
  let relay : RelayState F :=
    { db := db
      info := { info with priceData := price, finalPreConsumedQuota := 0 }
      trace := []
      refunds := [] }
  if price.freeModel then .ok relay
  else preConsumeQuota cfg.toRelaySettings relay adm price.quotaToPreConsume

/-- `getChannel` selects a channel, perhaps of another group, and refreshes the group ratio. -/
def selectGroup (req : RealtimeRequest) (relay : RelayState F) : RelayState F :=
  { relay with
    info :=
      { relay.info with
        priceData := { relay.info.priceData with groupRatio := handleGroupRatio cfg req } } }

end

end NewApi.Model
