import NewApi.Model.AliImage
import NewApi.Model.ModelMapped
import NewApi.Model.SettledQuota

/-!
# What the attempts of a request share

The handlers of an attempt write into the relay info and the request context: the model name under
which the request is priced, ratios, counts of tool calls.  A later attempt finds what an earlier
one has left.  Only what belongs to the channel is set anew.
-/

namespace NewApi.Model

open NewApi.Lib NewApi.Lib.Strings

/-! ## What is recorded -/

def BuildInToolWebSearchPreview : String := "web_search_preview"

def BuildInToolFileSearch : String := "file_search"

def BuildInCallWebSearchCall : String := "web_search_call"

/-- What the helpers read of a request: the search context size of a chat; the built-in tools of a
Responses request; whether a Gemini request turns thinking off. -/
inductive RelayedKind
  | chat (searchContextSize : Option String)
  | responses (webSearchPreview : Option String) (fileSearch : Bool)
  | compaction
  | gemini (noThinking : Bool)
  | image
  | other

/-- What the handlers of the channels find of a request: whether they take the response for a stream,
and the numbers that they keep in the context, such as `coze_input_count`. -/
structure HandlerState where
  isStream : Bool
  counts : String → ℤ

/-- What the attempts of a request share. -/
structure SharedBilling (F : Type) where
  originModelName : String
  otherRatios : List (String × F)
  tools : ToolContext
  claudeWebSearchRequests : ℤ
  handlers : HandlerState

/-- The shared data of a new request, with the built-in tools that `GenRelayInfoResponses` finds. -/
def SharedBilling.start (F : Type) (kind : RelayedKind) (originModelName : String)
    (isStream : Bool) : SharedBilling F where
  originModelName := originModelName
  otherRatios := []
  tools :=
    { responsesUsageInfo :=
        match kind with
        | .responses webSearchPreview fileSearch =>
            some
              { webSearchPreview :=
                  webSearchPreview.map fun size => (0, if size = "" then "medium" else size)
                fileSearch := if fileSearch then some 0 else none }
        | _ => none
      chatCompletionWebSearchContextSize := ""
      imageGenerationCall := none }
  claudeWebSearchRequests := 0
  handlers :=
    { isStream := isStream
      counts := fun _ => 0 }

namespace ToolContext

/-- `CallCount++` of the built-in tool of a type, if the request has it. -/
def called (tools : ToolContext) (toolType : String) : ToolContext :=
  { tools with
    responsesUsageInfo :=
      tools.responsesUsageInfo.map fun info =>
        if toolType = BuildInToolWebSearchPreview then
          { info with webSearchPreview := info.webSearchPreview.map fun tool => (tool.1 + 1, tool.2) }
        else if toolType = BuildInToolFileSearch then
          { info with fileSearch := info.fileSearch.map fun callCount => callCount + 1 }
        else info }

/-- The quality and size of an image generation call, if the response has one. -/
def generated (tools : ToolContext) (call : Option (String × String)) : ToolContext :=
  match call with
  | some call => { tools with imageGenerationCall := some call }
  | none => tools

end ToolContext

/-- An event of a Responses stream, as far as tools are recorded from it. -/
inductive ResponsesToolEvent
  | completed (imageGenerationCall : Option (String × String))
  | outputItemDone (itemType : String)
  | other

/-- What a handler hands to a settlement. -/
inductive Served (F : Type)
  | text (usage : Option (Usage F))
  | claude (usage : Usage F)
  | audio (usage : Usage F)

/-- What an attempt meets: an error before any handler has recorded something, or a response. -/
inductive Upstream (F : Type)
  | failed (error : NewAPIError)
  | answered (served : Served F)
  | responses (imageGenerationCall : Option (String × String)) (tools : List String)
      (usage : Usage F)
  | responsesStream (events : List ResponsesToolEvent) (usage : Usage F)
  | claudeMessage (webSearchRequests : ℤ) (served : Served F)
  | aliImage (call : AliImageCall)

/-- The handlers of Responses and of image requests serve no other kind. -/
def Upstream.Fits {F : Type} (kind : RelayedKind) : Upstream F → Prop
  | .responses _ _ _ => ∃ webSearchPreview fileSearch, kind = .responses webSearchPreview fileSearch
  | .responsesStream _ _ => ∃ webSearchPreview fileSearch, kind = .responses webSearchPreview fileSearch
  | .aliImage _ => kind = .image
  | _ => True

/-- An attempt: how its channel is selected, the channel, the group that the context names, and by
what its handlers find: what it meets, whether its conversion or the `Content-Type` of its response
makes the request a stream, and the numbers that it leaves in the context. -/
structure HelperTurn (F : Type) (kind : RelayedKind) where
  selection : Selection
  channelId : ℕ
  channelType : ℤ
  autoGroup : Option String
  modelMapping : ModelMapping
  upstream : HandlerState → Upstream F
  streams : HandlerState → Bool
  counts : HandlerState → String → ℤ
  fits : ∀ found, (upstream found).Fits kind

/-- What the handlers leave: `IsStream` is never taken back. -/
def HelperTurn.leaves {F : Type} {kind : RelayedKind} (turn : HelperTurn F kind)
    (found : HandlerState) : HandlerState where
  isStream := found.isStream || turn.streams found
  counts := turn.counts found

/-- A priced request, with the settings that tell a synchronous image model. -/
structure RelayedRequest (F : Type) where
  kind : RelayedKind
  req : RealtimeRequest
  priceData : PriceData F
  estimatePromptTokens : ℤ
  isStream : Bool
  syncImageModels : List String

section

variable {F : Type} [Float64 F] (cfg : RealtimeSettings F)

/-- `ContainPriceOrRatio`. -/
def containPriceOrRatio (modelName : String) : Bool :=
  (cfg.modelPrice modelName).isSome || (cfg.modelRatio modelName).2.1

namespace RelayedKind

variable (kind : RelayedKind)

def isCompaction : Bool :=
  match kind with
  | .compaction => true
  | _ => false

/-- What the helper does to the names once it has mapped the model. -/
def namingMode : NamingMode :=
  match kind with
  | .compaction => .compaction
  | .gemini true => .noThinking (containPriceOrRatio cfg)
  | _ => .normal

/-- The names of the model once the helper has mapped it. -/
def named (mapping : ModelMapping) (originModelName : String) : Except NewAPIError MappedInfo :=
  match MappedInfo.mapped originModelName kind.isCompaction mapping with
  | .error err => .error (NewAPIError.newError err "channel:model_mapped_error").withSkipRetry
  | .ok names => .ok ((kind.namingMode cfg).handle names)

/-- The context once `TextHelper` has noted the search context size of the request. -/
def noted (tools : ToolContext) : ToolContext :=
  match kind with
  | .chat (some searchContextSize) =>
      { tools with chatCompletionWebSearchContextSize := searchContextSize }
  | _ => tools

end RelayedKind

namespace Upstream

variable (upstream : Upstream F)

/-- An image call under the names of the attempt. -/
def imageCall (call : AliImageCall) (names : MappedInfo) : AliImageCall :=
  { call with
    originModelName := names.originModelName
    upstreamModel := .ok names.upstreamModelName }

/-- The calls of `AddOtherRatio`. -/
def ratios (syncImageModels : List String) (names : MappedInfo) : List (String × F) :=
  match upstream with
  | .aliImage call => ((imageCall call names).imageHelper syncImageModels).1
  | _ => []

/-- What the handlers of a Responses request count. -/
def counted (tools : ToolContext) : ToolContext :=
  match upstream with
  | .responses imageGenerationCall toolTypes _ =>
      toolTypes.foldl ToolContext.called (tools.generated imageGenerationCall)
  | .responsesStream events _ =>
      events.foldl
        (fun tools event =>
          match event with
          | .completed imageGenerationCall => tools.generated imageGenerationCall
          | .outputItemDone itemType =>
              if itemType = BuildInCallWebSearchCall then tools.called BuildInToolWebSearchPreview
              else tools
          | .other => tools) tools
  | _ => tools

/-- `HandleClaudeResponseData` sets the web searches of a response that has some. -/
def searched (claudeWebSearchRequests : ℤ) : ℤ :=
  match upstream with
  | .claudeMessage webSearchRequests _ =>
      if 0 < webSearchRequests then webSearchRequests else claudeWebSearchRequests
  | _ => claudeWebSearchRequests

/-- What is settled.  `ResponsesHelper` settles an audio model by its audio tokens. -/
def served (syncImageModels : List String) (names : MappedInfo) : Except NewAPIError (Served F) :=
  let responses (usage : Usage F) : Served F :=
    if hasPrefix names.originModelName "gpt-4o-audio" then .audio usage else .text (some usage)
  match upstream with
  | .failed error => .error error
  | .answered served => .ok served
  | .responses _ _ usage => .ok (responses usage)
  | .responsesStream _ usage => .ok (responses usage)
  | .claudeMessage _ served => .ok served
  | .aliImage call =>
      ((imageCall call names).imageHelper syncImageModels).2.map fun usage => .text (some usage)

end Upstream

/-- The settlement of a served request. -/
def Served.settlement (tools : ToolContext) : Served F → Settlement F
  | .text usage => .postConsumeQuota usage tools
  | .claude usage => .postClaudeConsumeQuota usage
  | .audio usage => .postAudioConsumeQuota usage

/-- A compaction is always settled as text. -/
def Served.asText : Served F → Option (Usage F)
  | .text usage => usage
  | .claude usage => some usage
  | .audio usage => some usage

namespace RelayedRequest

variable (request : RelayedRequest F)

/-- The prices of an attempt, for the group that the context names. -/
def attemptPrice (turn : HelperTurn F request.kind) (otherRatios : List (String × F)) : PriceData F :=
  { request.priceData with
    otherRatios := otherRatios
    groupRatio := handleGroupRatio cfg { request.req with autoGroup := turn.autoGroup } }

/-- The prices that `ResponsesHelper` finds for a compaction once it has been answered. -/
def compactionPrice (turn : HelperTurn F request.kind) (originModelName : String) :
    Except NewAPIError (PriceData F) :=
  (modelPriceHelper cfg
    { request.req with originModelName := originModelName, autoGroup := turn.autoGroup }
    request.estimatePromptTokens ⟨0, Float64.ofInt 0⟩).mapError NewAPIError.withSkipRetry

/-- One attempt on the shared data. -/
def attempt (turn : HelperTurn F request.kind) (shared : SharedBilling F) : SharedBilling F × Attempt F :=
  let ended (shared : SharedBilling F) (price : PriceData F) (outcome : AttemptOutcome F) :
      SharedBilling F × Attempt F :=
    (shared,
      { selection := turn.selection
        channelId := turn.channelId
        channelType := turn.channelType
        priceData := price
        originModelName := shared.originModelName
        outcome := outcome })
  let shared := { shared with tools := request.kind.noted shared.tools }
  match request.kind.named cfg turn.modelMapping shared.originModelName with
  | .error error => ended shared (request.attemptPrice cfg turn shared.otherRatios) (.failed error)
  | .ok names =>
      let upstream := turn.upstream shared.handlers
      let shared : SharedBilling F :=
        { originModelName := names.originModelName
          otherRatios :=
            addOtherRatios shared.otherRatios (upstream.ratios request.syncImageModels names)
          tools := upstream.counted shared.tools
          claudeWebSearchRequests := upstream.searched shared.claudeWebSearchRequests
          handlers := turn.leaves shared.handlers }
      let price := request.attemptPrice cfg turn shared.otherRatios
      match upstream.served request.syncImageModels names with
      | .error error => ended shared price (.failed error)
      | .ok served =>
          if request.kind.isCompaction then
            match request.compactionPrice cfg turn names.originModelName with
            | .error error => ended shared price (.failed error)
            | .ok price =>
                ended shared price (.succeeded (.postConsumeQuota served.asText shared.tools))
          else ended shared price (.succeeded (served.settlement shared.tools))

/-- The shared data after some attempts. -/
def after (shared : SharedBilling F) (turns : List (HelperTurn F request.kind)) : SharedBilling F :=
  turns.foldl (fun shared turn => (request.attempt cfg turn shared).1) shared

/-- The attempts of a list of turns. -/
def attempts (shared : SharedBilling F) : List (HelperTurn F request.kind) → List (Attempt F)
  | [] => []
  | turn :: turns =>
      let (shared, attempt) := request.attempt cfg turn shared
      attempt :: attempts shared turns

/-- The shared data of the request before its first attempt. -/
def start : SharedBilling F :=
  .start F request.kind request.req.originModelName request.isStream

/-- The billing part of `Relay`, with attempts that share their data. -/
def relay (specificChannel refundFirst : Bool) (adm : Admission) (db : DB) (info : RelayInfo F)
    (turns : List (HelperTurn F request.kind)) : Option (Except NewAPIError (RelayState F)) :=
  Model.relay cfg.toRelaySettings specificChannel refundFirst adm db
    { info with
      priceData := request.priceData
      estimatePromptTokens := request.estimatePromptTokens }
    (request.attempts cfg request.start turns)

end RelayedRequest

end

end NewApi.Model
