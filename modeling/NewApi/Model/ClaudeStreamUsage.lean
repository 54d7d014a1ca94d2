import NewApi.Model.ClaudeToOpenAI

/-!
# The usage of a Claude stream

`ClaudeStreamHandler` reads a stream to its end, or to where it was cut, and returns the usage
that is billed; `HandleClaudeResponseData` does it for a whole message.  A stream without a
`message_delta` is billed by an estimate of the text seen, and the estimate starts from an empty
usage with the prompt tokens only.
-/

namespace NewApi.Model

open NewApi.Lib NewApi.Lib.Strings

variable {F : Type}

/-- The formats of the clients of a Claude upstream. -/
inductive ClaudeRelayFormat
  | openAI
  | claude
deriving DecidableEq

/-- `relaycommon.RelayInfo`, as far as the handlers of a stream read it. -/
structure ClaudeRelayInfo where
  relayFormat : ClaudeRelayFormat
  upstreamModelName : String
  shouldIncludeUsage : Bool
deriving DecidableEq

/-- What a client is sent: the event itself, or a chunk. -/
inductive ClaudeSent (F : Type)
  | event (event : ClaudeEvent)
  | chunk (chunk : ChatCompletionsStreamResponse F)

/-- `HandleStreamResponseData`.  For a Claude client the model of the message replaces that of
the request. -/
def handleClaudeStreamData (info : ClaudeRelayInfo) (claudeInfo : ClaudeResponseInfo F)
    (event : ClaudeEvent) :
    Except NewAPIError (List (ClaudeSent F) × ClaudeRelayInfo × ClaudeResponseInfo F) :=
  match info.relayFormat with
  | .openAI =>
      match handleStreamResponseData claudeInfo event with
      | .error err => .error err
      | .ok (chunk, claudeInfo) => .ok (chunk.toList.map .chunk, info, claudeInfo)
  | .claude =>
      let claudeInfo := (formatClaudeResponseInfo claudeInfo event).2
      match event with
      | .error claudeError =>
          if claudeError.type ≠ "" then .error (.withClaudeError claudeError 500)
          else .ok ([.event event], info, claudeInfo)
      | .messageStart _ model _ =>
          .ok ([.event event], { info with upstreamModelName := model }, claudeInfo)
      | _ => .ok ([.event event], info, claudeInfo)

/-- The loop of `StreamScannerHandler` over the events that arrive. -/
def scanClaudeStream : ClaudeRelayInfo → ClaudeResponseInfo F → List ClaudeEvent →
    Except NewAPIError (List (ClaudeSent F) × ClaudeRelayInfo × ClaudeResponseInfo F)
  | info, claudeInfo, [] => .ok ([], info, claudeInfo)
  | info, claudeInfo, event :: events =>
      match handleClaudeStreamData info claudeInfo event with
      | .error err => .error err
      | .ok (sent, info, claudeInfo) =>
          match scanClaudeStream info claudeInfo events with
          | .error err => .error err
          | .ok (rest, info, claudeInfo) => .ok (sent ++ rest, info, claudeInfo)

section Handlers

variable (estimateTokenByModel : String → String → ℤ)

def responseText2Usage (responseText modelName : String) (promptTokens : ℤ) : Usage F :=
  let completionTokens := estimateTokenByModel modelName responseText
  { Usage.empty with
    promptTokens := promptTokens
    completionTokens := completionTokens
    totalTokens := promptTokens + completionTokens }

/-- `GenerateFinalUsageResponse`. -/
def generateFinalUsageResponse (id model : String) (usage : Usage F) :
    ChatCompletionsStreamResponse F where
  id := id
  model := model
  choices := []
  usage := some usage

/-- `HandleStreamFinalResponse`: what is still sent, and the usage. -/
def handleStreamFinalResponse (info : ClaudeRelayInfo) (claudeInfo : ClaudeResponseInfo F) :
    List (ClaudeSent F) × Usage F :=
  let usage :=
    if claudeInfo.usage.completionTokens = 0 ∨ ¬ claudeInfo.done then
      responseText2Usage estimateTokenByModel claudeInfo.responseText info.upstreamModelName
        claudeInfo.usage.promptTokens
    else claudeInfo.usage
  (match info.relayFormat with
    | .claude => []
    | .openAI =>
        if info.shouldIncludeUsage then
          [.chunk (generateFinalUsageResponse claudeInfo.responseId info.upstreamModelName usage)]
        else [],
    usage)

def claudeStreamHandler (info : ClaudeRelayInfo) (responseId : String)
    (events : List ClaudeEvent) : Except NewAPIError (List (ClaudeSent F) × Usage F) :=
  match scanClaudeStream info (.initial responseId info.upstreamModelName) events with
  | .error err => .error err
  | .ok (sent, info, claudeInfo) =>
      let (last, usage) := handleStreamFinalResponse estimateTokenByModel info claudeInfo
      .ok (sent ++ last, usage)

end Handlers

/-- `HandleClaudeResponseData` for an OpenAI client; a Claude client gets the message itself, and
its usage is the same. -/
def handleClaudeResponseData (message : ClaudeMessage) : OpenAITextResponse F :=
  { (responseClaude2OpenAI message : OpenAITextResponse F) with
    usage :=
      { Usage.empty with
        promptTokens := message.usage.inputTokens
        completionTokens := message.usage.outputTokens
        totalTokens := message.usage.inputTokens + message.usage.outputTokens
        cachedTokens := message.usage.cacheReadInputTokens
        cachedCreationTokens := message.usage.cacheCreationInputTokens
        claudeCacheCreation5mTokens := message.usage.getCacheCreation5mTokens
        claudeCacheCreation1hTokens := message.usage.getCacheCreation1hTokens } }

/-! ## What is recorded of a stream -/

namespace ClaudeEvent

/-- The event reports token counts. -/
def Counts : ClaudeEvent → Prop
  | .messageStart _ _ _ | .messageDelta _ _ => True
  | _ => False

/-- The text that an event carries. -/
def seenText : ClaudeEvent → String
  | .contentBlockDelta _ (.textDelta text) => text
  | .contentBlockDelta _ (.thinkingDelta thinking) => thinking
  | _ => ""

end ClaudeEvent

/-- The text that a stream has carried so far. -/
def seenText (events : List ClaudeEvent) : String :=
  concat (events.map ClaudeEvent.seenText)

/-- The relay info after an event. -/
def ClaudeRelayInfo.after (info : ClaudeRelayInfo) : ClaudeEvent → ClaudeRelayInfo
  | .messageStart _ model _ =>
      match info.relayFormat with
      | .openAI => info
      | .claude => { info with upstreamModelName := model }
  | _ => info

section Record

variable (info : ClaudeRelayInfo) (claudeInfo : ClaudeResponseInfo F) {event : ClaudeEvent}
  {events : List ClaudeEvent}

theorem handleClaudeStreamData_eq (herror : ∀ err, event ≠ .error err) :
    ∃ sent, handleClaudeStreamData info claudeInfo event =
      .ok (sent, info.after event, (formatClaudeResponseInfo claudeInfo event).2) := by
  cases hformat : info.relayFormat with
  | openAI =>
      obtain ⟨chunk, hchunk, -⟩ := handleStreamResponseData_eq claudeInfo herror
      refine ⟨chunk.toList.map .chunk, ?_⟩
      rw [handleClaudeStreamData, hformat, hchunk]
      cases event with
      | messageStart id model usage => rw [ClaudeRelayInfo.after, hformat]
      | _ => rfl
  | claude =>
      refine ⟨[.event event], ?_⟩
      rw [handleClaudeStreamData, hformat]
      cases event with
      | messageStart id model usage => rw [ClaudeRelayInfo.after, hformat]
      | error err => exact absurd rfl (herror err)
      | _ => rfl

theorem scanClaudeStream_eq (herror : ∀ event ∈ events, ∀ err, event ≠ .error err) :
    ∃ sent, scanClaudeStream info claudeInfo events =
      .ok (sent, events.foldl ClaudeRelayInfo.after info, recordEvents claudeInfo events) := by
  induction events generalizing info claudeInfo with
  | nil => exact ⟨[], rfl⟩
  | cons event events ih =>
      rw [List.forall_mem_cons] at herror
      obtain ⟨sent, hsent⟩ := handleClaudeStreamData_eq info claudeInfo herror.1
      obtain ⟨rest, hrest⟩ := ih (info.after event) (formatClaudeResponseInfo claudeInfo event).2
        herror.2
      refine ⟨sent ++ rest, ?_⟩
      rw [scanClaudeStream, hsent]
      simp only
      rw [hrest]
      rfl

theorem claudeStreamHandler_eq (estimateTokenByModel : String → String → ℤ)
    (responseId : String) (herror : ∀ event ∈ events, ∀ err, event ≠ .error err) :
    ∃ sent, claudeStreamHandler estimateTokenByModel info responseId events =
      .ok (sent, (handleStreamFinalResponse estimateTokenByModel
        (events.foldl ClaudeRelayInfo.after info)
        (recordEvents (.initial responseId info.upstreamModelName : ClaudeResponseInfo F)
          events)).2) := by
  obtain ⟨sent, hsent⟩ := scanClaudeStream_eq info
    (.initial responseId info.upstreamModelName : ClaudeResponseInfo F) herror
  exact ⟨_, by rw [claudeStreamHandler, hsent]⟩

section FinalUsage

variable (estimateTokenByModel : String → String → ℤ) {claudeInfo : ClaudeResponseInfo F}

theorem finalUsage_of_incomplete
    (hincomplete : claudeInfo.usage.completionTokens = 0 ∨ ¬ claudeInfo.done) :
    (handleStreamFinalResponse estimateTokenByModel info claudeInfo).2 =
      responseText2Usage estimateTokenByModel claudeInfo.responseText info.upstreamModelName
        claudeInfo.usage.promptTokens :=
  if_pos hincomplete

theorem finalUsage_of_complete (hcompletion : claudeInfo.usage.completionTokens ≠ 0)
    (hdone : claudeInfo.done = true) :
    (handleStreamFinalResponse estimateTokenByModel info claudeInfo).2 = claudeInfo.usage :=
  if_neg fun hincomplete => hincomplete.elim hcompletion fun hnot => hnot hdone

end FinalUsage

/-- Events that tell nothing change nothing. -/
theorem foldl_tells {σ : Type} {step : σ → ClaudeEvent → σ}
    (hother : ∀ state type, step state (.other type) = state) (state : σ) :
    events.foldl step state = (events.filter fun event => event.Tells).foldl step state := by
  induction events generalizing state with
  | nil => rfl
  | cons event events ih =>
      rcases event.tells_or_other with htells | ⟨type, rfl⟩
      · rw [filter_tells_cons htells, List.foldl_cons, List.foldl_cons, ih]
      · rw [filter_tells_other, List.foldl_cons, hother, ih]

theorem seenText_tells :
    seenText events = seenText (events.filter fun event => event.Tells) := by
  induction events with
  | nil => rfl
  | cons event events ih =>
      rw [seenText, List.map_cons, concat_cons, ← seenText, ih]
      rcases event.tells_or_other with htells | ⟨type, rfl⟩
      · rw [filter_tells_cons htells]
        rfl
      · rw [filter_tells_other]
        exact String.empty_append

theorem seenText_append (before after : List ClaudeEvent) :
    seenText (before ++ after) = seenText before ++ seenText after := by
  rw [seenText, List.map_append, concat_append, seenText, seenText]

/-- Between the counts a stream only adds to the text. -/
theorem recordEvents_of_not_counts (hquiet : ∀ event ∈ events, ¬ event.Counts) :
    recordEvents claudeInfo events =
      { claudeInfo with responseText := claudeInfo.responseText ++ seenText events } := by
  induction events generalizing claudeInfo with
  | nil =>
      show claudeInfo = { claudeInfo with responseText := claudeInfo.responseText ++ "" }
      rw [String.append_empty]
  | cons event events ih =>
      rw [List.forall_mem_cons] at hquiet
      have hevent : (formatClaudeResponseInfo claudeInfo event).2 =
          { claudeInfo with responseText := claudeInfo.responseText ++ event.seenText } := by
        cases event with
        | messageStart id model usage => exact absurd trivial hquiet.1
        | messageDelta stopReason usage => exact absurd trivial hquiet.1
        | contentBlockDelta index delta =>
            cases delta <;>
              simp [formatClaudeResponseInfo, ClaudeEvent.seenText]
        | _ => simp [formatClaudeResponseInfo, ClaudeEvent.seenText]
      show recordEvents (formatClaudeResponseInfo claudeInfo event).2 events = _
      rw [hevent, ih _ hquiet.2]
      show ({ claudeInfo with
        responseText := claudeInfo.responseText ++ event.seenText ++ seenText events } :
          ClaudeResponseInfo F) = _
      rw [String.append_assoc]
      rfl

theorem foldl_after_of_not_counts (hquiet : ∀ event ∈ events, ¬ event.Counts) :
    events.foldl ClaudeRelayInfo.after info = info := by
  induction events with
  | nil => rfl
  | cons event events ih =>
      rw [List.forall_mem_cons] at hquiet
      have hevent : info.after event = info := by
        cases event with
        | messageStart id model usage => exact absurd trivial hquiet.1
        | _ => rfl
      rw [List.foldl_cons, hevent, ih hquiet.2]

end Record

/-! ## Streams that report counts -/

/-- A well-formed stream that reports the counts of the message: those of the input at its start,
that of the output at its end, where the input tokens may be repeated. -/
structure Reports (events : List ClaudeEvent) (message : ClaudeMessage)
    (pieces : List StreamedBlock) (start last : ClaudeUsage) : Prop where
  content : pieces.map StreamedBlock.block = message.content
  events : events.filter (fun event => event.Tells) =
    .messageStart message.id message.model start :: blockEvents 0 pieces ++
      [.messageDelta (some message.stopReason) last, .messageStop]
  input : start.inputTokens = message.usage.inputTokens
  cacheRead : start.cacheReadInputTokens = message.usage.cacheReadInputTokens
  cacheCreationInput :
    start.cacheCreationInputTokens = message.usage.cacheCreationInputTokens
  cacheCreation : start.cacheCreation = message.usage.cacheCreation
  output : last.outputTokens = message.usage.outputTokens
  repeated : last.inputTokens = 0 ∨ last.inputTokens = message.usage.inputTokens

/-- The counts that are billed are the same. -/
structure SameCounts (usage usage' : Usage F) : Prop where
  promptTokens : usage.promptTokens = usage'.promptTokens
  completionTokens : usage.completionTokens = usage'.completionTokens
  totalTokens : usage.totalTokens = usage'.totalTokens
  cachedTokens : usage.cachedTokens = usage'.cachedTokens
  cachedCreationTokens : usage.cachedCreationTokens = usage'.cachedCreationTokens
  cacheCreation5m :
    usage.claudeCacheCreation5mTokens = usage'.claudeCacheCreation5mTokens
  cacheCreation1h :
    usage.claudeCacheCreation1hTokens = usage'.claudeCacheCreation1hTokens

/-- The usage still has the counts of the start of the stream. -/
structure CarriesStart (usage : Usage F) (start : ClaudeUsage) : Prop where
  promptTokens : usage.promptTokens = start.inputTokens
  cachedTokens : usage.cachedTokens = start.cacheReadInputTokens
  cachedCreationTokens : usage.cachedCreationTokens = start.cacheCreationInputTokens
  cacheCreation5m : usage.claudeCacheCreation5mTokens = start.getCacheCreation5mTokens
  cacheCreation1h : usage.claudeCacheCreation1hTokens = start.getCacheCreation1hTokens

/-- Nothing was read from the cache or written to it. -/
structure ClaudeUsage.Uncached (usage : ClaudeUsage) : Prop where
  cacheRead : usage.cacheReadInputTokens = 0
  cacheCreation : usage.cacheCreationInputTokens = 0
  cacheCreation5m : usage.getCacheCreation5mTokens = 0
  cacheCreation1h : usage.getCacheCreation1hTokens = 0

theorem not_counts_blockEvents {event : ClaudeEvent} {index : ℕ} {pieces : List StreamedBlock}
    (hmem : event ∈ blockEvents index pieces) : ¬ event.Counts := by
  obtain ⟨i, ⟨block, rfl⟩ | ⟨delta, rfl⟩ | rfl⟩ := mem_blockEvents hmem <;> exact not_false

section Cut

variable {events before : List ClaudeEvent} {message : ClaudeMessage}
  {pieces : List StreamedBlock} {start last : ClaudeUsage}
  (estimateTokenByModel : String → String → ℤ) (info : ClaudeRelayInfo) (responseId : String)

/-- The counts that an estimate keeps are those of an uncached start. -/
theorem carriesStart_estimate {text model : String} :
    CarriesStart (responseText2Usage estimateTokenByModel text model start.inputTokens : Usage F)
      start ↔ start.Uncached := by
  constructor
  · rintro ⟨-, hcached, hcreation, h5m, h1h⟩
    exact ⟨hcached.symm, hcreation.symm, h5m.symm, h1h.symm⟩
  · rintro ⟨hcached, hcreation, h5m, h1h⟩
    exact ⟨rfl, hcached.symm, hcreation.symm, h5m.symm, h1h.symm⟩

namespace Reports

variable (hreports : Reports events message pieces start last)

include hreports

theorem streams : Streams events message pieces where
  content := hreports.content
  events := ⟨start, last, hreports.events⟩

/-- What arrives of a stream that is cut ends among the blocks, or after the counts. -/
theorem cut (hstarts : before <+: events)
    (hstart : .messageStart message.id message.model start ∈ before) :
    ∃ quiet, (∀ event ∈ quiet, ¬ event.Counts) ∧
      (before.filter (fun event => event.Tells) =
          .messageStart message.id message.model start :: quiet ∨
        ∃ stop, (∀ event ∈ stop, event = .messageStop) ∧
          before.filter (fun event => event.Tells) =
            .messageStart message.id message.model start :: quiet ++
              .messageDelta (some message.stopReason) last :: stop) := by
  obtain ⟨after, rfl⟩ := hstarts
  have hevents := hreports.events
  rw [List.filter_append] at hevents
  have hmem : ClaudeEvent.messageStart message.id message.model start ∈
      before.filter fun event => event.Tells :=
    List.mem_filter.2 ⟨hstart, decide_eq_true trivial⟩
  cases hbefore : before.filter fun event => event.Tells with
  | nil =>
      rw [hbefore] at hmem
      cases hmem
  | cons first rest =>
      rw [hbefore, List.cons_append, List.cons_append] at hevents
      obtain ⟨rfl, hrest⟩ := List.cons.inj hevents
      have hquiet : ∀ event ∈ blockEvents 0 pieces, ¬ event.Counts :=
        fun event => not_counts_blockEvents
      -- Either the blocks go on after the cut, or the cut is behind them.
      obtain ⟨more, hmore, -⟩ | ⟨more, hmore, hlast⟩ := List.append_eq_append_iff.1 hrest
      · refine ⟨rest, fun event hevent => hquiet event ?_, .inl rfl⟩
        rw [hmore]
        exact List.mem_append_left more hevent
      · cases more with
        | nil =>
            refine ⟨rest, fun event hevent => hquiet event ?_, .inl rfl⟩
            rw [hmore, List.append_nil] at hevent
            exact hevent
        | cons delta stop =>
            obtain ⟨rfl, hstop⟩ := List.cons.inj hlast
            refine ⟨_, hquiet, .inr ⟨stop, fun event hevent => ?_, by rw [hmore]; rfl⟩⟩
            exact List.mem_singleton.1 (hstop ▸ List.mem_append_left _ hevent)

theorem not_error_of_starts (hstarts : before <+: events) :
    ∀ event ∈ before, ∀ err, event ≠ .error err :=
  fun _ hmem err => hreports.streams.not_error (hstarts.subset hmem) err

/-- A stream that ends before the counts is billed by the text seen, with no cache. -/
theorem claudeStreamHandler_of_quiet (hstarts : before <+: events) {quiet : List ClaudeEvent}
    (hquiet : ∀ event ∈ quiet, ¬ event.Counts)
    (hbefore : before.filter (fun event => event.Tells) =
      .messageStart message.id message.model start :: quiet) :
    ∃ sent, claudeStreamHandler estimateTokenByModel info responseId before =
      .ok (sent, (responseText2Usage estimateTokenByModel (seenText before)
        (info.after (.messageStart message.id message.model start)).upstreamModelName
        start.inputTokens : Usage F)) := by
  let claudeInfo : ClaudeResponseInfo F := .initial responseId info.upstreamModelName
  have hinfo : before.foldl ClaudeRelayInfo.after info =
      info.after (.messageStart message.id message.model start) := by
    rw [foldl_tells fun _ _ => rfl, hbefore, List.foldl_cons, foldl_after_of_not_counts _ hquiet]
  have hrecord : recordEvents claudeInfo before = recordEvents
      (formatClaudeResponseInfo claudeInfo
        (.messageStart message.id message.model start)).2 quiet := by
    rw [recordEvents, foldl_tells fun _ _ => rfl, hbefore]
    rfl
  have htext : seenText before = "" ++ seenText quiet := by
    rw [seenText_tells, hbefore]
    rfl
  obtain ⟨sent, hsent⟩ := claudeStreamHandler_eq info estimateTokenByModel responseId
    (hreports.not_error_of_starts hstarts)
  refine ⟨sent, ?_⟩
  rw [hsent, hinfo, hrecord, recordEvents_of_not_counts _ hquiet,
    finalUsage_of_incomplete _ _ (.inr Bool.false_ne_true), htext]
  rfl

/-- With the counts a stream is billed as its message, unless the output count is zero. -/
theorem claudeStreamHandler_of_counts (hstarts : before <+: events)
    {quiet stop : List ClaudeEvent} (hquiet : ∀ event ∈ quiet, ¬ event.Counts)
    (hstop : ∀ event ∈ stop, event = .messageStop)
    (hbefore : before.filter (fun event => event.Tells) =
      .messageStart message.id message.model start :: quiet ++
        .messageDelta (some message.stopReason) last :: stop) :
    ∃ sent, claudeStreamHandler estimateTokenByModel info responseId before =
      .ok (sent, if message.usage.outputTokens = 0 then
          (responseText2Usage estimateTokenByModel (seenText before)
            (info.after (.messageStart message.id message.model start)).upstreamModelName
            message.usage.inputTokens : Usage F)
        else (handleClaudeResponseData message).usage) := by
  let claudeInfo : ClaudeResponseInfo F := .initial responseId info.upstreamModelName
  have hstopQuiet : ∀ event ∈ stop, ¬ event.Counts := by
    intro event hmem
    rw [hstop event hmem]
    exact not_false
  have hinfo : before.foldl ClaudeRelayInfo.after info =
      info.after (.messageStart message.id message.model start) := by
    rw [foldl_tells fun _ _ => rfl, hbefore, List.foldl_append, List.foldl_cons, List.foldl_cons,
      foldl_after_of_not_counts _ hquiet, foldl_after_of_not_counts _ hstopQuiet]
    rfl
  have hrecord : recordEvents claudeInfo before = recordEvents
      (formatClaudeResponseInfo
        (recordEvents (formatClaudeResponseInfo claudeInfo
          (.messageStart message.id message.model start)).2 quiet)
        (.messageDelta (some message.stopReason) last)).2 stop := by
    rw [recordEvents, foldl_tells fun _ _ => rfl, hbefore, List.foldl_append]
    rfl
  have htext : seenText before = "" ++ seenText quiet ++ seenText stop := by
    rw [seenText_tells, hbefore, seenText_append]
    show "" ++ seenText quiet ++ ("" ++ seenText stop) = _
    rw [String.empty_append (s := seenText stop)]
  have hprompt : (if 0 < last.inputTokens then last.inputTokens else start.inputTokens) =
      message.usage.inputTokens := by
    rw [hreports.input]
    rcases hreports.repeated with hzero | hsame
    · rw [hzero, if_neg (Int.lt_irrefl 0)]
    · rw [hsame, ite_self]
  obtain ⟨sent, hsent⟩ := claudeStreamHandler_eq info estimateTokenByModel responseId
    (hreports.not_error_of_starts hstarts)
  refine ⟨sent, ?_⟩
  rw [hsent, hinfo, hrecord, recordEvents_of_not_counts _ hquiet,
    recordEvents_of_not_counts _ hstopQuiet]
  by_cases hzero : message.usage.outputTokens = 0
  · rw [if_pos hzero, finalUsage_of_incomplete _ _ (.inl (hreports.output.trans hzero)), htext]
    simp only [formatClaudeResponseInfo, hprompt]
    rfl
  · rw [if_neg hzero, finalUsage_of_complete _ _
      (show last.outputTokens ≠ 0 from hreports.output ▸ hzero) rfl]
    simp only [formatClaudeResponseInfo, hprompt, hreports.output, handleClaudeResponseData,
      hreports.cacheRead, hreports.cacheCreationInput, ClaudeUsage.getCacheCreation5mTokens,
      ClaudeUsage.getCacheCreation1hTokens, hreports.cacheCreation]
    rfl

theorem carriesStart_message :
    CarriesStart (handleClaudeResponseData message : OpenAITextResponse F).usage start where
  promptTokens := hreports.input.symm
  cachedTokens := hreports.cacheRead.symm
  cachedCreationTokens := hreports.cacheCreationInput.symm
  cacheCreation5m := by
    rw [ClaudeUsage.getCacheCreation5mTokens, hreports.cacheCreation]
    rfl
  cacheCreation1h := by
    rw [ClaudeUsage.getCacheCreation1hTokens, hreports.cacheCreation]
    rfl

/-- A stream may be cut right after its start. -/
theorem exists_start : ∃ before, before <+: events ∧ before ≠ events ∧
    .messageStart message.id message.model start ∈ before ∧
    before.filter (fun event => event.Tells) = [.messageStart message.id message.model start] := by
  obtain ⟨others, rest, rfl, hothers, htells, hrest⟩ :=
    List.filter_eq_cons_iff.1 hreports.events
  refine ⟨others ++ [.messageStart message.id message.model start], ⟨rest, by simp⟩, ?_, by simp,
    ?_⟩
  · intro hsame
    rw [List.append_cancel_left_eq, List.cons.injEq] at hsame
    rw [← hsame.2] at hrest
    simp at hrest
  · rw [List.filter_append, List.filter_eq_nil_iff.2 hothers]
    rfl

/-- The usage of a stream is that of its message, and a stream that is cut keeps the counts of
its start, exactly when nothing was cached and the output count can tell that it is there. -/
theorem streamed_usage_iff :
    ((∃ sent, ∃ usage : Usage F,
        claudeStreamHandler estimateTokenByModel info responseId events = .ok (sent, usage) ∧
        SameCounts usage (handleClaudeResponseData message : OpenAITextResponse F).usage) ∧
      ∀ before, before <+: events → before ≠ events →
        .messageStart message.id message.model start ∈ before →
        ∃ sent, ∃ usage : Usage F,
          claudeStreamHandler estimateTokenByModel info responseId before = .ok (sent, usage) ∧
          CarriesStart usage start ∧
          ((∀ stopReason counts, .messageDelta stopReason counts ∉ before) →
            usage.completionTokens = estimateTokenByModel
              (info.after (.messageStart message.id message.model start)).upstreamModelName
              (seenText before))) ↔
      start.Uncached ∧ (message.usage.outputTokens ≠ 0 ∨
        estimateTokenByModel
          (info.after (.messageStart message.id message.model start)).upstreamModelName
          (seenText events) = 0) := by
  obtain ⟨sent, hsent⟩ := hreports.claudeStreamHandler_of_counts (F := F) estimateTokenByModel
    info responseId List.prefix_rfl (fun _ => not_counts_blockEvents)
    (fun _ => List.mem_singleton.1) hreports.events
  constructor
  · rintro ⟨⟨other, usage, hother, hsame⟩, hcuts⟩
    constructor
    · obtain ⟨before, hstarts, hproper, hstart, hbefore⟩ := hreports.exists_start
      obtain ⟨sent', usage', hcut, hcarries, -⟩ := hcuts before hstarts hproper hstart
      obtain ⟨sent'', hquiet⟩ := hreports.claudeStreamHandler_of_quiet (F := F)
        estimateTokenByModel info responseId hstarts
        (fun _ hmem => absurd hmem List.not_mem_nil) hbefore
      rw [hquiet, Except.ok.injEq, Prod.mk.injEq] at hcut
      rw [← hcut.2, carriesStart_estimate] at hcarries
      exact hcarries
    · rw [hsent, Except.ok.injEq, Prod.mk.injEq] at hother
      rw [← hother.2] at hsame
      by_cases hzero : message.usage.outputTokens = 0
      · rw [if_pos hzero] at hsame
        exact .inr (hsame.completionTokens.trans hzero)
      · exact .inl hzero
  · rintro ⟨huncached, houtput⟩
    constructor
    · refine ⟨sent, _, hsent, ?_⟩
      split
      case isTrue hzero =>
        have hestimate := houtput.resolve_left (not_not.2 hzero)
        have hcarries := hreports.carriesStart_message (F := F)
        obtain ⟨hcached, hcreation, h5m, h1h⟩ := huncached
        refine ⟨rfl, hestimate.trans hzero.symm, ?_, ?_, ?_, ?_, ?_⟩
        · show message.usage.inputTokens + _ = message.usage.inputTokens + _
          rw [hestimate, hzero]
        · rw [hcarries.cachedTokens, hcached]
          rfl
        · rw [hcarries.cachedCreationTokens, hcreation]
          rfl
        · rw [hcarries.cacheCreation5m, h5m]
          rfl
        · rw [hcarries.cacheCreation1h, h1h]
          rfl
      case isFalse => exact ⟨rfl, rfl, rfl, rfl, rfl, rfl, rfl⟩
    · intro before hstarts hproper hstart
      obtain ⟨quiet, hquiet, hbefore | ⟨stop, hstop, hbefore⟩⟩ := hreports.cut hstarts hstart
      · obtain ⟨sent', hcut⟩ := hreports.claudeStreamHandler_of_quiet (F := F)
          estimateTokenByModel info responseId hstarts hquiet hbefore
        exact ⟨sent', _, hcut, (carriesStart_estimate _).2 huncached, fun _ => rfl⟩
      · obtain ⟨sent', hcut⟩ := hreports.claudeStreamHandler_of_counts (F := F)
          estimateTokenByModel info responseId hstarts hquiet hstop hbefore
        have hdelta : .messageDelta (some message.stopReason) last ∈ before := by
          refine (List.mem_filter (p := fun event => decide event.Tells)).1 ?_ |>.1
          rw [hbefore]
          exact List.mem_append_right _ (List.mem_cons_self ..)
        refine ⟨sent', _, hcut, ?_, fun hnone => absurd hdelta (hnone _ _)⟩
        split
        case isTrue =>
          rw [← hreports.input]
          exact (carriesStart_estimate _).2 huncached
        case isFalse => exact hreports.carriesStart_message

end Reports

/-- A text of two pieces with a hundred tokens read from the cache. -/
def cachedPieces : List StreamedBlock :=
  [⟨.text "Hello there", [.textDelta "Hello ", .textDelta "there"], ["Hello ", "there"], rfl, rfl⟩]

def cachedMessage (cacheRead : ℤ) : ClaudeMessage where
  id := "msg_1"
  model := "claude"
  content := cachedPieces.map StreamedBlock.block
  stopReason := "end_turn"
  usage := ⟨10, 0, cacheRead, 5, none⟩

def cachedStream (cacheRead : ℤ) : List ClaudeEvent :=
  streamOf (cachedMessage cacheRead) cachedPieces ⟨10, 0, cacheRead, 1, none⟩ ⟨0, 0, 0, 5, none⟩

theorem reports_cachedStream (cacheRead : ℤ) :
    Reports (cachedStream cacheRead) (cachedMessage cacheRead) cachedPieces
      ⟨10, 0, cacheRead, 1, none⟩ ⟨0, 0, 0, 5, none⟩ where
  content := rfl
  events := rfl
  input := rfl
  cacheRead := rfl
  cacheCreationInput := rfl
  cacheCreation := rfl
  output := rfl
  repeated := .inl rfl

theorem streamed_usage_sample :
    let events := cachedStream 0
    let info : ClaudeRelayInfo := ⟨.openAI, "claude", true⟩
    (∃ sent, ∃ usage : Usage ℕ,
        claudeStreamHandler (fun _ text => text.length) info "id" events = .ok (sent, usage) ∧
        SameCounts usage
          (handleClaudeResponseData (cachedMessage 0) : OpenAITextResponse ℕ).usage) ∧
      ∀ before, before <+: events → before ≠ events →
        .messageStart "msg_1" "claude" ⟨10, 0, 0, 1, none⟩ ∈ before →
        ∃ sent, ∃ usage : Usage ℕ,
          claudeStreamHandler (fun _ text => text.length) info "id" before = .ok (sent, usage) ∧
          CarriesStart usage ⟨10, 0, 0, 1, none⟩ ∧
          ((∀ stopReason counts, .messageDelta stopReason counts ∉ before) →
            usage.completionTokens = (seenText before).length) :=
  ((reports_cachedStream 0).streamed_usage_iff _ _ _).2
    ⟨⟨rfl, rfl, rfl, rfl⟩, .inl (by decide)⟩

/-- A stream that is cut after its first piece is not billed for the cache. -/
theorem cut_stream_loses_cache :
    let events := cachedStream 100
    let info : ClaudeRelayInfo := ⟨.openAI, "claude", true⟩
    Reports events (cachedMessage 100) cachedPieces ⟨10, 0, 100, 1, none⟩ ⟨0, 0, 0, 5, none⟩ ∧
      ∃ sent, ∃ usage : Usage ℕ,
        claudeStreamHandler (fun _ text => text.length) info "id" (events.take 3) =
          .ok (sent, usage) ∧
        usage.promptTokens = 10 ∧ usage.completionTokens = 6 ∧ usage.cachedTokens = 0 ∧
        ¬ CarriesStart usage ⟨10, 0, 100, 1, none⟩ := by
  refine ⟨reports_cachedStream 100, _, _, rfl, by decide, by decide, by decide, ?_⟩
  intro hcarries
  have hcached := hcarries.cachedTokens
  revert hcached
  decide

end Cut

end NewApi.Model
