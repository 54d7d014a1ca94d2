import NewApi.Model.OpenAIMessage

/-!
# An OpenAI stream for an OpenAI client

`OaiStreamHandler` sends every chunk as it is when the next one has come, and decides about the last
one at the end of the stream.  Without the usage in the answer of a client that did not ask for it,
the last chunk may have been sent for its usage alone; the handler looks at its text to tell.  The
client has the OpenAI format here, without force-format and thinking-to-content.
-/

namespace NewApi.Model

open NewApi.Lib

/-- `dto.ChatCompletionsStreamResponse` with what a final usage chunk takes over. -/
structure StreamResponse (F : Type) extends ChatCompletionsStreamResponse F where
  created : ℤ
  systemFingerprint : Option String

/-- A chunk of the stream is a text that is not empty. -/
abbrev StreamData :=
  { data : String // data ≠ "" }

/-- What the handler knows besides the stream: JSON as the DTOs read and write it, the usage that is
counted for the chunks, and the corrections of `applyUsagePostProcessing`. -/
structure OaiStreamSettings (F : Type) where
  shouldIncludeUsage : Bool
  upstreamModelName : String
  isAudioModel : Bool
  unmarshal : String → Option (StreamResponse F)
  unmarshalUsage : String → Option (Usage F)
  marshal : StreamResponse F → String
  responseText2Usage : List String → Usage F
  applyUsagePostProcessing : Usage F → String → Usage F

/-- The variables of the handler during the stream, and what the client has received. -/
structure OaiStreamState where
  lastStreamData : String
  secondLastStreamData : String
  streamItems : List String
  sent : List String

namespace OaiStreamState

def start : OaiStreamState where
  lastStreamData := ""
  secondLastStreamData := ""
  streamItems := []
  sent := []

/-- `sendStreamData` sends no empty data. -/
def sendStreamData (s : OaiStreamState) (data : String) : OaiStreamState :=
  if data = "" then s else { s with sent := s.sent ++ [data] }

/-- The handler of one chunk. -/
def handleData (isAudioModel : Bool) (s : OaiStreamState) (data : String) : OaiStreamState :=
  let s := if s.lastStreamData ≠ "" then s.sendStreamData s.lastStreamData else s
  if data ≠ "" then
    { s with
      secondLastStreamData :=
        if isAudioModel ∧ s.lastStreamData ≠ "" then s.lastStreamData else s.secondLastStreamData
      lastStreamData := data
      streamItems := s.streamItems ++ [data] }
  else s

end OaiStreamState

section

variable {F : Type}

def validUsage (usage : Option (Usage F)) : Bool :=
  usage.any fun usage => usage.promptTokens ≠ 0 || usage.completionTokens ≠ 0

/-- The variables that the end of the stream sets; `streamUsage` is there when
`containStreamUsage` is. -/
structure LastResponse (F : Type) where
  responseId : String
  createAt : ℤ
  systemFingerprint : String
  model : String
  streamUsage : Option (Usage F)
  shouldSendLastResp : Bool

/-- Some choice has a text. -/
def hasText (response : StreamResponse F) : Bool :=
  response.choices.any fun choice =>
    choice.delta.getContentString ≠ "" || choice.delta.getReasoningContent ≠ ""

/-- `GenerateFinalUsageResponse` with the fingerprint of the stream. -/
def LastResponse.generateFinalUsageResponse (r : LastResponse F) (usage : Usage F) :
    StreamResponse F where
  id := r.responseId
  model := r.model
  choices := []
  usage := some usage
  created := r.createAt
  systemFingerprint := some r.systemFingerprint

namespace OaiStreamSettings

variable (cfg : OaiStreamSettings F)

/-- An audio model has its usage in the last chunk but one. -/
def audioUsage (secondLastStreamData : String) : Option (Usage F) :=
  if cfg.isAudioModel ∧ secondLastStreamData ≠ "" then
    (cfg.unmarshalUsage secondLastStreamData).filter fun usage => validUsage (some usage)
  else none

def handleLastResponse (lastStreamData : String) (r : LastResponse F) : LastResponse F :=
  match cfg.unmarshal lastStreamData with
  | none => r
  | some lastStreamResponse =>
      let r : LastResponse F :=
        { r with
          responseId := lastStreamResponse.id
          createAt := lastStreamResponse.created
          systemFingerprint := lastStreamResponse.systemFingerprint.getD ""
          model := lastStreamResponse.model }
      if validUsage lastStreamResponse.usage then
        { r with
          streamUsage := lastStreamResponse.usage
          shouldSendLastResp :=
            if cfg.shouldIncludeUsage then r.shouldSendLastResp else hasText lastStreamResponse }
      else r

/-- `HandleFinalResponse`. -/
def handleFinalResponse (r : LastResponse F) (usage : Usage F) : List String :=
  (if cfg.shouldIncludeUsage ∧ r.streamUsage = none then
      [cfg.marshal (r.generateFinalUsageResponse usage)]
    else []) ++ ["[DONE]"]

/-- `OaiStreamHandler`: what the client receives, and the usage. -/
def oaiStreamHandler (stream : List String) : List String × Usage F :=
  let s := stream.foldl (OaiStreamState.handleData cfg.isAudioModel) .start
  let r := cfg.handleLastResponse s.lastStreamData
    { responseId := ""
      createAt := 0
      systemFingerprint := ""
      model := cfg.upstreamModelName
      streamUsage := cfg.audioUsage s.secondLastStreamData
      shouldSendLastResp := true }
  let sent := if r.shouldSendLastResp then s.sendStreamData s.lastStreamData else s
  let usage := r.streamUsage.getD (cfg.responseText2Usage s.streamItems)
  let usage := cfg.applyUsagePostProcessing usage s.lastStreamData
  (sent.sent ++ cfg.handleFinalResponse r usage, usage)

end OaiStreamSettings

/-- A chunk without content, reasoning, tool call and finish reason. -/
def Bare (response : StreamResponse F) : Prop :=
  ∀ choice ∈ response.choices,
    choice.delta.getContentString = "" ∧ choice.delta.reasoningContent.getD "" = "" ∧
      choice.delta.reasoning.getD "" = "" ∧ choice.delta.fragments = [] ∧
      choice.finishReason.getD "" = ""

/-- The client receives the chunks of the stream, at most one usage chunk and the marker.  A last
chunk that is bare may be missing when the client did not ask for the usage. -/
def PassesThrough (cfg : OaiStreamSettings F) (stream : List StreamData)
    (sent : List String) : Prop :=
  ∃ generated : List String,
    (generated.length ≤ 1 ∧ ∀ data ∈ generated, ∃ response usage,
        data = cfg.marshal response ∧ response.choices = [] ∧ response.usage = some usage) ∧
      (sent = stream.map Subtype.val ++ (generated ++ ["[DONE]"]) ∨
        cfg.shouldIncludeUsage = false ∧
          ∃ (earlier : List StreamData) (last : StreamData) (response : StreamResponse F),
            stream = earlier ++ [last] ∧ cfg.unmarshal last = some response ∧ Bare response ∧
            sent = earlier.map Subtype.val ++ (generated ++ ["[DONE]"]))

/-- A last chunk with a usage but no text that the handler sees has nothing else either, unless the
client asks for the usage. -/
def LastChunkTold (cfg : OaiStreamSettings F) (stream : List StreamData) : Prop :=
  ∀ last ∈ stream.getLast?, ∀ response, cfg.unmarshal last = some response →
    cfg.shouldIncludeUsage = false → validUsage response.usage = true → hasText response = false →
      Bare response

/-! ## During the stream -/

namespace OaiStreamState

variable {s : OaiStreamState}

theorem handleData_chunk (isAudioModel : Bool) (s : OaiStreamState) (chunk : StreamData) :
    (s.handleData isAudioModel chunk).sent = (s.sendStreamData s.lastStreamData).sent ∧
      (s.handleData isAudioModel chunk).lastStreamData = chunk := by
  rw [handleData, sendStreamData, if_pos chunk.2]
  by_cases hlast : s.lastStreamData = ""
  · rw [if_pos hlast, if_neg (not_not.2 hlast)]
    exact ⟨rfl, rfl⟩
  · rw [if_neg hlast, if_pos hlast]
    exact ⟨rfl, rfl⟩

/-- Every chunk but the last has been sent. -/
theorem foldl_sent (isAudioModel : Bool) (chunk : StreamData) (stream : List StreamData)
    (hlast : s.lastStreamData = chunk) :
    ∃ earlier last, chunk :: stream = earlier ++ [last] ∧
      ((stream.map Subtype.val).foldl (handleData isAudioModel) s).lastStreamData = last.val ∧
      ((stream.map Subtype.val).foldl (handleData isAudioModel) s).sent =
        s.sent ++ earlier.map Subtype.val := by
  induction stream generalizing s chunk with
  | nil => exact ⟨[], chunk, rfl, hlast, (List.append_nil _).symm⟩
  | cons next stream ih =>
      obtain ⟨hsent, hnext⟩ := handleData_chunk isAudioModel s next
      obtain ⟨earlier, last, hsplit, hlast', hsent'⟩ := ih next hnext
      refine ⟨chunk :: earlier, last, by rw [hsplit, List.cons_append], hlast', ?_⟩
      rw [List.map_cons, List.foldl_cons, hsent', hsent, hlast, sendStreamData, if_neg chunk.2]
      simp

end OaiStreamState

/-! ## The end of the stream -/

namespace OaiStreamSettings

variable {cfg : OaiStreamSettings F} {r : LastResponse F} {lastStreamData : String}

/-- The last chunk is withheld for its usage, without a text that the handler sees. -/
def Withholds (cfg : OaiStreamSettings F) (lastStreamData : String) : Prop :=
  ∃ response, cfg.unmarshal lastStreamData = some response ∧ cfg.shouldIncludeUsage = false ∧
    validUsage response.usage = true ∧ hasText response = false

theorem handleLastResponse_withholds (hwithholds : cfg.Withholds lastStreamData) :
    (cfg.handleLastResponse lastStreamData r).shouldSendLastResp = false := by
  obtain ⟨response, hresponse, hnone, hvalid, hbare⟩ := hwithholds
  rw [handleLastResponse, hresponse]
  dsimp only
  rw [if_pos hvalid, hnone]
  exact hbare

theorem handleLastResponse_sends (hsend : r.shouldSendLastResp = true)
    (hwithholds : ¬ cfg.Withholds lastStreamData) :
    (cfg.handleLastResponse lastStreamData r).shouldSendLastResp = true := by
  rw [handleLastResponse]
  cases hresponse : cfg.unmarshal lastStreamData with
  | none => exact hsend
  | some response =>
      dsimp only
      split
      case isFalse hinvalid => exact hsend
      case isTrue hvalid =>
        cases hinclude : cfg.shouldIncludeUsage with
        | true => exact hsend
        | false =>
            cases htext : hasText response with
            | true =>
                rw [if_neg Bool.false_ne_true]
            | false => exact absurd ⟨response, hresponse, hinclude, hvalid, htext⟩ hwithholds

/-- The handler makes at most a usage chunk of its own, and none for a client that did not ask. -/
theorem handleFinalResponse_generated (cfg : OaiStreamSettings F) (r : LastResponse F)
    (usage : Usage F) :
    ∃ generated, cfg.handleFinalResponse r usage = generated ++ ["[DONE]"] ∧
      (generated.length ≤ 1 ∧ ∀ data ∈ generated, ∃ response usage,
        data = cfg.marshal response ∧ response.choices = [] ∧ response.usage = some usage) ∧
      (cfg.shouldIncludeUsage = false → generated = []) := by
  rw [handleFinalResponse]
  split
  case isTrue hasked =>
    refine ⟨_, rfl, ⟨Nat.le_refl 1, fun data hdata => ?_⟩, fun hnone => ?_⟩
    · exact ⟨_, usage, List.mem_singleton.1 hdata, rfl, rfl⟩
    · rw [hnone] at hasked
      cases hasked.1
  case isFalse hquiet => exact ⟨[], rfl, ⟨Nat.zero_le 1, nofun⟩, fun _ => rfl⟩

/-- What the client receives: the chunks, the last of them unless it is withheld, and the end. -/
theorem oaiStreamHandler_sent (cfg : OaiStreamSettings F) (stream : List StreamData) :
    ∃ generated,
      (generated.length ≤ 1 ∧ ∀ data ∈ generated, ∃ response usage,
        data = cfg.marshal response ∧ response.choices = [] ∧ response.usage = some usage) ∧
      (cfg.shouldIncludeUsage = false → generated = []) ∧
      ((∀ last ∈ stream.getLast?, ¬ cfg.Withholds last) ∧
          (cfg.oaiStreamHandler (stream.map Subtype.val)).1 =
            stream.map Subtype.val ++ (generated ++ ["[DONE]"]) ∨
        ∃ (earlier : List StreamData) (last : StreamData), stream = earlier ++ [last] ∧
          cfg.Withholds last ∧ (cfg.oaiStreamHandler (stream.map Subtype.val)).1 =
            earlier.map Subtype.val ++ (generated ++ ["[DONE]"])) := by
  rw [oaiStreamHandler]
  dsimp only
  generalize hs : (stream.map Subtype.val).foldl
    (OaiStreamState.handleData cfg.isAudioModel) .start = s
  generalize hr : cfg.handleLastResponse s.lastStreamData _ = r
  obtain ⟨generated, hend, hgenerated, hquiet⟩ := cfg.handleFinalResponse_generated r
    (cfg.applyUsagePostProcessing (r.streamUsage.getD (cfg.responseText2Usage s.streamItems))
      s.lastStreamData)
  rw [hend]
  refine ⟨generated, hgenerated, hquiet, ?_⟩
  cases stream with
  | nil =>
      obtain rfl := hs
      have hnothing : (OaiStreamState.start).sendStreamData "" = .start := if_pos rfl
      refine .inl ⟨nofun, ?_⟩
      show (if r.shouldSendLastResp = true then OaiStreamState.start.sendStreamData "" else .start).sent ++
        _ = _
      rw [hnothing, ite_self]
      rfl
  | cons first rest =>
      obtain ⟨hsent, hfirst⟩ := OaiStreamState.handleData_chunk cfg.isAudioModel .start first
      obtain ⟨earlier, last, hsplit, hlast, hearlier⟩ :=
        OaiStreamState.foldl_sent cfg.isAudioModel first rest hfirst
      rw [List.map_cons, List.foldl_cons] at hs
      rw [hs] at hlast hearlier
      rw [hsent] at hearlier
      have hearlier : s.sent = earlier.map Subtype.val := hearlier
      -- each chunk is sent when the next one comes, and the last one is decided on here
      by_cases hwithholds : cfg.Withholds last
      · have hheld : r.shouldSendLastResp = false := by
          rw [← hr, hlast]
          exact handleLastResponse_withholds hwithholds
        refine .inr ⟨earlier, last, hsplit, hwithholds, ?_⟩
        rw [if_neg (by rw [hheld]; exact Bool.false_ne_true), hearlier]
      · have hsends : r.shouldSendLastResp = true := by
          rw [← hr, hlast]
          exact handleLastResponse_sends rfl hwithholds
        refine .inl ⟨fun other hother => ?_, ?_⟩
        · rw [hsplit, List.getLast?_concat] at hother
          obtain rfl := Option.some.inj hother
          exact hwithholds
        · rw [if_pos hsends, OaiStreamState.sendStreamData, hlast, if_neg last.2, hearlier, hsplit,
            List.map_append, List.map_cons, List.map_nil]

end OaiStreamSettings

section

variable {cfg : OaiStreamSettings F} {last : StreamData} {response : StreamResponse F}

/-- A withheld chunk is missing, unless it was bare. -/
theorem passesThrough_withheld (earlier : List StreamData)
    (hnone : cfg.shouldIncludeUsage = false)
    (hresponse : cfg.unmarshal last = some response) :
    PassesThrough cfg (earlier ++ [last]) (earlier.map Subtype.val ++ ["[DONE]"]) ↔
      Bare response := by
  constructor
  · rintro ⟨generated, -, hall | ⟨-, earlier', last', response', hsplit, hresponse', hbare, -⟩⟩
    -- with every chunk and no generated one, the client would have one more
    · have hlength := congrArg List.length hall
      simp only [List.map_append, List.length_append, List.length_map, List.map_cons, List.map_nil,
        List.length_cons, List.length_nil] at hlength
      omega
    · obtain ⟨-, hone⟩ := List.append_inj' hsplit rfl
      obtain rfl := (List.cons.inj hone).1
      obtain rfl := Option.some.inj (hresponse.symm.trans hresponse')
      exact hbare
  · intro hbare
    exact ⟨[], ⟨Nat.zero_le 1, nofun⟩, .inr ⟨hnone, earlier, last, response, rfl, hresponse, hbare, rfl⟩⟩

end

/-- The stream passes through exactly when its last chunk has nothing else than what
the handler sees. -/
theorem oaiStreamHandler_passes_iff (cfg : OaiStreamSettings F) (stream : List StreamData) :
    PassesThrough cfg stream (cfg.oaiStreamHandler (stream.map Subtype.val)).1 ↔
      LastChunkTold cfg stream := by
  obtain ⟨generated, hgenerated, hquiet, ⟨hsends, hsent⟩ | ⟨earlier, last, rfl, hwithholds, hsent⟩⟩ :=
    cfg.oaiStreamHandler_sent stream
  · refine iff_of_true ⟨generated, hgenerated, .inl hsent⟩ ?_
    intro last hlast response hresponse hnone hvalid htext
    exact absurd ⟨response, hresponse, hnone, hvalid, htext⟩ (hsends last hlast)
  · obtain ⟨response, hresponse, hnone, hvalid, htext⟩ := hwithholds
    have hlast : (earlier ++ [last]).getLast? = some last := List.getLast?_concat
    rw [hsent, hquiet hnone, List.nil_append, passesThrough_withheld earlier hnone hresponse]
    constructor
    · intro hbare other hother response' hresponse' _ _ _
      obtain rfl := Option.some.inj (hlast.symm.trans hother)
      obtain rfl := Option.some.inj (hresponse.symm.trans hresponse')
      exact hbare
    · intro htold
      exact htold last hlast response hresponse hnone hvalid htext

/-- A last chunk that has the finish reason and the usage, as some upstreams send it. -/
def finishWithUsage : StreamResponse Decimal where
  id := "chatcmpl-1"
  model := "gpt-4o"
  choices := [⟨0, .empty, some "tool_calls"⟩]
  usage := some ⟨10, 5, 15, 0, 0, 0, 0, 0, 0, 0, 0, 0, none⟩
  created := 1700000000
  systemFingerprint := none

/-- The text of that chunk is "finish" here, and nothing else is JSON. -/
def sampleOaiStream : OaiStreamSettings Decimal where
  shouldIncludeUsage := false
  upstreamModelName := "gpt-4o"
  isAudioModel := false
  unmarshal := fun data => if data = "finish" then some finishWithUsage else none
  unmarshalUsage := fun _ => none
  marshal := fun _ => "usage"
  responseText2Usage := fun _ => ⟨0, 0, 0, 0, 0, 0, 0, 0, 0, 0, 0, 0, none⟩
  applyUsagePostProcessing := fun usage _ => usage

/-- The client never sees the finish reason. -/
theorem oaiStreamHandler_loses_finish :
    (sampleOaiStream.oaiStreamHandler ["call", "finish"]).1 = ["call", "[DONE]"] ∧
      ¬ PassesThrough sampleOaiStream [⟨"call", by decide⟩, ⟨"finish", by decide⟩]
        (sampleOaiStream.oaiStreamHandler ["call", "finish"]).1 := by
  have hsent : (sampleOaiStream.oaiStreamHandler ["call", "finish"]).1 =
    ["call", "[DONE]"] := by decide
  refine ⟨hsent, fun hpasses => ?_⟩
  rw [hsent] at hpasses
  have hbare : Bare finishWithUsage :=
    (passesThrough_withheld [⟨"call", by decide⟩] rfl rfl).1 hpasses
  exact absurd (hbare _ (List.mem_singleton.2 rfl)).2.2.2.2 (by decide)

end

end NewApi.Model
