import NewApi.Model.ApiError

/-!
# Messages in the Claude format

A message as a whole and the events of a stream that carries it, the content blocks at the
indices 0, 1, 2, ... one after the other, each opened, filled by deltas and closed.
-/

namespace NewApi.Model

open NewApi.Lib.Strings

structure ClaudeCacheCreationUsage where
  ephemeral5mInputTokens : ℤ
  ephemeral1hInputTokens : ℤ
deriving DecidableEq

structure ClaudeUsage where
  inputTokens : ℤ
  cacheCreationInputTokens : ℤ
  cacheReadInputTokens : ℤ
  outputTokens : ℤ
  cacheCreation : Option ClaudeCacheCreationUsage
deriving DecidableEq

namespace ClaudeUsage

def getCacheCreation5mTokens (usage : ClaudeUsage) : ℤ :=
  (usage.cacheCreation.map ClaudeCacheCreationUsage.ephemeral5mInputTokens).getD 0

def getCacheCreation1hTokens (usage : ClaudeUsage) : ℤ :=
  (usage.cacheCreation.map ClaudeCacheCreationUsage.ephemeral1hInputTokens).getD 0

end ClaudeUsage

/-- A content block of a message; the input of a tool use is its JSON text. -/
inductive ContentBlock
  | text (text : String)
  | thinking (thinking : String)
  | toolUse (id name input : String)
deriving DecidableEq

inductive ContentDelta
  | textDelta (text : String)
  | thinkingDelta (thinking : String)
  | inputJsonDelta (partialJson : String)
  | signatureDelta
deriving DecidableEq

/-- An event of a stream; a block is opened without its content.  Pings and the other events
that the protocol may add are `other`. -/
inductive ClaudeEvent
  | messageStart (id model : String) (usage : ClaudeUsage)
  | contentBlockStart (index : ℤ) (block : ContentBlock)
  | contentBlockDelta (index : ℤ) (delta : ContentDelta)
  | contentBlockStop (index : ℤ)
  | messageDelta (stopReason : Option String) (usage : ClaudeUsage)
  | messageStop
  | error (error : ClaudeError)
  | other (type : String)
deriving DecidableEq

/-- An answer of Claude as a whole, with its usage; the `dto.ClaudeMessage` of a request is
`Dto.ClaudeMessage`. -/
structure ClaudeMessage where
  id : String
  model : String
  content : List ContentBlock
  stopReason : String
  usage : ClaudeUsage
deriving DecidableEq

/-- `stopReasonClaude2OpenAI`. -/
def claudeStopReasonToOpenAIFinishReason (stopReason : String) : String :=
  match toLower stopReason with
  | "stop_sequence" => "stop"
  | "end_turn" => "stop"
  | "max_tokens" => "length"
  | "tool_use" => "tool_calls"
  | "refusal" => "content_filter"
  | _ => stopReason

/-- `stopReasonOpenAI2Claude`. -/
def openAIFinishReasonToClaudeStopReason (finishReason : String) : String :=
  match toLower finishReason with
  | "stop" => "end_turn"
  | "stop_sequence" => "stop_sequence"
  | "length" => "max_tokens"
  | "max_tokens" => "max_tokens"
  | "content_filter" => "refusal"
  | "tool_calls" => "tool_use"
  | _ => finishReason

/-! ## Streams -/

namespace ContentBlock

/-- The block as its start event shows it. -/
def opening : ContentBlock → ContentBlock
  | .text _ => .text ""
  | .thinking _ => .thinking ""
  | .toolUse id name _ => .toolUse id name ""

/-- The deltas carry the content of the block, cut at arbitrary points; a thinking block may be
signed. -/
def CarriedBy : ContentBlock → List ContentDelta → Prop
  | .text content, deltas =>
      ∃ pieces, deltas = pieces.map ContentDelta.textDelta ∧ concat pieces = content
  | .thinking content, deltas =>
      ∃ pieces, (deltas.filter (· ≠ ContentDelta.signatureDelta)) =
        pieces.map ContentDelta.thinkingDelta ∧ concat pieces = content
  | .toolUse _ _ input, deltas =>
      ∃ pieces, deltas = pieces.map ContentDelta.inputJsonDelta ∧ concat pieces = input

end ContentBlock

/-- A content block with the deltas that carry it. -/
structure StreamedBlock where
  block : ContentBlock
  deltas : List ContentDelta
  carried : block.CarriedBy deltas

/-- The events of a block at an index. -/
def StreamedBlock.events (streamed : StreamedBlock) (index : ℤ) : List ClaudeEvent :=
  .contentBlockStart index streamed.block.opening ::
    streamed.deltas.map (ClaudeEvent.contentBlockDelta index) ++ [.contentBlockStop index]

/-- The events of blocks at consecutive indices. -/
def blockEvents : ℕ → List StreamedBlock → List ClaudeEvent
  | _, [] => []
  | index, streamed :: rest => streamed.events index ++ blockEvents (index + 1) rest

/-- The event says something about the message. -/
def ClaudeEvent.Tells : ClaudeEvent → Prop
  | .other _ => False
  | _ => True

instance : DecidablePred ClaudeEvent.Tells := fun event => by
  cases event <;> unfold ClaudeEvent.Tells <;> infer_instance

theorem ClaudeEvent.tells_or_other (event : ClaudeEvent) :
    event.Tells ∨ ∃ type, event = .other type := by
  cases event with
  | other type => exact .inr ⟨type, rfl⟩
  | _ => exact .inl trivial

theorem filter_tells_cons {event : ClaudeEvent} (htells : event.Tells)
    (events : List ClaudeEvent) :
    ((event :: events).filter fun event => event.Tells) =
      event :: events.filter fun event => event.Tells := by
  rw [List.filter_cons, if_pos (decide_eq_true htells)]

theorem filter_tells_other (type : String) (events : List ClaudeEvent) :
    ((.other type :: events).filter fun event => event.Tells) =
      events.filter fun event => event.Tells := by
  have hsilent : ¬ decide (ClaudeEvent.other type).Tells = true :=
    fun htells => of_decide_eq_true htells
  rw [List.filter_cons, if_neg hsilent]

/-- A well-formed stream for the message, in the given pieces.  Other events may stand
anywhere. -/
structure Streams (events : List ClaudeEvent) (message : ClaudeMessage)
    (pieces : List StreamedBlock) : Prop where
  content : pieces.map StreamedBlock.block = message.content
  events : ∃ usage usage', events.filter (fun event => event.Tells) =
    .messageStart message.id message.model usage :: blockEvents 0 pieces ++
      [.messageDelta (some message.stopReason) usage', .messageStop]

/-- The events of blocks are those that open a block, add to it or close it. -/
theorem mem_blockEvents {event : ClaudeEvent} {index : ℕ} {pieces : List StreamedBlock}
    (hmem : event ∈ blockEvents index pieces) :
    ∃ i : ℤ, (∃ block, event = .contentBlockStart i block) ∨
      (∃ delta, event = .contentBlockDelta i delta) ∨ event = .contentBlockStop i := by
  induction pieces generalizing index with
  | nil => cases hmem
  | cons streamed rest ih =>
      rcases List.mem_append.1 hmem with hmem | hmem
      · rw [StreamedBlock.events, List.mem_append, List.mem_cons, List.mem_map,
          List.mem_singleton] at hmem
        rcases hmem with (hopen | ⟨delta, -, rfl⟩) | hclose
        · exact ⟨index, .inl ⟨_, hopen⟩⟩
        · exact ⟨index, .inr (.inl ⟨delta, rfl⟩)⟩
        · exact ⟨index, .inr (.inr hclose)⟩
      · exact ih hmem

theorem tells_of_mem_blockEvents {event : ClaudeEvent} {index : ℕ} {pieces : List StreamedBlock}
    (hmem : event ∈ blockEvents index pieces) : event.Tells := by
  obtain ⟨i, ⟨block, rfl⟩ | ⟨delta, rfl⟩ | rfl⟩ := mem_blockEvents hmem <;> trivial

/-- The stream of a message cut into pieces, without other events. -/
def streamOf (message : ClaudeMessage) (pieces : List StreamedBlock) (usage usage' : ClaudeUsage) :
    List ClaudeEvent :=
  .messageStart message.id message.model usage :: blockEvents 0 pieces ++
    [.messageDelta (some message.stopReason) usage', .messageStop]

theorem streams_streamOf {message : ClaudeMessage} {pieces : List StreamedBlock}
    (hcontent : pieces.map StreamedBlock.block = message.content) (usage usage' : ClaudeUsage) :
    Streams (streamOf message pieces usage usage') message pieces where
  content := hcontent
  events := by
    refine ⟨usage, usage', List.filter_eq_self.2 fun event hmem => decide_eq_true ?_⟩
    rw [streamOf, List.cons_append, List.mem_cons, List.mem_append, List.mem_cons,
      List.mem_singleton] at hmem
    rcases hmem with rfl | hmem | rfl | rfl
    · trivial
    · exact tells_of_mem_blockEvents hmem
    · trivial
    · trivial

/-! ## A client of a stream -/

/-- The block with a delta of its own kind. -/
def ContentBlock.add : ContentBlock → ContentDelta → Option ContentBlock
  | .text content, .textDelta piece => some (.text (content ++ piece))
  | .thinking content, .thinkingDelta piece => some (.thinking (content ++ piece))
  | .thinking content, .signatureDelta => some (.thinking content)
  | .toolUse id name input, .inputJsonDelta piece => some (.toolUse id name (input ++ piece))
  | _, _ => none

/-- What a client has read: the blocks that are closed, and the open one. -/
inductive Reader
  | before
  | body (closed : List ContentBlock) (current : Option ContentBlock)
  | ending (blocks : List ContentBlock) (stopReason : String)
  | ended (blocks : List ContentBlock) (stopReason : String)
deriving DecidableEq

namespace Reader

/-- A client that takes the events only in the order of the protocol: one start, blocks at the
indices 0, 1, 2, ... with one open at a time, one stop reason and the end. -/
def read : Reader → ClaudeEvent → Option Reader
  | .before, .messageStart _ _ _ => some (.body [] none)
  | .body closed none, .contentBlockStart index block =>
      if index = closed.length then some (.body closed (some block)) else none
  | .body closed (some block), .contentBlockDelta index delta =>
      if index = closed.length then (block.add delta).map fun block => .body closed (some block)
      else none
  | .body closed (some block), .contentBlockStop index =>
      if index = closed.length then some (.body (closed ++ [block]) none) else none
  | .body closed none, .messageDelta (some stopReason) _ => some (.ending closed stopReason)
  | .ending blocks stopReason, .messageStop => some (.ended blocks stopReason)
  | reader, .other _ => some reader
  | _, _ => none

def readAll (reader : Reader) (events : List ClaudeEvent) : Option Reader :=
  events.foldlM read reader

@[simp] theorem readAll_nil (reader : Reader) : reader.readAll [] = some reader := rfl

@[simp] theorem readAll_cons (reader : Reader) (event : ClaudeEvent) (events : List ClaudeEvent) :
    reader.readAll (event :: events) = (reader.read event).bind fun reader =>
      reader.readAll events := rfl

theorem readAll_append (reader : Reader) (events rest : List ClaudeEvent) :
    reader.readAll (events ++ rest) = (reader.readAll events).bind fun reader =>
      reader.readAll rest := by
  rw [readAll, List.foldlM_append]
  rfl

section Start

variable {reader next : Reader} {event : ClaudeEvent} {events : List ClaudeEvent}

theorem read_ne_before (hreader : reader ≠ .before)
    (hread : reader.read event = some next) : next ≠ .before := by
  rintro rfl
  unfold read at hread
  split at hread
  case h_1 => cases hread
  case h_2 => split at hread <;> cases hread
  case h_3 =>
    split at hread
    case isTrue =>
      obtain ⟨block, -, hnext⟩ := Option.map_eq_some_iff.1 hread
      cases hnext
    case isFalse => cases hread
  case h_4 => split at hread <;> cases hread
  case h_5 => cases hread
  case h_6 => cases hread
  case h_7 => exact hreader (Option.some.inj hread)
  case h_8 => cases hread

theorem readAll_ne_before (hreader : reader ≠ .before)
    (hread : reader.readAll events = some next) : next ≠ .before := by
  induction events generalizing reader with
  | nil =>
      obtain rfl := Option.some.inj hread
      exact hreader
  | cons event events ih =>
      rw [readAll_cons, Option.bind_eq_some_iff] at hread
      obtain ⟨middle, hmiddle, hrest⟩ := hread
      exact ih (read_ne_before hreader hmiddle) hrest

/-- After the start there is no other. -/
theorem read_start (hreader : reader ≠ .before) (id model : String) (usage : ClaudeUsage) :
    reader.read (.messageStart id model usage) = none := by
  cases reader with
  | before => exact absurd rfl hreader
  | body closed current => cases current <;> rfl
  | ending blocks stopReason => rfl
  | ended blocks stopReason => rfl

end Start

end Reader

end NewApi.Model
