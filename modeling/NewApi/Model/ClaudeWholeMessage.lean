import NewApi.Model.ClaudeStreamConversion

/-!
# The whole message and its stream

A Claude client has the same message from `responseOpenAI2Claude` as from the conversion of a
stream of it exactly when the stream can be converted in order, the message has no text beside a
tool call, and its finish reason says which of the two it has.
-/

namespace NewApi.Model

open NewApi.Lib NewApi.Lib.Strings

variable {F J : Type}

/-! ## Chunks of a message -/

/-- The chunks of a message: its text and its reasoning in pieces, its tool calls in fragments, the
finish reason, and after it at most chunks without a choice. -/
structure Chunking (choice : TextResponseChoice) (chunks : List (ChatCompletionsStreamResponse F)) :
    Prop where
  length : 2 ≤ chunks.length
  text : concat (chunks.map ChatCompletionsStreamResponse.text) = choice.message.content
  reasoning : concat (chunks.map ChatCompletionsStreamResponse.reasoning) =
    choice.message.reasoningContent
  fragments : CallFragments 0 (chunks.flatMap ChatCompletionsStreamResponse.fragments)
  calls : (reassemble (chunks.flatMap ChatCompletionsStreamResponse.fragments)).map Prod.snd =
    choice.message.toolCalls
  finished : ∃ chunk ∈ chunks, chunk.finish ≠ ""
  finish : firstFinish chunks = choice.finishReason
  ending : ∀ chunk ∈ afterFinish chunks, chunk.choices = []

/-! ## What a client has -/

/-- The text of a message. -/
def ClaudeMediaMessage.textContent : ClaudeMediaMessage J → Option String
  | .text content => some content
  | .toolUse _ _ _ => none

/-- The id, the name and the input of a tool use. -/
def ClaudeMediaMessage.call : ClaudeMediaMessage J → Option (String × String × ToolInput J)
  | .text _ => none
  | .toolUse id name input => some (id, name, input)

section Client

variable (unmarshal : String → Option J) (emptyInput : J)

/-- The input that a client has read: the one of the start event, which is empty, unless there
was a delta. -/
def readInput (partialJson : String) : ToolInput J :=
  if partialJson = "" then .object emptyInput else toolInput unmarshal partialJson

def readCall (call : ToolCall) : String × String × ToolInput J :=
  (call.id, call.name, readInput unmarshal emptyInput call.arguments)

def wholeCall (call : ToolCall) : String × String × ToolInput J :=
  (call.id, call.name, toolInput unmarshal call.arguments)

/-- The blocks of a stream say the same as the response; and when the message has a text and tool
calls, they keep both. -/
structure SameMessage (message : Message) (response : ClaudeResponse J)
    (blocks : List ContentBlock) (stopReason : String) : Prop where
  text : textOf blocks = concat (response.content.filterMap ClaudeMediaMessage.textContent)
  calls : (callsOf blocks).map (readCall unmarshal emptyInput) =
    response.content.filterMap ClaudeMediaMessage.call
  stopReason : stopReason = response.stopReason
  both : message.content ≠ "" → message.toolCalls ≠ [] →
    textOf blocks = message.content ∧
      (callsOf blocks).map (readCall unmarshal emptyInput) =
        message.toolCalls.map (wholeCall unmarshal)

/-- When a stream of a message and the whole message say the same: the stream is converted in
order; without the finish reason of tool calls there are none, and no chunk has reasoning and text;
with it the message has not both, no chunk has text alone, and the fragments of the first chunk
after its first one do not change the input. -/
structure Agreeing (choice : TextResponseChoice)
    (chunks : List (ChatCompletionsStreamResponse F)) : Prop where
  length : (∀ first ∈ chunks.head?, first.finish = "") → 3 ≤ chunks.length
  usage : afterFinish chunks ≠ [] → ∃ chunk ∈ toFinish chunks, chunk.usage.isSome
  orderly : Orderly (toFinish chunks)
  text : choice.finishReason ≠ "tool_calls" → choice.message.toolCalls = [] ∧
    ∀ chunk ∈ toFinish chunks, chunk.reasoning = "" ∨ chunk.text = ""
  calls : choice.finishReason = "tool_calls" →
    (choice.message.content = "" ∨ choice.message.toolCalls = []) ∧
      (∀ chunk ∈ toFinish chunks, chunk.text ≠ "" →
        chunk.fragments ≠ [] ∨ chunk.reasoning ≠ "") ∧
      ∀ first ∈ chunks.head?, first.fragments ≠ [] →
        readInput unmarshal emptyInput (argumentsOf (first.fragments.take 1 ++
            chunks.tail.flatMap ChatCompletionsStreamResponse.fragments)) =
          toolInput unmarshal
            (argumentsOf (chunks.flatMap ChatCompletionsStreamResponse.fragments))

end Client

/-! ## The chunks of a message -/

section Chunks

variable {choice : TextResponseChoice} {chunk first : ChatCompletionsStreamResponse F}
  {rest chunks : List (ChatCompletionsStreamResponse F)}

theorem delta_of_choices (hchoices : chunk.choices = []) : chunk.delta = ChoiceDelta.empty := by
  unfold ChatCompletionsStreamResponse.delta
  rw [hchoices]
  rfl

/-- The chunks up to the end carry the whole message. -/
theorem Chunking.told_fragments (hchunking : Chunking choice chunks) :
    (toFinish chunks).flatMap ChatCompletionsStreamResponse.fragments =
      chunks.flatMap ChatCompletionsStreamResponse.fragments := by
  have htrailing : (afterFinish chunks).flatMap ChatCompletionsStreamResponse.fragments = [] :=
    List.flatMap_eq_nil_iff.2 fun chunk hmem => congrArg ChoiceDelta.fragments
      (delta_of_choices (hchunking.ending chunk hmem))
  conv_rhs => rw [← toFinish_append_afterFinish chunks]
  rw [List.flatMap_append, htrailing, List.append_nil]

theorem Chunking.told_text (hchunking : Chunking choice chunks) :
    concat ((toFinish chunks).map ChatCompletionsStreamResponse.text) =
      choice.message.content := by
  have htrailing : concat ((afterFinish chunks).map ChatCompletionsStreamResponse.text) = "" :=
    concat_map_eq_empty.2 fun chunk hmem => congrArg ChoiceDelta.getContentString
      (delta_of_choices (hchunking.ending chunk hmem))
  rw [← hchunking.text]
  conv_rhs => rw [← toFinish_append_afterFinish chunks]
  rw [List.map_append, concat_append, htrailing, String.append_empty]

/-! ## The calls -/

theorem keptCalls_eq_nil (horderly : Orderly (first :: rest)) :
    keptCalls (first :: rest) = [] ↔
      (first :: rest).flatMap ChatCompletionsStreamResponse.fragments = [] := by
  rw [keptCalls]
  cases hfragments : first.fragments with
  | nil => exact iff_of_true rfl (horderly.fragments_eq_nil hfragments)
  | cons fragment fragments =>
      refine iff_of_false (List.cons_ne_nil _ _) ?_
      rw [List.flatMap_cons, hfragments]
      exact List.cons_ne_nil _ _

/-- The call that a client reads is that of the message when the inputs are the same. -/
theorem readCalls_iff (unmarshal : String → Option J) (emptyInput : J)
    (horderly : Orderly (first :: rest))
    (hcalls : CallFragments 0
      ((first :: rest).flatMap ChatCompletionsStreamResponse.fragments)) :
    (keptCalls (first :: rest)).map (readCall unmarshal emptyInput) =
        ((reassemble ((first :: rest).flatMap ChatCompletionsStreamResponse.fragments)).map
          Prod.snd).map (wholeCall unmarshal) ↔
      (first.fragments ≠ [] →
        readInput unmarshal emptyInput (argumentsOf (first.fragments.take 1 ++
            rest.flatMap ChatCompletionsStreamResponse.fragments)) =
          toolInput unmarshal (argumentsOf
            ((first :: rest).flatMap ChatCompletionsStreamResponse.fragments))) := by
  cases hfragments : first.fragments with
  | nil =>
      have hkept : keptCalls (first :: rest) = [] := by
        rw [keptCalls, hfragments]
      rw [horderly.fragments_eq_nil hfragments, hkept]
      exact iff_of_true rfl fun hsome => absurd rfl hsome
  | cons fragment fragments =>
      have hcontinue := horderly.calls
      rw [List.flatMap_cons, hfragments, List.cons_append, List.tail_cons] at hcontinue
      rw [List.flatMap_cons, hfragments, List.cons_append] at hcalls
      rw [List.flatMap_cons, hfragments, List.cons_append, keptCalls, hfragments,
        reassemble_single hcalls hcontinue]
      simp only [readCall, wholeCall, List.map_cons, List.map_nil, List.cons.injEq, Prod.mk.injEq,
        true_and, and_true, List.take_succ_cons, List.take_zero, List.cons_append, List.nil_append,
        argumentsOf_cons]
      exact (imp_iff_right (List.cons_ne_nil _ _)).symm

end Chunks

/-! ## The same message -/

section Same

variable {choice : TextResponseChoice} {chunk first : ChatCompletionsStreamResponse F}
  {rest told chunks : List (ChatCompletionsStreamResponse F)} {unmarshal : String → Option J}
  {emptyInput : J} {response : OpenAITextResponse F} {usage : Usage F} {final : Stage}

theorem takenText_eq_text_iff :
    chunk.takenText = chunk.text ↔
      (chunk.fragments = [] ∧ chunk.reasoning = "") ∨ chunk.text = "" := by
  unfold ChatCompletionsStreamResponse.takenText
  split
  case isTrue htaken => exact iff_of_true rfl (.inl htaken)
  case isFalse hlost => rw [or_iff_right hlost, eq_comm]

theorem takenText_eq_empty_iff :
    chunk.takenText = "" ↔
      (chunk.text ≠ "" → chunk.fragments ≠ [] ∨ chunk.reasoning ≠ "") := by
  unfold ChatCompletionsStreamResponse.takenText
  split
  case isTrue htaken =>
    rw [← not_and_or, not_imp_not]
    exact (imp_iff_right htaken).symm
  case isFalse hlost => exact iff_of_true rfl fun _ => not_and_or.1 hlost

theorem content_response (hchoices : response.choices = [choice]) :
    (responseOpenAI2Claude unmarshal response).content = choiceContent unmarshal choice := by
  rw [responseOpenAI2Claude, hchoices, List.flatMap_singleton]

theorem stopReason_response (hchoices : response.choices = [choice]) :
    (responseOpenAI2Claude unmarshal response).stopReason =
      openAIFinishReasonToClaudeStopReason choice.finishReason := by
  rw [responseOpenAI2Claude, hchoices]
  rfl

/-- The whole message of tool calls has no text. -/
theorem choiceContent_calls (unmarshal : String → Option J)
    (hfinish : choice.finishReason = "tool_calls") :
    concat ((choiceContent unmarshal choice).filterMap ClaudeMediaMessage.textContent) = "" ∧
      (choiceContent unmarshal choice).filterMap ClaudeMediaMessage.call =
        choice.message.toolCalls.map (wholeCall unmarshal) := by
  rw [choiceContent, if_pos hfinish, List.filterMap_map, List.filterMap_map]
  constructor
  · exact congrArg concat (List.filterMap_eq_nil_iff.2 fun call _ => rfl)
  · exact congrFun List.filterMap_eq_map choice.message.toolCalls

/-- Every other one has no tool calls. -/
theorem choiceContent_text (unmarshal : String → Option J)
    (hfinish : choice.finishReason ≠ "tool_calls") :
    concat ((choiceContent unmarshal choice).filterMap ClaudeMediaMessage.textContent) =
        choice.message.content ∧
      (choiceContent unmarshal choice).filterMap ClaudeMediaMessage.call = [] := by
  rw [choiceContent, if_neg hfinish]
  exact ⟨String.append_empty, rfl⟩

/-- With the finish reason of tool calls. -/
theorem sameMessage_calls_iff (hchunking : Chunking choice (first :: rest))
    (hchoices : response.choices = [choice]) (htold : toFinish (first :: rest) = first :: told)
    (hfinish : choice.finishReason = "tool_calls") (horderly : Orderly (first :: told))
    (hholds : final.Holds (first :: told)) :
    SameMessage unmarshal emptyInput choice.message (responseOpenAI2Claude unmarshal response)
        final.blocks (openAIFinishReasonToClaudeStopReason choice.finishReason) ↔
      (choice.message.content = "" ∨ choice.message.toolCalls = []) ∧
        (∀ chunk ∈ first :: told, chunk.text ≠ "" →
          chunk.fragments ≠ [] ∨ chunk.reasoning ≠ "") ∧
        (first.fragments ≠ [] →
          readInput unmarshal emptyInput (argumentsOf (first.fragments.take 1 ++
              rest.flatMap ChatCompletionsStreamResponse.fragments)) =
            toolInput unmarshal (argumentsOf
              ((first :: rest).flatMap ChatCompletionsStreamResponse.fragments))) := by
  obtain ⟨hwholeText, hwholeCalls⟩ := choiceContent_calls unmarshal hfinish
  have hfragments := hchunking.told_fragments
  rw [htold] at hfragments
  have hrest : told.flatMap ChatCompletionsStreamResponse.fragments =
      rest.flatMap ChatCompletionsStreamResponse.fragments := by
    rw [List.flatMap_cons, List.flatMap_cons] at hfragments
    exact List.append_cancel_left hfragments
  have htext : textOf final.blocks = "" ↔ ∀ chunk ∈ first :: told, chunk.text ≠ "" →
      chunk.fragments ≠ [] ∨ chunk.reasoning ≠ "" := by
    rw [hholds.text, concat_map_eq_empty]
    exact forall₂_congr fun chunk _ => takenText_eq_empty_iff
  have hsame := readCalls_iff unmarshal emptyInput horderly
    (hfragments ▸ hchunking.fragments)
  rw [hfragments, hchunking.calls, hrest] at hsame
  rw [← htext, ← hsame, ← hholds.calls]
  constructor
  · -- A text beside the calls would have to be in the whole message.
    rintro ⟨hempty, hcalls, -, hboth⟩
    rw [content_response hchoices, hwholeText] at hempty
    rw [content_response hchoices, hwholeCalls] at hcalls
    refine ⟨?_, hempty, hcalls⟩
    by_contra hneither
    rw [not_or] at hneither
    exact hneither.1 ((hboth hneither.1 hneither.2).1.symm.trans hempty)
  · rintro ⟨hone, hempty, hcalls⟩
    refine ⟨?_, ?_, (stopReason_response hchoices).symm, fun hcontent hcall => ?_⟩
    · rw [content_response hchoices, hwholeText, hempty]
    · rw [content_response hchoices, hwholeCalls, hcalls]
    · rcases hone with hnone | hnone
      · exact absurd hnone hcontent
      · exact absurd hnone hcall

/-- Without it. -/
theorem sameMessage_text_iff (hchunking : Chunking choice (first :: rest))
    (hchoices : response.choices = [choice]) (htold : toFinish (first :: rest) = first :: told)
    (hfinish : choice.finishReason ≠ "tool_calls") (horderly : Orderly (first :: told))
    (hholds : final.Holds (first :: told)) :
    SameMessage unmarshal emptyInput choice.message (responseOpenAI2Claude unmarshal response)
        final.blocks (openAIFinishReasonToClaudeStopReason choice.finishReason) ↔
      choice.message.toolCalls = [] ∧
        ∀ chunk ∈ first :: told, chunk.reasoning = "" ∨ chunk.text = "" := by
  obtain ⟨hwholeText, hwholeCalls⟩ := choiceContent_text unmarshal hfinish
  have hfragments := hchunking.told_fragments
  have hcontent := hchunking.told_text
  rw [htold] at hfragments hcontent
  -- The message has no call when the blocks have none.
  have hkept : keptCalls (first :: told) = [] ↔ choice.message.toolCalls = [] := by
    rw [keptCalls_eq_nil horderly, ← hchunking.calls, List.map_eq_nil_iff, hfragments,
      reassemble_eq_nil hchunking.fragments]
  have htext : choice.message.toolCalls = [] → (textOf final.blocks = choice.message.content ↔
      ∀ chunk ∈ first :: told, chunk.reasoning = "" ∨ chunk.text = "") := by
    intro hnone
    have hempty := List.flatMap_eq_nil_iff.1 ((keptCalls_eq_nil horderly).1 (hkept.2 hnone))
    rw [hholds.text, ← hcontent, ← String.append_empty (s := concat (List.map
      ChatCompletionsStreamResponse.text _)),
      concat_eq_append_iff fun chunk _ => takenText_visible chunk, and_iff_left rfl]
    refine forall₂_congr fun chunk hmem => ?_
    rw [takenText_eq_text_iff, and_iff_right (hempty chunk hmem)]
  constructor
  · rintro ⟨hsame, hcalls, -, -⟩
    rw [content_response hchoices, hwholeText] at hsame
    rw [content_response hchoices, hwholeCalls, List.map_eq_nil_iff, hholds.calls] at hcalls
    have hnone := hkept.1 hcalls
    exact ⟨hnone, (htext hnone).1 hsame⟩
  · rintro ⟨hnone, hapart⟩
    refine ⟨?_, ?_, (stopReason_response hchoices).symm, fun _ hcall => absurd hnone hcall⟩
    · rw [content_response hchoices, hwholeText]
      exact (htext hnone).2 hapart
    · rw [content_response hchoices, hwholeCalls, hholds.calls, hkept.2 hnone, List.map_nil]

/-- The first chunk of a stream that says the same as the whole message begins one call at most. -/
theorem continue_tail_of_same {blocks : List ContentBlock} {stopReason : String}
    (estimatePromptTokens : ℤ) (hchunking : Chunking choice (first :: rest))
    (hchoices : response.choices = [choice])
    (hread : Reader.before.readAll
      (oaiStreamHandler usage (.initial estimatePromptTokens) (first :: rest)) =
        some (.ended blocks stopReason))
    (hsame : SameMessage unmarshal emptyInput choice.message
      (responseOpenAI2Claude unmarshal response) blocks stopReason) :
    Continue first.fragments.tail := by
  have hcalls := hsame.calls
  rw [content_response hchoices] at hcalls
  by_cases hfinish : choice.finishReason = "tool_calls"
  · rw [(choiceContent_calls unmarshal hfinish).2, ← hchunking.calls] at hcalls
    refine continue_tail estimatePromptTokens hchunking.fragments hread ?_
    have hlength := congrArg List.length hcalls
    rw [List.length_map, List.length_map, List.length_map] at hlength
    exact hlength
  · rw [(choiceContent_text unmarshal hfinish).2, List.map_eq_nil_iff] at hcalls
    -- The whole message has no call, so that the first chunk begins none.
    by_cases hfragments : first.fragments = []
    · rw [hfragments]
      exact continue_nil
    · have hblock := one_le_toolBlocks estimatePromptTokens hfragments hread
      have hnone : (blocks.filterMap ContentBlock.toolCall).length = 0 :=
        List.length_eq_zero_iff.2 hcalls
      rw [toolBlocks_eq_length] at hblock
      omega

/-- A client has the same message from the stream and from the whole response exactly when they
agree. -/
theorem same_message_iff (estimatePromptTokens : ℤ) (hchunking : Chunking choice chunks)
    (hchoices : response.choices = [choice]) :
    (∃ blocks stopReason,
        Reader.before.readAll (oaiStreamHandler usage (.initial estimatePromptTokens) chunks) =
          some (.ended blocks stopReason) ∧
        SameMessage unmarshal emptyInput choice.message
          (responseOpenAI2Claude unmarshal response) blocks stopReason) ↔
      Agreeing unmarshal emptyInput choice chunks := by
  cases chunks with
  | nil => exact absurd hchunking.length (Nat.not_succ_le_zero 1)
  | cons first rest =>
      obtain ⟨told, htold⟩ := toFinish_cons first rest
      constructor
      · rintro ⟨blocks, stopReason, hread, hsame⟩
        have hcontinue := continue_tail_of_same estimatePromptTokens hchunking hchoices hread hsame
        obtain ⟨final, hrun, hends, -, hthree⟩ :=
          (read_iff estimatePromptTokens hchunking.fragments hcontinue).1 hread
        rw [htold] at hrun
        have horderly := (Stage.runAll_iff hcontinue).1 ⟨final, hrun, hends.block⟩
        have hholds := Stage.holds_runAll hrun
        rw [hends.blocks, hends.stopReason, hchunking.finish] at hsame
        refine ⟨hthree, fun hafter => ?_, htold ▸ horderly, fun hfinish => ?_, fun hfinish => ?_⟩
        · exact (hends.usage hafter).resolve_left Bool.false_ne_true
        · rw [htold]
          exact (sameMessage_text_iff hchunking hchoices htold hfinish horderly hholds).1 hsame
        · obtain ⟨hone, hempty, hinput⟩ :=
            (sameMessage_calls_iff hchunking hchoices htold hfinish horderly hholds).1 hsame
          refine ⟨hone, htold ▸ hempty, ?_⟩
          rintro _ ⟨rfl⟩
          exact hinput
      · rintro ⟨hthree, husage, horderly, htext, hcalls⟩
        rw [htold] at horderly
        have hcontinue := horderly.continue_tail
        obtain ⟨final, hrun, hblock⟩ := (Stage.runAll_iff hcontinue).2 horderly
        have hholds := Stage.holds_runAll hrun
        refine ⟨final.blocks, openAIFinishReasonToClaudeStopReason choice.finishReason, ?_, ?_⟩
        · refine (read_iff estimatePromptTokens hchunking.fragments hcontinue).2
            ⟨final, htold ▸ hrun, ⟨hchunking.finished, hblock,
              fun hafter => .inr (husage hafter), rfl, ?_⟩, hchunking.length, hthree⟩
          rw [hchunking.finish]
        · by_cases hfinish : choice.finishReason = "tool_calls"
          · obtain ⟨hone, hempty, hinput⟩ := hcalls hfinish
            exact (sameMessage_calls_iff hchunking hchoices htold hfinish horderly hholds).2
              ⟨hone, htold ▸ hempty, hinput first rfl⟩
          · rw [htold] at htext
            exact (sameMessage_text_iff hchunking hchoices htold hfinish horderly hholds).2
              (htext hfinish)

end Same

/-! ## Samples -/

/-- A response with one choice. -/
def sampleResponse (choice : TextResponseChoice) : OpenAITextResponse ℕ where
  id := "chatcmpl-1"
  model := "gpt"
  choices := [choice]
  usage := Usage.empty

def sampleChoice (content : String) : TextResponseChoice where
  index := 0
  message := ⟨content, "", [⟨"call_1", "search", "\x7b\"q\":1\x7d"⟩]⟩
  finishReason := "tool_calls"

/-- The object of the sample, by its fields. -/
def sampleUnmarshal (arguments : String) : Option (List (String × ℕ)) :=
  if arguments = "\x7b\"q\":1\x7d" then some [("q", 1)] else none

/-- A tool call in three fragments. -/
def splitCallChunks : List (ChatCompletionsStreamResponse ℕ) :=
  [sampleChunk "" "" [⟨some 0, "call_1", "search", ""⟩] none,
    sampleChunk "" "" [⟨some 0, "", "", "\x7b\"q\":"⟩] none,
    sampleChunk "" "" [⟨some 0, "", "", "1\x7d"⟩] none,
    sampleChunk "" "" [] (some "tool_calls")]

theorem chunking_splitCallChunks : Chunking (sampleChoice "") splitCallChunks where
  length := by decide
  text := rfl
  reasoning := rfl
  fragments := .inl ⟨rfl, by decide, .inr ⟨⟨0, Nat.one_pos, rfl⟩, rfl,
    .inr ⟨⟨0, Nat.one_pos, rfl⟩, rfl, trivial⟩⟩⟩
  calls := rfl
  finished := by decide
  finish := rfl
  ending := fun _ hmem => absurd hmem List.not_mem_nil

theorem same_message_sample : ∃ blocks stopReason,
    Reader.before.readAll
        (oaiStreamHandler (Usage.empty : Usage ℕ) (.initial 10) splitCallChunks) =
      some (.ended blocks stopReason) ∧
    SameMessage sampleUnmarshal [] (sampleChoice "").message
      (responseOpenAI2Claude sampleUnmarshal (sampleResponse (sampleChoice ""))) blocks
      stopReason :=
  (same_message_iff 10 chunking_splitCallChunks rfl).2
    { length := fun _ => by decide
      usage := fun hafter => absurd rfl hafter
      orderly :=
        { content := by decide
          order := by decide
          tools := by
            rintro - _ ⟨rfl⟩
            decide
          calls := by decide
          alone := by
            rintro _ ⟨rfl⟩ -
            exact ⟨rfl, rfl⟩ }
      text := fun hfinish => absurd rfl hfinish
      calls := by
        refine fun _ => ⟨.inl rfl, by decide, ?_⟩
        rintro _ ⟨rfl⟩ -
        rfl }

/-- The whole message has lost the text, and the stream is out of order at the tool call. -/
theorem text_beside_call_not_same :
    Chunking (sampleChoice "Let me look.") callingChunks ∧
      (responseOpenAI2Claude sampleUnmarshal
          (sampleResponse (sampleChoice "Let me look."))).content =
        [.toolUse "call_1" "search" (.object [("q", 1)])] ∧
      ¬ ∃ blocks stopReason,
        Reader.before.readAll
            (oaiStreamHandler (Usage.empty : Usage ℕ) (.initial 10) callingChunks) =
          some (.ended blocks stopReason) ∧
        SameMessage sampleUnmarshal [] (sampleChoice "Let me look.").message
          (responseOpenAI2Claude sampleUnmarshal (sampleResponse (sampleChoice "Let me look.")))
          blocks stopReason := by
  refine ⟨⟨by decide, rfl, rfl, .inl ⟨rfl, by decide, trivial⟩, rfl, by decide, rfl,
    fun _ hmem => absurd hmem List.not_mem_nil⟩, rfl, ?_⟩
  rintro ⟨blocks, stopReason, hended, -⟩
  have hread : Reader.before.readAll
      (oaiStreamHandler (Usage.empty : Usage ℕ) (.initial 10) callingChunks) = none := rfl
  cases hread.symm.trans hended

end NewApi.Model
