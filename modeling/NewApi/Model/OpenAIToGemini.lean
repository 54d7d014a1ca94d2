import NewApi.Model.OpenAIMessage

/-!
# From OpenAI to Gemini

The gateway answers a Gemini client from an OpenAI upstream: `responseOpenAI2Gemini` turns a whole
response into parts, `streamResponseOpenAI2Gemini` every chunk of a stream on its own.  The parts
of a stream are those of the whole response exactly when no tool call is split.
-/

namespace NewApi.Model

open NewApi.Lib NewApi.Lib.Strings

variable {F J : Type}

/-- The values that arguments are parsed into: the objects, `{"arguments": ...}` for a text that
is no object, and the empty one. -/
structure ArgumentFormat (J : Type) where
  unmarshal : String → Option J
  rawArguments : String → J
  noArguments : J

/-- `dto.GeminiPart`, a text or a function call. -/
inductive GeminiPart (J : Type)
  | text (text : String)
  | functionCall (functionName : String) (arguments : J)
deriving DecidableEq

/-- `dto.GeminiChatContent`. -/
structure GeminiChatContent (J : Type) where
  role : String
  parts : List (GeminiPart J)

/-- `dto.GeminiChatCandidate`. -/
structure GeminiChatCandidate (J : Type) where
  index : ℤ
  content : GeminiChatContent J
  finishReason : Option String

structure GeminiUsageMetadata where
  promptTokenCount : ℤ
  candidatesTokenCount : ℤ
  totalTokenCount : ℤ

/-- `dto.GeminiChatResponse`. -/
structure GeminiChatResponse (J : Type) where
  candidates : List (GeminiChatCandidate J)
  usageMetadata : GeminiUsageMetadata

/-- The finish reason as Gemini has it. -/
def geminiFinishReason (finishReason : String) : String :=
  match finishReason with
  | "stop" => "STOP"
  | "length" => "MAX_TOKENS"
  | "content_filter" => "SAFETY"
  | "tool_calls" => "STOP"
  | _ => "STOP"

section Convert

variable (format : ArgumentFormat J)

/-- The parsed arguments of a tool call. -/
def functionArguments (arguments : String) : J :=
  if arguments ≠ "" then
    match format.unmarshal arguments with
    | some args => args
    | none => format.rawArguments arguments
  else format.noArguments

def functionCallPart (name arguments : String) : GeminiPart J :=
  .functionCall name (functionArguments format arguments)

def textParts (textContent : String) : List (GeminiPart J) :=
  if textContent ≠ "" then [.text textContent] else []

/-- The parts of a message: its tool calls, or else its text. -/
def messageParts (message : Message) : List (GeminiPart J) :=
  if 0 < message.toolCalls.length then
    message.toolCalls.map fun toolCall => functionCallPart format toolCall.name toolCall.arguments
  else textParts message.content

/-- The parts of a delta: a slice of tool calls that is not nil hides the text. -/
def deltaParts (delta : ChoiceDelta) : List (GeminiPart J) :=
  match delta.toolCalls with
  | some toolCalls =>
      toolCalls.map fun toolCall => functionCallPart format toolCall.name toolCall.arguments
  | none => textParts delta.getContentString

def responseOpenAI2Gemini (openAIResponse : OpenAITextResponse F) : GeminiChatResponse J where
  candidates := openAIResponse.choices.map fun choice =>
    { index := choice.index
      content := ⟨"model", messageParts format choice.message⟩
      finishReason := some (geminiFinishReason choice.finishReason) }
  usageMetadata :=
    { promptTokenCount := openAIResponse.usage.promptTokens
      candidatesTokenCount := openAIResponse.usage.completionTokens
      totalTokenCount :=
        openAIResponse.usage.promptTokens + openAIResponse.usage.completionTokens }

def streamResponseOpenAI2Gemini (estimatePromptTokens : ℤ)
    (openAIResponse : ChatCompletionsStreamResponse F) : Option (GeminiChatResponse J) :=
  let hasContent := openAIResponse.choices.any fun choice =>
    choice.delta.getContentString ≠ "" || choice.delta.fragments ≠ []
  let hasFinishReason := openAIResponse.choices.any fun choice => choice.finishReason.isSome
  -- The empty chunks at the start of a stream are left out.
  if !hasContent && !hasFinishReason then none
  else some
    { candidates := openAIResponse.choices.map fun choice =>
        { index := choice.index
          content := ⟨"model", deltaParts format choice.delta⟩
          finishReason := choice.finishReason.map geminiFinishReason }
      usageMetadata :=
        match openAIResponse.usage with
        | some usage => ⟨usage.promptTokens, usage.completionTokens, usage.totalTokens⟩
        | none => ⟨estimatePromptTokens, 0, estimatePromptTokens⟩ }

/-- `OaiStreamHandler` for a Gemini client: the responses that are sent. -/
def geminiStream (estimatePromptTokens : ℤ) (chunks : List (ChatCompletionsStreamResponse F)) :
    List (GeminiChatResponse J) :=
  chunks.filterMap (streamResponseOpenAI2Gemini format estimatePromptTokens)

end Convert

/-! ## What a client has -/

namespace GeminiPart

def textContent : GeminiPart J → Option String
  | .text content => some content
  | .functionCall _ _ => none

def call : GeminiPart J → Option (String × J)
  | .text _ => none
  | .functionCall functionName arguments => some (functionName, arguments)

end GeminiPart

/-- The parts of all candidates, one after the other. -/
def partsOf (responses : List (GeminiChatResponse J)) : List (GeminiPart J) :=
  responses.flatMap fun response =>
    response.candidates.flatMap fun candidate => candidate.content.parts

def finishReasonsOf (responses : List (GeminiChatResponse J)) : List String :=
  responses.flatMap fun response =>
    response.candidates.filterMap GeminiChatCandidate.finishReason

/-- The same text, the same function calls in order, and the same finish reason. -/
structure SameAnswer (responses whole : List (GeminiChatResponse J)) : Prop where
  text : concat ((partsOf responses).filterMap GeminiPart.textContent) =
    concat ((partsOf whole).filterMap GeminiPart.textContent)
  calls : (partsOf responses).filterMap GeminiPart.call =
    (partsOf whole).filterMap GeminiPart.call
  finish : finishReasonsOf responses = finishReasonsOf whole

/-- The chunks of a message: its text and its tool calls in pieces, and the finish reason. -/
structure CarryMessage (choice : TextResponseChoice)
    (chunks : List (ChatCompletionsStreamResponse F)) : Prop where
  content : contentOf chunks = choice.message.content
  calls : (reassemble (fragmentsOf chunks)).map Prod.snd = choice.message.toolCalls
  finish : (chunks.flatMap ChatCompletionsStreamResponse.choices).filterMap
    StreamChoice.finishReason = [choice.finishReason]

/-- The streams that are converted as the whole message is: every call is in one fragment, and the
text is in chunks without a slice of tool calls just when the message has no tool call. -/
structure Unsplit (chunks : List (ChatCompletionsStreamResponse F)) : Prop where
  calls : ((fragmentsOf chunks).map ToolCallResponse.index).Nodup
  text : ∀ choice ∈ chunks.flatMap ChatCompletionsStreamResponse.choices,
    choice.delta.getContentString ≠ "" →
      (choice.delta.toolCalls = none ↔ fragmentsOf chunks = [])

/-! ## The parts of a stream -/

section Parts

variable {format : ArgumentFormat J} {delta : ChoiceDelta}
  {chunk : ChatCompletionsStreamResponse F} {chunks : List (ChatCompletionsStreamResponse F)}

/-- The text of a delta that the conversion shows. -/
def ChoiceDelta.shownText (delta : ChoiceDelta) : String :=
  if delta.toolCalls = none then delta.getContentString else ""

theorem concat_textParts (textContent : String) :
    concat ((textParts textContent : List (GeminiPart J)).filterMap GeminiPart.textContent) =
      textContent := by
  unfold textParts
  split
  case isTrue => exact String.append_empty
  case isFalse hempty => exact (not_not.1 hempty).symm

theorem calls_textParts (textContent : String) :
    (textParts textContent : List (GeminiPart J)).filterMap GeminiPart.call = [] := by
  unfold textParts
  split <;> rfl

theorem concat_deltaParts (delta : ChoiceDelta) :
    concat ((deltaParts format delta).filterMap GeminiPart.textContent) = delta.shownText := by
  unfold deltaParts ChoiceDelta.shownText
  cases delta.toolCalls with
  | none => rw [if_pos rfl, concat_textParts]
  | some toolCalls =>
      rw [if_neg (Option.some_ne_none _), List.filterMap_map]
      exact congrArg concat (List.filterMap_eq_nil_iff.2 fun toolCall _ => rfl)

theorem calls_deltaParts (delta : ChoiceDelta) :
    (deltaParts format delta).filterMap GeminiPart.call =
      delta.fragments.map fun toolCall =>
        (toolCall.name, functionArguments format toolCall.arguments) := by
  unfold deltaParts ChoiceDelta.fragments
  cases delta.toolCalls with
  | none => exact calls_textParts delta.getContentString
  | some toolCalls =>
      rw [List.filterMap_map]
      exact congrFun List.filterMap_eq_map toolCalls

/-- A delta without content has no part. -/
theorem deltaParts_empty (hcontent : delta.getContentString = "")
    (hfragments : delta.fragments = []) : deltaParts format delta = [] := by
  unfold deltaParts
  cases htoolCalls : delta.toolCalls with
  | none => exact if_neg (not_not.2 hcontent)
  | some toolCalls =>
      have hnone : toolCalls = [] := by
        rw [ChoiceDelta.fragments, htoolCalls] at hfragments
        exact hfragments
      rw [hnone]
      rfl

/-- What is sent of a chunk has all its parts and its finish reasons; nothing is lost with a chunk
that is left out. -/
theorem streamResponse_parts (estimatePromptTokens : ℤ)
    (chunk : ChatCompletionsStreamResponse F) :
    partsOf (streamResponseOpenAI2Gemini format estimatePromptTokens chunk).toList =
        chunk.choices.flatMap (fun choice => deltaParts format choice.delta) ∧
      finishReasonsOf (streamResponseOpenAI2Gemini format estimatePromptTokens chunk).toList =
        (chunk.choices.filterMap StreamChoice.finishReason).map geminiFinishReason := by
  unfold streamResponseOpenAI2Gemini
  by_cases hskipped : (!(chunk.choices.any fun choice =>
      choice.delta.getContentString ≠ "" || choice.delta.fragments ≠ []) &&
        !(chunk.choices.any fun choice => choice.finishReason.isSome)) = true
  · -- A chunk that is left out has neither content nor a finish reason.
    rw [if_pos hskipped]
    rw [Bool.and_eq_true, Bool.not_eq_true', Bool.not_eq_true', List.any_eq_false,
      List.any_eq_false] at hskipped
    obtain ⟨hcontent, hfinish⟩ := hskipped
    have hparts : chunk.choices.flatMap (fun choice => deltaParts format choice.delta) = [] := by
      refine List.flatMap_eq_nil_iff.2 fun choice hmem => ?_
      have hempty := hcontent choice hmem
      rw [Bool.or_eq_true, not_or, decide_eq_true_eq, decide_eq_true_eq, not_not, not_not]
        at hempty
      exact deltaParts_empty hempty.1 hempty.2
    have hfinishes : chunk.choices.filterMap StreamChoice.finishReason = [] :=
      List.filterMap_eq_nil_iff.2 fun choice hmem =>
        Option.not_isSome_iff_eq_none.1 (hfinish choice hmem)
    rw [hparts, hfinishes]
    exact ⟨rfl, rfl⟩
  · rw [if_neg hskipped]
    constructor
    · rw [Option.toList_some, partsOf, List.flatMap_singleton, List.flatMap_map]
    · rw [Option.toList_some, finishReasonsOf, List.flatMap_singleton, List.filterMap_map,
        List.map_filterMap]
      rfl

theorem geminiStream_eq (estimatePromptTokens : ℤ) :
    geminiStream format estimatePromptTokens chunks = chunks.flatMap fun chunk =>
      (streamResponseOpenAI2Gemini format estimatePromptTokens chunk).toList := by
  rw [geminiStream]
  induction chunks with
  | nil => rfl
  | cons chunk chunks ih =>
      rw [List.flatMap_cons, List.filterMap_cons, ih]
      cases streamResponseOpenAI2Gemini format estimatePromptTokens chunk <;> rfl

/-- The parts of a stream, delta by delta. -/
theorem partsOf_geminiStream (estimatePromptTokens : ℤ) :
    partsOf (geminiStream format estimatePromptTokens chunks) =
      (chunks.flatMap ChatCompletionsStreamResponse.choices).flatMap fun choice =>
        deltaParts format choice.delta := by
  rw [geminiStream_eq, partsOf, List.flatMap_assoc, List.flatMap_assoc]
  exact congrArg chunks.flatMap
    (funext fun chunk => (streamResponse_parts estimatePromptTokens chunk).1)

theorem finishReasonsOf_geminiStream (estimatePromptTokens : ℤ) :
    finishReasonsOf (geminiStream format estimatePromptTokens chunks) =
      ((chunks.flatMap ChatCompletionsStreamResponse.choices).filterMap
        StreamChoice.finishReason).map geminiFinishReason := by
  rw [geminiStream_eq, finishReasonsOf, List.flatMap_assoc, List.filterMap_flatMap,
    List.map_flatMap]
  exact congrArg chunks.flatMap
    (funext fun chunk => (streamResponse_parts estimatePromptTokens chunk).2)

end Parts

/-! ## The stream and the whole message -/

section Same

variable {format : ArgumentFormat J} {chunks : List (ChatCompletionsStreamResponse F)}
  {choice : TextResponseChoice} {response : OpenAITextResponse F} {delta : ChoiceDelta}

theorem partsOf_response (hchoices : response.choices = [choice]) :
    partsOf [responseOpenAI2Gemini format response] = messageParts format choice.message := by
  rw [partsOf, List.flatMap_singleton, responseOpenAI2Gemini, hchoices, List.map_singleton,
    List.flatMap_singleton]

/-- A message with tool calls shows no text. -/
theorem concat_messageParts (message : Message) :
    concat ((messageParts format message).filterMap GeminiPart.textContent) =
      if message.toolCalls = [] then message.content else "" := by
  unfold messageParts
  by_cases hcalls : message.toolCalls = []
  · have hlength : ¬ 0 < message.toolCalls.length := by
      rw [hcalls]
      exact Nat.lt_irrefl 0
    rw [if_neg hlength, if_pos hcalls, concat_textParts]
  · rw [if_pos (List.length_pos_iff.2 hcalls), if_neg hcalls, List.filterMap_map]
    exact congrArg concat (List.filterMap_eq_nil_iff.2 fun toolCall _ => rfl)

theorem calls_messageParts (message : Message) :
    (messageParts format message).filterMap GeminiPart.call = message.toolCalls.map
      fun toolCall => (toolCall.name, functionArguments format toolCall.arguments) := by
  unfold messageParts
  by_cases hcalls : message.toolCalls = []
  · have hlength : ¬ 0 < message.toolCalls.length := by
      rw [hcalls]
      exact Nat.lt_irrefl 0
    rw [if_neg hlength, hcalls]
    exact calls_textParts message.content
  · rw [if_pos (List.length_pos_iff.2 hcalls), List.filterMap_map]
    exact congrFun List.filterMap_eq_map message.toolCalls

theorem concat_geminiStream (estimatePromptTokens : ℤ) :
    concat ((partsOf (geminiStream format estimatePromptTokens chunks)).filterMap
        GeminiPart.textContent) =
      concat ((chunks.flatMap ChatCompletionsStreamResponse.choices).map
        fun choice => choice.delta.shownText) := by
  rw [partsOf_geminiStream, List.filterMap_flatMap, concat_flatMap]
  simp only [concat_deltaParts]

theorem calls_geminiStream (estimatePromptTokens : ℤ) :
    (partsOf (geminiStream format estimatePromptTokens chunks)).filterMap GeminiPart.call =
      (fragmentsOf chunks).map fun toolCall =>
        (toolCall.name, functionArguments format toolCall.arguments) := by
  rw [partsOf_geminiStream, List.filterMap_flatMap, fragmentsOf_eq, List.map_flatMap]
  simp only [calls_deltaParts]

theorem shownText_visible (delta : ChoiceDelta) :
    delta.shownText = delta.getContentString ∨ delta.shownText = "" :=
  ite_eq_or_eq ..

theorem shownText_eq_content_iff :
    delta.shownText = delta.getContentString ↔
      (delta.getContentString ≠ "" → delta.toolCalls = none) := by
  unfold ChoiceDelta.shownText
  split
  case isTrue hnone => exact iff_of_true rfl fun _ => hnone
  case isFalse hsome => rw [eq_comm, ← not_imp_not, not_not]; exact (imp_iff_right hsome).symm

theorem shownText_eq_empty_iff :
    delta.shownText = "" ↔ (delta.getContentString ≠ "" → delta.toolCalls ≠ none) := by
  unfold ChoiceDelta.shownText
  split
  case isTrue hnone => rw [not_imp_not]; exact (imp_iff_right hnone).symm
  case isFalse hsome => exact iff_of_true rfl fun _ => hsome

/-- The function calls are the same when no call is split. -/
theorem calls_same_iff :
    (fragmentsOf chunks).map (fun toolCall =>
          (toolCall.name, functionArguments format toolCall.arguments)) =
        ((reassemble (fragmentsOf chunks)).map Prod.snd).map (fun toolCall =>
          (toolCall.name, functionArguments format toolCall.arguments)) ↔
      ((fragmentsOf chunks).map ToolCallResponse.index).Nodup := by
  constructor
  · -- As many calls as fragments means one fragment for each call.
    intro hsame
    have hlength := congrArg List.length hsame
    rw [List.length_map, List.length_map, List.length_map] at hlength
    exact nodup_of_length_reassemble hlength.symm
  · intro hnodup
    rw [reassemble_of_nodup hnodup, List.map_map, List.map_map]
    rfl

/-- The text is the same when it is shown just for a message without tool calls. -/
theorem text_same_iff :
    concat ((chunks.flatMap ChatCompletionsStreamResponse.choices).map
          fun choice => choice.delta.shownText) =
        (if fragmentsOf chunks = [] then contentOf chunks else "") ↔
      ∀ choice ∈ chunks.flatMap ChatCompletionsStreamResponse.choices,
        choice.delta.getContentString ≠ "" →
          (choice.delta.toolCalls = none ↔ fragmentsOf chunks = []) := by
  by_cases hfragments : fragmentsOf chunks = []
  · -- No call: the whole text is to be shown.
    rw [if_pos hfragments, contentOf_eq, ← String.append_empty (s := concat (List.map
      (fun choice : StreamChoice => choice.delta.getContentString) _)),
      concat_eq_append_iff fun choice _ => shownText_visible choice.delta, and_iff_left rfl]
    refine forall₂_congr fun choice _ => ?_
    rw [shownText_eq_content_iff, iff_true_right hfragments]
  · -- Calls: no text is to be shown.
    rw [if_neg hfragments, concat_map_eq_empty]
    refine forall₂_congr fun choice _ => ?_
    rw [shownText_eq_empty_iff, iff_false_right hfragments]

/-- A Gemini client has the same answer from the stream and from the whole response exactly when
no tool call is split, and the text is shown just for a message without tool calls. -/
theorem same_answer_iff (estimatePromptTokens : ℤ) (hcarry : CarryMessage choice chunks)
    (hchoices : response.choices = [choice]) :
    SameAnswer (geminiStream format estimatePromptTokens chunks)
        [responseOpenAI2Gemini format response] ↔
      Unsplit chunks := by
  have hnone : choice.message.toolCalls = [] ↔ fragmentsOf chunks = [] := by
    rw [← hcarry.calls, List.map_eq_nil_iff, reassemble_nil_iff]
  have htext : concat ((partsOf [responseOpenAI2Gemini format response]).filterMap
      GeminiPart.textContent) = if fragmentsOf chunks = [] then contentOf chunks else "" := by
    rw [partsOf_response hchoices, concat_messageParts, hcarry.content]
    simp only [hnone]
  have hcalls : (partsOf [responseOpenAI2Gemini format response]).filterMap GeminiPart.call =
      ((reassemble (fragmentsOf chunks)).map Prod.snd).map fun toolCall =>
        (toolCall.name, functionArguments format toolCall.arguments) := by
    rw [partsOf_response hchoices, calls_messageParts, hcarry.calls]
  constructor
  · rintro ⟨htexts, hcall, -⟩
    rw [concat_geminiStream, htext] at htexts
    rw [calls_geminiStream, hcalls] at hcall
    exact ⟨calls_same_iff.1 hcall, text_same_iff.1 htexts⟩
  · rintro ⟨hnodup, hshown⟩
    refine ⟨?_, ?_, ?_⟩
    · rw [concat_geminiStream, htext]
      exact text_same_iff.2 hshown
    · rw [calls_geminiStream, hcalls]
      exact calls_same_iff.2 hnodup
    · -- The finish reason is always the same.
      rw [finishReasonsOf_geminiStream, hcarry.finish, finishReasonsOf, List.flatMap_singleton,
        responseOpenAI2Gemini, hchoices]
      rfl

end Same

/-- Objects by their fields, for the arguments of the samples. -/
def fieldFormat : ArgumentFormat (List (String × String)) where
  unmarshal arguments := if arguments = "\x7b\"q\":1\x7d" then some [("q", "1")] else none
  rawArguments arguments := [("arguments", arguments)]
  noArguments := []

/-- A chunk of one choice without text. -/
def callChunk (toolCalls : Option (List ToolCallResponse)) (finishReason : Option String) :
    ChatCompletionsStreamResponse ℕ where
  id := "chatcmpl-1"
  model := "gpt"
  choices :=
    [{ index := 0
       delta := { ChoiceDelta.empty with toolCalls := toolCalls }
       finishReason := finishReason }]
  usage := none

/-- The choice with one tool call. -/
def searchChoice : TextResponseChoice where
  index := 0
  message := ⟨"", "", [⟨"call_1", "search", "\x7b\"q\":1\x7d"⟩]⟩
  finishReason := "tool_calls"

def searchResponse : OpenAITextResponse ℕ where
  id := "chatcmpl-1"
  model := "gpt"
  choices := [searchChoice]
  usage := ⟨10, 5, 15, 0, 0, 0, 0, 0, 0, 0, 0, 0, none⟩

/-- The call in the given fragments. -/
def searchChunks (fragments : List ToolCallResponse) : List (ChatCompletionsStreamResponse ℕ) :=
  callChunk none none :: fragments.map (fun fragment => callChunk (some [fragment]) none) ++
    [callChunk none (some "tool_calls")]

theorem same_answer_sample :
    SameAnswer
      (geminiStream fieldFormat 10 (searchChunks [⟨some 0, "call_1", "search", "\x7b\"q\":1\x7d"⟩]))
      [responseOpenAI2Gemini fieldFormat searchResponse] :=
  have hcarry : CarryMessage searchChoice
      (searchChunks [⟨some 0, "call_1", "search", "\x7b\"q\":1\x7d"⟩]) := ⟨rfl, rfl, rfl⟩
  (same_answer_iff 10 hcarry rfl).2 ⟨by decide, by decide⟩

/-- Every fragment of a split call becomes a function call of its own. -/
theorem split_call_not_same :
    let chunks := searchChunks [⟨some 0, "call_1", "search", ""⟩, ⟨some 0, "", "", "\x7b\"q\":"⟩,
      ⟨some 0, "", "", "1\x7d"⟩]
    CarryMessage searchChoice chunks ∧
      partsOf [responseOpenAI2Gemini fieldFormat searchResponse] =
        [.functionCall "search" [("q", "1")]] ∧
      partsOf (geminiStream fieldFormat 10 chunks) =
        [.functionCall "search" [], .functionCall "" [("arguments", "\x7b\"q\":")],
          .functionCall "" [("arguments", "1\x7d")]] ∧
      ¬ SameAnswer (geminiStream fieldFormat 10 chunks)
        [responseOpenAI2Gemini fieldFormat searchResponse] := by
  refine ⟨⟨rfl, rfl, rfl⟩, rfl, rfl, fun hsame => ?_⟩
  have hcalls := congrArg List.length hsame.calls
  revert hcalls
  decide

end NewApi.Model
