import Mathlib.Data.List.TakeWhile
import NewApi.Model.ResponsesTold

/-!
# The stream and the final object

The chunks of a stream carry the fragments of the calls told before the first text, and all the
text. They fold to the choice that the final object is converted to when no call stands before a
text, and, where there is no text, when the calls are begun in their order and under their own ids.
-/

namespace NewApi.Model

open NewApi.Lib NewApi.Lib.Strings

namespace OpenAIResponsesResponse

/-- The items that are function calls. -/
def functionCalls (resp : OpenAIResponsesResponse) : List ResponsesOutput :=
  resp.output.filter fun out => out.type = "function_call"

/-- The texts of all the items. -/
def outputText (resp : OpenAIResponsesResponse) : String :=
  concat (resp.output.flatMap fun out => out.content.map ResponsesOutputContent.text)

/-- An object whose texts are output texts of the assistant's messages, and whose calls are told
apart by their ids. -/
structure WellFormed (resp : OpenAIResponsesResponse) : Prop where
  text : ∀ out ∈ resp.output, ∀ c ∈ out.content, c.text = "" ∨
    out.type = "message" ∧ (out.role = "" ∨ out.role = "assistant") ∧ c.type = "output_text"
  calls : DistinctCalls resp.functionCalls

end OpenAIResponsesResponse

/-- The events tell the output text of an object in pieces, and each of its calls. -/
structure TellsResponse (resp : OpenAIResponsesResponse) (told : List Told) : Prop where
  call : ∀ t ∈ told, ∀ call ∈ t.call, call ∈ resp.functionCalls
  aside : ∀ event, .aside event ∈ told → event.IsAside
  text : concat (told.map Told.delta) = resp.outputText
  reports : ∀ call ∈ resp.functionCalls,
    AddsUpTo call.arguments "" false (told.filterMap (Told.part call))

/-- The events of a stream, up to the final object. -/
def responsesStream (resp : OpenAIResponsesResponse) (told : List Told) :
    List ResponsesStreamEvent :=
  told.map Told.event ++ [.completed (some resp)]

/-- What a client puts together from the chunks of a stream is a choice of a whole answer. -/
structure FoldsTo {F : Type} (chunks : List (ChatCompletionsStreamResponse F))
    (choice : TextResponseChoice) : Prop where
  content : contentOf chunks = choice.message.content
  toolCalls : joinFragments (fragmentsOf chunks) = numberCalls 0 choice.message.toolCalls
  finishReason : finishReasonOf chunks = some choice.finishReason

/-- The stream that the handler makes of the events is the answer that is made of
the final object. -/
def StreamAgrees {F : Type} (ctx : ResponsesChatContext F) (resp : OpenAIResponsesResponse)
    (told : List Told) : Prop :=
  ∃ chunks choice,
    oaiResponsesToChatStreamHandler ctx (responsesStream resp told) = .ok chunks ∧
    (responsesResponseToChatCompletionsResponse resp ctx.responseId : OpenAITextResponse F).choices =
      [choice] ∧
    FoldsTo chunks choice

/-- The events before the first text. -/
def beforeText (told : List Told) : List Told :=
  told.takeWhile fun t => t.delta = ""

/-- No call is told before the text; without a text the calls are begun in their order, and none
begins with a piece of its arguments unless it is named like its item. -/
def AgreesWhen (resp : OpenAIResponsesResponse) (told : List Told) : Prop :=
  if resp.outputText ≠ "" then ∀ t ∈ beforeText told, t.call = none
  else (told.filterMap Told.call).eraseDups = resp.functionCalls ∧
    ∀ call ∈ resp.functionCalls,
      call.toolCallID = call.itemID ∨ ¬BeginsEarly (told.filterMap (Told.part call))

theorem beforeText_cons_of_eq {t : Told} {told : List Told} (hdelta : t.delta = "") :
    beforeText (t :: told) = t :: beforeText told :=
  List.takeWhile_cons_of_pos (decide_eq_true hdelta)

theorem beforeText_cons_of_ne {t : Told} {told : List Told} (hdelta : t.delta ≠ "") :
    beforeText (t :: told) = [] :=
  List.takeWhile_cons_of_neg (by simpa using hdelta)

instance (resp : OpenAIResponsesResponse) (told : List Told) : Decidable (AgreesWhen resp told) :=
  inferInstanceAs (Decidable (if resp.outputText ≠ "" then _ else _))

/-- The call that an item is converted to. -/
def ResponsesOutput.wholeCall (out : ResponsesOutput) : ToolCall :=
  ⟨out.toolCallID, trimSpace out.name, out.arguments⟩

section

variable {F : Type} {ctx : ResponsesChatContext F} {resp : OpenAIResponsesResponse}
  {told : List Told}
  {calls : List ResponsesOutput}

/-! ## The final object -/

/-- The output text is all the text there is. -/
theorem OpenAIResponsesResponse.WellFormed.extractOutputText_eq (hresp : resp.WellFormed) :
    extractOutputTextFromResponses resp = resp.outputText := by
  have hsame : concat (resp.output.flatMap fun out =>
      if out.type ≠ "message" then []
      else if out.role ≠ "" ∧ out.role ≠ "assistant" then []
      else (out.content.filter fun c => c.type = "output_text").map ResponsesOutputContent.text) =
      resp.outputText := by
    rw [OpenAIResponsesResponse.outputText, concat_flatMap, concat_flatMap]
    refine congrArg concat (List.map_congr_left fun out hout => ?_)
    have htext := hresp.text out hout
    split
    case isTrue hother =>
      refine (concat_map_eq_empty.2 fun c hc => ?_).symm
      exact (htext c hc).resolve_right fun h => hother h.1
    case isFalse hmessage =>
      split
      case isTrue hother =>
        refine (concat_map_eq_empty.2 fun c hc => ?_).symm
        exact (htext c hc).resolve_right fun h => h.2.1.elim hother.1 hother.2
      case isFalse hassistant =>
        refine concat_map_filter fun c hc => ?_
        exact (htext c hc).imp_right fun h => decide_eq_true h.2.2
  rw [extractOutputTextFromResponses, hsame]
  exact ite_self _

/-- Every function call is converted, when there is no text. -/
theorem wholeCalls_eq (hcalls : DistinctCalls resp.functionCalls) :
    resp.output.filterMap ResponsesOutput.toolCall =
      resp.functionCalls.map ResponsesOutput.wholeCall := by
  have hcall : ∀ out ∈ resp.functionCalls, out.toolCall = some out.wholeCall := by
    intro out hout
    have htype : ¬out.type ≠ "function_call" := not_not.2 (hcalls.functionCall out hout)
    rw [ResponsesOutput.toolCall, if_neg htype]
    exact if_neg (hcalls.name out hout)
  have hmap : resp.functionCalls.filterMap ResponsesOutput.toolCall =
      resp.functionCalls.map ResponsesOutput.wholeCall := by
    rw [← List.filterMap_eq_map]
    exact List.filterMap_congr hcall
  rw [← hmap, OpenAIResponsesResponse.functionCalls, List.filterMap_filter]
  refine List.filterMap_congr fun out _ => ?_
  split
  case isTrue htype => rfl
  case isFalse htype => exact if_pos (by simpa using htype)

/-- The choice that the final object is converted to. -/
theorem choices_eq (hresp : resp.WellFormed) (id : String) :
    (responsesResponseToChatCompletionsResponse resp id : OpenAITextResponse F).choices =
      [{ index := 0
         message :=
           { content := resp.outputText
             reasoningContent := ""
             toolCalls :=
               if resp.outputText = "" then resp.functionCalls.map
                 ResponsesOutput.wholeCall else [] }
         finishReason :=
           if resp.outputText = "" ∧ resp.functionCalls ≠ [] then "tool_calls" else "stop" }] := by
  rw [responsesResponseToChatCompletionsResponse, hresp.extractOutputText_eq, wholeCalls_eq hresp.calls]
  by_cases htext : resp.outputText = ""
  · by_cases hcalls : resp.functionCalls = []
    · simp [htext, hcalls]
    · simp [htext, hcalls]
  · simp [htext]

/-! ## The chunks of an event -/

namespace ResponsesChatState

variable {s s' s'' : ResponsesChatState F} {callID name argsDelta : String}

/-- The handler goes on with some text and some fragments. -/
structure Emits (s s' : ResponsesChatState F) (text : String) (tools : List ToolCallResponse) :
    Prop where
  outputText : s'.outputText = s.outputText ++ text
  sawToolCall : s'.sawToolCall = (s.sawToolCall || !tools.isEmpty)
  sentStop : s'.sentStop = s.sentStop
  content : contentOf s'.chunks = contentOf s.chunks ++ text
  fragments : fragmentsOf s'.chunks = fragmentsOf s.chunks ++ tools
  finishReason : finishReasonOf s'.chunks = finishReasonOf s.chunks

theorem Emits.refl (s : ResponsesChatState F) : s.Emits s "" [] :=
  ⟨String.append_empty.symm, (Bool.or_false _).symm, rfl, String.append_empty.symm,
    (List.append_nil _).symm, rfl⟩

theorem Emits.trans {text text' : String} {tools tools' : List ToolCallResponse}
    (hfirst : s.Emits s' text tools) (hlast : s'.Emits s'' text' tools') :
    s.Emits s'' (text ++ text') (tools ++ tools') where
  outputText := by rw [hlast.outputText, hfirst.outputText, String.append_assoc]
  sawToolCall := by
    rw [hlast.sawToolCall, hfirst.sawToolCall, Bool.or_assoc]
    cases tools with
    | nil => rfl
    | cons tool tools => rfl
  sentStop := hlast.sentStop.trans hfirst.sentStop
  content := by rw [hlast.content, hfirst.content, String.append_assoc]
  fragments := by rw [hlast.fragments, hfirst.fragments, List.append_assoc]
  finishReason := hlast.finishReason.trans hfirst.finishReason

/-- What comes after nothing. -/
theorem Emits.after {text : String} {tools : List ToolCallResponse} (hfirst : s.Emits s' "" [])
    (hlast : s'.Emits s'' text tools) : s.Emits s'' text tools := by
  have hboth := hfirst.trans hlast
  rwa [String.empty_append, List.nil_append] at hboth

theorem contentOf_sendChunk (delta : ChoiceDelta) (finishReason : Option String) :
    contentOf (s.sendChunk ctx delta finishReason).chunks =
      contentOf s.chunks ++ delta.getContentString := by
  rw [sendChunk, contentOf_append]
  exact congrArg _ String.append_empty

theorem fragmentsOf_sendChunk (delta : ChoiceDelta) (finishReason : Option String) :
    fragmentsOf (s.sendChunk ctx delta finishReason).chunks =
      fragmentsOf s.chunks ++ delta.fragments := by
  rw [sendChunk, fragmentsOf_append]
  refine congrArg _ ?_
  show (delta.fragments ++ []) ++ [] = delta.fragments
  rw [List.append_nil, List.append_nil]

theorem finishReasonOf_sendChunk (delta : ChoiceDelta) (finishReason : Option String) :
    finishReasonOf (s.sendChunk ctx delta finishReason).chunks =
      finishReason.or (finishReasonOf s.chunks) := by
  rw [sendChunk, finishReasonOf_append]
  cases finishReason <;> rfl

theorem emits_start (ctx : ResponsesChatContext F) (s : ResponsesChatState F) :
    s.Emits (s.sendStartIfNeeded ctx) "" [] ∧ (s.sendStartIfNeeded ctx).maps = s.maps := by
  rw [sendStartIfNeeded]
  split
  · exact ⟨.refl s, rfl⟩
  · exact ⟨⟨String.append_empty.symm, (Bool.or_false _).symm, rfl, contentOf_sendChunk _ _,
      fragmentsOf_sendChunk _ _, finishReasonOf_sendChunk _ _⟩, rfl⟩

/-- The fragment of a call. -/
theorem emits_toolCall (ctx : ResponsesChatContext F) (name argsDelta : String)
    (hs : s.outputText = "") (hid : callID ≠ "") :
    s.Emits (s.sendToolCallDelta ctx callID name argsDelta) ""
        [(s.maps.send callID name argsDelta).2] ∧
      (s.sendToolCallDelta ctx callID name argsDelta).maps =
        (s.maps.send callID name argsDelta).1 := by
  obtain ⟨hstart, hmaps⟩ := emits_start ctx s
  rw [sendToolCallDelta, if_neg hid, if_neg (not_not.2 hs), ← hmaps]
  exact ⟨hstart.after ⟨String.append_empty.symm, (Bool.or_true _).symm, rfl, contentOf_sendChunk _ _,
    fragmentsOf_sendChunk _ _, finishReasonOf_sendChunk _ _⟩, rfl⟩

/-- Once there is text, no tool call is sent. -/
theorem sendToolCallDelta_of_text (hs : s.outputText ≠ "") :
    s.sendToolCallDelta ctx callID name argsDelta = s := by
  rw [sendToolCallDelta, if_pos hs, ite_self]

/-- Changed maps send nothing. -/
theorem Emits.of_maps {maps : ToolCallMaps} {text : String} {tools : List ToolCallResponse}
    (hemits : { s with maps := maps }.Emits s' text tools) : s.Emits s' text tools :=
  ⟨hemits.outputText, hemits.sawToolCall, hemits.sentStop, hemits.content, hemits.fragments,
    hemits.finishReason⟩

/-- A Responses object that names a model sends nothing. -/
theorem emits_setModel (s : ResponsesChatState F) (response : Option OpenAIResponsesResponse) :
    s.Emits (s.setModel response) "" [] ∧ (s.setModel response).maps = s.maps := by
  cases response with
  | none => exact ⟨.refl s, rfl⟩
  | some response =>
      have hself := Emits.refl s
      rw [setModel]
      split
      · exact ⟨⟨hself.outputText, hself.sawToolCall, hself.sentStop, hself.content, hself.fragments,
          hself.finishReason⟩, rfl⟩
      · exact ⟨hself, rfl⟩

/-! ## The steps -/

theorem step_aside (ctx : ResponsesChatContext F) (s : ResponsesChatState F)
    {event : ResponsesStreamEvent} (haside : event.IsAside) :
    ∃ s', s.step ctx event = .ok s' ∧ s.Emits s' "" [] ∧ s'.maps = s.maps := by
  have hitem : ∀ item : Option ResponsesOutput, (∀ out ∈ item, out.type ≠ "function_call") →
      s.outputItem ctx item = s := by
    intro item hother
    cases item with
    | none => rfl
    | some out => exact if_pos (hother out rfl)
  cases event with
  | created response => exact ⟨_, rfl, emits_setModel s response⟩
  | outputItemAdded item => exact ⟨s, congrArg Except.ok (hitem item haside), .refl s, rfl⟩
  | outputItemDone item => exact ⟨s, congrArg Except.ok (hitem item haside), .refl s, rfl⟩
  | functionCallArgumentsDone => exact ⟨s, rfl, .refl s, rfl⟩
  | other type => exact ⟨s, rfl, .refl s, rfl⟩
  | outputTextDelta delta => cases haside
  | functionCallArgumentsDelta itemId delta => cases haside
  | completed response => cases haside
  | failed type response => cases haside

theorem step_text (ctx : ResponsesChatContext F) (s : ResponsesChatState F) (delta : String) :
    ∃ s', s.step ctx (.outputTextDelta delta) = .ok s' ∧ s.Emits s' delta [] ∧
      s'.maps = s.maps := by
  obtain ⟨hstart, hmaps⟩ := emits_start ctx s
  by_cases hdelta : delta = ""
  · refine ⟨s.sendStartIfNeeded ctx, if_neg (not_not.2 hdelta), ?_, hmaps⟩
    rw [hdelta]
    exact hstart
  · exact ⟨_, if_pos hdelta, hstart.after ⟨rfl, (Bool.or_false _).symm, rfl, contentOf_sendChunk _ _,
      fragmentsOf_sendChunk _ _, finishReasonOf_sendChunk _ _⟩, hmaps⟩

/-- While there is no text, an event is told to the maps, and its fragment is sent. -/
theorem step_beforeText (ctx : ResponsesChatContext F) {t : Told} (hcalls : DistinctCalls calls)
    (hs : s.outputText = "")
    (hcall : ∀ call ∈ t.call, call ∈ calls) (haside : ∀ event, t = .aside event → event.IsAside) :
    ∃ s', s.step ctx t.event = .ok s' ∧ s.Emits s' t.delta (t.tell s.maps).2.toList ∧
      s'.maps = (t.tell s.maps).1 := by
  cases t with
  | text delta => exact step_text ctx s delta
  | aside event => exact step_aside ctx s (haside event rfl)
  | item done call arguments =>
      have hmem := hcall call rfl
      have htype : ¬call.type ≠ "function_call" := not_not.2 (hcalls.functionCall call hmem)
      let item := { call with arguments := arguments }
      obtain ⟨hemits, hmaps⟩ := emits_toolCall ctx (s := { s with maps := (s.maps.item item).1 })
        (s.maps.item item).2.2.1 (s.maps.item item).2.2.2 hs (toolCallID_ne hcalls hmem)
      refine ⟨s.outputItem ctx (some item), ?_, ?_, ?_⟩
      · cases done <;> rfl
      · rw [outputItem, if_neg htype]
        exact hemits.of_maps
      · rw [outputItem, if_neg htype]
        exact hmaps
  | piece call delta =>
      have hid : s.maps.callOfItem call.id ≠ "" := callOfItem_ne_empty hcalls (hcall call rfl)
      let callID := s.maps.callOfItem call.id
      let argsByID := Function.update s.maps.argsByID callID (s.maps.argsByID callID ++ delta)
      obtain ⟨hemits, hmaps⟩ := emits_toolCall ctx
        (s := { s with maps := { s.maps with argsByID := argsByID } }) "" delta hs hid
      exact ⟨_, if_neg hid, hemits.of_maps, hmaps⟩

/-- Once there is text, an event only adds text. -/
theorem step_afterText (ctx : ResponsesChatContext F) {t : Told} (hs : s.outputText ≠ "")
    (haside : ∀ event, t = .aside event → event.IsAside) :
    ∃ s', s.step ctx t.event = .ok s' ∧ s.Emits s' t.delta [] := by
  have hsilent : ∀ (maps : ToolCallMaps) (callID name argsDelta : String),
      s.Emits ({ s with maps := maps }.sendToolCallDelta ctx callID name argsDelta) "" [] := by
    intro maps callID name argsDelta
    rw [sendToolCallDelta_of_text (s := { s with maps := maps }) hs]
    exact (Emits.refl { s with maps := maps }).of_maps
  cases t with
  | text delta =>
      obtain ⟨s', hstep, hemits, -⟩ := step_text ctx s delta
      exact ⟨s', hstep, hemits⟩
  | aside event =>
      obtain ⟨s', hstep, hemits, -⟩ := step_aside ctx s (haside event rfl)
      exact ⟨s', hstep, hemits⟩
  | item done call arguments =>
      refine ⟨s.outputItem ctx (some { call with arguments := arguments }), ?_, ?_⟩
      · cases done <;> rfl
      · rw [outputItem]
        split
        · exact .refl s
        · exact hsilent _ _ _ _
  | piece call delta =>
      by_cases hid : s.maps.callOfItem call.id = ""
      · exact ⟨s, if_pos hid, .refl s⟩
      · exact ⟨_, if_neg hid, hsilent _ _ _ _⟩

/-! ## The run -/

theorem run_afterText (ctx : ResponsesChatContext F) (hs : s.outputText ≠ "")
    (haside : ∀ event, .aside event ∈ told → event.IsAside) :
    ∃ s', (told.map Told.event).foldlM (step ctx) s = .ok s' ∧
      s.Emits s' (concat (told.map Told.delta)) [] := by
  induction told generalizing s with
  | nil => exact ⟨s, rfl, .refl s⟩
  | cons t told ih =>
      obtain ⟨s', hstep, hemits⟩ := step_afterText ctx (t := t) hs fun event ht =>
        haside event (by rw [ht]; exact List.mem_cons_self)
      have hs' : s'.outputText ≠ "" := by
        rw [hemits.outputText]
        exact fun h => hs (String.append_eq_empty_iff.1 h).1
      obtain ⟨s'', hrun, hlater⟩ := ih hs' fun event hmem => haside event (List.mem_cons_of_mem _ hmem)
      refine ⟨s'', ?_, hemits.trans hlater⟩
      rw [List.map_cons, List.foldlM_cons, hstep]
      exact hrun

/-- A run sends the fragments of what is told before the text. -/
theorem run_told (ctx : ResponsesChatContext F) (hcalls : DistinctCalls calls)
    (hs : s.outputText = "")
    (hcall : ∀ t ∈ told, ∀ call ∈ t.call, call ∈ calls)
    (haside : ∀ event, .aside event ∈ told → event.IsAside) :
    ∃ s', (told.map Told.event).foldlM (step ctx) s = .ok s' ∧
      s.Emits s' (concat (told.map Told.delta)) (Told.tellAll s.maps (beforeText told)).2 := by
  induction told generalizing s with
  | nil => exact ⟨s, rfl, .refl s⟩
  | cons t told ih =>
      obtain ⟨hcall, hcall'⟩ := List.forall_mem_cons.1 hcall
      have haside' : ∀ event, .aside event ∈ told → event.IsAside := fun event hmem =>
        haside event (List.mem_cons_of_mem _ hmem)
      obtain ⟨s', hstep, hemits, hmaps⟩ := step_beforeText ctx hcalls hs hcall fun event ht =>
        haside event (by rw [ht]; exact List.mem_cons_self)
      by_cases hdelta : t.delta = ""
      · have hs' : s'.outputText = "" := by
          rw [hemits.outputText, hs, hdelta, String.append_empty]
        obtain ⟨s'', hrun, hlater⟩ := ih hs' hcall' haside'
        refine ⟨s'', ?_, ?_⟩
        · rw [List.map_cons, List.foldlM_cons, hstep]
          exact hrun
        · rw [hmaps] at hlater
          rw [beforeText_cons_of_eq hdelta]
          exact hemits.trans hlater
      · -- the first text: from here on no call is sent
        have hs' : s'.outputText ≠ "" := by
          rw [hemits.outputText, hs, String.empty_append]
          exact hdelta
        obtain ⟨s'', hrun, hlater⟩ := run_afterText ctx hs' haside'
        refine ⟨s'', ?_, ?_⟩
        · rw [List.map_cons, List.foldlM_cons, hstep]
          exact hrun
        · rw [beforeText_cons_of_ne hdelta]
          cases t with
          | text delta => exact hemits.trans hlater
          | item done call arguments => exact absurd rfl hdelta
          | piece call delta => exact absurd rfl hdelta
          | aside event => exact absurd rfl hdelta

/-- The stop chunk names the finish reason. -/
theorem sendStop_of_unsent (ctx : ResponsesChatContext F) (hs : s.sentStop = false) :
    (s.sendStop ctx).sentStop = true ∧ contentOf (s.sendStop ctx).chunks = contentOf s.chunks ∧
      fragmentsOf (s.sendStop ctx).chunks = fragmentsOf s.chunks ∧
      finishReasonOf (s.sendStop ctx).chunks =
        some (if s.sawToolCall && s.outputText = "" then "tool_calls" else "stop") := by
  rw [sendStop, hs, if_neg Bool.false_ne_true]
  exact ⟨rfl, (contentOf_sendChunk _ _).trans String.append_empty,
    (fragmentsOf_sendChunk _ _).trans (List.append_nil _), finishReasonOf_sendChunk _ _⟩

/-- The final object ends the stream. -/
theorem step_completed (ctx : ResponsesChatContext F) (hs : s.sentStop = false)
    (response : Option OpenAIResponsesResponse) :
    ∃ s', s.step ctx (.completed response) = .ok s' ∧ s'.sentStop = true ∧
      contentOf s'.chunks = contentOf s.chunks ∧ fragmentsOf s'.chunks = fragmentsOf s.chunks ∧
      finishReasonOf s'.chunks =
        some (if s.sawToolCall && s.outputText = "" then "tool_calls" else "stop") := by
  let named := s.setModel response
  let counted :=
    { named with usage := named.usage.ofResponses (response.bind OpenAIResponsesResponse.usage) }
  have hnamed : s.Emits named "" [] := (emits_setModel s response).1
  have hcounted : s.Emits counted "" [] :=
    ⟨hnamed.outputText, hnamed.sawToolCall, hnamed.sentStop, hnamed.content, hnamed.fragments,
      hnamed.finishReason⟩
  have hemits := hcounted.after (emits_start ctx counted).1
  obtain ⟨hstop, hcontent, hfragments, hreason⟩ :=
    sendStop_of_unsent ctx (hemits.sentStop.trans hs)
  refine ⟨_, rfl, hstop, ?_, ?_, ?_⟩
  · rw [hcontent, hemits.content, String.append_empty]
  · rw [hfragments, hemits.fragments, List.append_nil]
  · rw [hreason, hemits.outputText, hemits.sawToolCall, String.append_empty]
    simp

/-- After the stop chunk only the usage is sent. -/
theorem finish_of_sent (ctx : ResponsesChatContext F) (hs : s.sentStop = true) :
    contentOf (s.finish ctx).chunks = contentOf s.chunks ∧
      fragmentsOf (s.finish ctx).chunks = fragmentsOf s.chunks ∧
      finishReasonOf (s.finish ctx).chunks = finishReasonOf s.chunks := by
  let usage := if s.usage.totalTokens = 0 then ctx.responseText2Usage s.usageText else s.usage
  obtain ⟨hstart, -⟩ := emits_start ctx { s with usage := usage }
  have hsent : (sendStartIfNeeded ctx { s with usage := usage }).sendStop ctx =
      sendStartIfNeeded ctx { s with usage := usage } :=
    if_pos (hstart.sentStop.trans hs)
  have hcontent := hstart.content.trans String.append_empty
  have hfragments := hstart.fragments.trans (List.append_nil _)
  rw [finish, hsent]
  split
  · refine ⟨?_, ?_, ?_⟩
    · rw [contentOf_append, hcontent]
      exact String.append_empty
    · rw [fragmentsOf_append, hfragments]
      exact List.append_nil _
    · rw [finishReasonOf_append]
      exact hstart.finishReason
  · exact ⟨hcontent, hfragments, hstart.finishReason⟩

end ResponsesChatState

/-- What the chunks of a stream carry. -/
theorem handler_emits (ctx : ResponsesChatContext F) (hresp : resp.WellFormed)
    (htells : TellsResponse resp told) :
    ∃ chunks, oaiResponsesToChatStreamHandler ctx (responsesStream resp told) = .ok chunks ∧
      contentOf chunks = resp.outputText ∧
      fragmentsOf chunks = (Told.tellAll .empty (beforeText told)).2 ∧
      finishReasonOf chunks =
        some (if fragmentsOf chunks ≠ [] ∧ resp.outputText = "" then "tool_calls" else "stop") := by
  have hrun := ResponsesChatState.run_told (s := .start ctx) ctx hresp.calls rfl
    htells.call htells.aside
  obtain ⟨s, hrun, hemits⟩ := hrun
  obtain ⟨s', hstep, hstop, hcontent, hfragments, hreason⟩ :=
    ResponsesChatState.step_completed ctx hemits.sentStop (some resp)
  obtain ⟨hcontent', hfragments', hreason'⟩ := ResponsesChatState.finish_of_sent ctx hstop
  have htext : s.outputText = resp.outputText := by
    rw [hemits.outputText, htells.text]
    exact String.empty_append
  refine ⟨(s'.finish ctx).chunks, ?_, ?_, ?_, ?_⟩
  · rw [oaiResponsesToChatStreamHandler, responsesStream, List.foldlM_append, hrun]
    show (do
      let s ← List.foldlM (ResponsesChatState.step ctx) s [.completed (some resp)]
      Except.ok (s.finish ctx).chunks) = _
    rw [List.foldlM_cons, hstep]
    rfl
  · rw [hcontent', hcontent, hemits.content, htells.text]
    exact String.empty_append
  · rw [hfragments', hfragments, hemits.fragments]
    rfl
  · have hsaw : s.sawToolCall = !(fragmentsOf s.chunks).isEmpty := by
      rw [hemits.sawToolCall, hemits.fragments]
      rfl
    rw [hreason', hreason, hfragments', hfragments, hsaw, htext]
    simp

theorem StreamAgrees.foldsTo {chunks : List (ChatCompletionsStreamResponse F)}
    {choice : TextResponseChoice} (hagrees : StreamAgrees ctx resp told)
    (hchunks : oaiResponsesToChatStreamHandler ctx (responsesStream resp told) = .ok chunks)
    (hchoices : (responsesResponseToChatCompletionsResponse resp ctx.responseId :
      OpenAITextResponse F).choices = [choice]) : FoldsTo chunks choice := by
  obtain ⟨others, other, hothers, hother, hfolds⟩ := hagrees
  obtain rfl := Except.ok.inj (hchunks.symm.trans hothers)
  obtain rfl := List.head_eq_of_cons_eq (hchoices.symm.trans hother)
  exact hfolds

/-! ## The calls -/

/-- A fragment is sent for each event about a call. -/
theorem tellAll_eq_nil_iff (maps : ToolCallMaps) :
    (Told.tellAll maps told).2 = [] ↔ ∀ t ∈ told, t.call = none := by
  induction told generalizing maps with
  | nil => exact iff_of_true rfl fun t ht => absurd ht List.not_mem_nil
  | cons t told ih =>
      rw [List.forall_mem_cons]
      cases t with
      | text delta => exact (ih maps).trans ⟨fun h => ⟨rfl, h⟩, And.right⟩
      | aside event => exact (ih maps).trans ⟨fun h => ⟨rfl, h⟩, And.right⟩
      | item done call arguments => simp [Told.tellAll, Told.tell, Told.call]
      | piece call delta => simp [Told.tellAll, Told.tell, Told.call]

/-- Without a text the fragments are joined to the calls of the object when these are begun in their
order, each under its own id. -/
theorem joinFragments_tellAll_iff (hcalls : DistinctCalls calls)
    (hcall : ∀ t ∈ told, ∀ call ∈ t.call, call ∈ calls)
    (hreports : ∀ call ∈ calls, AddsUpTo call.arguments "" false (told.filterMap (Told.part call))) :
    joinFragments (Told.tellAll .empty told).2 =
        numberCalls 0 (calls.map ResponsesOutput.wholeCall) ↔
      (told.filterMap Told.call).eraseDups = calls ∧
        ∀ call ∈ calls,
          call.toolCallID = call.itemID ∨ ¬BeginsEarly (told.filterMap (Told.part call)) := by
  have hmem : ∀ call ∈ told.filterMap Told.call, call ∈ calls := by
    intro call hmem
    obtain ⟨t, ht, htcall⟩ := List.mem_filterMap.1 hmem
    exact hcall t ht call htcall
  have hnumbered := tellAll_numbered .empty hcalls hcall numbered_nil
  rw [List.nil_append] at hnumbered
  have hids : (Told.tellAll .empty told).1.indexByID =
      ((Told.tellAll .empty told).2.map ToolCallResponse.id).eraseDups := hnumbered.order
  have hown : (∀ call ∈ calls,
        call.toolCallID = call.itemID ∨ ¬BeginsEarly (told.filterMap (Told.part call))) →
      (Told.tellAll .empty told).1.indexByID =
        (told.filterMap Told.call).eraseDups.map ResponsesOutput.toolCallID := by
    intro hbegins
    rw [hids, tellAll_ids hcalls (known_empty calls) hcall fun call hmem _ => hbegins call hmem]
    exact eraseDups_map fun a ha b hb => hcalls.eq_of_toolCallID a (hmem a ha) b (hmem b hb)
  have hcallIn : ∀ call ∈ calls,
      (call.toolCallID = call.itemID ∨ ¬BeginsEarly (told.filterMap (Told.part call))) →
      callIn (Told.tellAll .empty told).2 call.toolCallID = call.wholeCall := by
    intro call hcalled hbegins
    have hnothing : CallKnown call "" false .empty := ⟨rfl, rfl, rfl, rfl⟩
    obtain ⟨hname, harguments⟩ := tellAll_call hcalls hcalled (known_empty calls) hnothing hcall
      (hreports call hcalled) (hbegins.imp_right fun h _ => h)
    rw [String.empty_append] at harguments
    rw [callIn, hname, harguments]
    rfl
  rw [hnumbered.table, numberCalls_inj]
  constructor
  · intro htable
    have hcallIDs : (Told.tellAll .empty told).1.indexByID =
        calls.map ResponsesOutput.toolCallID := by
      have hfirst := congrArg (List.map ToolCall.id) htable
      have hid : ToolCall.id ∘ ResponsesOutput.wholeCall = ResponsesOutput.toolCallID := by
        funext call
        rw [Function.comp_apply, ResponsesOutput.wholeCall]
      rw [List.map_map, List.map_map, hid] at hfirst
      exact (List.map_id _).symm.trans hfirst
    have hbegins : ∀ call ∈ calls,
        call.toolCallID = call.itemID ∨ ¬BeginsEarly (told.filterMap (Told.part call)) := by
      intro call hcalled
      refine or_iff_not_imp_right.2 fun hearly => ?_
      have hsent := itemID_mem_of_beginsEarly hcalls (known_empty calls) hcalled hcall rfl
        (not_not.1 hearly)
      rw [← List.mem_eraseDups, ← hids, hcallIDs] at hsent
      obtain ⟨other, hother, heq⟩ := List.mem_map.1 hsent
      rw [← heq, hcalls.eq_of_mixed call hcalled other hother heq.symm]
    refine ⟨?_, hbegins⟩
    refine eq_of_map_eq (fun a ha b hb => ?_) ((hown hbegins).symm.trans hcallIDs)
    exact hcalls.eq_of_toolCallID a (hmem a (List.mem_eraseDups.1 ha)) b hb
  · rintro ⟨horder, hbegins⟩
    rw [hown hbegins, horder, List.map_map]
    exact List.map_congr_left fun call hcalled => hcallIn call hcalled (hbegins call hcalled)

/-- Other calls in the stream than in the final object. -/
theorem not_agrees_of_toolCalls (hresp : resp.WellFormed) (htells : TellsResponse resp told)
    (hcalls : joinFragments (Told.tellAll .empty (beforeText told)).2 ≠ numberCalls 0
      (if resp.outputText = "" then resp.functionCalls.map ResponsesOutput.wholeCall else [])) :
    ¬StreamAgrees ctx resp told := by
  intro hagrees
  obtain ⟨chunks, hchunks, -, hfragments, -⟩ := handler_emits ctx hresp htells
  have hfolds := hagrees.foldsTo hchunks (choices_eq hresp _)
  rw [← hfragments] at hcalls
  exact hcalls hfolds.toolCalls

/-- The stream and the final object agree exactly when no call is told before a text, or, without a
text, when the calls are begun in their order under their own ids. -/
theorem responses_stream_agrees_iff (ctx : ResponsesChatContext F) (hresp : resp.WellFormed)
    (htells : TellsResponse resp told) : StreamAgrees ctx resp told ↔ AgreesWhen resp told := by
  obtain ⟨chunks, hchunks, hcontent, hfragments, hreason⟩ := handler_emits ctx hresp htells
  have hchoices := choices_eq (F := F) hresp ctx.responseId
  rw [AgreesWhen]
  by_cases htext : resp.outputText = ""
  · -- without a text all the events count
    have hall : beforeText told = told := by
      refine List.takeWhile_eq_self_iff.2 fun t ht => decide_eq_true ?_
      exact concat_map_eq_empty.1 (htells.text.trans htext) t ht
    rw [hall] at hfragments
    rw [if_neg (not_not.2 htext), ← joinFragments_tellAll_iff hresp.calls htells.call htells.reports,
      ← hfragments]
    constructor
    · intro hagrees
      have hfolds := hagrees.foldsTo hchunks hchoices
      rw [hfolds.toolCalls, if_pos htext]
    · intro hcalls
      refine ⟨chunks, _, hchunks, hchoices, hcontent, ?_, ?_⟩
      · rw [hcalls, if_pos htext]
      · have hsame : fragmentsOf chunks = [] ↔ resp.functionCalls = [] := by
          rw [← joinFragments_eq_nil_iff, hcalls, numberCalls_eq_nil_iff, List.map_eq_nil_iff]
        rw [hreason]
        exact congrArg some (if_congr (by rw [ne_eq, hsame, and_comm]) rfl rfl)
  · rw [if_pos htext, ← tellAll_eq_nil_iff .empty, ← hfragments, ← joinFragments_eq_nil_iff]
    constructor
    · intro hagrees
      have hfolds := hagrees.foldsTo hchunks hchoices
      rw [hfolds.toolCalls, if_neg htext]
      rfl
    · intro hcalls
      refine ⟨chunks, _, hchunks, hchoices, hcontent, ?_, ?_⟩
      · rw [hcalls, if_neg htext]
        rfl
      · rw [hreason, if_neg fun h => htext h.2]
        exact congrArg some (if_neg fun h => htext h.1).symm

end

/-! ## Two calls, and a call before a text -/

def sampleContext : ResponsesChatContext ℕ where
  responseId := "chatcmpl-1"
  upstreamModelName := "gpt"
  shouldIncludeUsage := true
  responseText2Usage _ := Usage.empty

def sampleCallItem (number : String) : ResponsesOutput where
  type := "function_call"
  id := "fc_" ++ number
  role := ""
  content := []
  callId := "call_" ++ number
  name := "weather"
  arguments := "[1]"

def sampleMessageItem : ResponsesOutput where
  type := "message"
  id := "msg_1"
  role := "assistant"
  content := [⟨"output_text", "It rains."⟩]
  callId := ""
  name := ""
  arguments := ""

def sampleResponses (output : List ResponsesOutput) : OpenAIResponsesResponse where
  model := "gpt"
  output := output
  usage := none
  error := none

/-- The pieces of two calls are mixed. -/
def mixedCalls : List Told :=
  [.item false (sampleCallItem "1") "", .item false (sampleCallItem "2") "",
    .piece (sampleCallItem "2") "[", .piece (sampleCallItem "1") "[1]",
    .piece (sampleCallItem "2") "1]", .item true (sampleCallItem "2") "[1]",
    .item true (sampleCallItem "1") "[1]"]

theorem two_calls_wellFormed :
    (sampleResponses [sampleCallItem "1", sampleCallItem "2"]).WellFormed where
  text := by decide
  calls := by constructor <;> decide

theorem mixedCalls_tell :
    TellsResponse (sampleResponses [sampleCallItem "1", sampleCallItem "2"]) mixedCalls where
  call := by simp [mixedCalls, Told.call]; decide
  aside := by simp [mixedCalls]
  text := by decide
  reports := by
    intro call hcall
    have hcalls : (sampleResponses [sampleCallItem "1", sampleCallItem "2"]).functionCalls =
        [sampleCallItem "1", sampleCallItem "2"] := by decide
    rw [hcalls, List.mem_cons, List.mem_singleton] at hcall
    rcases hcall with rfl | rfl
    · exact addsUpTo_pieces "" true ["[1]"]
    · exact addsUpTo_pieces "" true ["[", "1]"]

theorem mixedCalls_agree :
    StreamAgrees sampleContext (sampleResponses [sampleCallItem "1", sampleCallItem "2"])
      mixedCalls :=
  (responses_stream_agrees_iff sampleContext two_calls_wellFormed mixedCalls_tell).2 (by decide)

def earlyCall : List Told :=
  [.item true (sampleCallItem "1") "[1]", .text "It rains."]

def earlyArguments : List Told :=
  [.piece (sampleCallItem "1") "[1]", .item true (sampleCallItem "1") "[1]"]

/-- A call that is told before the text stays in the stream, and a piece of arguments that comes
before its item begins another call. -/
theorem early_calls_diverge :
    ((sampleResponses [sampleCallItem "1", sampleMessageItem]).WellFormed ∧
      TellsResponse (sampleResponses [sampleCallItem "1", sampleMessageItem]) earlyCall ∧
      ¬StreamAgrees sampleContext (sampleResponses [sampleCallItem "1", sampleMessageItem])
        earlyCall) ∧
    ((sampleResponses [sampleCallItem "1"]).WellFormed ∧
      TellsResponse (sampleResponses [sampleCallItem "1"]) earlyArguments ∧
      ¬StreamAgrees sampleContext (sampleResponses [sampleCallItem "1"]) earlyArguments) := by
  have hcall : ∀ {output : List ResponsesOutput} {told : List Told},
      (sampleResponses output).functionCalls = [sampleCallItem "1"] →
      AddsUpTo "[1]" "" false (told.filterMap (Told.part (sampleCallItem "1"))) →
      ∀ call ∈ (sampleResponses output).functionCalls,
        AddsUpTo call.arguments "" false (told.filterMap (Told.part call)) := by
    intro output told hcalls hadds call hmem
    rw [hcalls, List.mem_singleton] at hmem
    rw [hmem]
    exact hadds
  constructor
  · have hresp : (sampleResponses [sampleCallItem "1", sampleMessageItem]).WellFormed :=
      ⟨by decide, by constructor <;> decide⟩
    have htells : TellsResponse (sampleResponses [sampleCallItem "1", sampleMessageItem])
      earlyCall :=
      ⟨by simp [earlyCall, Told.call]; decide, by simp [earlyCall], by decide,
        hcall (by decide) (addsUpTo_item "[1]" false)⟩
    exact ⟨hresp, htells, not_agrees_of_toolCalls hresp htells (by decide)⟩
  · have hresp : (sampleResponses [sampleCallItem "1"]).WellFormed :=
      ⟨by decide, by constructor <;> decide⟩
    have htells : TellsResponse (sampleResponses [sampleCallItem "1"]) earlyArguments :=
      ⟨by simp [earlyArguments, Told.call]; decide, by simp [earlyArguments], by decide,
        hcall (by decide) (addsUpTo_pieces "" false ["[1]"])⟩
    exact ⟨hresp, htells, not_agrees_of_toolCalls hresp htells (by decide)⟩

end NewApi.Model
