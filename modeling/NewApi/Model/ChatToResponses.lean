import NewApi.Lib.Runs
import NewApi.Model.ChatRequest

/-!
# A chat request as a Responses request

The messages of a chat request become the items of one input list: an assistant message is followed
by its function calls, and a tool message is the output of a call.  System messages are the
instructions.
-/

namespace NewApi.Model

open NewApi.Lib NewApi.Lib.Strings

namespace ChatToResponses

variable {F : Type}

/-! ## Responses requests -/

/-- A part of a content; an image is its address, or the whole value if that is empty. -/
inductive ContentPart
  | inputText (text : String)
  | inputImage (url : String)
  | inputImageValue (image : Dto.MessageImageUrl)
  | inputAudio (data format : String)
  | inputFile (fileName fileData fileId : String)
  | inputVideo (url : String)
deriving DecidableEq

inductive ItemContent
  | text (text : String)
  | parts (parts : List ContentPart)
deriving DecidableEq

/-- An item of the input. -/
inductive InputItem
  | message (role : String) (content : ItemContent)
  | functionCall (callId name arguments : String)
  | functionCallOutput (callId output : String)
deriving DecidableEq

/-- A function, or a tool of another type as it is. -/
inductive ResponsesTool (F : Type)
  | function (name description : String) (parameters : JsonTree F)
  | other (tool : Dto.ToolCallRequest F)

/-- The choice of a function by its name, or a value as it is. -/
inductive ResponsesToolChoice (F : Type)
  | function (name : String)
  | value (value : JsonTree F)

/-- `dto.OpenAIResponsesRequest` with what the conversion sets. -/
structure OpenAIResponsesRequest (F : Type) where
  model : String
  input : List InputItem
  instructions : Option String
  maxOutputTokens : ℕ
  stream : Bool
  temperature : Option F
  text : Option (Dto.ResponseFormat F)
  toolChoice : Option (ResponsesToolChoice F)
  tools : Option (List (ResponsesTool F))
  topP : Option F
  user : String
  parallelToolCalls : Option Bool
  store : JsonTree F
  metadata : JsonTree F
  reasoningEffort : Option String

/-! ## The conversion -/

def contentPart : Dto.MediaContent → ContentPart
  | .text text => .inputText text
  | .imageUrl image => if image.url ≠ "" then .inputImage image.url else .inputImageValue image
  | .inputAudio data format => .inputAudio data format
  | .file fileName fileData fileId => .inputFile fileName fileData fileId
  | .videoUrl url => .inputVideo url

section

variable (marshal : JsonTree F → String) [DecidableEq F] [Zero F]

/-- The output of a tool message: its text, or its content as JSON. -/
def toolOutput (msg : Dto.Message F) : String :=
  match msg.content with
  | .null => ""
  | .str content => content
  | content => marshal content

/-- The item of a tool message; without a call id it is a message of the user. -/
def toolItem (msg : Dto.Message F) : InputItem :=
  let callID := trimSpace msg.toolCallId
  if callID = "" then
    .message "user" (.text ("[tool_output_missing_call_id] " ++ toolOutput marshal msg))
  else .functionCallOutput callID (toolOutput marshal msg)

/-- The instructions that a system message adds. -/
def instructionsPart (msg : Dto.Message F) : List String :=
  let s :=
    match msg.content with
    | .null => ""
    | .str content => trimSpace content
    | _ =>
        trimSpace (join '\n' (msg.parseContent.filterMap fun part =>
          match part with
          | .text text => if trimSpace text ≠ "" then some text else none
          | _ => none))
  if s ≠ "" then [s] else []

def itemContent (msg : Dto.Message F) : ItemContent :=
  match msg.content with
  | .null => .text ""
  | .str content => .text content
  | _ => .parts (msg.parseContent.map contentPart)

/-- A tool call that becomes an item: a function with a name and an id. -/
def Converts (tc : Dto.ToolCallRequest F) : Prop :=
  trimSpace tc.id ≠ "" ∧ (tc.type = "" ∨ tc.type = "function") ∧ trimSpace tc.function.name ≠ ""

instance (tc : Dto.ToolCallRequest F) : Decidable (Converts tc) :=
  inferInstanceAs (Decidable (_ ∧ _ ∧ _))

def functionCall (tc : Dto.ToolCallRequest F) : InputItem :=
  .functionCall tc.id (trimSpace tc.function.name) tc.function.arguments

/-- What the loop over the messages collects. -/
structure Collected where
  instructionsParts : List String
  inputItems : List InputItem

/-- One turn of the loop. -/
def addMessage (collected : Collected) (msg : Dto.Message F) : Collected :=
  let role := trimSpace msg.role
  if role = "" then collected
  else if role = "tool" ∨ role = "function" then
    { collected with inputItems := collected.inputItems ++ [toolItem marshal msg] }
  else if role = "system" ∨ role = "developer" then
    { collected with instructionsParts := collected.instructionsParts ++ instructionsPart msg }
  else
    let calls :=
      if role = "assistant" then
        (msg.parseToolCalls.filter fun tc => Converts tc).map functionCall
      else []
    { collected with
      inputItems := collected.inputItems ++ .message role (itemContent msg) :: calls }

def convertTool (tool : Dto.ToolCallRequest F) : ResponsesTool F :=
  if tool.type = "function" then
    .function tool.function.name tool.function.description tool.function.parameters
  else .other tool

/-- A function may be named by the choice itself or by its function. -/
def convertToolChoice (value : JsonTree F) : ResponsesToolChoice F :=
  if Dto.stringAt value "type" = some "function" then
    let name := (Dto.stringAt value "name").getD ""
    if name ≠ "" then .function name
    else
      let name := ((value.child "function").bind fun fn => Dto.stringAt fn "name").getD ""
      if name ≠ "" then .function name else .value value
  else .value value

def chatCompletionsRequestToResponsesRequest (req : Option (Dto.GeneralOpenAIRequest F)) :
    Except String (OpenAIResponsesRequest F) :=
  match req with
  | none => .error "request is nil"
  | some req =>
      if req.model = "" then .error "model is required"
      else if req.n > 1 then .error "n>1 is not supported in responses compatibility mode"
      else
        let collected := req.messages.foldl (addMessage marshal) ⟨[], []⟩
        .ok {
          model := req.model
          input := collected.inputItems
          instructions :=
            if collected.instructionsParts = [] then none
            else some (String.intercalate "\n\n" collected.instructionsParts)
          maxOutputTokens := max req.maxTokens req.maxCompletionTokens
          stream := req.stream
          temperature := req.temperature
          text := req.responseFormat.filter fun format => format.type ≠ ""
          toolChoice :=
            match req.toolChoice with
            | .null => none
            | value => some (convertToolChoice value)
          tools := req.tools.map fun tools => tools.map convertTool
          topP := if req.topP = 0 then none else some req.topP
          user := req.user
          parallelToolCalls := req.parallelTooCalls
          store := req.store
          metadata := req.metadata
          reasoningEffort :=
            if req.reasoningEffort ≠ "" ∧ req.reasoningEffort ≠ "none" then
              some req.reasoningEffort
            else none }

end

/-! ## Pairing -/

/-- A tool message, whose output may be an item. -/
def IsToolMessage (msg : Dto.Message F) : Prop :=
  trimSpace msg.role = "tool" ∨ trimSpace msg.role = "function"

instance (msg : Dto.Message F) : Decidable (IsToolMessage msg) :=
  inferInstanceAs (Decidable (_ ∨ _))

def IsAssistant (msg : Dto.Message F) : Prop :=
  trimSpace msg.role = "assistant"

instance (msg : Dto.Message F) : Decidable (IsAssistant msg) :=
  inferInstanceAs (Decidable (_ = _))

/-- Each tool message has the id of a call of an earlier assistant message. -/
def Refers (messages : List (Dto.Message F)) : Prop :=
  ∀ before msg after, messages = before ++ msg :: after → IsToolMessage msg →
    ∃ earlier ∈ before, IsAssistant earlier ∧
      ∃ tc ∈ earlier.parseToolCalls, tc.id = msg.toolCallId

/-- For each tool message with an id, an earlier assistant message has a call that becomes an item,
and its id is that of the message without white space at the ends. -/
def RefersToItems (messages : List (Dto.Message F)) : Prop :=
  ∀ before msg after, messages = before ++ msg :: after → IsToolMessage msg →
    trimSpace msg.toolCallId ≠ "" →
    ∃ earlier ∈ before, IsAssistant earlier ∧
      ∃ tc ∈ earlier.parseToolCalls, Converts tc ∧ tc.id = trimSpace msg.toolCallId

/-- What a message could become: itself and all its calls. -/
def possibleItems (marshal : JsonTree F → String) (msg : Dto.Message F) : List InputItem :=
  if trimSpace msg.role = "tool" ∨ trimSpace msg.role = "function" then [toolItem marshal msg]
  else .message (trimSpace msg.role) (itemContent msg) :: msg.parseToolCalls.map functionCall

/-- The call ids of the function calls among the items. -/
def callIds (items : List InputItem) : List String :=
  items.filterMap fun
    | .functionCall callId _ _ => some callId
    | _ => none

/-- The ids of the calls of the assistant messages. -/
def assistantCallIds (messages : List (Dto.Message F)) : List String :=
  messages.flatMap fun msg =>
    if trimSpace msg.role = "assistant" then msg.parseToolCalls.map fun tc => tc.id else []

/-- Every output has the id of an earlier call, different ids of calls stay different, and the items
stand in the order of the messages and calls that they come from. -/
structure KeepsPairing (marshal : JsonTree F → String) (messages : List (Dto.Message F))
    (items : List InputItem) : Prop where
  paired : ∀ before callId output after, items = before ++ .functionCallOutput callId output :: after →
    ∃ name arguments, .functionCall callId name arguments ∈ before
  distinct : (assistantCallIds messages).Nodup → (callIds items).Nodup
  ordered : items.Sublist (messages.flatMap (possibleItems marshal))

section

variable {marshal : JsonTree F → String} {msg : Dto.Message F} {messages : List (Dto.Message F)}

/-- The items of a message. -/
def inputItems (marshal : JsonTree F → String) (msg : Dto.Message F) : List InputItem :=
  (addMessage marshal ⟨[], []⟩ msg).inputItems

theorem addMessage_inputItems (collected : Collected) :
    (addMessage marshal collected msg).inputItems =
      collected.inputItems ++ inputItems marshal msg := by
  unfold inputItems addMessage
  dsimp only
  split
  · rw [List.append_nil]
  split
  · rfl
  split
  · rw [List.append_nil]
  · rfl

theorem foldl_inputItems (collected : Collected) :
    (messages.foldl (addMessage marshal) collected).inputItems =
      collected.inputItems ++ messages.flatMap (inputItems marshal) := by
  have hturn : ∀ (collected : Collected) (msg : Dto.Message F),
      (addMessage marshal collected msg).inputItems =
        collected.inputItems ++ inputItems marshal msg :=
    fun collected _ => addMessage_inputItems collected
  exact Runs.foldl_eq_append_flatMap Collected.inputItems hturn collected messages

theorem inputItems_eq (marshal : JsonTree F → String) (msg : Dto.Message F) :
    inputItems marshal msg =
      if trimSpace msg.role = "" then []
      else if IsToolMessage msg then [toolItem marshal msg]
      else if trimSpace msg.role = "system" ∨ trimSpace msg.role = "developer" then []
      else
        .message (trimSpace msg.role) (itemContent msg) ::
          if IsAssistant msg then
            (msg.parseToolCalls.filter fun tc => Converts tc).map functionCall
          else [] := by
  by_cases hrole : trimSpace msg.role = ""
  · simp only [inputItems, addMessage, if_pos hrole]
  by_cases htool : IsToolMessage msg
  · have hroles : trimSpace msg.role = "tool" ∨ trimSpace msg.role = "function" := htool
    simp only [inputItems, addMessage, if_neg hrole, if_pos hroles, if_pos htool, List.nil_append]
  · have hroles : ¬ (trimSpace msg.role = "tool" ∨ trimSpace msg.role = "function") := htool
    simp only [inputItems, addMessage, if_neg hrole, if_neg hroles, if_neg htool]
    split <;> rfl

theorem inputItems_of_tool (htool : IsToolMessage msg) :
    inputItems marshal msg = [toolItem marshal msg] := by
  have hrole : trimSpace msg.role ≠ "" := by
    intro hempty
    rw [IsToolMessage, hempty] at htool
    revert htool
    decide
  rw [inputItems_eq, if_neg hrole, if_pos htool]

theorem inputItems_of_assistant (hassistant : IsAssistant msg) :
    inputItems marshal msg = .message "assistant" (itemContent msg) ::
      (msg.parseToolCalls.filter fun tc => Converts tc).map functionCall := by
  have hrole : trimSpace msg.role = "assistant" := hassistant
  have htool : ¬ IsToolMessage msg := by
    rw [IsToolMessage, hrole]
    decide
  rw [inputItems_eq, if_neg (by rw [hrole]; decide), if_neg htool,
    if_neg (by rw [hrole]; decide), if_pos hassistant, hrole]

/-- The items of a message that is neither are a message or none. -/
theorem inputItems_of_other (htool : ¬ IsToolMessage msg) (hassistant : ¬ IsAssistant msg) :
    inputItems marshal msg = [] ∨
      inputItems marshal msg = [.message (trimSpace msg.role) (itemContent msg)] := by
  rw [inputItems_eq, if_neg htool, if_neg hassistant]
  split
  · exact .inl rfl
  split
  · exact .inl rfl
  · exact .inr rfl

theorem toolItem_of_id (hid : trimSpace msg.toolCallId ≠ "") : toolItem marshal msg =
    .functionCallOutput (trimSpace msg.toolCallId) (toolOutput marshal msg) :=
  if_neg hid

theorem toolItem_eq_output {callId output : String}
    (hitem : toolItem marshal msg = .functionCallOutput callId output) :
    trimSpace msg.toolCallId ≠ "" ∧ callId = trimSpace msg.toolCallId := by
  by_cases hid : trimSpace msg.toolCallId = ""
  · rw [toolItem, hid] at hitem
    cases hitem
  · rw [toolItem_of_id hid] at hitem
    cases hitem
    exact ⟨hid, rfl⟩

theorem toolItem_ne_call (callId name arguments : String) :
    toolItem marshal msg ≠ .functionCall callId name arguments := by
  intro hitem
  by_cases hid : trimSpace msg.toolCallId = ""
  · rw [toolItem, hid] at hitem
    cases hitem
  · rw [toolItem_of_id hid] at hitem
    cases hitem

/-- A function call comes from a call of an assistant message that becomes an item. -/
theorem mem_inputItems_call {callId : String} :
    (∃ name arguments, .functionCall callId name arguments ∈ inputItems marshal msg) ↔
      IsAssistant msg ∧ ∃ tc ∈ msg.parseToolCalls, Converts tc ∧ tc.id = callId := by
  constructor
  · intro hcall
    obtain ⟨name, arguments, hmem⟩ := hcall
    by_cases hassistant : IsAssistant msg
    · rw [inputItems_of_assistant hassistant] at hmem
      rcases List.mem_cons.1 hmem with hsame | hmem
      · cases hsame
      obtain ⟨tc, htc, hsame⟩ := List.mem_map.1 hmem
      obtain ⟨hcall, hconverts⟩ := List.mem_filter.1 htc
      cases hsame
      exact ⟨hassistant, tc, hcall, of_decide_eq_true hconverts, rfl⟩
    · by_cases htool : IsToolMessage msg
      · rw [inputItems_of_tool htool, List.mem_singleton] at hmem
        exact absurd hmem.symm (toolItem_ne_call callId name arguments)
      · rcases inputItems_of_other htool hassistant with hnone | hone
        · rw [hnone] at hmem
          cases hmem
        · rw [hone, List.mem_singleton] at hmem
          cases hmem
  · intro hcall
    obtain ⟨hassistant, tc, htc, hconverts, rfl⟩ := hcall
    refine ⟨trimSpace tc.function.name, tc.function.arguments, ?_⟩
    rw [inputItems_of_assistant hassistant]
    refine List.mem_cons_of_mem _ (List.mem_map.2 ⟨tc, ?_, rfl⟩)
    exact List.mem_filter.2 ⟨htc, decide_eq_true hconverts⟩

/-- An output is the only item of its message. -/
theorem inputItems_eq_output {callId output : String} {start more : List InputItem}
    (hitems : inputItems marshal msg = start ++ .functionCallOutput callId output :: more) :
    start = [] ∧ IsToolMessage msg ∧ trimSpace msg.toolCallId ≠ "" ∧
      callId = trimSpace msg.toolCallId := by
  have hmem : InputItem.functionCallOutput callId output ∈ inputItems marshal msg := by
    rw [hitems]
    exact List.mem_append_right _ List.mem_cons_self
  by_cases htool : IsToolMessage msg
  · rw [inputItems_of_tool htool] at hitems
    cases start with
    | nil =>
        obtain ⟨hitem, -⟩ := List.cons.inj hitems
        obtain ⟨hid, hsame⟩ := toolItem_eq_output hitem
        exact ⟨rfl, htool, hid, hsame⟩
    | cons first start =>
        have hlength := congrArg List.length hitems
        simp at hlength
  · by_cases hassistant : IsAssistant msg
    · rw [inputItems_of_assistant hassistant] at hmem
      rcases List.mem_cons.1 hmem with hsame | hmem
      · cases hsame
      obtain ⟨tc, -, hsame⟩ := List.mem_map.1 hmem
      cases hsame
    · rcases inputItems_of_other htool hassistant with hnone | hone
      · rw [hnone] at hmem
        cases hmem
      · rw [hone, List.mem_singleton] at hmem
        cases hmem

theorem inputItems_sublist (marshal : JsonTree F → String) (msg : Dto.Message F) :
    (inputItems marshal msg).Sublist (possibleItems marshal msg) := by
  by_cases htool : IsToolMessage msg
  · have hpossible : possibleItems marshal msg = [toolItem marshal msg] := if_pos htool
    rw [inputItems_of_tool htool, hpossible]
  · have hpossible : possibleItems marshal msg =
        .message (trimSpace msg.role) (itemContent msg) :: msg.parseToolCalls.map functionCall :=
      if_neg htool
    rw [hpossible]
    by_cases hassistant : IsAssistant msg
    · have hrole : trimSpace msg.role = "assistant" := hassistant
      rw [inputItems_of_assistant hassistant, hrole]
      exact (List.filter_sublist.map functionCall).cons_cons _
    · rcases inputItems_of_other htool hassistant with hnone | hone
      · rw [hnone]
        exact List.nil_sublist _
      · rw [hone]
        exact (List.nil_sublist _).cons_cons _

theorem callIds_map_functionCall (calls : List (Dto.ToolCallRequest F)) :
    callIds (calls.map functionCall) = calls.map fun tc => tc.id := by
  rw [callIds, List.filterMap_map]
  show calls.filterMap (some ∘ fun tc => tc.id) = _
  rw [List.filterMap_eq_map]

theorem callIds_inputItems_sublist (marshal : JsonTree F → String) (msg : Dto.Message F) :
    (callIds (inputItems marshal msg)).Sublist (assistantCallIds [msg]) := by
  by_cases hassistant : IsAssistant msg
  · have hids : assistantCallIds [msg] = msg.parseToolCalls.map fun tc => tc.id := by
      rw [assistantCallIds, List.flatMap_singleton]
      exact if_pos hassistant
    have hcalls : callIds (inputItems marshal msg) =
        callIds ((msg.parseToolCalls.filter fun tc => Converts tc).map functionCall) := by
      rw [inputItems_of_assistant hassistant]
      rfl
    rw [hids, hcalls, callIds_map_functionCall]
    exact List.filter_sublist.map _
  · have hnone : callIds (inputItems marshal msg) = [] := by
      rw [callIds, List.filterMap_eq_nil_iff]
      intro item hitem
      cases item with
      | functionCall callId name arguments =>
          exact absurd (mem_inputItems_call.1 ⟨name, arguments, hitem⟩).1 hassistant
      | _ => rfl
    rw [hnone]
    exact List.nil_sublist _

theorem flatMap_paired_iff (marshal : JsonTree F → String) (messages : List (Dto.Message F)) :
    (∀ before callId output after,
        messages.flatMap (inputItems marshal) =
          before ++ .functionCallOutput callId output :: after →
        ∃ name arguments, .functionCall callId name arguments ∈ before) ↔
      RefersToItems messages := by
  constructor
  · intro hpaired before msg after hsplit htool hid
    have hitems : messages.flatMap (inputItems marshal) =
        before.flatMap (inputItems marshal) ++
          .functionCallOutput (trimSpace msg.toolCallId) (toolOutput marshal msg) ::
            after.flatMap (inputItems marshal) := by
      rw [hsplit, List.flatMap_append, List.flatMap_cons, inputItems_of_tool htool,
        toolItem_of_id hid]
      rfl
    obtain ⟨name, arguments, hcall⟩ := hpaired _ _ _ _ hitems
    obtain ⟨earlier, hearlier, hmem⟩ := List.mem_flatMap.1 hcall
    exact ⟨earlier, hearlier, mem_inputItems_call.1 ⟨name, arguments, hmem⟩⟩
  · intro hrefers before callId output after hitems
    obtain ⟨done, msg, todo, start, more, hsplit, hpiece, hbefore⟩ :=
      Runs.exists_of_flatMap_eq hitems
    obtain ⟨rfl, htool, hid, rfl⟩ := inputItems_eq_output hpiece
    obtain ⟨earlier, hearlier, hcall⟩ := hrefers done msg todo hsplit htool hid
    obtain ⟨name, arguments, hmem⟩ : ∃ name arguments,
        .functionCall (trimSpace msg.toolCallId) name arguments ∈ inputItems marshal earlier :=
      mem_inputItems_call.2 hcall
    refine ⟨name, arguments, ?_⟩
    rw [hbefore, List.append_nil]
    exact List.mem_flatMap.2 ⟨earlier, hearlier, hmem⟩

variable [DecidableEq F] [Zero F]

theorem input_eq {req : Dto.GeneralOpenAIRequest F} {out : OpenAIResponsesRequest F}
    (hout : chatCompletionsRequestToResponsesRequest marshal (some req) = .ok out) :
    out.input = req.messages.flatMap (inputItems marshal) := by
  unfold chatCompletionsRequestToResponsesRequest at hout
  dsimp only at hout
  split at hout
  · cases hout
  split at hout
  · cases hout
  · cases hout
    exact foldl_inputItems _

/-- The input of a Responses request keeps the pairing exactly if every tool message with an id
refers to a call that becomes an item, by an id without white space at the ends. -/
theorem pairing_kept_iff (marshal : JsonTree F → String) (req : Dto.GeneralOpenAIRequest F)
    (out : OpenAIResponsesRequest F)
    (hout : chatCompletionsRequestToResponsesRequest marshal (some req) = .ok out) :
    KeepsPairing marshal req.messages out.input ↔ RefersToItems req.messages := by
  rw [input_eq hout, ← flatMap_paired_iff marshal]
  refine ⟨KeepsPairing.paired, fun hpaired => ⟨hpaired, fun hnodup => ?_, ?_⟩⟩
  · refine hnodup.sublist ?_
    rw [callIds, List.filterMap_flatMap]
    refine List.Sublist.flatMap_right _ fun msg _ => ?_
    have hids := callIds_inputItems_sublist marshal msg
    rw [assistantCallIds, List.flatMap_singleton] at hids
    exact hids
  · exact List.Sublist.flatMap_right _ fun msg _ => inputItems_sublist marshal msg

end

/-! ## Two requests -/

/-- A call of a function and its output, under one id. -/
def callAndOutput (id : String) : List (Dto.Message ℤ) :=
  [{ role := "assistant"
     content := .null
     toolCalls := some [{
       id := id
       type := "function"
       function := ⟨"", "get_weather", .null, "\x7b\x7d"⟩ }] },
   { role := "tool", content := .str "sunny", toolCallId := id }]

def requestOf (messages : List (Dto.Message ℤ)) : Dto.GeneralOpenAIRequest ℤ where
  model := "gpt-5"
  messages := messages
  stream := false
  maxTokens := 0
  temperature := none
  topP := 0
  stop := .null
  n := 1

/-- The converted request. -/
def converted (messages : List (Dto.Message ℤ)) : OpenAIResponsesRequest ℤ where
  model := "gpt-5"
  input := messages.flatMap (inputItems fun _ => "")
  instructions := none
  maxOutputTokens := 0
  stream := false
  temperature := none
  text := none
  toolChoice := none
  tools := none
  topP := none
  user := ""
  parallelToolCalls := none
  store := .null
  metadata := .null
  reasoningEffort := none

theorem refers_callAndOutput (id : String) : Refers (callAndOutput id) := by
  intro before msg after hsplit htool
  cases before with
  | nil =>
      obtain ⟨rfl, -⟩ := List.cons.inj hsplit
      have hrole : trimSpace "assistant" = "tool" ∨ trimSpace "assistant" = "function" := htool
      exact absurd hrole (by decide)
  | cons first before =>
      obtain ⟨rfl, hrest⟩ := List.cons.inj hsplit
      cases before with
      | nil =>
          obtain ⟨rfl, -⟩ := List.cons.inj hrest
          have hassistant : trimSpace "assistant" = "assistant" := by decide
          exact ⟨_, List.mem_singleton_self _, hassistant, _, List.mem_singleton_self _, rfl⟩
      | cons second before =>
          have hlength := congrArg List.length hrest
          simp at hlength

/-- A call and its output are paired. -/
theorem call_and_output_are_paired :
    KeepsPairing (fun _ => "") (callAndOutput "call_1") (converted (callAndOutput "call_1")).input ↔
      RefersToItems (callAndOutput "call_1") :=
  pairing_kept_iff (fun _ => "") (requestOf (callAndOutput "call_1"))
    (converted (callAndOutput "call_1")) rfl

/-- With a space behind the id, the output has another id than the call. -/
theorem id_with_space_is_not_paired :
    Refers (callAndOutput "call_1 ") ∧
      chatCompletionsRequestToResponsesRequest (fun _ => "")
          (some (requestOf (callAndOutput "call_1 "))) =
        .ok (converted (callAndOutput "call_1 ")) ∧
      ¬ KeepsPairing (fun _ => "") (callAndOutput "call_1 ")
        (converted (callAndOutput "call_1 ")).input := by
  refine ⟨refers_callAndOutput _, rfl, fun hkeeps => ?_⟩
  obtain ⟨name, arguments, hcall⟩ := hkeeps.paired
    [.message "assistant" (.text ""), .functionCall "call_1 " "get_weather" "\x7b\x7d"]
    "call_1" "sunny" [] (by decide)
  rcases List.mem_cons.1 hcall with hsame | hcall
  · cases hsame
  · have hid := (InputItem.functionCall.inj (List.mem_singleton.1 hcall)).1
    exact absurd hid (by decide)

end ChatToResponses

end NewApi.Model
