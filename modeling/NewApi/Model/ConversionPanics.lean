import NewApi.Model.JoinedMessages
import NewApi.Model.JsonText

/-!
# When the conversion panics

The conversion asserts the type of a tool's parameters and of the elements of `stop`, and takes
every part that is not text for an image. It ends at the first of these that fails.
-/

namespace NewApi.Model.ChatToClaude

open NewApi.Lib NewApi.Lib.Strings

/-- The image at an address can be had. -/
def FileReader.hasImage (files : FileReader) (url : String) : Bool :=
  if hasPrefix url "http" then (files.getFileBase64FromUrl url).isOk
  else (files.decodeBase64ImageData url).isOk

/-- Texts can be converted, and images that can be had. -/
def partConverts (files : FileReader) : Dto.MediaContent → Bool
  | .text _ => true
  | .imageUrl image => files.hasImage image.url
  | _ => false

section

variable {N F : Type}

/-- The parts that are converted: the system texts and the results of tools are not. -/
def mediaParts (message : Dto.Message F) : List Dto.MediaContent :=
  if message.role = "system" ∨ message.role = "tool" then [] else message.parseContent

/-- A tool whose parameters are a map has a string for a type, if it has one. -/
def Typed (tool : Dto.ToolCallRequest F) : Prop :=
  ∀ keys value, tool.function.parameters = .obj keys value →
    ∀ type, (JsonTree.obj keys value).child "type" = some type → type = .null ∨ ∃ s, type = .str s

/-- A list of stops has strings only. -/
def StopsAreStrings (stop : JsonTree F) : Prop :=
  ∀ n item, stop = .arr n item → ∀ i, ∃ s, item i = .str s

/-- What the conversion relies on.  A reasoning that does not decode ends it before the stops, and
an image that cannot be had before the parts behind it. -/
structure ConvertsSafely (files : FileReader) (textRequest : Dto.GeneralOpenAIRequest F) : Prop where
  tools : ∀ tool ∈ textRequest.tools.getD [], Typed tool
  rest : (∃ err, textRequest.reasoning = some (.error err)) ∨
    StopsAreStrings textRequest.stop ∧
      ∀ part, (textRequest.messages.flatMap mediaParts).find? (fun part => !partConverts files part) =
        some part → ∃ image, part = .imageUrl image

/-! ## One part, one message -/

theorem convertImage_isOk (files : FileReader) (image : Dto.MessageImageUrl) :
    (convertImage files (.imageUrl image) : Outcome (ClaudeBlock F)).isOk =
      files.hasImage image.url := by
  unfold convertImage FileReader.hasImage
  dsimp only [Dto.MediaContent.getImageMedia]
  split
  · cases files.getFileBase64FromUrl image.url <;> rfl
  · cases files.decodeBase64ImageData image.url <;> rfl

theorem convertImage_ne_panicked (files : FileReader) (image : Dto.MessageImageUrl) :
    (convertImage files (.imageUrl image) : Outcome (ClaudeBlock F)) ≠ .panicked := by
  unfold convertImage
  dsimp only [Dto.MediaContent.getImageMedia]
  split
  · cases files.getFileBase64FromUrl image.url <;> exact fun h => nomatch h
  · cases files.decodeBase64ImageData image.url <;> exact fun h => nomatch h

theorem convertMedia_isOk (files : FileReader) (part : Dto.MediaContent) :
    (convertMedia files part : Outcome (ClaudeBlock F)).isOk = partConverts files part := by
  cases part with
  | text t => rfl
  | imageUrl image => exact convertImage_isOk files image
  | _ => rfl

/-- A part of another type has no image to point to. -/
theorem convertMedia_panicked_iff {files : FileReader} {part : Dto.MediaContent}
    (hfails : partConverts files part = false) :
    (convertMedia files part : Outcome (ClaudeBlock F)) = .panicked ↔
      ¬∃ image, part = .imageUrl image := by
  cases part with
  | text t => cases hfails
  | imageUrl image =>
      exact iff_of_false (convertImage_ne_panicked files image) (not_not.2 ⟨image, rfl⟩)
  | _ => exact iff_of_true rfl fun ⟨_, himage⟩ => nomatch himage

/-- The first part that cannot be converted is no image. -/
def Panics (files : FileReader) (parts : List Dto.MediaContent) : Prop :=
  ∃ part, parts.find? (fun part => !partConverts files part) = some part ∧
    ¬∃ image, part = .imageUrl image

theorem mapM_convertMedia_panicked_iff {files : FileReader} {parts : List Dto.MediaContent} :
    parts.mapM (convertMedia files : Dto.MediaContent → Outcome (ClaudeBlock F)) = .panicked ↔
      Panics files parts := by
  rw [Outcome.mapM_panicked_iff]
  have hsame : (fun part => !(convertMedia files part : Outcome (ClaudeBlock F)).isOk) =
      fun part => !partConverts files part :=
    funext fun part => by rw [convertMedia_isOk]
  rw [hsame]
  refine exists_congr fun part => and_congr_right fun hfirst => convertMedia_panicked_iff ?_
  simpa using List.find?_some hfirst

variable {json : ArgumentsDecoder N F} {files : FileReader}

theorem convertContent_isOk (message : Dto.Message F) :
    (convertContent json files message).isOk =
      message.parseContent.all fun part => partConverts files part := by
  unfold convertContent
  split
  case isTrue hstring =>
    obtain ⟨s, hs⟩ := isStringContent_iff.1 (Bool.and_eq_true_iff.1 hstring).1
    rw [Dto.Message.parseContent, hs]
    rfl
  case isFalse =>
    rw [Bool.eq_iff_iff, List.all_eq_true, Outcome.bind_isOk]
    constructor
    · intro hok
      obtain ⟨media, hmedia, -⟩ := hok
      intro part hpart
      rw [← convertMedia_isOk (F := F)]
      exact Outcome.mapM_isOk.1 (Outcome.isOk_iff.2 ⟨media, hmedia⟩) part hpart
    · intro hall
      have hok := Outcome.mapM_isOk.2 fun part hpart =>
        (convertMedia_isOk (F := F) files part).trans (hall part hpart)
      obtain ⟨media, hmedia⟩ := Outcome.isOk_iff.1 hok
      exact ⟨media, hmedia, rfl⟩

theorem panics_of_all {parts : List Dto.MediaContent}
    (hall : parts.all (fun part => partConverts files part) = true) : ¬Panics files parts := by
  intro hpanics
  obtain ⟨part, hfirst, -⟩ := hpanics
  have hfails := List.find?_some hfirst
  rw [List.all_eq_true.1 hall part (List.mem_of_find?_eq_some hfirst)] at hfails
  cases hfails

theorem convertContent_panicked_iff (message : Dto.Message F) :
    convertContent json files message = .panicked ↔ Panics files message.parseContent := by
  by_cases hstring : (message.isStringContent && message.toolCalls.isNone) = true
  · have hok : (convertContent json files message).isOk = _ := convertContent_isOk message
    have hreturns : (convertContent json files message).isOk = true := by
      rw [convertContent, if_pos hstring]
      rfl
    refine iff_of_false (fun hpanic => ?_) (panics_of_all (hok.symm.trans hreturns))
    rw [hpanic] at hreturns
    cases hreturns
  · rw [convertContent, if_neg hstring, Outcome.bind_eq_panicked, mapM_convertMedia_panicked_iff,
      or_iff_left_iff_imp]
    intro hlater
    obtain ⟨media, -, hpanic⟩ := hlater
    cases hpanic

theorem convertMessage_isOk (s : ConvertState F) (message : Dto.Message F) :
    (convertMessage json files s message).isOk =
      (mediaParts message).all fun part => partConverts files part := by
  unfold convertMessage mediaParts
  by_cases hsystem : message.role = "system"
  · rw [if_pos hsystem, if_pos (.inl hsystem)]
    rfl
  · by_cases htool : message.role = "tool"
    · rw [if_neg hsystem, if_pos htool, if_pos (Or.inr htool)]
      rfl
    · have hcontent : (convertContent json files message).isOk = _ := convertContent_isOk message
      rw [if_neg hsystem, if_neg htool, if_neg (not_or.2 ⟨hsystem, htool⟩), ← hcontent]
      cases convertContent json files message <;> rfl

theorem convertMessage_panicked_iff (s : ConvertState F) (message : Dto.Message F) :
    convertMessage json files s message = .panicked ↔ Panics files (mediaParts message) := by
  unfold convertMessage mediaParts
  by_cases hsystem : message.role = "system"
  · rw [if_pos hsystem, if_pos (.inl hsystem)]
    exact iff_of_false (fun h => nomatch h) (panics_of_all rfl)
  · by_cases htool : message.role = "tool"
    · rw [if_neg hsystem, if_pos htool, if_pos (Or.inr htool)]
      exact iff_of_false (fun h => nomatch h) (panics_of_all rfl)
    · rw [if_neg hsystem, if_neg htool, if_neg (not_or.2 ⟨hsystem, htool⟩),
        Outcome.bind_eq_panicked, convertContent_panicked_iff, or_iff_left_iff_imp]
      intro hlater
      obtain ⟨content, -, hpanic⟩ := hlater
      cases hpanic

/-! ## The messages -/

/-- The parts that are not text. -/
def otherParts (message : Dto.Message F) : List Dto.MediaContent :=
  (mediaParts message).filter fun part => part.text?.isNone

/-- A text is never the first part that cannot be converted. -/
theorem panics_otherParts (messages : List (Dto.Message F)) :
    Panics files (messages.flatMap otherParts) ↔ Panics files (messages.flatMap mediaParts) := by
  unfold Panics
  have hfilter : messages.flatMap otherParts =
      (messages.flatMap mediaParts).filter fun part => part.text?.isNone :=
    List.filter_flatMap.symm
  rw [hfilter, List.find?_filter]
  have hsame : (fun part : Dto.MediaContent => decide (part.text?.isNone = true ∧
      (!partConverts files part) = true)) = fun part => !partConverts files part := by
    funext part
    cases part with
    | text t => rfl
    | _ => simp [Dto.MediaContent.text?]
  rw [hsame]

theorem otherParts_of_string {message : Dto.Message F} (hstring : message.isStringContent = true) :
    otherParts message = [] := by
  obtain ⟨s, hs⟩ := isStringContent_iff.1 hstring
  unfold otherParts mediaParts
  split
  · rfl
  · rw [Dto.Message.parseContent, hs]
    rfl

theorem otherParts_fmtMessage (message : Dto.Message F) :
    otherParts (fmtMessage message) = otherParts message := by
  obtain ⟨role, content, toolCalls, toolCallId⟩ := message
  cases content with
  | null =>
      rw [otherParts_of_string (isStringContent_iff.2 ⟨"...", rfl⟩)]
      unfold otherParts mediaParts
      split <;> rfl
  | _ => rfl

theorem panics_append {parts rest : List Dto.MediaContent} : Panics files (parts ++ rest) ↔
    Panics files parts ∨ parts.all (fun part => partConverts files part) = true ∧
      Panics files rest := by
  unfold Panics
  rw [List.find?_append]
  cases hfirst : parts.find? fun part => !partConverts files part with
  | none =>
      have hall : parts.all (fun part => partConverts files part) = true := by
        rw [List.all_eq_true]
        intro part hpart
        simpa using List.find?_eq_none.1 hfirst part hpart
      simp [hall]
  | some part =>
      have hnot : parts.all (fun part => partConverts files part) = false := by
        have hfails := List.find?_some hfirst
        rw [List.all_eq_false]
        exact ⟨part, List.mem_of_find?_eq_some hfirst, by simpa using hfails⟩
      simp [hnot]

/-- The second loop panics where the parts of all messages do. -/
theorem convertMessages_panicked_iff {messages : List (Dto.Message F)} :
    convertMessages json files messages = .panicked ↔
      Panics files (messages.flatMap mediaParts) := by
  unfold convertMessages
  rw [Outcome.foldlM_panicked_iff convertMessage_isOk convertMessage_panicked_iff]
  induction messages with
  | nil => exact iff_of_false (fun ⟨_, hnone, _⟩ => nomatch hnone) (panics_of_all rfl)
  | cons message messages ih =>
      rw [List.flatMap_cons, panics_append, ← ih]
      cases hall : (mediaParts message).all fun part => partConverts files part with
      | true =>
          have hnot := panics_of_all hall
          rw [List.find?_cons_of_neg (by rw [hall]; exact Bool.false_ne_true)]
          simp [hnot]
      | false =>
          rw [List.find?_cons_of_pos (by rw [hall]; rfl)]
          simp

omit json in
/-- Joining messages changes texts only. -/
theorem otherParts_joinRun {run : List (Dto.Message F)} (hrun : run ≠ [])
    (hchain : run.IsChain fun message next => neighbours message next = true) :
    otherParts (joinRun run) = run.flatMap otherParts := by
  induction run using List.reverseRecOn with
  | nil => exact absurd rfl hrun
  | append_singleton run x ih =>
      by_cases hfirst : run = []
      · rw [hfirst, List.nil_append, List.flatMap_singleton]
        exact otherParts_fmtMessage x
      · obtain ⟨hbefore, -, hlast⟩ := List.isChain_append.1 hchain
        have hrel : neighbours (run.getLast hfirst) x = true :=
          hlast _ (List.getLast_mem_getLast? hfirst) _ rfl
        have hjoins : joins (fmtMessage (run.getLast hfirst)) x := of_decide_eq_true hrel
        -- all that is joined are strings
        have hstring : (joinRun run).isStringContent = true := by
          have hend := (joinRun_last run.dropLast (run.getLast hfirst)
            (by rw [List.dropLast_append_getLast]; exact hbefore)).2.2.2
          rw [List.dropLast_append_getLast] at hend
          exact hend.trans hjoins.2.2.1
        rw [joinRun_concat run hfirst, List.flatMap_append, ← ih hfirst hbefore,
          List.flatMap_singleton, otherParts_of_string hstring,
          otherParts_of_string hjoins.2.2.2]
        exact otherParts_of_string rfl

/-- The loops panic where the parts of the request's messages do. -/
theorem panics_runs (messages : List (Dto.Message F)) :
    Panics files (((runs messages).map joinRun).flatMap mediaParts) ↔
      Panics files (messages.flatMap mediaParts) := by
  have hruns : (runs messages).flatMap (fun run => otherParts (joinRun run)) =
      messages.flatMap otherParts := by
    rw [List.flatMap_congr fun run hrun => otherParts_joinRun (List.ne_nil_of_mem_splitBy hrun)
      (List.isChain_of_mem_splitBy hrun)]
    exact Runs.flatMap_splitBy neighbours messages otherParts
  rw [← panics_otherParts, ← panics_otherParts, List.flatMap_map, hruns]

/-! ## Tools and stops -/

omit json in
theorem convertTool_typed {tool : Dto.ToolCallRequest F} (htyped : Typed tool) :
    ∃ converted, convertTool tool = .ok converted := by
  unfold convertTool
  split
  case h_1 keys value hparameters =>
    dsimp only
    cases htype : (JsonTree.obj keys value).child "type" with
    | none => exact ⟨_, rfl⟩
    | some type =>
        rcases htyped keys value hparameters type htype with rfl | ⟨s, rfl⟩
        · exact ⟨_, rfl⟩
        · exact ⟨_, rfl⟩
  case h_2 => exact ⟨_, rfl⟩

omit json in
theorem convertTool_of_not_typed {tool : Dto.ToolCallRequest F} (hnot : ¬Typed tool) :
    convertTool tool = .panicked := by
  unfold Typed at hnot
  push Not at hnot
  obtain ⟨keys, value, hparameters, type, htype, hnull, hstring⟩ := hnot
  unfold convertTool
  rw [hparameters]
  dsimp only
  rw [htype]
  cases type with
  | null => contradiction
  | str s => exact absurd rfl (hstring s)
  | _ => rfl

omit json in
theorem convertTools_ok {textRequest : Dto.GeneralOpenAIRequest F}
    (htyped : ∀ tool ∈ textRequest.tools.getD [], Typed tool) :
    ∃ claudeTools, convertTools textRequest = .ok claudeTools := by
  have hok : ((textRequest.tools.getD []).mapM convertTool).isOk = true :=
    Outcome.mapM_isOk.2 fun tool htool => Outcome.isOk_iff.2 (convertTool_typed (htyped tool htool))
  obtain ⟨tools, htools⟩ := Outcome.isOk_iff.1 hok
  unfold convertTools
  rw [htools]
  exact ⟨_, rfl⟩

omit json in
theorem convertTools_panicked {textRequest : Dto.GeneralOpenAIRequest F}
    (hnot : ¬∀ tool ∈ textRequest.tools.getD [], Typed tool) :
    convertTools textRequest = .panicked := by
  push Not at hnot
  obtain ⟨tool, htool, huntyped⟩ := hnot
  have hturn : ∀ tool ∈ textRequest.tools.getD [],
      (convertTool tool).isOk = true ∨ convertTool tool = .panicked := by
    intro tool _
    by_cases htyped : Typed tool
    · exact .inl (Outcome.isOk_iff.2 (convertTool_typed htyped))
    · exact .inr (convertTool_of_not_typed htyped)
  have hpanic : (textRequest.tools.getD []).mapM convertTool = .panicked :=
    Outcome.mapM_panicked_of_mem hturn htool (convertTool_of_not_typed huntyped)
  unfold convertTools
  rw [hpanic]
  rfl

omit json in
theorem stopSequence_ok_iff {stop : JsonTree F} :
    (stopSequence stop).isOk = true ↔ ∃ s, stop = .str s := by
  cases stop with
  | str s => exact iff_of_true rfl ⟨s, rfl⟩
  | _ => exact iff_of_false Bool.false_ne_true fun ⟨_, hs⟩ => nomatch hs

omit json in
theorem stopSequence_cases (stop : JsonTree F) :
    (stopSequence stop).isOk = true ∨ stopSequence stop = .panicked := by
  cases stop with
  | str s => exact .inl rfl
  | _ => exact .inr rfl

omit json in
theorem stopSequences_ok {stop : JsonTree F} (hstrings : StopsAreStrings stop) :
    ∃ stops, stopSequences stop = .ok stops := by
  unfold stopSequences
  split
  case h_2 n item =>
    have hok : ((List.ofFn item).mapM stopSequence).isOk = true := by
      refine Outcome.mapM_isOk.2 fun stop hstop => stopSequence_ok_iff.2 ?_
      obtain ⟨i, rfl⟩ := (List.mem_ofFn' item stop).1 hstop
      exact hstrings n item rfl i
    obtain ⟨stops, hstops⟩ := Outcome.isOk_iff.1 hok
    rw [hstops]
    exact ⟨_, rfl⟩
  all_goals exact ⟨_, rfl⟩

omit json in
theorem stopSequences_panicked {stop : JsonTree F} (hnot : ¬StopsAreStrings stop) :
    stopSequences stop = .panicked := by
  unfold StopsAreStrings at hnot
  push Not at hnot
  obtain ⟨n, item, rfl, i, hi⟩ := hnot
  have hitem : stopSequence (item i) = .panicked := by
    rcases stopSequence_cases (item i) with hok | hpanic
    · obtain ⟨s, hs⟩ := stopSequence_ok_iff.1 hok
      exact absurd hs (hi s)
    · exact hpanic
  have hpanic : (List.ofFn item).mapM stopSequence = .panicked :=
    Outcome.mapM_panicked_of_mem (fun stop _ => stopSequence_cases stop)
      ((List.mem_ofFn' item _).2 ⟨i, rfl⟩) hitem
  unfold stopSequences
  dsimp only
  rw [hpanic]
  rfl

omit json in
theorem reasoningThinking_cases (reasoning : Option (Except String Dto.RequestReasoning))
    (thinking : Option Dto.Thinking) :
    (∃ err, reasoning = some (.error err) ∧ reasoningThinking reasoning thinking = .error err) ∨
      (¬∃ err, reasoning = some (.error err)) ∧
        ∃ thinking', reasoningThinking reasoning thinking = .ok thinking' := by
  match reasoning with
  | none => exact .inr ⟨fun ⟨_, h⟩ => (nomatch h), _, rfl⟩
  | some (.ok reasoning) => exact .inr ⟨fun ⟨_, h⟩ => (nomatch h), _, rfl⟩
  | some (.error err) => exact .inl ⟨err, rfl, rfl⟩

/-- The conversion returns a request or an error exactly if the tools are typed, and the stops and
parts that it comes to are strings, texts and images. -/
theorem conversion_returns_iff [Zero F] [One F] (settings : ClaudeSettings)
    (json : ArgumentsDecoder N F) (files : FileReader) (textRequest : Dto.GeneralOpenAIRequest F) :
    requestOpenAI2ClaudeMessage settings json files textRequest ≠ .panicked ↔
      ConvertsSafely files textRequest := by
  unfold requestOpenAI2ClaudeMessage
  by_cases htools : ∀ tool ∈ textRequest.tools.getD [], Typed tool
  swap
  · rw [convertTools_panicked htools]
    exact iff_of_false (fun hne => hne rfl) fun hsafe => htools hsafe.tools
  obtain ⟨claudeTools, hclaudeTools⟩ := convertTools_ok htools
  rw [hclaudeTools, Outcome.ok_bind]
  dsimp only
  rcases reasoningThinking_cases textRequest.reasoning
    (initialRequest settings textRequest claudeTools).thinking with
    ⟨err, hreasoning, hthinking⟩ | ⟨hreasoning, thinking, hthinking⟩
  · rw [hthinking]
    exact iff_of_true (fun h => nomatch h) ⟨htools, .inl ⟨err, hreasoning⟩⟩
  rw [hthinking, Outcome.ok_bind]
  by_cases hstops : StopsAreStrings textRequest.stop
  swap
  · rw [stopSequences_panicked hstops]
    exact iff_of_false (fun hne => hne rfl) fun hsafe => hstops (hsafe.rest.resolve_left hreasoning).1
  obtain ⟨stops, hok⟩ := stopSequences_ok hstops
  rw [hok, Outcome.ok_bind, formatMessages_eq, Outcome.ok_bind, Ne, Outcome.bind_eq_panicked,
    convertMessages_panicked_iff, panics_runs]
  -- what is left does not panic
  rw [or_iff_left fun ⟨_, _, hpanic⟩ => nomatch hpanic]
  constructor
  · intro hnot
    refine ⟨htools, .inr ⟨hstops, fun part hfirst => ?_⟩⟩
    by_contra himage
    exact hnot ⟨part, hfirst, himage⟩
  · intro hsafe hpanics
    obtain ⟨part, hfirst, himage⟩ := hpanics
    exact himage ((hsafe.rest.resolve_left hreasoning).2 part hfirst)

end

def sampleSettings : ClaudeSettings where
  defaultMaxTokens := [("default", 8192)]
  thinkingAdapterEnabled := true
  budgetTokens maxTokens := maxTokens * 4 / 5
  thinkingModelBlacklist := []

/-- The texts of two objects, with integers. -/
def sampleDecoder : ArgumentsDecoder ℤ ℤ where
  tree text :=
    if text = "\x7b\"city\":\"Paris\"\x7d" then some (.obj {"city"} fun _ => .str "Paris")
    else if text = "\x7b\"id\":9007199254740993\x7d" then
      some (.obj {"id"} fun _ => .num 9007199254740993)
    else none
  parse := JsonText.nearestFloat
  print := id
  finite := JsonText.inRange

/-- Nothing can be read. -/
def noFiles : FileReader where
  getFileBase64FromUrl _ := .error "not found"
  decodeString _ := .error "illegal base64 data"
  getImageConfig _ := .error "unknown format"

/-- A request with some messages, tools and stops. -/
def sampleRequest (messages : List (Dto.Message ℤ)) (tools : List (Dto.ToolCallRequest ℤ))
    (stop : JsonTree ℤ) : Dto.GeneralOpenAIRequest ℤ where
  model := "claude-sonnet-4"
  messages := messages
  stream := false
  maxTokens := 0
  temperature := none
  topP := 0
  stop := stop
  tools := some tools

/-- An audio part, the type of a schema that may be null, and a number among the stops. -/
theorem audio_part_panics :
    requestOpenAI2ClaudeMessage sampleSettings sampleDecoder noFiles
      (sampleRequest [{
        role := "user"
        content := .arr 1 fun _ => .obj {"type", "input_audio"} fun key =>
          if key.1 = "type" then .str "input_audio"
          else .obj {"data", "format"} fun _ => .str "wav" }] [] .null) = .panicked ∧
    requestOpenAI2ClaudeMessage sampleSettings sampleDecoder noFiles
      (sampleRequest [{ role := "user", content := .str "Hello" }] [{
        type := "function"
        function := ⟨"", "lookup", .obj {"type"} fun _ => .arr 2 fun i =>
          .str (if i.1 = 0 then "object" else "null"), ""⟩ }] .null) = .panicked ∧
    requestOpenAI2ClaudeMessage sampleSettings sampleDecoder noFiles
      (sampleRequest [{ role := "user", content := .str "Hello" }] []
        (.arr 1 fun _ => .num 1)) = .panicked :=
  ⟨rfl, rfl, rfl⟩

end NewApi.Model.ChatToClaude
