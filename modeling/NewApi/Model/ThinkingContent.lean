import NewApi.Lib.Runs
import NewApi.Model.OaiStream

/-!
# Thinking as content

In this mode a client receives the reasoning of a stream as content between the tags `<think>` and
`</think>`.  Three flags tell whether the first tag and the last one have been sent.  Both go out at
most once in a stream.
-/

namespace NewApi.Model

open NewApi.Lib NewApi.Lib.Strings

namespace ThinkingToContent

variable {F : Type}

/-! ## The code -/

/-- `relaycommon.ThinkingContentInfo`. -/
structure ThinkingContentInfo where
  isFirstThinkingContent : Bool
  sendLastThinkingContent : Bool
  hasSentThinkingContent : Bool
deriving DecidableEq

/-- What `Init` sets. -/
def ThinkingContentInfo.initial : ThinkingContentInfo where
  isFirstThinkingContent := true
  sendLastThinkingContent := false
  hasSentThinkingContent := false

/-- Data as it has come, or a chunk. -/
inductive Sent (F : Type)
  | stringData (data : String)
  | objectData (response : StreamResponse F)

structure SendResult (F : Type) where
  info : ThinkingContentInfo
  sent : List (Sent F)
  failed : Bool

/-- A delta without its reasoning. -/
def withoutReasoning (delta : ChoiceDelta) : ChoiceDelta :=
  { delta with reasoningContent := none, reasoning := none }

/-- `SetContentString`, without the reasoning. -/
def contentOnly (delta : ChoiceDelta) (s : String) : ChoiceDelta :=
  { withoutReasoning delta with content := some s }

/-- A copy of the chunk with this content in all choices. -/
def copyWithContent (response : StreamResponse F) (s : String) : StreamResponse F :=
  { response with choices := response.choices.map fun choice =>
      { choice with delta := contentOnly choice.delta s } }

/-- The loop over the choices: the chunks it sends, and the choices it leaves. -/
def processChoices (response : StreamResponse F) (hasThinkingContent hasContent : Bool) :
    ThinkingContentInfo → List StreamChoice → List StreamChoice →
      ThinkingContentInfo × List (StreamResponse F) × List StreamChoice
  | info, processed, [] => (info, [], processed)
  | info, processed, choice :: choices =>
      let closes := hasContent && !info.sendLastThinkingContent && info.hasSentThinkingContent
      let closing :=
        if closes then
          [copyWithContent { response with choices := processed ++ choice :: choices } "\n</think>\n"]
        else []
      let info := if closes then { info with sendLastThinkingContent := true } else info
      let delta :=
        if choice.delta.getReasoningContent ≠ "" then
          contentOnly choice.delta choice.delta.getReasoningContent
        else if !hasThinkingContent && !hasContent then withoutReasoning choice.delta
        else choice.delta
      let (info, sent, processed) := processChoices response hasThinkingContent hasContent info
        (processed ++ [{ choice with delta := delta }]) choices
      (info, closing ++ sent, processed)

/-- `sendStreamData` with thinking to content, for data that are a chunk. -/
def sendThinkingToContent (info : ThinkingContentInfo) (lastStreamResponse : StreamResponse F) :
    ThinkingContentInfo × List (StreamResponse F) :=
  let hasThinkingContent :=
    lastStreamResponse.choices.any fun choice => choice.delta.getReasoningContent ≠ ""
  let hasContent := lastStreamResponse.choices.any fun choice => choice.delta.getContentString ≠ ""
  let thinkingContent :=
    concat (lastStreamResponse.choices.map fun choice => choice.delta.getReasoningContent)
  if info.isFirstThinkingContent && hasThinkingContent then
    ({ info with isFirstThinkingContent := false, hasSentThinkingContent := true },
      [copyWithContent lastStreamResponse ("<think>\n" ++ thinkingContent)])
  else if lastStreamResponse.choices.length = 0 then (info, [lastStreamResponse])
  else
    let (info, sent, choices) := processChoices lastStreamResponse hasThinkingContent hasContent
      info [] lastStreamResponse.choices
    (info, sent ++ [{ lastStreamResponse with choices := choices }])

def sendStreamData (unmarshal : String → Option (StreamResponse F)) (info : ThinkingContentInfo)
    (data : String) (forceFormat thinkToContent : Bool) : SendResult F :=
  if data = "" then ⟨info, [], false⟩
  else if !forceFormat && !thinkToContent then ⟨info, [.stringData data], false⟩
  else
    match unmarshal data with
    | none => ⟨info, [], true⟩
    | some lastStreamResponse =>
        if !thinkToContent then ⟨info, [.objectData lastStreamResponse], false⟩
        else
          let (info, sent) := sendThinkingToContent info lastStreamResponse
          ⟨info, sent.map .objectData, false⟩

/-- With both modes off the data are sent as the handler of an OpenAI stream sends them. -/
theorem sendStreamData_off (unmarshal : String → Option (StreamResponse F))
    (info : ThinkingContentInfo) (s : OaiStreamState) (data : String) :
    (s.sendStreamData data).sent.map Sent.stringData =
      s.sent.map Sent.stringData ++ (sendStreamData unmarshal info data false false).sent := by
  rw [OaiStreamState.sendStreamData, sendStreamData]
  by_cases hdata : data = ""
  · rw [if_pos hdata, if_pos hdata, List.append_nil]
  · rw [if_neg hdata, if_neg hdata, List.map_append]
    rfl

/-- What is sent for the data of a stream, in turn; an error does not end the stream. -/
def sendAll (unmarshal : String → Option (StreamResponse F)) (forceFormat thinkToContent : Bool) :
    ThinkingContentInfo → List String → List (Sent F)
  | _, [] => []
  | info, data :: stream =>
      let result := sendStreamData unmarshal info data forceFormat thinkToContent
      result.sent ++ sendAll unmarshal forceFormat thinkToContent result.info stream

/-- The chunks among what has been sent. -/
def sentChunks (sent : List (Sent F)) : List (ChatCompletionsStreamResponse F) :=
  sent.filterMap fun
    | .stringData _ => none
    | .objectData response => some response.toChatCompletionsStreamResponse

/-- The content that a client receives for a stream. -/
def receivedContent (unmarshal : String → Option (StreamResponse F)) (forceFormat : Bool)
    (stream : List String) : String :=
  contentOf (sentChunks (sendAll unmarshal forceFormat true .initial stream))

/-! ## Reasoning between tags -/

/-- The texts of a stream. -/
inductive StreamText
  | reasoning (text : String)
  | content (text : String)

namespace StreamText

def text : StreamText → String
  | .reasoning text => text
  | .content text => text

def isReasoning : StreamText → Bool
  | .reasoning _ => true
  | .content _ => false

def sameKind (s t : StreamText) : Bool :=
  s.isReasoning == t.isReasoning

end StreamText

/-- A run of texts of one kind, between tags if they are reasoning. -/
def taggedRun (run : List StreamText) : String :=
  if run.any StreamText.isReasoning then
    "<think>\n" ++ concat (run.map StreamText.text) ++ "\n</think>\n"
  else concat (run.map StreamText.text)

/-- The texts in order, each run of reasoning between tags. -/
def tagged (texts : List StreamText) : String :=
  concat ((texts.splitBy StreamText.sameKind).map taggedRun)

/-- The two texts of a chunk; either may be empty. -/
structure ChunkTexts where
  reasoning : String
  content : String

/-- The texts of a chunk that are not empty, with the reasoning first. -/
def ChunkTexts.texts (chunk : ChunkTexts) : List StreamText :=
  (if chunk.reasoning = "" then [] else [.reasoning chunk.reasoning]) ++
    if chunk.content = "" then [] else [.content chunk.content]

/-- The texts of the choices of a chunk. -/
def chunkTexts (unmarshal : String → Option (StreamResponse F)) (data : String) : ChunkTexts :=
  match unmarshal data with
  | none => ⟨"", ""⟩
  | some response =>
      ⟨reasoningOf [response.toChatCompletionsStreamResponse],
        contentOf [response.toChatCompletionsStreamResponse]⟩

/-- The data of a chunk with one choice. -/
def SingleChoice (unmarshal : String → Option (StreamResponse F)) (data : String) : Prop :=
  data ≠ "" ∧ ∃ response choice, unmarshal data = some response ∧ response.choices = [choice]

def NoReasoning (chunks : List ChunkTexts) : Prop :=
  ∀ chunk ∈ chunks, chunk.reasoning = ""

/-- Chunks without content, then one with content only, and no reasoning after it. -/
def ClosedByContent (chunks : List ChunkTexts) : Prop :=
  ∃ run first later, chunks = run ++ first :: later ∧ (∀ chunk ∈ run, chunk.content = "") ∧
    first.reasoning = "" ∧ first.content ≠ "" ∧ NoReasoning later

/-- No reasoning, or one run of it, which content follows; and no chunk with both. -/
def OneRun (chunks : List ChunkTexts) : Prop :=
  NoReasoning chunks ∨
    ∃ before rest, chunks = before ++ rest ∧ NoReasoning before ∧ ClosedByContent rest

/-! ## The tags of texts and chunks -/

section

open StreamText

theorem taggedRun_cons_content {run : List StreamText} (text : String)
    (hrun : run.any isReasoning = false) :
    taggedRun (.content text :: run) = text ++ taggedRun run := by
  have hcons : (StreamText.content text :: run).any isReasoning = false := hrun
  rw [taggedRun, taggedRun, hcons, hrun]
  rfl

theorem taggedRun_reasoning (text : String) (run : List StreamText) :
    taggedRun (.reasoning text :: run) =
      "<think>\n" ++ (text ++ concat (run.map StreamText.text)) ++ "\n</think>\n" := rfl

/-- A text of the other kind begins a run. -/
theorem splitBy_of_not_sameKind {first next : StreamText} (texts : List StreamText)
    (hkind : sameKind first next = false) :
    (first :: next :: texts).splitBy sameKind = [first] :: (next :: texts).splitBy sameKind := by
  have hsplit : ([first] ++ next :: texts).splitBy sameKind =
      [first].splitBy sameKind ++ (next :: texts).splitBy sameKind := by
    refine List.splitBy_append_cons texts fun x hx => ?_
    obtain rfl : first = x := Option.some.inj hx
    exact hkind
  exact hsplit

/-- The texts of a run are of one kind. -/
theorem any_isReasoning_of_mem_splitBy {texts run : List StreamText} {text : String}
    (hrun : StreamText.content text :: run ∈ texts.splitBy sameKind) :
    run.any isReasoning = false := by
  have hchain := List.isChain_of_mem_splitBy hrun
  clear hrun
  induction run generalizing text with
  | nil => rfl
  | cons next run ih =>
      obtain ⟨hnext, hrest⟩ := List.isChain_cons_cons.1 hchain
      cases next with
      | reasoning => cases hnext
      | content text => exact ih hrest

theorem tagged_content (text : String) (texts : List StreamText) :
    tagged (.content text :: texts) = text ++ tagged texts := by
  cases texts with
  | nil =>
      show text ++ "" ++ "" = text ++ ""
      rw [String.append_empty]
  | cons next texts =>
      obtain ⟨run, runs, hruns⟩ := Runs.splitBy_cons sameKind next texts
      cases next with
      | reasoning next =>
          rw [tagged, splitBy_of_not_sameKind texts rfl, List.map_cons, concat_cons]
          show text ++ "" ++ tagged (.reasoning next :: texts) = _
          rw [String.append_empty]
      | content next =>
          have hmem : StreamText.content next :: run ∈
              (StreamText.content next :: texts).splitBy sameKind := by
            rw [hruns]
            exact List.mem_cons_self
          have hrest : run.any isReasoning = false := any_isReasoning_of_mem_splitBy hmem
          have hkind : (StreamText.content next :: run).any isReasoning = false := hrest
          rw [tagged, tagged, Runs.splitBy_cons_of_rel hruns rfl, hruns, List.map_cons,
            List.map_cons, concat_cons, concat_cons, taggedRun_cons_content text hkind,
            String.append_assoc]

/-- What follows a run of reasoning that is not closed. -/
def afterReasoning : List StreamText → String
  | [] => "\n</think>\n"
  | .reasoning text :: texts => text ++ afterReasoning texts
  | .content text :: texts => "\n</think>\n" ++ tagged (.content text :: texts)

theorem tagged_reasoning (text : String) (texts : List StreamText) :
    tagged (.reasoning text :: texts) = "<think>\n" ++ text ++ afterReasoning texts := by
  induction texts generalizing text with
  | nil =>
      show "<think>\n" ++ (text ++ "") ++ "\n</think>\n" ++ "" = _
      rw [String.append_empty, String.append_empty]
      rfl
  | cons next texts ih =>
      cases next with
      | reasoning next =>
          obtain ⟨run, runs, hruns⟩ := Runs.splitBy_cons sameKind (.reasoning next) texts
          have hnext := ih next
          rw [tagged, hruns, List.map_cons, concat_cons, taggedRun_reasoning, String.append_assoc,
            String.append_assoc, String.append_assoc, String.append_assoc,
            String.append_right_inj] at hnext
          rw [tagged, Runs.splitBy_cons_of_rel hruns rfl, List.map_cons, concat_cons,
            taggedRun_reasoning, afterReasoning, ← hnext, List.map_cons, concat_cons]
          simp only [String.append_assoc, StreamText.text]
      | content next =>
          rw [tagged, splitBy_of_not_sameKind texts rfl, List.map_cons, concat_cons]
          show "<think>\n" ++ (text ++ "") ++ "\n</think>\n" ++ tagged (.content next :: texts) = _
          rw [String.append_empty, afterReasoning, String.append_assoc]

variable {chunk : ChunkTexts} {chunks : List ChunkTexts}

/-- The texts of the chunks of a stream. -/
def textsOf (chunks : List ChunkTexts) : List StreamText :=
  chunks.flatMap ChunkTexts.texts

theorem tagged_cons_of_reasoning (hreasoning : chunk.reasoning ≠ "") :
    tagged (textsOf (chunk :: chunks)) =
      "<think>\n" ++ chunk.reasoning ++
        (if chunk.content = "" then afterReasoning (textsOf chunks)
        else "\n</think>\n" ++ (chunk.content ++ tagged (textsOf chunks))) := by
  rw [textsOf, List.flatMap_cons, ChunkTexts.texts, if_neg hreasoning]
  split
  · exact tagged_reasoning _ _
  · show tagged (.reasoning _ :: .content _ :: _) = _
    rw [tagged_reasoning, afterReasoning, tagged_content]
    rfl

theorem tagged_cons_of_no_reasoning (hreasoning : chunk.reasoning = "") :
    tagged (textsOf (chunk :: chunks)) = chunk.content ++ tagged (textsOf chunks) := by
  rw [textsOf, List.flatMap_cons, ChunkTexts.texts, if_pos hreasoning]
  split
  case isTrue hcontent =>
    rw [hcontent, String.empty_append]
    rfl
  case isFalse => exact tagged_content _ _

theorem afterReasoning_cons :
    afterReasoning (textsOf (chunk :: chunks)) =
      chunk.reasoning ++
        (if chunk.content = "" then afterReasoning (textsOf chunks)
        else "\n</think>\n" ++ (chunk.content ++ tagged (textsOf chunks))) := by
  rw [textsOf, List.flatMap_cons, ChunkTexts.texts]
  by_cases hreasoning : chunk.reasoning = ""
  · rw [if_pos hreasoning, hreasoning, String.empty_append]
    split
    · rfl
    · show afterReasoning (.content _ :: _) = _
      rw [afterReasoning, tagged_content]
      rfl
  · rw [if_neg hreasoning]
    split
    · rfl
    · show afterReasoning (.reasoning _ :: .content _ :: _) = _
      rw [afterReasoning, afterReasoning, tagged_content]
      rfl

/-- The length of the texts. -/
def textLength (chunks : List ChunkTexts) : ℕ :=
  (chunks.map fun chunk => chunk.reasoning.length + chunk.content.length).sum

theorem textLength_cons :
    textLength (chunk :: chunks) =
      chunk.reasoning.length + chunk.content.length + textLength chunks := by
  rw [textLength, List.map_cons, List.sum_cons]
  rfl

theorem textLength_le (chunks : List ChunkTexts) :
    textLength chunks ≤ (tagged (textsOf chunks)).length ∧
      textLength chunks + 10 ≤ (afterReasoning (textsOf chunks)).length := by
  have hclose : "\n</think>\n".length = 10 := by decide
  have hopen : "<think>\n".length = 8 := by decide
  induction chunks with
  | nil =>
      refine ⟨Nat.zero_le _, ?_⟩
      show 0 + 10 ≤ "\n</think>\n".length
      rw [hclose]
  | cons chunk chunks ih =>
      obtain ⟨htagged, hafter⟩ := ih
      have hempty : chunk.content = "" → chunk.content.length = 0 := String.length_eq_zero_iff.2
      have hnone : chunk.reasoning = "" → chunk.reasoning.length = 0 := String.length_eq_zero_iff.2
      rw [textLength_cons]
      refine ⟨?_, ?_⟩
      · by_cases hreasoning : chunk.reasoning = ""
        · have hzero := hnone hreasoning
          rw [tagged_cons_of_no_reasoning hreasoning, String.length_append]
          omega
        · rw [tagged_cons_of_reasoning hreasoning, String.length_append, String.length_append]
          split
          case isTrue hcontent =>
            have hzero := hempty hcontent
            omega
          case isFalse =>
            rw [String.length_append, String.length_append]
            omega
      · rw [afterReasoning_cons, String.length_append]
        split
        case isTrue hcontent =>
          have hzero := hempty hcontent
          omega
        case isFalse =>
          rw [String.length_append, String.length_append]
          omega

end

/-! ## The content that is sent -/

/-- The content that is sent for a chunk with one choice. -/
def chunkContent (info : ThinkingContentInfo) (chunk : ChunkTexts) :
    ThinkingContentInfo × String :=
  if info.isFirstThinkingContent && chunk.reasoning ≠ "" then
    ({ info with isFirstThinkingContent := false, hasSentThinkingContent := true },
      "<think>\n" ++ chunk.reasoning)
  else
    let text := if chunk.reasoning ≠ "" then chunk.reasoning else chunk.content
    if chunk.content ≠ "" && !info.sendLastThinkingContent && info.hasSentThinkingContent then
      ({ info with sendLastThinkingContent := true }, "\n</think>\n" ++ text)
    else (info, text)

def streamContent : ThinkingContentInfo → List ChunkTexts → String
  | _, [] => ""
  | info, chunk :: chunks =>
      (chunkContent info chunk).2 ++ streamContent (chunkContent info chunk).1 chunks

section

variable {unmarshal : String → Option (StreamResponse F)} {info : ThinkingContentInfo}
  {response : StreamResponse F} {choice : StreamChoice} {data : String}
  {chunk : ChunkTexts} {chunks : List ChunkTexts}

/-- The content of chunks that are sent. -/
def chunksContent (responses : List (StreamResponse F)) : String :=
  contentOf (responses.map StreamResponse.toChatCompletionsStreamResponse)

theorem chunksContent_singleton (hsingle : response.choices = [choice]) :
    chunksContent [response] = choice.delta.getContentString := by
  show concat (response.choices.map _ ++ []) = _
  rw [hsingle]
  exact String.append_empty

theorem chunksContent_cons (response : StreamResponse F) (responses : List (StreamResponse F)) :
    chunksContent (response :: responses) = chunksContent [response] ++ chunksContent responses := by
  unfold chunksContent contentOf
  rw [List.map_cons, List.flatMap_cons, concat_append, List.map_singleton, List.flatMap_singleton]

theorem reasoningOf_single (hsingle : response.choices = [choice]) :
    reasoningOf [response.toChatCompletionsStreamResponse] = choice.delta.getReasoningContent := by
  show concat (response.choices.map _ ++ []) = _
  rw [hsingle]
  exact String.append_empty

theorem copyWithContent_choices (hsingle : response.choices = [choice]) (s : String) :
    (copyWithContent response s).choices = [{ choice with delta := contentOnly choice.delta s }] := by
  rw [copyWithContent]
  simp only [hsingle, List.map_singleton]

/-- The content that the loop leaves in a choice. -/
theorem getContentString_processed (hasThinkingContent hasContent : Bool) (delta : ChoiceDelta) :
    (if delta.getReasoningContent ≠ "" then contentOnly delta delta.getReasoningContent
      else if !hasThinkingContent && !hasContent then withoutReasoning delta
      else delta).getContentString =
      if delta.getReasoningContent ≠ "" then delta.getReasoningContent
      else delta.getContentString := by
  split
  · rfl
  · split <;> rfl

variable (info) in
/-- What is sent for a chunk with one choice. -/
theorem sendThinkingToContent_single (hsingle : response.choices = [choice]) :
    (sendThinkingToContent info response).1 =
        (chunkContent info ⟨choice.delta.getReasoningContent,
          choice.delta.getContentString⟩).1 ∧
      chunksContent (sendThinkingToContent info response).2 =
        (chunkContent info ⟨choice.delta.getReasoningContent,
          choice.delta.getContentString⟩).2 := by
  unfold sendThinkingToContent chunkContent
  simp only [hsingle, List.any_cons, List.any_nil, Bool.or_false, List.map_cons, List.map_nil,
    concat_cons, concat_nil, String.append_empty]
  by_cases hfirst : (info.isFirstThinkingContent &&
      decide (choice.delta.getReasoningContent ≠ "")) = true
  · rw [if_pos hfirst, if_pos hfirst]
    refine ⟨rfl, ?_⟩
    rw [chunksContent_singleton (copyWithContent_choices hsingle _)]
    rfl
  · rw [if_neg hfirst, if_neg hfirst, if_neg (by simp)]
    simp only [processChoices, List.nil_append]
    by_cases hcloses : (decide (choice.delta.getContentString ≠ "") &&
        !info.sendLastThinkingContent && info.hasSentThinkingContent) = true
    · simp only [if_pos hcloses]
      refine ⟨trivial, ?_⟩
      rw [List.append_nil, List.singleton_append, chunksContent_cons,
        chunksContent_singleton (copyWithContent_choices rfl _), chunksContent_singleton rfl,
        getContentString_processed]
      rfl
    · simp only [if_neg hcloses]
      refine ⟨trivial, ?_⟩
      rw [List.append_nil, List.nil_append, chunksContent_singleton rfl, getContentString_processed]

theorem chunkTexts_single (hdata : unmarshal data = some response)
    (hsingle : response.choices = [choice]) :
    chunkTexts unmarshal data = ⟨choice.delta.getReasoningContent,
      choice.delta.getContentString⟩ := by
  have hcontent : contentOf [response.toChatCompletionsStreamResponse] =
      choice.delta.getContentString := chunksContent_singleton hsingle
  rw [chunkTexts, hdata]
  simp only [reasoningOf_single hsingle, hcontent]

variable (info) in
theorem sendStreamData_single {forceFormat : Bool} (hdata : SingleChoice unmarshal data) :
    (sendStreamData unmarshal info data forceFormat true).info =
        (chunkContent info (chunkTexts unmarshal data)).1 ∧
      contentOf (sentChunks (sendStreamData unmarshal info data forceFormat true).sent) =
        (chunkContent info (chunkTexts unmarshal data)).2 := by
  obtain ⟨hne, response, choice, hresponse, hsingle⟩ := hdata
  obtain ⟨hinfo, hcontent⟩ := sendThinkingToContent_single info hsingle
  have hresult : sendStreamData unmarshal info data forceFormat true =
      ⟨(sendThinkingToContent info response).1,
        (sendThinkingToContent info response).2.map .objectData, false⟩ := by
    simp only [sendStreamData, if_neg hne, hresponse, Bool.not_true, Bool.and_false,
      Bool.false_eq_true, if_false]
  rw [hresult, chunkTexts_single hresponse hsingle]
  refine ⟨hinfo, ?_⟩
  rw [← hcontent, sentChunks, chunksContent, List.filterMap_map]
  show contentOf (List.filterMap (some ∘ StreamResponse.toChatCompletionsStreamResponse) _) = _
  rw [List.filterMap_eq_map]

theorem receivedContent_eq {forceFormat : Bool} {stream : List String}
    (hstream : ∀ data ∈ stream, SingleChoice unmarshal data) :
    receivedContent unmarshal forceFormat stream =
      streamContent .initial (stream.map (chunkTexts unmarshal)) := by
  unfold receivedContent
  generalize ThinkingContentInfo.initial = info
  induction stream generalizing info with
  | nil => rfl
  | cons data stream ih =>
      rw [List.forall_mem_cons] at hstream
      obtain ⟨hinfo, hcontent⟩ := sendStreamData_single info hstream.1
      rw [sendAll, sentChunks, List.filterMap_append, contentOf, List.flatMap_append, concat_append,
        List.map_cons, streamContent, ← hcontent, ← hinfo]
      congr 1
      exact ih hstream.2 _

/-! ## When the content is kept -/

/-- The first tag has been sent, and not the last one. -/
def opened : ThinkingContentInfo where
  isFirstThinkingContent := false
  sendLastThinkingContent := false
  hasSentThinkingContent := true

/-- Both tags have been sent. -/
def closed : ThinkingContentInfo where
  isFirstThinkingContent := false
  sendLastThinkingContent := true
  hasSentThinkingContent := true

theorem streamContent_initial_cons :
    streamContent .initial (chunk :: chunks) =
      if chunk.reasoning = "" then chunk.content ++ streamContent .initial chunks
      else "<think>\n" ++ chunk.reasoning ++ streamContent opened chunks := by
  by_cases hreasoning : chunk.reasoning = "" <;>
    simp [streamContent, chunkContent, ThinkingContentInfo.initial, opened, hreasoning]

theorem streamContent_opened_cons :
    streamContent opened (chunk :: chunks) =
      if chunk.content = "" then chunk.reasoning ++ streamContent opened chunks
      else
        "\n</think>\n" ++ ((if chunk.reasoning = "" then chunk.content else chunk.reasoning) ++
          streamContent closed chunks) := by
  by_cases hreasoning : chunk.reasoning = "" <;> by_cases hcontent : chunk.content = "" <;>
    simp [streamContent, chunkContent, opened, closed, hreasoning, hcontent, String.append_assoc]

theorem streamContent_closed_cons :
    streamContent closed (chunk :: chunks) =
      (if chunk.reasoning = "" then chunk.content else chunk.reasoning) ++
        streamContent closed chunks := by
  by_cases hreasoning : chunk.reasoning = "" <;>
    simp [streamContent, chunkContent, closed, hreasoning]

theorem length_oneText_le (chunk : ChunkTexts) :
    (if chunk.reasoning = "" then chunk.content else chunk.reasoning).length ≤
      chunk.reasoning.length + chunk.content.length := by
  split <;> omega

theorem length_streamContent_closed (chunks : List ChunkTexts) :
    (streamContent closed chunks).length ≤ textLength chunks := by
  induction chunks with
  | nil => exact Nat.zero_le _
  | cons chunk chunks ih =>
      have hchunk := length_oneText_le chunk
      rw [streamContent_closed_cons, String.length_append, textLength_cons]
      omega

theorem length_streamContent_opened (chunks : List ChunkTexts) :
    (streamContent opened chunks).length ≤ textLength chunks + 10 := by
  have hclose : "\n</think>\n".length = 10 := by decide
  induction chunks with
  | nil => exact Nat.zero_le _
  | cons chunk chunks ih =>
      have hchunk := length_oneText_le chunk
      have hrest := length_streamContent_closed chunks
      rw [streamContent_opened_cons, textLength_cons]
      split
      · rw [String.length_append]
        omega
      · rw [String.length_append, String.length_append]
        omega

theorem length_tagged_of_reasoning (hreasoning : chunk.reasoning ≠ "") :
    textLength (chunk :: chunks) + 8 ≤ (tagged (textsOf (chunk :: chunks))).length := by
  have hopen : "<think>\n".length = 8 := by decide
  have hrest := textLength_le chunks
  have hempty : chunk.content = "" → chunk.content.length = 0 := String.length_eq_zero_iff.2
  rw [tagged_cons_of_reasoning hreasoning, textLength_cons, String.length_append,
    String.length_append]
  split
  case isTrue hcontent =>
    have hzero := hempty hcontent
    omega
  case isFalse =>
    rw [String.length_append, String.length_append]
    omega

theorem noReasoning_cons :
    NoReasoning (chunk :: chunks) ↔ chunk.reasoning = "" ∧ NoReasoning chunks :=
  List.forall_mem_cons

theorem not_closedByContent_nil : ¬ ClosedByContent [] := by
  intro hclosed
  obtain ⟨run, first, later, hsplit, -⟩ := hclosed
  exact absurd hsplit.symm (List.append_ne_nil_of_right_ne_nil _ (List.cons_ne_nil _ _))

theorem closedByContent_cons_of_no_content (hcontent : chunk.content = "") :
    ClosedByContent (chunk :: chunks) ↔ ClosedByContent chunks := by
  constructor
  · intro hclosed
    obtain ⟨run, first, later, hsplit, hrun, hfirst, hne, hlater⟩ := hclosed
    cases run with
    | nil =>
        obtain ⟨rfl, -⟩ := List.cons.inj hsplit
        exact absurd hcontent hne
    | cons _ run =>
        obtain ⟨-, hrest⟩ := List.cons.inj hsplit
        exact ⟨run, first, later, hrest, fun c hc => hrun c (List.mem_cons_of_mem _ hc), hfirst,
          hne, hlater⟩
  · intro hclosed
    obtain ⟨run, first, later, rfl, hrun, hfirst, hne, hlater⟩ := hclosed
    exact ⟨chunk :: run, first, later, rfl, List.forall_mem_cons.2 ⟨hcontent, hrun⟩, hfirst, hne,
      hlater⟩

theorem closedByContent_cons_of_content (hcontent : chunk.content ≠ "") :
    ClosedByContent (chunk :: chunks) ↔ chunk.reasoning = "" ∧ NoReasoning chunks := by
  constructor
  · intro hclosed
    obtain ⟨run, first, later, hsplit, hrun, hfirst, -, hlater⟩ := hclosed
    cases run with
    | nil =>
        obtain ⟨rfl, rfl⟩ := List.cons.inj hsplit
        exact ⟨hfirst, hlater⟩
    | cons _ run =>
        obtain ⟨rfl, -⟩ := List.cons.inj hsplit
        exact absurd (hrun _ List.mem_cons_self) hcontent
  · intro hclosed
    exact ⟨[], chunk, chunks, rfl, fun _ hc => absurd hc List.not_mem_nil, hclosed.1, hcontent,
      hclosed.2⟩

theorem oneRun_cons_of_no_reasoning (hreasoning : chunk.reasoning = "") :
    OneRun (chunk :: chunks) ↔ OneRun chunks := by
  unfold OneRun
  rw [noReasoning_cons, and_iff_right hreasoning]
  constructor
  · intro hone
    rcases hone with hnone | ⟨before, rest, hsplit, hbefore, hclosed⟩
    · exact .inl hnone
    cases before with
    | nil =>
        obtain rfl : chunk :: chunks = rest := hsplit
        by_cases hcontent : chunk.content = ""
        · rw [closedByContent_cons_of_no_content hcontent] at hclosed
          exact .inr ⟨[], chunks, rfl, fun _ hc => absurd hc List.not_mem_nil, hclosed⟩
        · rw [closedByContent_cons_of_content hcontent] at hclosed
          exact .inl hclosed.2
    | cons _ before =>
        obtain ⟨-, hrest⟩ := List.cons.inj hsplit
        exact .inr ⟨before, rest, hrest, (noReasoning_cons.1 hbefore).2, hclosed⟩
  · intro hone
    rcases hone with hnone | ⟨before, rest, rfl, hbefore, hclosed⟩
    · exact .inl hnone
    · exact .inr ⟨chunk :: before, rest, rfl, noReasoning_cons.2 ⟨hreasoning, hbefore⟩, hclosed⟩

theorem oneRun_cons_of_reasoning (hreasoning : chunk.reasoning ≠ "") :
    OneRun (chunk :: chunks) ↔ chunk.content = "" ∧ ClosedByContent chunks := by
  unfold OneRun
  rw [noReasoning_cons]
  constructor
  · intro hone
    rcases hone with hnone | ⟨before, rest, hsplit, hbefore, hclosed⟩
    · exact absurd hnone.1 hreasoning
    cases before with
    | nil =>
        obtain rfl : chunk :: chunks = rest := hsplit
        by_cases hcontent : chunk.content = ""
        · exact ⟨hcontent, (closedByContent_cons_of_no_content hcontent).1 hclosed⟩
        · exact absurd ((closedByContent_cons_of_content hcontent).1 hclosed).1 hreasoning
    | cons _ before =>
        obtain ⟨rfl, -⟩ := List.cons.inj hsplit
        exact absurd (noReasoning_cons.1 hbefore).1 hreasoning
  · intro hone
    exact .inr ⟨[], chunk :: chunks, rfl, fun _ hc => absurd hc List.not_mem_nil,
      (closedByContent_cons_of_no_content hone.1).2 hone.2⟩

/-- After the last tag, all is kept exactly if there is no more reasoning. -/
theorem streamContent_closed_iff (chunks : List ChunkTexts) :
    streamContent closed chunks = tagged (textsOf chunks) ↔ NoReasoning chunks := by
  induction chunks with
  | nil => exact iff_of_true rfl fun _ hchunk => absurd hchunk List.not_mem_nil
  | cons chunk chunks ih =>
      rw [noReasoning_cons]
      by_cases hreasoning : chunk.reasoning = ""
      · rw [streamContent_closed_cons, if_pos hreasoning,
          tagged_cons_of_no_reasoning hreasoning, String.append_right_inj,
          and_iff_right hreasoning]
        exact ih
      · refine iff_of_false (fun hsame => ?_) fun hnone => hreasoning hnone.1
        have hshort := length_streamContent_closed (chunk :: chunks)
        have hlong : textLength (chunk :: chunks) + 8 ≤ (tagged (textsOf (chunk :: chunks))).length :=
          length_tagged_of_reasoning hreasoning
        rw [hsame] at hshort
        omega

/-- After the first tag, all is kept exactly if content closes the reasoning. -/
theorem streamContent_opened_iff (chunks : List ChunkTexts) :
    streamContent opened chunks = afterReasoning (textsOf chunks) ↔ ClosedByContent chunks := by
  have hclose : "\n</think>\n".length = 10 := by decide
  induction chunks with
  | nil =>
      refine iff_of_false (fun hsame => ?_) not_closedByContent_nil
      exact absurd (congrArg String.length hsame) (by decide)
  | cons chunk chunks ih =>
      rw [streamContent_opened_cons, afterReasoning_cons]
      by_cases hcontent : chunk.content = ""
      · rw [if_pos hcontent, if_pos hcontent, String.append_right_inj,
          closedByContent_cons_of_no_content hcontent]
        exact ih
      · rw [if_neg hcontent, if_neg hcontent, closedByContent_cons_of_content hcontent]
        by_cases hreasoning : chunk.reasoning = ""
        · rw [if_pos hreasoning, hreasoning, String.empty_append, String.append_right_inj,
            String.append_right_inj, streamContent_closed_iff, and_iff_right rfl]
        · rw [if_neg hreasoning]
          refine iff_of_false (fun hsame => ?_) fun hnone => hreasoning hnone.1
          have hshort := length_streamContent_closed chunks
          have hlong := (textLength_le chunks).1
          have hpositive : chunk.content.length ≠ 0 := mt String.length_eq_zero_iff.1 hcontent
          have hlength := congrArg String.length hsame
          simp only [String.length_append, hclose] at hlength
          omega

theorem streamContent_initial_iff (chunks : List ChunkTexts) :
    streamContent .initial chunks = tagged (textsOf chunks) ↔ OneRun chunks := by
  have hclose : "\n</think>\n".length = 10 := by decide
  induction chunks with
  | nil => exact iff_of_true rfl (.inl fun _ hchunk => absurd hchunk List.not_mem_nil)
  | cons chunk chunks ih =>
      rw [streamContent_initial_cons]
      by_cases hreasoning : chunk.reasoning = ""
      · rw [if_pos hreasoning, tagged_cons_of_no_reasoning hreasoning, String.append_right_inj,
          oneRun_cons_of_no_reasoning hreasoning]
        exact ih
      · rw [if_neg hreasoning, tagged_cons_of_reasoning hreasoning, String.append_right_inj,
          oneRun_cons_of_reasoning hreasoning]
        by_cases hcontent : chunk.content = ""
        · rw [if_pos hcontent, streamContent_opened_iff, and_iff_right hcontent]
        · rw [if_neg hcontent]
          refine iff_of_false (fun hsame => ?_) fun hone => hcontent hone.1
          have hshort := length_streamContent_opened chunks
          have hlong := (textLength_le chunks).1
          have hpositive : chunk.content.length ≠ 0 := mt String.length_eq_zero_iff.1 hcontent
          have hlength := congrArg String.length hsame
          simp only [String.length_append, hclose] at hlength
          omega

/-- A client receives the texts of a stream of chunks with one choice in order, with the runs of
reasoning between tags, exactly if there is one run of reasoning at most, which content follows, and
no chunk has both. -/
theorem receivedContent_eq_iff (unmarshal : String → Option (StreamResponse F))
    (forceFormat : Bool) (stream : List String)
    (hstream : ∀ data ∈ stream, SingleChoice unmarshal data) :
    receivedContent unmarshal forceFormat stream =
        tagged (textsOf (stream.map (chunkTexts unmarshal))) ↔
      OneRun (stream.map (chunkTexts unmarshal)) := by
  rw [receivedContent_eq hstream]
  exact streamContent_initial_iff _

end

/-! ## Two streams -/

/-- A chunk with one choice. -/
def oneChoice (reasoningContent content : Option String) : StreamResponse ℤ where
  id := ""
  model := ""
  choices := [{
    index := 0
    delta := { ChoiceDelta.empty with content := content, reasoningContent := reasoningContent }
    finishReason := none }]
  usage := none
  created := 0
  systemFingerprint := none

def reasoningData : String :=
  "\x7b\"choices\":[\x7b\"delta\":\x7b\"reasoning_content\":\"a\"\x7d\x7d]\x7d"

def contentData : String :=
  "\x7b\"choices\":[\x7b\"delta\":\x7b\"content\":\"b\"\x7d\x7d]\x7d"

def bothData : String :=
  "\x7b\"choices\":[\x7b\"delta\":\x7b\"reasoning_content\":\"a\",\"content\":\"b\"\x7d\x7d]\x7d"

def unmarshalThree (data : String) : Option (StreamResponse ℤ) :=
  if data = reasoningData then some (oneChoice (some "a") none)
  else if data = contentData then some (oneChoice none (some "b"))
  else if data = bothData then some (oneChoice (some "a") (some "b"))
  else none

/-- Reasoning and then content, in two chunks. -/
theorem two_chunks_are_received :
    receivedContent unmarshalThree false [reasoningData, contentData] =
        tagged (textsOf ([reasoningData, contentData].map (chunkTexts unmarshalThree))) ↔
      OneRun ([reasoningData, contentData].map (chunkTexts unmarshalThree)) := by
  refine receivedContent_eq_iff unmarshalThree false _ fun data hdata => ?_
  rcases List.mem_cons.1 hdata with rfl | hdata
  · exact ⟨by decide, oneChoice (some "a") none, _, rfl, rfl⟩
  · obtain rfl := List.mem_singleton.1 hdata
    exact ⟨by decide, oneChoice none (some "b"), _, rfl, rfl⟩

/-- Of a first chunk with both, the content is lost. -/
theorem content_of_first_chunk_is_lost :
    SingleChoice unmarshalThree bothData ∧
      receivedContent unmarshalThree false [bothData] ≠
        tagged (textsOf ([bothData].map (chunkTexts unmarshalThree))) :=
  ⟨⟨by decide, oneChoice (some "a") (some "b"), _, rfl, rfl⟩, by decide⟩

end ThinkingToContent

end NewApi.Model
