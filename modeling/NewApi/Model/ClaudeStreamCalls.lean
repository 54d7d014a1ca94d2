import NewApi.Model.ClaudeStreamStages

/-!
# The tool calls of a converted stream

How many tool calls the fragments of an OpenAI stream begin, and how many tool-use blocks a client
reads of its conversion: the first chunk gives one at most.
-/

namespace NewApi.Model

open NewApi.Lib NewApi.Lib.Strings

variable {F : Type}

/-! ## The calls of the fragments -/

/-- How many calls fragments begin. -/
def begins (fragments : List ToolCallResponse) : ℕ :=
  fragments.countP fun fragment => fragment.name ≠ ""

theorem begins_cons (fragment : ToolCallResponse) (fragments : List ToolCallResponse) :
    begins (fragment :: fragments) = begins fragments + if fragment.name ≠ "" then 1 else 0 := by
  simp [begins, List.countP_cons]

theorem begins_append (fragments rest : List ToolCallResponse) :
    begins (fragments ++ rest) = begins fragments + begins rest :=
  List.countP_append

/-- How many calls fragments begin at certain indices, or without an index. -/
def beginsAt (p : ℤ → Bool) (fragments : List ToolCallResponse) : ℕ :=
  fragments.countP fun fragment => fragment.name ≠ "" && fragment.index.all p

theorem beginsAt_append (p : ℤ → Bool) (fragments rest : List ToolCallResponse) :
    beginsAt p (fragments ++ rest) = beginsAt p fragments + beginsAt p rest :=
  List.countP_append

theorem beginsAt_true (fragments : List ToolCallResponse) :
    beginsAt (fun _ => true) fragments = begins fragments := by
  unfold beginsAt begins
  refine List.countP_congr fun fragment _ => ?_
  cases fragment.index <;> simp

theorem begins_eq_zero {fragments : List ToolCallResponse} :
    begins fragments = 0 ↔ Continue fragments := by
  rw [begins, List.countP_eq_zero]
  exact forall₂_congr fun fragment _ => by simp

section Fragments

variable {begun : ℕ} {fragment : ToolCallResponse} {fragments : List ToolCallResponse}
  {calls : List (Option ℤ × ToolCall)} {call : ToolCall}

theorem length_foldl_addFragment (hcalls : CallFragments begun fragments)
    (hbegun : calls.map Prod.fst = (List.range begun).map fun number : ℕ => some (number : ℤ)) :
    (fragments.foldl addFragment calls).length = begun + begins fragments := by
  induction fragments generalizing begun calls with
  | nil =>
      have hlength := congrArg List.length hbegun
      rw [List.length_map, List.length_map, List.length_range] at hlength
      exact hlength
  | cons fragment fragments ih =>
      rw [List.foldl_cons, begins_cons]
      rcases hcalls with ⟨hindex, hname, hrest⟩ | ⟨⟨number, hnumber, hindex⟩, hname, hrest⟩
      · -- The fragment begins a call, whose number is not there yet.
        have hnew : some (begun : ℤ) ∉ calls.map Prod.fst := by
          rw [hbegun, List.mem_map]
          rintro ⟨number, hmem, hsame⟩
          have hless := List.mem_range.1 hmem
          have heq : (number : ℤ) = begun := Option.some.inj hsame
          omega
        rw [ih hrest, if_pos hname, Nat.add_assoc, Nat.add_comm 1]
        rw [map_fst_addFragment, hindex, if_neg hnew, hbegun, List.range_succ, List.map_append]
        rfl
      · -- It goes on with one of the calls that have begun.
        have hold : some (number : ℤ) ∈ calls.map Prod.fst := by
          rw [hbegun]
          exact List.mem_map.2 ⟨number, List.mem_range.2 hnumber, rfl⟩
        rw [ih hrest, if_neg (not_not.2 hname)]
        · rfl
        · rw [map_fst_addFragment, hindex, if_pos hold, hbegun]

/-- A client puts as many calls together as the fragments begin. -/
theorem length_reassemble (hcalls : CallFragments 0 fragments) :
    (reassemble fragments).length = begins fragments := by
  rw [reassemble, length_foldl_addFragment hcalls rfl, Nat.zero_add]

theorem foldl_addFragment_continue (hcalls : CallFragments 1 fragments)
    (hcontinue : Continue fragments) :
    fragments.foldl addFragment [(some 0, call)] =
      [(some 0, { call with arguments := call.arguments ++ argumentsOf fragments })] := by
  induction fragments generalizing call with
  | nil => rw [List.foldl_nil, argumentsOf, List.map_nil, concat_nil, String.append_empty]
  | cons fragment fragments ih =>
      rw [Continue, List.forall_mem_cons] at hcontinue
      rcases hcalls.next with ⟨-, hname⟩ | ⟨hindex, -, hrest⟩
      · exact absurd hcontinue.1 hname
      · rw [List.foldl_cons, addFragment, if_pos hindex.symm, ih hrest hcontinue.2,
          argumentsOf_cons, String.append_assoc]

/-- The one call of fragments that go on with it. -/
theorem reassemble_single (hcalls : CallFragments 0 (fragment :: fragments))
    (hcontinue : Continue fragments) :
    reassemble (fragment :: fragments) =
      [(some 0, ⟨fragment.id, fragment.name, fragment.arguments ++ argumentsOf fragments⟩)] := by
  obtain ⟨hindex, -, hrest⟩ := hcalls.begins
  rw [reassemble, List.foldl_cons, addFragment, hindex, foldl_addFragment_continue hrest hcontinue]

end Fragments

/-! ## The tool-use blocks of the events -/

/-- The event opens a tool-use block at one of certain indices. -/
def ClaudeEvent.startsTool (p : ℤ → Bool) : ClaudeEvent → Bool
  | .contentBlockStart index (.toolUse _ _ _) => p index
  | _ => false

/-- How many tool-use blocks there are. -/
def toolBlocks (blocks : List ContentBlock) : ℕ :=
  blocks.countP fun block => block.toolCall.isSome

/-- How many tool-use blocks a client has read. -/
def Reader.tools : Reader → ℕ
  | .before => 0
  | .body closed current => toolBlocks (closed ++ current.toList)
  | .ending blocks _ => toolBlocks blocks
  | .ended blocks _ => toolBlocks blocks

section Events

variable {reader reader' : Reader} {event : ClaudeEvent} {events : List ClaudeEvent}

theorem toolBlocks_append (blocks rest : List ContentBlock) :
    toolBlocks (blocks ++ rest) = toolBlocks blocks + toolBlocks rest :=
  List.countP_append

theorem toolBlocks_singleton (block : ContentBlock) :
    toolBlocks [block] = if block.toolCall.isSome then 1 else 0 := by
  rw [toolBlocks, List.countP_singleton]

theorem toolBlocks_eq_length (blocks : List ContentBlock) :
    toolBlocks blocks = (blocks.filterMap ContentBlock.toolCall).length := by
  induction blocks with
  | nil => rfl
  | cons block blocks ih =>
      rw [toolBlocks, List.countP_cons, ← toolBlocks, ih, List.filterMap_cons]
      cases block <;> rfl

theorem isSome_toolCall_add {block block' : ContentBlock} {delta : ContentDelta}
    (hadd : block.add delta = some block') :
    block'.toolCall.isSome = block.toolCall.isSome := by
  cases block <;> cases delta <;> cases hadd <;> rfl

/-- Only a start event adds a tool-use block. -/
theorem Reader.tools_read (hread : reader.read event = some reader') :
    reader'.tools = reader.tools + if event.startsTool fun _ => true then 1 else 0 := by
  unfold Reader.read at hread
  split at hread
  case h_1 =>
    obtain rfl := Option.some.inj hread
    rfl
  case h_2 closed index block =>
    split at hread
    case isTrue =>
      obtain rfl := Option.some.inj hread
      rw [tools, tools, Option.toList_none, List.append_nil, Option.toList_some,
        toolBlocks_append, toolBlocks_singleton]
      cases block <;> rfl
    case isFalse => cases hread
  case h_3 closed block index delta =>
    split at hread
    case isTrue =>
      obtain ⟨added, hadd, rfl⟩ := Option.map_eq_some_iff.1 hread
      rw [tools, tools, Option.toList_some, Option.toList_some, toolBlocks_append,
        toolBlocks_append, toolBlocks_singleton, toolBlocks_singleton, isSome_toolCall_add hadd]
      rfl
    case isFalse => cases hread
  case h_4 closed block index =>
    split at hread
    case isTrue =>
      obtain rfl := Option.some.inj hread
      rw [tools, tools, Option.toList_none, List.append_nil, Option.toList_some]
      rfl
    case isFalse => cases hread
  case h_5 =>
    obtain rfl := Option.some.inj hread
    rw [tools, tools, Option.toList_none, List.append_nil]
    rfl
  case h_6 =>
    obtain rfl := Option.some.inj hread
    rfl
  case h_7 =>
    obtain rfl := Option.some.inj hread
    rfl
  case h_8 => cases hread

theorem Reader.tools_readAll (hread : reader.readAll events = some reader') :
    reader'.tools = reader.tools + events.countP (ClaudeEvent.startsTool fun _ => true) := by
  induction events generalizing reader with
  | nil =>
      obtain rfl := Option.some.inj hread
      rfl
  | cons event events ih =>
      rw [readAll_cons, Option.bind_eq_some_iff] at hread
      obtain ⟨next, hnext, hrest⟩ := hread
      rw [ih hrest, tools_read hnext, List.countP_cons]
      omega

/-- A client has read a block, or is about to. -/
def Reader.hasBlock : Reader → Bool
  | .before => false
  | .body closed current => !closed.isEmpty || current.isSome
  | .ending _ _ => true
  | .ended _ _ => true

/-- Before a block at the index 0 there is none, and after it there is one. -/
theorem Reader.hasBlock_read (hread : reader.read event = some reader') :
    (event.startsTool (· = 0) = true → reader.hasBlock = false ∧ reader'.hasBlock = true) ∧
      (reader.hasBlock = true → reader'.hasBlock = true) := by
  unfold Reader.read at hread
  split at hread
  case h_1 =>
    obtain rfl := Option.some.inj hread
    exact ⟨fun hstarts => absurd hstarts Bool.false_ne_true, id⟩
  case h_2 closed index block =>
    split at hread
    case isTrue hindex =>
      obtain rfl := Option.some.inj hread
      have hblock : (Reader.body closed (some block)).hasBlock = true := Bool.or_true _
      refine ⟨fun hstarts => ⟨?_, hblock⟩, fun _ => hblock⟩
      cases block with
      | toolUse id name input =>
          have hzero : index = 0 := of_decide_eq_true hstarts
          have hclosed : closed.length = 0 := by omega
          rw [List.length_eq_zero_iff.1 hclosed]
          rfl
      | text content => cases hstarts
      | thinking content => cases hstarts
    case isFalse => cases hread
  case h_3 closed block index delta =>
    split at hread
    case isTrue =>
      obtain ⟨added, -, rfl⟩ := Option.map_eq_some_iff.1 hread
      exact ⟨fun hstarts => absurd hstarts Bool.false_ne_true, fun _ => Bool.or_true _⟩
    case isFalse => cases hread
  case h_4 closed block index =>
    split at hread
    case isTrue =>
      obtain rfl := Option.some.inj hread
      refine ⟨fun hstarts => absurd hstarts Bool.false_ne_true, fun _ => ?_⟩
      simp [hasBlock]
    case isFalse => cases hread
  case h_5 =>
    obtain rfl := Option.some.inj hread
    exact ⟨fun hstarts => absurd hstarts Bool.false_ne_true, fun _ => rfl⟩
  case h_6 =>
    obtain rfl := Option.some.inj hread
    exact ⟨fun hstarts => absurd hstarts Bool.false_ne_true, fun _ => rfl⟩
  case h_7 =>
    obtain rfl := Option.some.inj hread
    exact ⟨fun hstarts => absurd hstarts Bool.false_ne_true, id⟩
  case h_8 => cases hread

/-- A client reads one block at the index 0 at most. -/
theorem Reader.countP_first_le (hread : reader.readAll events = some reader') :
    events.countP (ClaudeEvent.startsTool (· = 0)) ≤ if reader.hasBlock then 0 else 1 := by
  induction events generalizing reader with
  | nil => exact Nat.zero_le _
  | cons event events ih =>
      rw [readAll_cons, Option.bind_eq_some_iff] at hread
      obtain ⟨next, hnext, hrest⟩ := hread
      have hcount := ih hrest
      obtain ⟨hstarts, hkeeps⟩ := hasBlock_read hnext
      rw [List.countP_cons]
      by_cases hstart : event.startsTool (· = 0) = true
      · obtain ⟨hbefore, hafter⟩ := hstarts hstart
        rw [hafter, if_pos rfl] at hcount
        rw [if_pos hstart, hbefore, if_neg Bool.false_ne_true]
        omega
      · rw [if_neg hstart, Nat.add_zero]
        refine hcount.trans ?_
        cases hblock : reader.hasBlock with
        | true => rw [hkeeps hblock]
        | false =>
            rw [if_neg Bool.false_ne_true]
            split
            · exact Nat.zero_le _
            · exact Nat.le_refl _

/-- The tool-use blocks that a client reads, apart from one, are opened at other indices. -/
theorem Reader.tools_le (hread : Reader.before.readAll events = some reader') :
    reader'.tools ≤ 1 + events.countP (ClaudeEvent.startsTool (· ≠ 0)) := by
  have hall := tools_readAll hread
  have hfirst := countP_first_le hread
  have hsplit : events.countP (ClaudeEvent.startsTool fun _ => true) ≤
      events.countP (ClaudeEvent.startsTool (· = 0)) +
        events.countP (ClaudeEvent.startsTool (· ≠ 0)) := by
    clear hread hall hfirst
    induction events with
    | nil => exact Nat.zero_le _
    | cons event events ih =>
        have hone : (if event.startsTool fun _ => true then 1 else 0) ≤
            (if event.startsTool (· = 0) then 1 else 0) +
              if event.startsTool (· ≠ 0) then 1 else 0 := by
          cases event with
          | contentBlockStart index block =>
              cases block with
              | toolUse id name input => by_cases hzero : index = 0 <;> simp [ClaudeEvent.startsTool, hzero]
              | _ => exact Nat.zero_le _
          | _ => exact Nat.zero_le _
        rw [List.countP_cons, List.countP_cons, List.countP_cons]
        omega
  have hbefore : Reader.before.tools = 0 := rfl
  have hnone : (if Reader.before.hasBlock then 0 else 1) = 1 := rfl
  omega

end Events

/-! ## The tool-use blocks of the conversion -/

section Count

variable {info : ClaudeConvertInfo F} {chunk next : ChatCompletionsStreamResponse F}
  {chunks : List (ChatCompletionsStreamResponse F)} {usage : Usage F} {p : ℤ → Bool}

theorem countP_stopEvents (index : ℤ) (finishReason : String) (oaiUsage : Option (Usage F)) :
    (stopEvents index finishReason oaiUsage).countP (ClaudeEvent.startsTool p) = 0 := by
  cases oaiUsage <;> rfl

/-- A fragment without an index may open a block at any one. -/
theorem countP_toolCallEvents_le (count i : ℕ) (index : ℤ) (fragments : List ToolCallResponse) :
    (toolCallEvents count i index fragments).1.countP (ClaudeEvent.startsTool p) ≤
      beginsAt p fragments := by
  induction fragments generalizing i index with
  | nil => exact Nat.zero_le _
  | cons fragment fragments ih =>
      have hstart : ∀ blockIndex : ℤ, (fragment.index = none ∨ fragment.index = some blockIndex) →
          ((if fragment.name ≠ "" then
              [ClaudeEvent.contentBlockStart blockIndex (.toolUse fragment.id fragment.name "")]
            else []) ++
            if fragment.arguments ≠ "" then
              [ClaudeEvent.contentBlockDelta blockIndex (.inputJsonDelta fragment.arguments)]
            else []).countP (ClaudeEvent.startsTool p) ≤
          if fragment.name ≠ "" && fragment.index.all p then 1 else 0 := by
        intro blockIndex hindex
        have hdelta : (if fragment.arguments ≠ "" then
            [ClaudeEvent.contentBlockDelta blockIndex (.inputJsonDelta fragment.arguments)]
            else []).countP (ClaudeEvent.startsTool p) = 0 := by
          split <;> rfl
        rw [List.countP_append, hdelta]
        by_cases hname : fragment.name = ""
        · simp [hname]
        · rcases hindex with hindex | hindex <;>
            cases hp : p blockIndex <;> simp [hname, hindex, hp, ClaudeEvent.startsTool]
      rw [toolCallEvents, beginsAt, List.countP_cons, ← beginsAt, Nat.add_comm (beginsAt p fragments)]
      dsimp only
      rw [List.countP_append]
      refine Nat.add_le_add (hstart _ ?_) (ih _ _)
      cases fragment.index with
      | none => exact .inl rfl
      | some toolIndex => exact .inr rfl

/-- A chunk that is not the first gives a block for every call it begins, at most. -/
theorem countP_contentResponse_le (delta : ChoiceDelta) (last : LastMessageType) (index : ℤ) :
    (contentResponse delta last index).1.countP (ClaudeEvent.startsTool p) ≤
      beginsAt p delta.fragments := by
  by_cases hfragments : delta.fragments = []
  · by_cases hreasoning : delta.getReasoningContent = ""
    · by_cases htext : delta.getContentString = ""
      · rw [contentResponse_nothing hfragments hreasoning htext]
        exact Nat.zero_le _
      · rw [contentResponse_text hfragments hreasoning htext]
        cases last <;> exact Nat.zero_le _
    · rw [contentResponse_reasoning hfragments hreasoning]
      cases last <;> exact Nat.zero_le _
  · have hstop : (if last ≠ .tools then [generateStopBlock index] else []).countP
        (ClaudeEvent.startsTool p) = 0 := by
      split <;> rfl
    rw [contentResponse_fragments hfragments, List.countP_append, hstop, Nat.zero_add]
    exact countP_toolCallEvents_le _ _ _ _

/-- The first chunk gives one block, at the index 0, if it has a fragment. -/
theorem countP_firstContent (p : ℤ → Bool) (delta : ChoiceDelta) (last : LastMessageType)
    (index : ℤ) :
    (firstContent delta last index).1.countP (ClaudeEvent.startsTool p) =
      if delta.fragments ≠ [] ∧ p 0 = true then 1 else 0 := by
  have htools : (firstToolEvents index delta.fragments).countP (ClaudeEvent.startsTool p) =
      if delta.fragments ≠ [] ∧ p 0 = true then 1 else 0 := by
    cases delta.fragments with
    | nil => rfl
    | cons fragment fragments =>
        have hdelta : (if fragment.arguments ≠ "" then
            [ClaudeEvent.contentBlockDelta index (.inputJsonDelta fragment.arguments)]
            else []).countP (ClaudeEvent.startsTool p) = 0 := by
          split <;> rfl
        rw [firstToolEvents, List.countP_cons, hdelta, Nat.zero_add]
        cases hzero : p 0 <;> simp [ClaudeEvent.startsTool, hzero]
  unfold firstContent
  by_cases hreasoning : delta.getReasoningContent = ""
  · by_cases htext : delta.getContentString = ""
    · rw [if_neg (not_not.2 hreasoning), if_neg (not_not.2 htext)]
      exact htools
    · rw [if_neg (not_not.2 hreasoning), if_pos htext, List.countP_append]
      exact htools
  · rw [if_pos hreasoning, List.countP_append]
    exact htools

theorem countP_firstResponse (p : ℤ → Bool) (chunk : ChatCompletionsStreamResponse F)
    (info : ClaudeConvertInfo F) :
    (firstResponse chunk info).1.countP (ClaudeEvent.startsTool p) =
      if chunk.fragments ≠ [] ∧ p 0 = true then 1 else 0 := by
  obtain ⟨start, hresponse⟩ := firstResponse_eq chunk info
  have hcontent := countP_firstContent p chunk.delta info.lastMessagesType info.index
  rw [hresponse]
  split
  case isTrue =>
    rw [List.countP_cons_of_neg Bool.false_ne_true]
    exact hcontent
  case isFalse =>
    rw [List.countP_append, countP_stopEvents, List.countP_cons_of_neg Bool.false_ne_true]
    exact hcontent

theorem countP_streamResponse_le (hcount : info.sendResponseCount ≠ 1) :
    (streamResponseOpenAI2Claude chunk info).1.countP (ClaudeEvent.startsTool p) ≤
      beginsAt p chunk.fragments := by
  cases hdone : info.done with
  | true =>
      rw [streamResponseOpenAI2Claude_done hdone]
      exact Nat.zero_le _
  | false =>
      have hcontent :=
        countP_contentResponse_le (p := p) chunk.delta info.lastMessagesType info.index
      rw [streamResponseOpenAI2Claude_eq hdone hcount]
      split
      case isTrue => exact hcontent
      case isFalse =>
        rw [List.countP_append, countP_stopEvents]
        exact hcontent

theorem sendResponseCount_streamResponse :
    (streamResponseOpenAI2Claude chunk info).2.sendResponseCount = info.sendResponseCount := by
  cases hdone : info.done with
  | true => rw [streamResponseOpenAI2Claude_done hdone]
  | false =>
      by_cases hcount : info.sendResponseCount = 1
      · obtain ⟨start, hresponse⟩ := firstResponse_eq chunk info
        rw [streamResponseOpenAI2Claude_first hdone hcount, hresponse]
        split <;> rfl
      · rw [streamResponseOpenAI2Claude_eq hdone hcount]
        split <;> rfl

/-- The chunks after the first one. -/
theorem countP_oaiStreamHandler_le (hcount : 1 ≤ info.sendResponseCount)
    (hlast : chunks.length = 1 → info.sendResponseCount ≠ 1) :
    (oaiStreamHandler usage info chunks).countP (ClaudeEvent.startsTool p) ≤
      beginsAt p (chunks.flatMap ChatCompletionsStreamResponse.fragments) := by
  induction chunks generalizing info with
  | nil => exact Nat.zero_le _
  | cons chunk chunks ih =>
      rw [List.flatMap_cons, beginsAt_append]
      cases chunks with
      | nil =>
          have hsecond : (info.withUsage usage).sendResponseCount ≠ 1 := hlast rfl
          rw [oaiStreamHandler_last]
          exact Nat.le_add_right_of_le (countP_streamResponse_le hsecond)
      | cons next chunks =>
          have hsecond : (info.received chunk).sendResponseCount ≠ 1 := by
            show info.sendResponseCount + 1 ≠ 1
            omega
          have hafter : (streamResponseOpenAI2Claude chunk
              (info.received chunk)).2.sendResponseCount = info.sendResponseCount + 1 :=
            sendResponseCount_streamResponse
          rw [oaiStreamHandler_cons, List.countP_append]
          exact Nat.add_le_add (countP_streamResponse_le hsecond)
            (ih (by rw [hafter]; omega) (fun _ => by rw [hafter]; omega))

end Count

/-! ## The calls of a stream that is read to the end -/

section Stream

variable {first second : ChatCompletionsStreamResponse F}
  {chunks : List (ChatCompletionsStreamResponse F)} {usage : Usage F}
  {blocks : List ContentBlock} {stopReason : String}

/-- The first chunk gives a block at the index 0, if it has a fragment; the others give one for
every call they begin, at most. -/
theorem countP_stream_le {rest : List (ChatCompletionsStreamResponse F)} (p : ℤ → Bool)
    (estimatePromptTokens : ℤ)
    (hended : Reader.before.readAll
      (oaiStreamHandler usage (.initial estimatePromptTokens) (first :: rest)) =
        some (.ended blocks stopReason)) :
    (oaiStreamHandler usage (.initial estimatePromptTokens) (first :: rest)).countP
        (ClaudeEvent.startsTool p) ≤
      (if first.fragments ≠ [] ∧ p 0 = true then 1 else 0) +
        beginsAt p (rest.flatMap ChatCompletionsStreamResponse.fragments) := by
  match rest, hended with
  | [], hended => exact absurd hended (readAll_single estimatePromptTokens blocks stopReason)
  | second :: chunks, hended =>
      rw [oaiStreamHandler_cons, List.countP_append, streamResponseOpenAI2Claude_first rfl rfl,
        countP_firstResponse]
      refine Nat.add_le_add_left ?_ _
      obtain ⟨start, hresponse⟩ := firstResponse_eq first
        ((ClaudeConvertInfo.initial estimatePromptTokens).received first)
      by_cases hfinish : first.finish = ""
      · rw [if_pos hfinish] at hresponse
        rw [hresponse]
        refine countP_oaiStreamHandler_le (Nat.le_refl 1) fun hlength => ?_
        obtain rfl : chunks = [] := by simpa using hlength
        exact absurd hended (readAll_pair estimatePromptTokens hfinish blocks stopReason)
      · rw [if_neg hfinish] at hresponse
        rw [hresponse, oaiStreamHandler_done rfl]
        exact Nat.zero_le _

/-- The tool-use blocks are at most the call of the first chunk and those that begin later. -/
theorem toolBlocks_le {rest : List (ChatCompletionsStreamResponse F)} (estimatePromptTokens : ℤ)
    (hended : Reader.before.readAll
      (oaiStreamHandler usage (.initial estimatePromptTokens) (first :: rest)) =
        some (.ended blocks stopReason)) :
    toolBlocks blocks ≤ (if first.fragments ≠ [] then 1 else 0) +
      begins (rest.flatMap ChatCompletionsStreamResponse.fragments) := by
  have hcount := Reader.tools_readAll hended
  have hsplit := countP_stream_le (fun _ => true) estimatePromptTokens hended
  rw [beginsAt_true] at hsplit
  simp only [and_true] at hsplit
  have hzero : Reader.before.tools = 0 := rfl
  have hblocks : (Reader.ended blocks stopReason).tools = toolBlocks blocks := rfl
  omega

/-- One block is at the index 0, and the others are of later calls with other indices. -/
theorem toolBlocks_le_later {rest : List (ChatCompletionsStreamResponse F)}
    (estimatePromptTokens : ℤ)
    (hended : Reader.before.readAll
      (oaiStreamHandler usage (.initial estimatePromptTokens) (first :: rest)) =
        some (.ended blocks stopReason)) :
    toolBlocks blocks ≤
      1 + beginsAt (· ≠ 0) (rest.flatMap ChatCompletionsStreamResponse.fragments) := by
  have hcount := Reader.tools_le hended
  have hsplit := countP_stream_le (· ≠ 0) estimatePromptTokens hended
  rw [if_neg fun h => absurd h.2 (by decide), Nat.zero_add] at hsplit
  have hblocks : (Reader.ended blocks stopReason).tools = toolBlocks blocks := rfl
  omega

/-- A client reads a block for the first chunk, if it has a fragment. -/
theorem one_le_toolBlocks {rest : List (ChatCompletionsStreamResponse F)}
    (estimatePromptTokens : ℤ) (hfragments : first.fragments ≠ [])
    (hended : Reader.before.readAll
      (oaiStreamHandler usage (.initial estimatePromptTokens) (first :: rest)) =
        some (.ended blocks stopReason)) :
    1 ≤ toolBlocks blocks := by
  have hcount := Reader.tools_readAll hended
  match rest, hended with
  | [], hended => exact absurd hended (readAll_single estimatePromptTokens blocks stopReason)
  | second :: chunks, hended =>
      rw [oaiStreamHandler_cons, List.countP_append, streamResponseOpenAI2Claude_first rfl rfl,
        countP_firstResponse, if_pos ⟨hfragments, rfl⟩] at hcount
      have hzero : Reader.before.tools = 0 := rfl
      have hblocks : (Reader.ended blocks stopReason).tools = toolBlocks blocks := rfl
      omega

/-- When no call is lost the first chunk begins one at most. -/
theorem continue_tail {rest : List (ChatCompletionsStreamResponse F)} (estimatePromptTokens : ℤ)
    (hcalls : CallFragments 0
      ((first :: rest).flatMap ChatCompletionsStreamResponse.fragments))
    (hended : Reader.before.readAll
      (oaiStreamHandler usage (.initial estimatePromptTokens) (first :: rest)) =
        some (.ended blocks stopReason))
    (hlength : (blocks.filterMap ContentBlock.toolCall).length =
      (reassemble ((first :: rest).flatMap ChatCompletionsStreamResponse.fragments)).length) :
    Continue first.fragments.tail := by
  have hle := toolBlocks_le estimatePromptTokens hended
  rw [length_reassemble hcalls, ← toolBlocks_eq_length, List.flatMap_cons, begins_append]
    at hlength
  rw [List.flatMap_cons] at hcalls
  cases hfragments : first.fragments with
  | nil => exact continue_nil
  | cons fragment fragments =>
      rw [hfragments] at hcalls hlength
      -- The one block that is left is that of the first fragment.
      obtain ⟨-, hname, -⟩ := CallFragments.begins hcalls
      rw [begins_cons, if_pos hname] at hlength
      rw [if_pos (hfragments ▸ List.cons_ne_nil _ _)] at hle
      have hnone : begins fragments = 0 := by omega
      exact begins_eq_zero.1 hnone

end Stream

end NewApi.Model
