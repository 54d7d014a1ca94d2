import NewApi.Model.OpenAIToClaude

/-!
# The stages of a converted stream

What a client has read of the events that the conversion of an OpenAI stream emits: nothing, a
first block of thinking or of a tool call, or a text after it.  Every other order of contents
leaves the protocol, so that the client cannot read to the end.
-/

namespace NewApi.Model

open NewApi.Lib NewApi.Lib.Strings

variable {F : Type}

namespace ChatCompletionsStreamResponse

variable (chunk : ChatCompletionsStreamResponse F)

/-- What the conversion reads of a chunk: the delta of its first choice. -/
def delta : ChoiceDelta :=
  (chunk.choices.head?.map StreamChoice.delta).getD ChoiceDelta.empty

/-- The finish reason that it reads, the empty string when there is none. -/
def finish : String :=
  (chunk.choices.head?.bind StreamChoice.finishReason).getD ""

def fragments : List ToolCallResponse :=
  chunk.delta.fragments

def text : String :=
  chunk.delta.getContentString

def reasoning : String :=
  chunk.delta.getReasoningContent

end ChatCompletionsStreamResponse

/-! ## Fragments of tool calls -/

/-- The fragments of tool calls as a stream has them, when some calls have begun: the calls are
numbered as they begin, and only the first fragment of a call has a name. -/
def CallFragments : ℕ → List ToolCallResponse → Prop
  | _, [] => True
  | begun, fragment :: rest =>
      (fragment.index = some (begun : ℤ) ∧ fragment.name ≠ "" ∧ CallFragments (begun + 1) rest) ∨
        ((∃ number < begun, fragment.index = some (number : ℤ)) ∧ fragment.name = "" ∧
          CallFragments begun rest)

/-- Fragments that begin no call. -/
def Continue (fragments : List ToolCallResponse) : Prop :=
  ∀ fragment ∈ fragments, fragment.name = ""

instance (fragments : List ToolCallResponse) : Decidable (Continue fragments) :=
  inferInstanceAs (Decidable (∀ fragment ∈ fragments, fragment.name = ""))

/-- The arguments in the fragments, one after the other. -/
def argumentsOf (fragments : List ToolCallResponse) : String :=
  concat (fragments.map ToolCallResponse.arguments)

theorem argumentsOf_cons (fragment : ToolCallResponse) (fragments : List ToolCallResponse) :
    argumentsOf (fragment :: fragments) = fragment.arguments ++ argumentsOf fragments := rfl

theorem argumentsOf_append (fragments rest : List ToolCallResponse) :
    argumentsOf (fragments ++ rest) = argumentsOf fragments ++ argumentsOf rest := by
  rw [argumentsOf, List.map_append, concat_append, argumentsOf, argumentsOf]

theorem continue_nil : Continue [] :=
  fun _ hmem => absurd hmem List.not_mem_nil

theorem continue_append {fragments rest : List ToolCallResponse} :
    Continue (fragments ++ rest) ↔ Continue fragments ∧ Continue rest :=
  List.forall_mem_append

section Fragments

variable {begun : ℕ} {fragments rest : List ToolCallResponse} {fragment : ToolCallResponse}

theorem CallFragments.left (h : CallFragments begun (fragments ++ rest)) :
    CallFragments begun fragments := by
  induction fragments generalizing begun with
  | nil => trivial
  | cons fragment fragments ih =>
      rcases h with ⟨hindex, hname, h⟩ | ⟨hindex, hname, h⟩
      · exact .inl ⟨hindex, hname, ih h⟩
      · exact .inr ⟨hindex, hname, ih h⟩

theorem CallFragments.right (hcontinue : Continue fragments)
    (h : CallFragments begun (fragments ++ rest)) : CallFragments begun rest := by
  induction fragments generalizing begun with
  | nil => exact h
  | cons fragment fragments ih =>
      rw [Continue, List.forall_mem_cons] at hcontinue
      rcases h with ⟨-, hname, -⟩ | ⟨-, -, h⟩
      · exact absurd hcontinue.1 hname
      · exact ih hcontinue.2 h

/-- Before the first call there is nothing to go on with. -/
theorem CallFragments.begins (h : CallFragments 0 (fragment :: fragments)) :
    fragment.index = some 0 ∧ fragment.name ≠ "" ∧ CallFragments 1 fragments := by
  rcases h with h | ⟨⟨number, hnumber, -⟩, -⟩
  · exact h
  · exact absurd hnumber (Nat.not_lt_zero _)

/-- After the first call the fragments go on with it, or begin the second one. -/
theorem CallFragments.next (h : CallFragments 1 (fragment :: fragments)) :
    (fragment.index = some 1 ∧ fragment.name ≠ "") ∨
      (fragment.index = some 0 ∧ fragment.name = "" ∧ CallFragments 1 fragments) := by
  rcases h with ⟨hindex, hname, -⟩ | ⟨⟨number, hnumber, hindex⟩, hname, h⟩
  · exact .inl ⟨hindex, hname⟩
  · obtain rfl : number = 0 := Nat.lt_one_iff.1 hnumber
    exact .inr ⟨hindex, hname, h⟩

end Fragments

/-! ## Stages -/

/-- A block that may stand before the text. -/
inductive Opening
  | thinking (content : String)
  | tool (call : ToolCall)
deriving DecidableEq

namespace Opening

def block : Opening → ContentBlock
  | .thinking content => .thinking content
  | .tool call => .toolUse call.id call.name call.arguments

/-- How many calls have begun. -/
def begun : Opening → ℕ
  | .thinking _ => 0
  | .tool _ => 1

def last : Opening → LastMessageType
  | .thinking _ => .thinking
  | .tool _ => .tools

end Opening

/-- How far a client has read. -/
inductive Stage
  | nothing
  | opening (first : Opening)
  | text (before : Option Opening) (content : String)
deriving DecidableEq

namespace Stage

/-- The blocks that are closed when the text is open. -/
def closed (before : Option Opening) : List ContentBlock :=
  (before.map Opening.block).toList

/-- All blocks, with the open one. -/
def blocks : Stage → List ContentBlock
  | .nothing => []
  | .opening first => [first.block]
  | .text before content => closed before ++ [.text content]

def reader : Stage → Reader
  | .nothing => .body [] none
  | .opening first => .body [] (some first.block)
  | .text before content => .body (closed before) (some (.text content))

def last : Stage → LastMessageType
  | .nothing => .none
  | .opening first => first.last
  | .text _ _ => .text

def index : Stage → ℤ
  | .nothing => 0
  | .opening _ => 0
  | .text before _ => (closed before).length

def begun : Stage → ℕ
  | .nothing => 0
  | .opening first => first.begun
  | .text before _ => (before.map Opening.begun).getD 0

/-- The text comes last. -/
def addText : Stage → String → Stage
  | .nothing, content => .text none content
  | .opening first, content => .text (some first) content
  | .text before old, content => .text before (old ++ content)

/-- Thinking comes first. -/
def addThinking : Stage → String → Option Stage
  | .nothing, content => some (.opening (.thinking content))
  | .opening (.thinking thinking), content => some (.opening (.thinking (thinking ++ content)))
  | _, _ => none

/-- Only a call that is open goes on. -/
def addFragments : Stage → List ToolCallResponse → Option Stage
  | .opening (.tool call), fragments =>
      if Continue fragments then
        some (.opening (.tool { call with arguments := call.arguments ++ argumentsOf fragments }))
      else none
  | _, _ => none

/-- The stage after a chunk that is not the first. -/
def next (stage : Stage) (delta : ChoiceDelta) : Option Stage :=
  if delta.fragments ≠ [] then stage.addFragments delta.fragments
  else if delta.getReasoningContent ≠ "" then stage.addThinking delta.getReasoningContent
  else if delta.getContentString ≠ "" then some (stage.addText delta.getContentString)
  else some stage

/-- The stage after the first chunk. -/
def first (delta : ChoiceDelta) : Option Stage :=
  match delta.fragments with
  | [] => nothing.next delta
  | fragment :: _ =>
      if delta.getReasoningContent = "" ∧ delta.getContentString = "" then
        some (.opening (.tool ⟨fragment.id, fragment.name, fragment.arguments⟩))
      else none

end Stage

/-! ## What a client reads of one chunk -/

section Step

variable {delta : ChoiceDelta} {fragments : List ToolCallResponse} {last : LastMessageType}
  {index : ℤ}

theorem contentResponse_fragments (hfragments : delta.fragments ≠ []) :
    contentResponse delta last index =
      ((if last ≠ .tools then [generateStopBlock index] else []) ++
          (toolCallEvents delta.fragments.length 0 (if last ≠ .tools then index + 1 else index)
            delta.fragments).1,
        .tools,
        (toolCallEvents delta.fragments.length 0 (if last ≠ .tools then index + 1 else index)
          delta.fragments).2) :=
  if_pos hfragments

theorem contentResponse_reasoning (hfragments : delta.fragments = [])
    (hreasoning : delta.getReasoningContent ≠ "") :
    contentResponse delta last index =
      ((if last ≠ .thinking then [.contentBlockStart index (.thinking "")] else []) ++
          [.contentBlockDelta index (.thinkingDelta delta.getReasoningContent)],
        .thinking, index) :=
  (if_neg (not_not.2 hfragments)).trans (if_pos hreasoning)

theorem contentResponse_text (hfragments : delta.fragments = [])
    (hreasoning : delta.getReasoningContent = "") (htext : delta.getContentString ≠ "") :
    contentResponse delta last index =
      let next := last = .thinking ∨ last = .tools
      ((if last ≠ .text then
            (if next then [generateStopBlock index] else []) ++
              [.contentBlockStart (if next then index + 1 else index) (.text "")]
          else []) ++
          [.contentBlockDelta (if next then index + 1 else index)
            (.textDelta delta.getContentString)],
        .text, if next then index + 1 else index) :=
  (if_neg (not_not.2 hfragments)).trans ((if_neg (not_not.2 hreasoning)).trans (if_pos htext))

theorem contentResponse_nothing (hfragments : delta.fragments = [])
    (hreasoning : delta.getReasoningContent = "") (htext : delta.getContentString = "") :
    contentResponse delta last index = ([], last, index) :=
  (if_neg (not_not.2 hfragments)).trans
    ((if_neg (not_not.2 hreasoning)).trans (if_neg (not_not.2 htext)))

theorem toolCallEvents_cons (count i : ℕ) {toolIndex : ℤ} {fragment : ToolCallResponse}
    (hindex : fragment.index = some toolIndex) :
    toolCallEvents count i index (fragment :: fragments) =
      ((if fragment.name ≠ "" then
            [.contentBlockStart toolIndex (.toolUse fragment.id fragment.name "")]
          else []) ++
          (if fragment.arguments ≠ "" then
            [.contentBlockDelta toolIndex (.inputJsonDelta fragment.arguments)]
          else []) ++
          (toolCallEvents count (i + 1) toolIndex fragments).1,
        (toolCallEvents count (i + 1) toolIndex fragments).2) := by
  rw [toolCallEvents, hindex]

/-- A client of the first call reads the fragments that go on with it; a second call is begun
while the first one is open. -/
theorem readAll_toolCallEvents (hcalls : CallFragments 1 fragments) (count i : ℕ)
    (call : ToolCall) :
    (Reader.body [] (some (.toolUse call.id call.name call.arguments))).readAll
        (toolCallEvents count i 0 fragments).1 =
      (if Continue fragments then
        some (.body [] (some (.toolUse call.id call.name
          (call.arguments ++ argumentsOf fragments))))
      else none) ∧
      (Continue fragments → (toolCallEvents count i 0 fragments).2 = 0) := by
  induction fragments generalizing call i with
  | nil =>
      rw [if_pos continue_nil, toolCallEvents, argumentsOf, List.map_nil, concat_nil,
        String.append_empty]
      exact ⟨rfl, fun _ => rfl⟩
  | cons fragment fragments ih =>
      rcases hcalls.next with ⟨hindex, hname⟩ | ⟨hindex, hname, hrest⟩
      · -- The second call starts while the first block is open.
        have hbegins : ¬ Continue (fragment :: fragments) :=
          fun hcontinue => hname (hcontinue _ (List.mem_cons_self ..))
        rw [toolCallEvents_cons count i hindex, if_pos hname, if_neg hbegins]
        exact ⟨rfl, fun hcontinue => absurd hcontinue hbegins⟩
      · have hcontinue : Continue (fragment :: fragments) ↔ Continue fragments := by
          rw [Continue, List.forall_mem_cons, hname]
          exact and_iff_right rfl
        have hdelta : (Reader.body [] (some (.toolUse call.id call.name call.arguments))).readAll
            (if fragment.arguments ≠ "" then
              [.contentBlockDelta 0 (.inputJsonDelta fragment.arguments)]
            else []) =
              some (.body [] (some (.toolUse call.id call.name
                (call.arguments ++ fragment.arguments)))) := by
          by_cases harguments : fragment.arguments = ""
          · rw [if_neg (not_not.2 harguments), harguments, String.append_empty]
            rfl
          · rw [if_pos harguments]
            rfl
        obtain ⟨hread, hlast⟩ := ih hrest (i + 1)
          { call with arguments := call.arguments ++ fragment.arguments }
        rw [toolCallEvents_cons count i hindex, if_neg (not_not.2 hname), List.nil_append,
          Reader.readAll_append, hdelta, Option.bind_some, hread]
        simp only [hcontinue, argumentsOf, List.map_cons, concat_cons, String.append_assoc]
        exact ⟨trivial, hlast⟩

/-- A client whose second block is closed reads no fragment with something in it. -/
theorem readAll_toolCallEvents_closed (hcalls : CallFragments 1 fragments) (count i : ℕ)
    (index : ℤ) (blocks : List ContentBlock) (hblocks : blocks.length = 2) :
    (Reader.body blocks none).readAll (toolCallEvents count i index fragments).1 = none ∨
      (Reader.body blocks none).readAll (toolCallEvents count i index fragments).1 =
          some (.body blocks none) ∧
        Continue fragments ∧
        (fragments ≠ [] → (toolCallEvents count i index fragments).2 = 0) := by
  induction fragments generalizing index i with
  | nil => exact .inr ⟨rfl, continue_nil, fun h => absurd rfl h⟩
  | cons fragment fragments ih =>
      rcases hcalls.next with ⟨hindex, hname⟩ | ⟨hindex, hname, hrest⟩
      · refine .inl ?_
        have hstart : (Reader.body blocks none).read
            (.contentBlockStart 1 (.toolUse fragment.id fragment.name "")) = none :=
          if_neg (by rw [hblocks]; decide)
        rw [toolCallEvents_cons count i hindex, if_pos hname, List.append_assoc,
          List.singleton_append, Reader.readAll_cons, hstart]
        rfl
      · rw [toolCallEvents_cons count i hindex, if_neg (not_not.2 hname), List.nil_append]
        by_cases harguments : fragment.arguments = ""
        · rw [if_neg (not_not.2 harguments), List.nil_append]
          rcases ih hrest (i + 1) 0 with hnone | ⟨hread, hcontinue, hlast⟩
          · exact .inl hnone
          · refine .inr ⟨hread, ?_, fun _ => ?_⟩
            · rw [Continue, List.forall_mem_cons]
              exact ⟨hname, hcontinue⟩
            · cases fragments with
              | nil => rfl
              | cons next rest => exact hlast (List.cons_ne_nil next rest)
        · rw [if_pos harguments]
          exact .inl rfl

/-- A stage with what the conversion knows of it. -/
structure Stage.At (stage : Stage) (last : LastMessageType) (index : ℤ) : Prop where
  last : last = stage.last
  index : index = stage.index

/-- A client whose text has been closed by a tool call that did not go on. -/
structure Lost (reader : Reader) (last : LastMessageType) (index : ℤ) : Prop where
  reader : ∃ blocks : List ContentBlock, blocks.length = 2 ∧ reader = .body blocks none
  last : last = .tools
  index : index = 0

/-- What a client has read when it should be at a stage.  Without a stage it has read events that
are out of order, or it is lost. -/
def Arrives (read : Option Reader) (last : LastMessageType) (index : ℤ)
    (rest : List ToolCallResponse) : Option Stage → Prop
  | some stage =>
      read = some stage.reader ∧ stage.At last index ∧ CallFragments stage.begun rest
  | none => ∀ reader, read = some reader → Lost reader last index ∧ CallFragments 1 rest

variable {rest : List ToolCallResponse} {stage : Stage}

theorem arrives_of_none {read : Option Reader} (hread : read = none) :
    Arrives read last index rest none := by
  intro reader hreader
  rw [hread] at hreader
  cases hreader

theorem arrives_text (hfragments : delta.fragments = [])
    (hreasoning : delta.getReasoningContent = "") (htext : delta.getContentString ≠ "")
    (hcalls : CallFragments stage.begun rest) :
    Arrives (stage.reader.readAll (contentResponse delta stage.last stage.index).1)
      (contentResponse delta stage.last stage.index).2.1
      (contentResponse delta stage.last stage.index).2.2 rest
      (some (stage.addText delta.getContentString)) := by
  rw [contentResponse_text hfragments hreasoning htext]
  cases stage with
  | nothing => exact ⟨rfl, ⟨rfl, rfl⟩, hcalls⟩
  | opening first => cases first <;> exact ⟨rfl, ⟨rfl, rfl⟩, hcalls⟩
  | text before old =>
      refine ⟨?_, ⟨rfl, rfl⟩, hcalls⟩
      show (Reader.body (Stage.closed before) (some (.text old))).readAll
        [.contentBlockDelta (Stage.closed before).length _] = _
      rw [Reader.readAll_cons, Reader.read, if_pos rfl]
      rfl

theorem arrives_thinking (hfragments : delta.fragments = [])
    (hreasoning : delta.getReasoningContent ≠ "") (hcalls : CallFragments stage.begun rest) :
    Arrives (stage.reader.readAll (contentResponse delta stage.last stage.index).1)
      (contentResponse delta stage.last stage.index).2.1
      (contentResponse delta stage.last stage.index).2.2 rest
      (stage.addThinking delta.getReasoningContent) := by
  rw [contentResponse_reasoning hfragments hreasoning]
  cases stage with
  | nothing => exact ⟨rfl, ⟨rfl, rfl⟩, hcalls⟩
  | opening first =>
      cases first with
      | thinking content => exact ⟨rfl, ⟨rfl, rfl⟩, hcalls⟩
      | tool call => exact arrives_of_none rfl
  | text before old => exact arrives_of_none rfl

/-- Tool calls are read only while the first call is open. -/
theorem arrives_fragments (hfragments : delta.fragments ≠ [])
    (hcalls : CallFragments stage.begun (delta.fragments ++ rest)) :
    Arrives (stage.reader.readAll (contentResponse delta stage.last stage.index).1)
      (contentResponse delta stage.last stage.index).2.1
      (contentResponse delta stage.last stage.index).2.2 rest
      (stage.addFragments delta.fragments) := by
  rw [contentResponse_fragments hfragments]
  obtain ⟨fragment, fragments, hcons⟩ := List.exists_cons_of_ne_nil hfragments
  rw [hcons] at hcalls ⊢
  cases stage with
  | nothing => exact arrives_of_none rfl
  | opening first =>
      cases first with
      | thinking content =>
          -- The call is begun at the index of the thinking.
          obtain ⟨hindex, hname, -⟩ := hcalls.left.begins
          refine arrives_of_none ?_
          rw [toolCallEvents_cons _ _ hindex, if_pos hname]
          rfl
      | tool call =>
          -- The block stays open, and takes the arguments.
          obtain ⟨hread, hlast⟩ := readAll_toolCallEvents hcalls.left (fragment :: fragments).length
            0 call
          by_cases hcontinue : Continue (fragment :: fragments)
          · rw [if_pos hcontinue] at hread
            rw [Stage.addFragments, if_pos hcontinue]
            exact ⟨hread, ⟨rfl, hlast hcontinue⟩, hcalls.right hcontinue⟩
          · rw [if_neg hcontinue] at hread
            rw [Stage.addFragments, if_neg hcontinue]
            exact arrives_of_none hread
  | text before old =>
      have hstop : (Stage.text before old).reader.read
          (generateStopBlock (Stage.text before old).index) =
            some (.body (Stage.closed before ++ [.text old]) none) := if_pos rfl
      have hlast : (Stage.text before old).last ≠ .tools := LastMessageType.noConfusion
      rw [if_pos hlast, if_pos hlast, List.singleton_append, Reader.readAll_cons, hstop,
        Option.bind_some]
      by_cases hbegun : (Stage.text before old).begun = 0
      · -- No call has begun: the first one starts at the index 0 again.
        rw [hbegun] at hcalls
        obtain ⟨hindex, hname, -⟩ := hcalls.left.begins
        refine arrives_of_none ?_
        have hstart : (Reader.body (Stage.closed before ++ [.text old]) none).read
            (.contentBlockStart 0 (.toolUse fragment.id fragment.name "")) = none :=
          if_neg (by simp; omega)
        rw [toolCallEvents_cons _ _ hindex, if_pos hname, List.append_assoc,
          List.singleton_append, Reader.readAll_cons, hstart]
        rfl
      · -- The text stands after the first call.
        obtain ⟨call, rfl⟩ : ∃ call, before = some (.tool call) := by
          cases before with
          | none => exact absurd rfl hbegun
          | some first =>
              cases first with
              | thinking content => exact absurd rfl hbegun
              | tool call => exact ⟨call, rfl⟩
        have hone : CallFragments 1 ((fragment :: fragments) ++ rest) := hcalls
        rcases readAll_toolCallEvents_closed hone.left (fragment :: fragments).length 0
          ((Stage.text (some (.tool call)) old).index + 1)
          (Stage.closed (some (.tool call)) ++ [.text old]) rfl with
          hnone | ⟨hread, hcontinue, hlast⟩
        · exact arrives_of_none hnone
        · intro reader hreader
          rw [hread, Option.some.injEq] at hreader
          exact ⟨⟨⟨_, rfl, hreader.symm⟩, rfl, hlast (List.cons_ne_nil _ _)⟩,
            hone.right hcontinue⟩

/-- The stage of a client after a chunk that is not the first. -/
theorem arrives_next (hcalls : CallFragments stage.begun (delta.fragments ++ rest)) :
    Arrives (stage.reader.readAll (contentResponse delta stage.last stage.index).1)
      (contentResponse delta stage.last stage.index).2.1
      (contentResponse delta stage.last stage.index).2.2 rest (stage.next delta) := by
  unfold Stage.next
  split
  case isTrue hfragments => exact arrives_fragments hfragments hcalls
  case isFalse hfragments =>
    rw [not_not] at hfragments
    rw [hfragments, List.nil_append] at hcalls
    split
    case isTrue hreasoning => exact arrives_thinking hfragments hreasoning hcalls
    case isFalse hreasoning =>
      rw [not_not] at hreasoning
      split
      case isTrue htext => exact arrives_text hfragments hreasoning htext hcalls
      case isFalse htext =>
        rw [contentResponse_nothing hfragments hreasoning (not_not.1 htext)]
        exact ⟨rfl, ⟨rfl, rfl⟩, hcalls⟩

/-- A client that is lost stays so. -/
theorem Lost.next {reader : Reader} (hlost : Lost reader last index)
    (hcalls : CallFragments 1 (delta.fragments ++ rest)) :
    Arrives (reader.readAll (contentResponse delta last index).1)
      (contentResponse delta last index).2.1 (contentResponse delta last index).2.2 rest none := by
  obtain ⟨⟨blocks, hblocks, rfl⟩, rfl, rfl⟩ := hlost
  have hstart : ∀ block, (Reader.body blocks none).read (.contentBlockStart 0 block) = none :=
    fun block => if_neg (by rw [hblocks]; decide)
  by_cases hfragments : delta.fragments = []
  · by_cases hreasoning : delta.getReasoningContent = ""
    · by_cases htext : delta.getContentString = ""
      · rw [contentResponse_nothing hfragments hreasoning htext]
        intro reader hreader
        rw [hfragments, List.nil_append] at hcalls
        rw [Reader.readAll_nil, Option.some.injEq] at hreader
        exact ⟨⟨⟨blocks, hblocks, hreader.symm⟩, rfl, rfl⟩, hcalls⟩
      · rw [contentResponse_text hfragments hreasoning htext]
        exact arrives_of_none rfl
    · rw [contentResponse_reasoning hfragments hreasoning]
      refine arrives_of_none ?_
      rw [if_pos (by decide), List.singleton_append, Reader.readAll_cons, hstart]
      rfl
  · rw [contentResponse_fragments hfragments]
    rcases readAll_toolCallEvents_closed hcalls.left delta.fragments.length 0 0 blocks hblocks with
      hnone | ⟨hread, hcontinue, hlast⟩
    · exact arrives_of_none hnone
    · intro reader hreader
      have hsame := hread.symm.trans hreader
      rw [Option.some.injEq] at hsame
      exact ⟨⟨⟨blocks, hblocks, hsame.symm⟩, rfl, hlast hfragments⟩, hcalls.right hcontinue⟩

/-- Whether a client is at a stage or lost, the next chunk takes it on. -/
theorem Arrives.next {reader : Reader} {stage : Option Stage} (delta : ChoiceDelta)
    (harrives : Arrives (some reader) last index (delta.fragments ++ rest) stage) :
    Arrives (reader.readAll (contentResponse delta last index).1)
      (contentResponse delta last index).2.1 (contentResponse delta last index).2.2 rest
      (stage.bind fun stage => stage.next delta) := by
  cases stage with
  | none =>
      obtain ⟨hlost, hcalls⟩ := harrives reader rfl
      exact hlost.next hcalls
  | some stage =>
      obtain ⟨hreader, ⟨rfl, rfl⟩, hcalls⟩ := harrives
      obtain rfl := Option.some.inj hreader
      exact arrives_next hcalls

end Step

/-! ## What a client reads of all chunks -/

/-- What is read at the end: there must be a block to close and a usage to report. -/
def Stage.ended (stage : Stage) (known : Bool) (finishReason : String) : Option Reader :=
  if stage ≠ .nothing ∧ known then
    some (.ended stage.blocks (openAIFinishReasonToClaudeStopReason finishReason))
  else none

/-- What a client has read of the chunks that are not the first, when the usage is known or
not. -/
def Stage.outcome : Bool → Stage → List (ChatCompletionsStreamResponse F) → Option Reader
  | _, _, [] => none
  | _, stage, [chunk] =>
      (stage.next chunk.delta).bind fun stage =>
        if chunk.finish = "" then none else stage.ended true chunk.finish
  | known, stage, chunk :: chunks =>
      (stage.next chunk.delta).bind fun stage =>
        if chunk.finish = "" then outcome (known || chunk.usage.isSome) stage chunks
        else stage.ended (known || chunk.usage.isSome) chunk.finish

/-- What a client has read of a stream. -/
def streamOutcome : List (ChatCompletionsStreamResponse F) → Option Reader
  | chunk :: next :: chunks =>
      (Stage.first chunk.delta).bind fun stage =>
        if chunk.finish = "" then
          -- The second chunk is taken for the first one when it is the last.
          if chunks = [] then none else stage.outcome chunk.usage.isSome (next :: chunks)
        else stage.ended chunk.usage.isSome chunk.finish
  | _ => none

theorem readAll_stopEvents (stage : Stage) (finishReason : String)
    (oaiUsage : Option (Usage F)) :
    stage.reader.readAll (stopEvents stage.index finishReason oaiUsage) =
      stage.ended oaiUsage.isSome finishReason := by
  cases stage with
  | nothing => rfl
  | opening first => cases oaiUsage <;> rfl
  | text before content =>
      have hstop : (Stage.text before content).reader.read
          (generateStopBlock (Stage.text before content).index) =
            some (.body (Stage.text before content).blocks none) := if_pos rfl
      unfold stopEvents
      rw [List.cons_append, Reader.readAll_cons, hstop, Option.bind_some]
      cases oaiUsage <;> rfl

theorem Lost.stopEvents {reader : Reader} {last : LastMessageType} {index : ℤ}
    (hlost : Lost reader last index) (finishReason : String) (oaiUsage : Option (Usage F)) :
    reader.readAll (stopEvents index finishReason oaiUsage) = none := by
  obtain ⟨⟨blocks, -, rfl⟩, -, -⟩ := hlost
  rfl

/-- The info when a chunk has come that is not the last. -/
def ClaudeConvertInfo.received (info : ClaudeConvertInfo F)
    (chunk : ChatCompletionsStreamResponse F) : ClaudeConvertInfo F :=
  { info with
    sendResponseCount := info.sendResponseCount + 1
    usage := chunk.usage.or info.usage }

/-- The info when the last chunk is handled. -/
def ClaudeConvertInfo.withUsage (info : ClaudeConvertInfo F) (usage : Usage F) :
    ClaudeConvertInfo F :=
  { info with usage := some usage }

section Run

variable {info : ClaudeConvertInfo F} {chunk next : ChatCompletionsStreamResponse F}
  {chunks : List (ChatCompletionsStreamResponse F)} {usage : Usage F}

theorem handleStreamFormat_eq :
    handleStreamFormat info chunk = streamResponseOpenAI2Claude chunk (info.received chunk) := by
  obtain ⟨id, model, choices, chunkUsage⟩ := chunk
  cases chunkUsage <;> rfl

theorem oaiStreamHandler_last :
    oaiStreamHandler usage info [chunk] =
      (streamResponseOpenAI2Claude chunk (info.withUsage usage)).1 := rfl

theorem oaiStreamHandler_cons :
    oaiStreamHandler usage info (chunk :: next :: chunks) =
      (streamResponseOpenAI2Claude chunk (info.received chunk)).1 ++
        oaiStreamHandler usage (streamResponseOpenAI2Claude chunk (info.received chunk)).2
          (next :: chunks) := by
  rw [← handleStreamFormat_eq]
  rfl

theorem streamResponseOpenAI2Claude_done (hdone : info.done = true) :
    streamResponseOpenAI2Claude chunk info = ([], info) :=
  if_pos hdone

theorem streamResponseOpenAI2Claude_first (hrunning : info.done = false)
    (hcount : info.sendResponseCount = 1) :
    streamResponseOpenAI2Claude chunk info = firstResponse chunk info := by
  rw [streamResponseOpenAI2Claude, hrunning, if_neg Bool.false_ne_true, if_pos hcount]

/-- Nothing comes after the end. -/
theorem oaiStreamHandler_done (hdone : info.done = true) :
    oaiStreamHandler usage info chunks = [] := by
  induction chunks generalizing info with
  | nil => rfl
  | cons chunk chunks ih =>
      cases chunks with
      | nil =>
          have hfinal : (info.withUsage usage).done = true := hdone
          rw [oaiStreamHandler_last, streamResponseOpenAI2Claude_done hfinal]
      | cons next chunks =>
          have hreceived : (info.received chunk).done = true := hdone
          rw [oaiStreamHandler_cons, streamResponseOpenAI2Claude_done hreceived]
          exact ih hreceived

/-- A chunk that is not the first: its content, and the end when it has a finish reason. -/
theorem streamResponseOpenAI2Claude_eq (hrunning : info.done = false)
    (hcount : info.sendResponseCount ≠ 1) :
    streamResponseOpenAI2Claude chunk info =
      if chunk.finish = "" then
        ((contentResponse chunk.delta info.lastMessagesType info.index).1,
          { info with
            lastMessagesType :=
              (contentResponse chunk.delta info.lastMessagesType info.index).2.1
            index := (contentResponse chunk.delta info.lastMessagesType info.index).2.2 })
      else
        ((contentResponse chunk.delta info.lastMessagesType info.index).1 ++
            stopEvents (contentResponse chunk.delta info.lastMessagesType info.index).2.2
              chunk.finish (chunk.usage.or info.usage),
          { info with
            lastMessagesType :=
              (contentResponse chunk.delta info.lastMessagesType info.index).2.1
            index := (contentResponse chunk.delta info.lastMessagesType info.index).2.2
            finishReason := chunk.finish
            done := true }) := by
  obtain ⟨id, model, choices, chunkUsage⟩ := chunk
  have hdone : ¬ info.done = true := by rw [hrunning]; exact Bool.false_ne_true
  rw [streamResponseOpenAI2Claude, if_neg hdone, if_neg hcount]
  cases choices with
  | nil =>
      show (if info.done = true then _ else _, info) = _
      rw [if_neg hdone]
      rfl
  | cons choice choices =>
      show (if choice.finishReason.getD "" ≠ "" ∨ info.done = true then _ else _) =
        if choice.finishReason.getD "" = "" then _ else _
      by_cases hfinish : choice.finishReason.getD "" = ""
      · rw [if_neg (not_or.2 ⟨not_not.2 hfinish, hdone⟩), if_pos hfinish]
        simp only [hfinish, ne_eq, not_true_eq_false, if_false]
        rfl
      · rw [if_pos (.inl hfinish), if_neg hfinish]
        simp only [ne_eq, hfinish, not_false_eq_true, if_true]
        rfl

theorem Arrives.not_ended {read : Option Reader} {last : LastMessageType} {index : ℤ}
    {rest : List ToolCallResponse} {stage : Option Stage}
    (harrives : Arrives read last index rest stage) (blocks : List ContentBlock)
    (stopReason : String) : read ≠ some (.ended blocks stopReason) := by
  rintro rfl
  cases stage with
  | none =>
      obtain ⟨⟨⟨closed, -, hreader⟩, -, -⟩, -⟩ := harrives _ rfl
      cases hreader
  | some stage => cases stage <;> cases harrives.1

/-- The end is read at a stage, but not by a client that is lost. -/
theorem Arrives.stop {read : Option Reader} {last : LastMessageType} {index : ℤ}
    {rest : List ToolCallResponse} {stage : Option Stage}
    (harrives : Arrives read last index rest stage) (finishReason : String)
    (oaiUsage : Option (Usage F)) :
    (read.bind fun reader => reader.readAll (stopEvents index finishReason oaiUsage)) =
      stage.bind fun stage => stage.ended oaiUsage.isSome finishReason := by
  cases stage with
  | none =>
      cases read with
      | none => rfl
      | some reader => exact (harrives reader rfl).1.stopEvents finishReason oaiUsage
  | some stage =>
      obtain ⟨rfl, ⟨rfl, rfl⟩, -⟩ := harrives
      exact readAll_stopEvents stage finishReason oaiUsage

theorem isSome_or {α : Type} (x y : Option α) : (x.or y).isSome = (y.isSome || x.isSome) := by
  cases x <;> cases y <;> rfl

/-- A client reads of the chunks after the first what the stages say. -/
theorem readAll_oaiStreamHandler {reader : Reader} {stage : Option Stage}
    (harrives : Arrives (some reader) info.lastMessagesType info.index
      (chunks.flatMap ChatCompletionsStreamResponse.fragments) stage)
    (hrunning : info.done = false) (hcount : 1 ≤ info.sendResponseCount)
    (hlast : chunks.length = 1 → info.sendResponseCount ≠ 1) (blocks : List ContentBlock)
    (stopReason : String) :
    reader.readAll (oaiStreamHandler usage info chunks) = some (.ended blocks stopReason) ↔
      (stage.bind fun stage => stage.outcome info.usage.isSome chunks) =
        some (.ended blocks stopReason) := by
  induction chunks generalizing info reader stage with
  | nil =>
      -- Without a chunk the end is never read.
      refine iff_of_false (harrives.not_ended blocks stopReason) ?_
      cases stage <;> exact nofun
  | cons chunk chunks ih =>
      rw [List.flatMap_cons] at harrives
      have hnext := harrives.next chunk.delta
      cases chunks with
      | nil =>
          -- The last chunk: the usage is there in any case.
          have hfinal : (info.withUsage usage).done = false := hrunning
          have hsecond : (info.withUsage usage).sendResponseCount ≠ 1 := hlast rfl
          rw [oaiStreamHandler_last, streamResponseOpenAI2Claude_eq hfinal hsecond]
          simp only [Stage.outcome]
          rw [← Option.bind_assoc]
          by_cases hfinish : chunk.finish = ""
          · simp only [if_pos hfinish]
            refine iff_of_false (hnext.not_ended blocks stopReason) ?_
            cases stage.bind fun stage => stage.next chunk.delta <;> exact nofun
          · simp only [if_neg hfinish]
            have hstop := hnext.stop chunk.finish (chunk.usage.or (some usage))
            rw [isSome_or, Option.isSome_some, Bool.true_or] at hstop
            rw [← hstop, Reader.readAll_append]
            rfl
      | cons next chunks =>
          -- A chunk before the last: its usage is kept.
          have hreceived : (info.received chunk).done = false := hrunning
          have hsecond : (info.received chunk).sendResponseCount ≠ 1 := by
            show info.sendResponseCount + 1 ≠ 1
            omega
          have hknown : (info.received chunk).usage.isSome =
              (info.usage.isSome || chunk.usage.isSome) := isSome_or _ _
          rw [oaiStreamHandler_cons, streamResponseOpenAI2Claude_eq hreceived hsecond]
          simp only [Stage.outcome]
          rw [← Option.bind_assoc, Reader.readAll_append]
          by_cases hfinish : chunk.finish = ""
          · simp only [if_pos hfinish]
            rw [← hknown]
            cases hread : reader.readAll (contentResponse chunk.delta
                (info.received chunk).lastMessagesType (info.received chunk).index).1 with
            | none =>
                -- Out of order: no stage is left either.
                have hlost : (stage.bind fun stage => stage.next chunk.delta) = none := by
                  cases hstage : stage.bind fun stage => stage.next chunk.delta with
                  | none => rfl
                  | some stage =>
                      rw [hstage] at hnext
                      cases hread.symm.trans hnext.1
                rw [hlost]
                exact Iff.rfl
            | some reader' =>
                have hat : Arrives (some reader') _ _ _ _ := hread ▸ hnext
                exact ih hat hrunning (Nat.le_add_left ..) fun _ => hsecond
          · simp only [if_neg hfinish]
            have hstop := hnext.stop chunk.finish (chunk.usage.or (info.received chunk).usage)
            rw [isSome_or, hknown, Bool.or_assoc, Bool.or_self] at hstop
            rw [oaiStreamHandler_done rfl, Reader.readAll_append, ← hstop]
            exact Eq.congr_left (Option.bind_fun_some _)

/-! ## The first chunk -/

/-- The first chunk: the start, its content, and the end when it has a finish reason. -/
theorem firstResponse_eq (chunk : ChatCompletionsStreamResponse F) (info : ClaudeConvertInfo F) :
    ∃ usage : ClaudeUsage,
    firstResponse chunk info =
      if chunk.finish = "" then
        (.messageStart chunk.id chunk.model usage ::
            (firstContent chunk.delta info.lastMessagesType info.index).1,
          { info with
            lastMessagesType := (firstContent chunk.delta info.lastMessagesType info.index).2 })
      else
        (.messageStart chunk.id chunk.model usage ::
            (firstContent chunk.delta info.lastMessagesType info.index).1 ++
            stopEvents info.index chunk.finish (chunk.usage.or info.usage),
          { info with
            lastMessagesType := (firstContent chunk.delta info.lastMessagesType info.index).2
            finishReason := chunk.finish
            done := true }) := by
  obtain ⟨id, model, choices, chunkUsage⟩ := chunk
  refine ⟨⟨info.estimatePromptTokens, 0, 0, 0, none⟩, ?_⟩
  cases choices with
  | nil => rfl
  | cons choice choices =>
      show (if choice.finishReason.getD "" ≠ "" then _ else _) =
        if choice.finishReason.getD "" = "" then _ else _
      by_cases hfinish : choice.finishReason.getD "" = ""
      · rw [if_neg (not_not.2 hfinish), if_pos hfinish]
        rfl
      · rw [if_pos hfinish, if_neg hfinish]
        rfl

/-- The stage of a client after the content of the first chunk, when it has no second call. -/
theorem arrives_first {delta : ChoiceDelta} {rest : List ToolCallResponse}
    (hcontinue : Continue delta.fragments.tail)
    (hcalls : CallFragments 0 (delta.fragments ++ rest)) :
    Arrives ((Reader.body [] none).readAll (firstContent delta .none 0).1)
      (firstContent delta .none 0).2 0 rest (Stage.first delta) := by
  unfold firstContent Stage.first
  cases hfragments : delta.fragments with
  | nil =>
      rw [hfragments, List.nil_append] at hcalls
      unfold Stage.next
      rw [if_neg (not_not.2 hfragments)]
      by_cases hreasoning : delta.getReasoningContent = ""
      · rw [if_neg (not_not.2 hreasoning), if_neg (not_not.2 hreasoning)]
        by_cases htext : delta.getContentString = ""
        · rw [if_neg (not_not.2 htext), if_neg (not_not.2 htext)]
          exact ⟨rfl, ⟨rfl, rfl⟩, hcalls⟩
        · rw [if_pos htext, if_pos htext]
          exact ⟨rfl, ⟨rfl, rfl⟩, hcalls⟩
      · rw [if_pos hreasoning, if_pos hreasoning]
        exact ⟨rfl, ⟨rfl, rfl⟩, hcalls⟩
  | cons fragment fragments =>
      rw [hfragments] at hcontinue hcalls
      obtain ⟨-, -, hrest⟩ := CallFragments.begins hcalls
      have htool : (Reader.body [] none).readAll (firstToolEvents 0 (fragment :: fragments)) =
          some (.body [] (some (.toolUse fragment.id fragment.name fragment.arguments))) := by
        by_cases harguments : fragment.arguments = ""
        · rw [firstToolEvents, if_neg (not_not.2 harguments), harguments]
          rfl
        · rw [firstToolEvents, if_pos harguments]
          show some (Reader.body [] (some (.toolUse _ _ ("" ++ fragment.arguments)))) = _
          rw [String.empty_append]
      show Arrives _ _ _ _ (if delta.getReasoningContent = "" ∧ delta.getContentString = "" then
        some (Stage.opening (.tool ⟨fragment.id, fragment.name, fragment.arguments⟩)) else none)
      by_cases hreasoning : delta.getReasoningContent = ""
      · by_cases htext : delta.getContentString = ""
        · rw [if_neg (not_not.2 hreasoning), if_neg (not_not.2 htext),
            if_pos (List.cons_ne_nil _ _), if_pos ⟨hreasoning, htext⟩]
          exact ⟨htool, ⟨rfl, rfl⟩, hrest.right hcontinue⟩
        · rw [if_neg (not_not.2 hreasoning), if_pos htext, if_neg fun h => htext h.2]
          refine arrives_of_none ?_
          rw [Reader.readAll_append, htool]
          rfl
      · rw [if_pos hreasoning, if_neg fun h => hreasoning h.1]
        refine arrives_of_none ?_
        rw [Reader.readAll_append, htool]
        rfl

/-- A stream of one chunk has no start. -/
theorem readAll_single (estimatePromptTokens : ℤ) (blocks : List ContentBlock)
    (stopReason : String) :
    Reader.before.readAll
        (oaiStreamHandler usage (.initial estimatePromptTokens) [chunk]) ≠
      some (.ended blocks stopReason) := by
  have hstart : ∀ delta, Reader.before.readAll (contentResponse delta .none 0).1 = none ∨
      Reader.before.readAll (contentResponse delta .none 0).1 = some .before := by
    intro delta
    by_cases hfragments : delta.fragments = []
    · by_cases hreasoning : delta.getReasoningContent = ""
      · by_cases htext : delta.getContentString = ""
        · rw [contentResponse_nothing hfragments hreasoning htext]
          exact .inr rfl
        · rw [contentResponse_text hfragments hreasoning htext]
          exact .inl rfl
      · rw [contentResponse_reasoning hfragments hreasoning]
        exact .inl rfl
    · rw [contentResponse_fragments hfragments]
      exact .inl rfl
  rw [oaiStreamHandler_last, streamResponseOpenAI2Claude_eq rfl Nat.zero_ne_one]
  by_cases hfinish : chunk.finish = ""
  · rw [if_pos hfinish]
    intro hended
    rcases hstart chunk.delta with hnone | hbefore
    · cases hnone.symm.trans hended
    · cases hbefore.symm.trans hended
  · rw [if_neg hfinish, Reader.readAll_append]
    intro hended
    rcases hstart chunk.delta with hnone | hbefore
    · have hread : ((none : Option Reader).bind fun reader => reader.readAll _) = _ :=
        hnone ▸ hended
      cases hread
    · have hread : ((some Reader.before).bind fun reader => reader.readAll _) = _ :=
        hbefore ▸ hended
      cases hread

/-- A stream of two chunks has two starts, unless the first one has a finish reason. -/
theorem readAll_pair (estimatePromptTokens : ℤ) (hfinish : chunk.finish = "")
    (blocks : List ContentBlock) (stopReason : String) :
    Reader.before.readAll
        (oaiStreamHandler usage (.initial estimatePromptTokens) [chunk, next]) ≠
      some (.ended blocks stopReason) := by
  obtain ⟨start, hresponse⟩ := firstResponse_eq chunk
    ((ClaudeConvertInfo.initial estimatePromptTokens).received chunk)
  rw [if_pos hfinish] at hresponse
  rw [oaiStreamHandler_cons, streamResponseOpenAI2Claude_first rfl rfl, hresponse,
    oaiStreamHandler_last, streamResponseOpenAI2Claude_first rfl rfl, Reader.readAll_append,
    Reader.readAll_cons, Reader.read, Option.bind_some]
  intro hended
  obtain ⟨reader, hreader, hrest⟩ := Option.bind_eq_some_iff.1 hended
  have hstarted : Reader.body [] none ≠ .before := Reader.noConfusion
  have hbody := Reader.readAll_ne_before hstarted hreader
  obtain ⟨again, hagain⟩ := firstResponse_eq next (ClaudeConvertInfo.withUsage _ usage)
  rw [hagain] at hrest
  split at hrest
  case isTrue =>
    rw [Reader.readAll_cons, Reader.read_start hbody] at hrest
    cases hrest
  case isFalse =>
    rw [List.cons_append, Reader.readAll_cons, Reader.read_start hbody] at hrest
    cases hrest

/-- A client reads of a stream what the stages say, when the first chunk begins one call at
most. -/
theorem readAll_stream (estimatePromptTokens : ℤ)
    (hcalls : CallFragments 0 (chunks.flatMap ChatCompletionsStreamResponse.fragments))
    (hcontinue : ∀ chunk ∈ chunks.head?, Continue chunk.fragments.tail)
    (blocks : List ContentBlock) (stopReason : String) :
    Reader.before.readAll (oaiStreamHandler usage (.initial estimatePromptTokens) chunks) =
        some (.ended blocks stopReason) ↔
      streamOutcome chunks = some (.ended blocks stopReason) := by
  match chunks, hcalls, hcontinue with
  | [], _, _ => exact iff_of_false nofun nofun
  | [chunk], _, _ =>
      exact iff_of_false (readAll_single estimatePromptTokens blocks stopReason) nofun
  | chunk :: next :: chunks, hcalls, hcontinue =>
      rw [List.flatMap_cons] at hcalls
      have hfirst := arrives_first (hcontinue chunk rfl) hcalls
      let info : ClaudeConvertInfo F :=
        (ClaudeConvertInfo.initial estimatePromptTokens).received chunk
      obtain ⟨start, hresponse⟩ := firstResponse_eq chunk info
      have hknown : info.usage.isSome = chunk.usage.isSome := isSome_or _ _
      by_cases hfinish : chunk.finish = ""
      · by_cases hchunks : chunks = []
        · -- The last chunk is the second one, and is converted as a first one.
          rw [hchunks, streamOutcome]
          simp only [if_pos hfinish, if_true]
          refine iff_of_false (readAll_pair estimatePromptTokens hfinish blocks stopReason) ?_
          cases Stage.first chunk.delta <;> exact nofun
        · rw [if_pos hfinish] at hresponse
          rw [oaiStreamHandler_cons, streamResponseOpenAI2Claude_first rfl rfl, hresponse,
            streamOutcome, Reader.readAll_append]
          simp only [if_pos hfinish, if_neg hchunks]
          rw [Reader.readAll_cons, Reader.read, Option.bind_some]
          cases hread : (Reader.body [] none).readAll
              (firstContent chunk.delta info.lastMessagesType info.index).1 with
          | none =>
              have hlost : Stage.first chunk.delta = none := by
                cases hstage : Stage.first chunk.delta with
                | none => rfl
                | some stage =>
                    rw [hstage] at hfirst
                    cases hread.symm.trans hfirst.1
              rw [hlost]
              exact Iff.rfl
          | some reader =>
              have hat : Arrives (some reader) _ _ _ _ := hread ▸ hfirst
              rw [← hknown]
              exact readAll_oaiStreamHandler hat rfl (Nat.le_refl 1)
                (fun hlength => absurd (by simpa using hlength) hchunks) blocks stopReason
      · rw [if_neg hfinish] at hresponse
        rw [oaiStreamHandler_cons, streamResponseOpenAI2Claude_first rfl rfl, hresponse,
          streamOutcome, Reader.readAll_append]
        simp only [if_neg hfinish]
        have hstop := hfirst.stop chunk.finish (chunk.usage.or info.usage)
        rw [isSome_or, hknown, Bool.or_self] at hstop
        rw [oaiStreamHandler_done rfl, List.cons_append, Reader.readAll_cons, Reader.read,
          Option.bind_some, Reader.readAll_append, ← hstop]
        exact Eq.congr_left (Option.bind_fun_some _)

end Run

end NewApi.Model
