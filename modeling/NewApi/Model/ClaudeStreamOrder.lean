import Mathlib.Data.List.Chain
import NewApi.Model.ClaudeStreamCalls

/-!
# Which streams are converted in order

The conversion of an OpenAI stream for a Claude client keeps the protocol, and loses nothing,
exactly when the contents of the stream come in an order that its stages allow.
-/

namespace NewApi.Model

open NewApi.Lib NewApi.Lib.Strings

variable {F : Type}

/-- The kinds of content that a chunk may carry. -/
inductive ContentKind
  | tools
  | thinking
  | text
deriving DecidableEq

/-- A kind of content after another one: it goes on, or the text begins. -/
def ContentKind.Goes (kind next : ContentKind) : Prop :=
  next = kind ∨ next = .text

instance (kind next : ContentKind) : Decidable (kind.Goes next) :=
  inferInstanceAs (Decidable (_ ∨ _))

namespace ChatCompletionsStreamResponse

variable (chunk : ChatCompletionsStreamResponse F)

/-- All that a chunk carries. -/
def kinds : List ContentKind :=
  (if chunk.fragments ≠ [] then [.tools] else []) ++
    (if chunk.reasoning ≠ "" then [.thinking] else []) ++
    if chunk.text ≠ "" then [.text] else []

/-- What of it the conversion takes. -/
def taken : List ContentKind :=
  if chunk.fragments ≠ [] then [.tools]
  else if chunk.reasoning ≠ "" then [.thinking]
  else if chunk.text ≠ "" then [.text]
  else []

def takenText : String :=
  if chunk.fragments = [] ∧ chunk.reasoning = "" then chunk.text else ""

def takenReasoning : String :=
  if chunk.fragments = [] then chunk.reasoning else ""

end ChatCompletionsStreamResponse

/-- The chunks up to the first one with a finish reason. -/
def toFinish : List (ChatCompletionsStreamResponse F) → List (ChatCompletionsStreamResponse F)
  | [] => []
  | chunk :: chunks => if chunk.finish = "" then chunk :: toFinish chunks else [chunk]

/-- The chunks after it. -/
def afterFinish : List (ChatCompletionsStreamResponse F) → List (ChatCompletionsStreamResponse F)
  | [] => []
  | chunk :: chunks => if chunk.finish = "" then afterFinish chunks else chunks

/-- The first finish reason. -/
def firstFinish : List (ChatCompletionsStreamResponse F) → String
  | [] => ""
  | chunk :: chunks => if chunk.finish = "" then firstFinish chunks else chunk.finish

theorem toFinish_append_afterFinish (chunks : List (ChatCompletionsStreamResponse F)) :
    toFinish chunks ++ afterFinish chunks = chunks := by
  induction chunks with
  | nil => rfl
  | cons chunk chunks ih =>
      rw [toFinish, afterFinish]
      split
      case isTrue => rw [List.cons_append, ih]
      case isFalse => rfl

/-! ## What the blocks hold -/

def textOf (blocks : List ContentBlock) : String :=
  concat (blocks.filterMap ContentBlock.textContent)

def thinkingOf (blocks : List ContentBlock) : String :=
  concat (blocks.filterMap ContentBlock.thinkingContent)

def callsOf (blocks : List ContentBlock) : List ToolCall :=
  blocks.filterMap ContentBlock.toolCall

@[simp] theorem textOf_nil : textOf [] = "" := rfl

@[simp] theorem thinkingOf_nil : thinkingOf [] = "" := rfl

@[simp] theorem callsOf_nil : callsOf [] = [] := rfl

@[simp] theorem textOf_cons (block : ContentBlock) (blocks : List ContentBlock) :
    textOf (block :: blocks) = block.textContent.getD "" ++ textOf blocks := by
  cases block with
  | text content => rfl
  | _ => exact String.empty_append.symm

@[simp] theorem thinkingOf_cons (block : ContentBlock) (blocks : List ContentBlock) :
    thinkingOf (block :: blocks) = block.thinkingContent.getD "" ++ thinkingOf blocks := by
  cases block with
  | thinking content => rfl
  | _ => exact String.empty_append.symm

@[simp] theorem callsOf_cons (block : ContentBlock) (blocks : List ContentBlock) :
    callsOf (block :: blocks) = block.toolCall.toList ++ callsOf blocks := by
  cases block <;> rfl

/-- A call that goes on. -/
def ToolCall.goOn (call : ToolCall) (arguments : String) : ToolCall :=
  { call with arguments := call.arguments ++ arguments }

namespace Stage

def kinds : Stage → List ContentKind
  | .nothing => []
  | .opening (.thinking _) => [.thinking]
  | .opening (.tool _) => [.tools]
  | .text _ _ => [.text]

/-- The stage after chunks that are not the first. -/
def run (stage : Stage) (chunks : List (ChatCompletionsStreamResponse F)) : Option Stage :=
  chunks.foldlM (fun stage chunk => stage.next chunk.delta) stage

@[simp] theorem run_nil (stage : Stage) :
    stage.run ([] : List (ChatCompletionsStreamResponse F)) = some stage := rfl

@[simp] theorem run_cons (stage : Stage) (chunk : ChatCompletionsStreamResponse F)
    (chunks : List (ChatCompletionsStreamResponse F)) :
    stage.run (chunk :: chunks) =
      (stage.next chunk.delta).bind fun stage => stage.run chunks := rfl

/-- The stage after the chunks of a stream. -/
def runAll : List (ChatCompletionsStreamResponse F) → Option Stage
  | [] => none
  | chunk :: chunks => (first chunk.delta).bind fun stage => stage.run chunks

end Stage

section Outcome

variable {chunk next : ChatCompletionsStreamResponse F}
  {chunks : List (ChatCompletionsStreamResponse F)} {blocks : List ContentBlock}
  {stopReason : String} {stage final : Stage} {known : Bool}

/-- The end of chunks: there is a finish reason, a block, and a usage unless the last chunk has
the finish reason. -/
structure Stage.Ends (final : Stage) (known : Bool)
    (chunks : List (ChatCompletionsStreamResponse F)) (blocks : List ContentBlock)
    (stopReason : String) : Prop where
  finished : ∃ chunk ∈ chunks, chunk.finish ≠ ""
  block : final ≠ .nothing
  usage : afterFinish chunks ≠ [] → known ∨ ∃ chunk ∈ toFinish chunks, chunk.usage.isSome
  blocks : blocks = final.blocks
  stopReason : stopReason = openAIFinishReasonToClaudeStopReason (firstFinish chunks)

theorem Stage.ended_iff :
    stage.ended known chunk.finish = some (.ended blocks stopReason) ↔
      stage ≠ .nothing ∧ known ∧ blocks = stage.blocks ∧
        stopReason = openAIFinishReasonToClaudeStopReason chunk.finish := by
  unfold Stage.ended
  split
  case isTrue h =>
    rw [Option.some.injEq, Reader.ended.injEq]
    constructor
    · rintro ⟨rfl, rfl⟩
      exact ⟨h.1, h.2, rfl, rfl⟩
    · rintro ⟨-, -, rfl, rfl⟩
      exact ⟨rfl, rfl⟩
  case isFalse h =>
    refine iff_of_false nofun ?_
    rintro ⟨hblock, hknown, -⟩
    exact h ⟨hblock, hknown⟩

theorem Stage.Ends.cons_iff (hfinish : chunk.finish = "") :
    final.Ends known (chunk :: chunks) blocks stopReason ↔
      final.Ends (known || chunk.usage.isSome) chunks blocks stopReason := by
  have husage : (known = true ∨ ∃ c ∈ chunk :: toFinish chunks, c.usage.isSome) ↔
      ((known || chunk.usage.isSome) = true ∨ ∃ c ∈ toFinish chunks, c.usage.isSome) := by
    rw [List.exists_mem_cons_iff, Bool.or_eq_true, or_assoc]
  have hfinished : (∃ c ∈ chunk :: chunks, c.finish ≠ "") ↔ ∃ c ∈ chunks, c.finish ≠ "" := by
    rw [List.exists_mem_cons_iff, or_iff_right (not_not.2 hfinish)]
  constructor
  · rintro ⟨hfinal, hblock, hknown, hblocks, hreason⟩
    rw [afterFinish, toFinish, if_pos hfinish, if_pos hfinish, husage] at hknown
    rw [firstFinish, if_pos hfinish] at hreason
    exact ⟨hfinished.1 hfinal, hblock, hknown, hblocks, hreason⟩
  · rintro ⟨hfinal, hblock, hknown, hblocks, hreason⟩
    refine ⟨hfinished.2 hfinal, hblock, ?_, hblocks, ?_⟩
    · rw [afterFinish, toFinish, if_pos hfinish, if_pos hfinish, husage]
      exact hknown
    · rw [firstFinish, if_pos hfinish]
      exact hreason

theorem Stage.Ends.last_iff (hfinish : chunk.finish ≠ "") :
    final.Ends known (chunk :: chunks) blocks stopReason ↔
      final ≠ .nothing ∧ (chunks ≠ [] → known ∨ chunk.usage.isSome) ∧ blocks = final.blocks ∧
        stopReason = openAIFinishReasonToClaudeStopReason chunk.finish := by
  constructor
  · rintro ⟨-, hblock, hknown, hblocks, hreason⟩
    rw [afterFinish, toFinish, if_neg hfinish, if_neg hfinish] at hknown
    rw [firstFinish, if_neg hfinish] at hreason
    refine ⟨hblock, fun hchunks => (hknown hchunks).imp_right ?_, hblocks, hreason⟩
    rintro ⟨c, hmem, husage⟩
    rw [List.mem_singleton.1 hmem] at husage
    exact husage
  · rintro ⟨hblock, hknown, hblocks, hreason⟩
    refine ⟨⟨chunk, List.mem_cons_self .., hfinish⟩, hblock, ?_, hblocks, ?_⟩
    · rw [afterFinish, toFinish, if_neg hfinish, if_neg hfinish]
      exact fun hchunks => (hknown hchunks).imp_right fun husage =>
        ⟨chunk, List.mem_singleton_self chunk, husage⟩
    · rw [firstFinish, if_neg hfinish]
      exact hreason

/-- How the chunks after the first one are read to the end. -/
theorem Stage.outcome_iff :
    stage.outcome known chunks = some (.ended blocks stopReason) ↔
      ∃ final, stage.run (toFinish chunks) = some final ∧
        final.Ends known chunks blocks stopReason := by
  induction chunks generalizing stage known with
  | nil =>
      refine iff_of_false (fun hnone => by cases hnone) ?_
      rintro ⟨final, -, ⟨chunk, hmem, -⟩, -⟩
      cases hmem
  | cons chunk chunks ih =>
      by_cases hfinish : chunk.finish = ""
      · have hstep : stage.outcome known (chunk :: chunks) =
            (stage.next chunk.delta).bind fun stage =>
              stage.outcome (known || chunk.usage.isSome) chunks := by
          cases chunks <;> simp only [Stage.outcome, if_pos hfinish]
        rw [hstep, toFinish, if_pos hfinish, Stage.run_cons]
        cases stage.next chunk.delta with
        | none =>
            refine iff_of_false (fun hnone => by cases hnone) ?_
            rintro ⟨final, hrun, -⟩
            cases hrun
        | some stage =>
            rw [Option.bind_some, Option.bind_some, ih]
            exact exists_congr fun final =>
              and_congr_right fun _ => (Stage.Ends.cons_iff hfinish).symm
      · have hstep : stage.outcome known (chunk :: chunks) =
            (stage.next chunk.delta).bind fun stage =>
              stage.ended (chunks = [] || known || chunk.usage.isSome) chunk.finish := by
          cases chunks with
          | nil => simp [Stage.outcome, if_neg hfinish]
          | cons next chunks => simp [Stage.outcome, if_neg hfinish]
        rw [hstep, toFinish, if_neg hfinish, Stage.run_cons]
        cases stage.next chunk.delta with
        | none =>
            refine iff_of_false (fun hnone => by cases hnone) ?_
            rintro ⟨final, hrun, -⟩
            cases hrun
        | some stage =>
            rw [Option.bind_some, Option.bind_some, Stage.run_nil, Stage.ended_iff]
            constructor
            · rintro ⟨hblock, hknown, hblocks, hreason⟩
              refine ⟨stage, rfl, (Stage.Ends.last_iff hfinish).2 ⟨hblock, ?_, hblocks, hreason⟩⟩
              intro hchunks
              simpa [hchunks] using hknown
            · rintro ⟨final, hsame, hends⟩
              obtain rfl := Option.some.inj hsame
              obtain ⟨hblock, hknown, hblocks, hreason⟩ := (Stage.Ends.last_iff hfinish).1 hends
              refine ⟨hblock, ?_, hblocks, hreason⟩
              by_cases hchunks : chunks = []
              · simp [hchunks]
              · simpa [hchunks] using hknown hchunks

/-- How a stream is read to the end: it has two chunks, or three when the first one does not
finish it. -/
theorem streamOutcome_iff :
    streamOutcome chunks = some (.ended blocks stopReason) ↔
      ∃ final, Stage.runAll (toFinish chunks) = some final ∧
        final.Ends false chunks blocks stopReason ∧ 2 ≤ chunks.length ∧
        ((∀ chunk ∈ chunks.head?, chunk.finish = "") → 3 ≤ chunks.length) := by
  rcases chunks with _ | ⟨chunk, _ | ⟨next, chunks⟩⟩
  · refine iff_of_false (fun hnone => by cases hnone) ?_
    rintro ⟨final, -, -, hlength, -⟩
    cases hlength
  · refine iff_of_false (fun hnone => by cases hnone) ?_
    rintro ⟨final, -, -, hlength, -⟩
    exact absurd hlength (Nat.not_succ_le_self 1)
  · have htwo : 2 ≤ (chunk :: next :: chunks).length := Nat.le_add_left ..
    by_cases hfinish : chunk.finish = ""
    · have hhead : ∀ c ∈ (chunk :: next :: chunks).head?, c.finish = "" := by
        rintro c ⟨rfl⟩
        exact hfinish
      simp only [streamOutcome, if_pos hfinish]
      rw [toFinish, if_pos hfinish, Stage.runAll]
      cases Stage.first chunk.delta with
      | none =>
          refine iff_of_false (fun hnone => by cases hnone) ?_
          rintro ⟨final, hrun, -⟩
          cases hrun
      | some stage =>
          rw [Option.bind_some, Option.bind_some]
          by_cases hchunks : chunks = []
          · rw [if_pos hchunks]
            refine iff_of_false (fun hnone => by cases hnone) ?_
            rintro ⟨final, -, -, -, hthree⟩
            have hlength := hthree hhead
            rw [hchunks] at hlength
            exact absurd hlength (Nat.not_succ_le_self 2)
          · have hthree : 3 ≤ (chunk :: next :: chunks).length :=
              Nat.add_le_add_right (List.length_pos_iff.2 hchunks) 2
            rw [if_neg hchunks, Stage.outcome_iff]
            refine exists_congr fun final => and_congr_right fun _ => ?_
            rw [Stage.Ends.cons_iff hfinish, Bool.false_or]
            exact ⟨fun hends => ⟨hends, htwo, fun _ => hthree⟩, And.left⟩
    · simp only [streamOutcome, if_neg hfinish]
      rw [toFinish, if_neg hfinish, Stage.runAll]
      cases Stage.first chunk.delta with
      | none =>
          refine iff_of_false (fun hnone => by cases hnone) ?_
          rintro ⟨final, hrun, -⟩
          cases hrun
      | some stage =>
          rw [Option.bind_some, Option.bind_some, Stage.run_nil, Stage.ended_iff]
          constructor
          · rintro ⟨hblock, hknown, hblocks, hreason⟩
            exact ⟨stage, rfl, (Stage.Ends.last_iff hfinish).2
              ⟨hblock, fun _ => .inr hknown, hblocks, hreason⟩, htwo,
              fun hhead => absurd (hhead chunk rfl) hfinish⟩
          · rintro ⟨final, hsame, hends, -, -⟩
            obtain rfl := Option.some.inj hsame
            obtain ⟨hblock, hknown, hblocks, hreason⟩ := (Stage.Ends.last_iff hfinish).1 hends
            exact ⟨hblock, (hknown (List.cons_ne_nil _ _)).resolve_left Bool.false_ne_true,
              hblocks, hreason⟩

end Outcome

/-! ## What the stages take of the chunks -/

section Taken

variable {chunk : ChatCompletionsStreamResponse F}
  {chunks : List (ChatCompletionsStreamResponse F)} {stage next final : Stage}

/-- A chunk is taken as its tool calls, else as its reasoning, else as its text. -/
theorem taken_cases (chunk : ChatCompletionsStreamResponse F) :
    (chunk.fragments ≠ [] ∧ chunk.taken = [.tools] ∧ chunk.takenText = "" ∧
        chunk.takenReasoning = "") ∨
      (chunk.fragments = [] ∧ chunk.reasoning ≠ "" ∧ chunk.taken = [.thinking] ∧
        chunk.takenText = "" ∧ chunk.takenReasoning = chunk.reasoning) ∨
      (chunk.fragments = [] ∧ chunk.reasoning = "" ∧ chunk.text ≠ "" ∧ chunk.taken = [.text] ∧
        chunk.takenText = chunk.text ∧ chunk.takenReasoning = "") ∨
      (chunk.fragments = [] ∧ chunk.reasoning = "" ∧ chunk.text = "" ∧ chunk.taken = [] ∧
        chunk.takenText = "" ∧ chunk.takenReasoning = "") := by
  unfold ChatCompletionsStreamResponse.taken ChatCompletionsStreamResponse.takenText
    ChatCompletionsStreamResponse.takenReasoning
  by_cases hfragments : chunk.fragments = []
  · by_cases hreasoning : chunk.reasoning = ""
    · by_cases htext : chunk.text = ""
      · simp [hfragments, hreasoning, htext]
      · simp [hfragments, hreasoning, htext]
    · simp [hfragments, hreasoning]
  · simp [hfragments]

theorem Stage.next_fragments (hfragments : chunk.fragments ≠ []) :
    stage.next chunk.delta = stage.addFragments chunk.fragments :=
  if_pos hfragments

theorem Stage.next_thinking (hfragments : chunk.fragments = [])
    (hreasoning : chunk.reasoning ≠ "") :
    stage.next chunk.delta = stage.addThinking chunk.reasoning :=
  (if_neg (not_not.2 hfragments)).trans (if_pos hreasoning)

theorem Stage.next_text (hfragments : chunk.fragments = []) (hreasoning : chunk.reasoning = "")
    (htext : chunk.text ≠ "") : stage.next chunk.delta = some (stage.addText chunk.text) :=
  (if_neg (not_not.2 hfragments)).trans ((if_neg (not_not.2 hreasoning)).trans (if_pos htext))

theorem Stage.next_nothing (hfragments : chunk.fragments = []) (hreasoning : chunk.reasoning = "")
    (htext : chunk.text = "") : stage.next chunk.delta = some stage :=
  (if_neg (not_not.2 hfragments)).trans
    ((if_neg (not_not.2 hreasoning)).trans (if_neg (not_not.2 htext)))

/-- What the blocks hold after a chunk. -/
structure Stage.Takes (stage next : Stage) (text reasoning arguments : String) : Prop where
  text : textOf next.blocks = textOf stage.blocks ++ text
  thinking : thinkingOf next.blocks = thinkingOf stage.blocks ++ reasoning
  calls : callsOf next.blocks = (callsOf stage.blocks).map fun call => call.goOn arguments

@[simp] theorem ToolCall.goOn_empty (call : ToolCall) : call.goOn "" = call := by
  rw [goOn, String.append_empty]

theorem Stage.takes_self (stage : Stage) : stage.Takes stage "" "" "" where
  text := String.append_empty.symm
  thinking := String.append_empty.symm
  calls := by
    simp only [ToolCall.goOn_empty, List.map_id_fun', id_eq]

theorem Stage.takes_addText (stage : Stage) (content : String) :
    stage.Takes (stage.addText content) content "" "" := by
  cases stage with
  | nothing =>
      constructor <;>
        simp [blocks, addText, closed, ContentBlock.textContent, ContentBlock.thinkingContent,
          ContentBlock.toolCall]
  | opening first =>
      cases first <;> constructor <;>
        simp [blocks, addText, closed, Opening.block, ContentBlock.textContent,
          ContentBlock.thinkingContent, ContentBlock.toolCall]
  | text before old =>
      rcases before with _ | ⟨thinking⟩ | ⟨call⟩ <;> constructor <;>
        simp [blocks, addText, closed, Opening.block, ContentBlock.textContent,
          ContentBlock.thinkingContent, ContentBlock.toolCall]

theorem Stage.takes_addThinking {content : String}
    (hnext : stage.addThinking content = some next) : stage.Takes next "" content "" := by
  cases stage with
  | nothing =>
      obtain rfl := Option.some.inj hnext
      constructor <;>
        simp [blocks, Opening.block, ContentBlock.textContent, ContentBlock.thinkingContent,
          ContentBlock.toolCall]
  | opening first =>
      cases first with
      | thinking old =>
          obtain rfl := Option.some.inj hnext
          constructor <;>
            simp [blocks, Opening.block, ContentBlock.textContent, ContentBlock.thinkingContent,
              ContentBlock.toolCall]
      | tool call => cases hnext
  | text before old => cases hnext

theorem Stage.takes_addFragments {fragments : List ToolCallResponse}
    (hnext : stage.addFragments fragments = some next) :
    stage.Takes next "" "" (argumentsOf fragments) ∧ Continue fragments := by
  cases stage with
  | nothing => cases hnext
  | opening first =>
      cases first with
      | thinking old => cases hnext
      | tool call =>
          rw [addFragments] at hnext
          split at hnext
          case isTrue hcontinue =>
            obtain rfl := Option.some.inj hnext
            refine ⟨?_, hcontinue⟩
            constructor <;>
              simp [blocks, Opening.block, ContentBlock.textContent,
                ContentBlock.thinkingContent, ContentBlock.toolCall, ToolCall.goOn]
          case isFalse => cases hnext
  | text before old => cases hnext

/-- What the next stage has taken of a chunk. -/
theorem Stage.takes_next (hnext : stage.next chunk.delta = some next) :
    stage.Takes next chunk.takenText chunk.takenReasoning (argumentsOf chunk.fragments) ∧
      Continue chunk.fragments := by
  rcases taken_cases chunk with ⟨hfragments, -, htext, hreasoning⟩ |
      ⟨hfragments, hsome, -, htext, hreasoning⟩ |
      ⟨hfragments, hnone, hsome, -, htext, hreasoning⟩ |
      ⟨hfragments, hnone, hempty, -, htext, hreasoning⟩
  · rw [next_fragments hfragments] at hnext
    rw [htext, hreasoning]
    exact takes_addFragments hnext
  · rw [next_thinking hfragments hsome] at hnext
    rw [htext, hreasoning, hfragments]
    exact ⟨takes_addThinking hnext, continue_nil⟩
  · rw [next_text hfragments hnone hsome] at hnext
    obtain rfl := Option.some.inj hnext
    rw [htext, hreasoning, hfragments]
    exact ⟨stage.takes_addText chunk.text, continue_nil⟩
  · rw [next_nothing hfragments hnone hempty] at hnext
    obtain rfl := Option.some.inj hnext
    rw [htext, hreasoning, hfragments]
    exact ⟨stage.takes_self, continue_nil⟩

theorem Stage.Takes.trans {text text' reasoning reasoning' arguments arguments' : String}
    (h : stage.Takes next text reasoning arguments)
    (h' : next.Takes final text' reasoning' arguments') :
    stage.Takes final (text ++ text') (reasoning ++ reasoning') (arguments ++ arguments') where
  text := by rw [h'.text, h.text, String.append_assoc]
  thinking := by rw [h'.thinking, h.thinking, String.append_assoc]
  calls := by
    rw [h'.calls, h.calls, List.map_map]
    simp only [ToolCall.goOn, Function.comp_def, String.append_assoc]

/-- What the stages have taken of chunks. -/
theorem Stage.takes_run (hrun : stage.run chunks = some final) :
    stage.Takes final (concat (chunks.map ChatCompletionsStreamResponse.takenText))
        (concat (chunks.map ChatCompletionsStreamResponse.takenReasoning))
        (argumentsOf (chunks.flatMap ChatCompletionsStreamResponse.fragments)) ∧
      Continue (chunks.flatMap ChatCompletionsStreamResponse.fragments) := by
  induction chunks generalizing stage with
  | nil =>
      obtain rfl := Option.some.inj hrun
      exact ⟨stage.takes_self, continue_nil⟩
  | cons chunk chunks ih =>
      rw [run_cons, Option.bind_eq_some_iff] at hrun
      obtain ⟨next, hnext, hrun⟩ := hrun
      obtain ⟨htakes, hcontinue⟩ := takes_next hnext
      obtain ⟨hrest, hcontinues⟩ := ih hrun
      rw [List.flatMap_cons, argumentsOf_append, continue_append]
      exact ⟨htakes.trans hrest, hcontinue, hcontinues⟩

end Taken

/-! ## The order that the stages allow -/

section Order

variable {chunk : ChatCompletionsStreamResponse F}
  {chunks : List (ChatCompletionsStreamResponse F)} {stage next final : Stage}
  {kind : ContentKind} {kinds : List ContentKind}

/-- Tool calls come only after tool calls. -/
theorem eq_tools_of_chain (hchain : (kind :: kinds).IsChain ContentKind.Goes)
    (htools : .tools ∈ kinds) : kind = .tools := by
  induction kinds generalizing kind with
  | nil => cases htools
  | cons next kinds ih =>
      rw [List.isChain_cons_cons] at hchain
      have hnext : next = .tools := by
        rcases List.mem_cons.1 htools with htools | htools
        · exact htools.symm
        · exact ih hchain.2 htools
      rcases hchain.1 with hsame | htext
      · exact hsame.symm.trans hnext
      · cases hnext.symm.trans htext

theorem Stage.kinds_addText (stage : Stage) (content : String) :
    (stage.addText content).kinds = [.text] := by
  cases stage <;> rfl

theorem Stage.kinds_addThinking {content : String} (hnext : stage.addThinking content = some next) :
    next.kinds = [.thinking] := by
  cases stage with
  | nothing =>
      obtain rfl := Option.some.inj hnext
      rfl
  | opening first =>
      cases first with
      | thinking old =>
          obtain rfl := Option.some.inj hnext
          rfl
      | tool call => cases hnext
  | text before old => cases hnext

theorem Stage.kinds_addFragments {fragments : List ToolCallResponse}
    (hnext : stage.addFragments fragments = some next) :
    next.kinds = [.tools] ∧ stage.kinds = [.tools] := by
  cases stage with
  | nothing => cases hnext
  | opening first =>
      cases first with
      | thinking old => cases hnext
      | tool call =>
          rw [addFragments] at hnext
          split at hnext
          case isTrue =>
            obtain rfl := Option.some.inj hnext
            exact ⟨rfl, rfl⟩
          case isFalse => cases hnext
  | text before old => cases hnext

theorem Stage.addThinking_iff {content : String} :
    (∃ next, stage.addThinking content = some next) ↔
      (stage.kinds ++ [ContentKind.thinking]).IsChain ContentKind.Goes := by
  rcases stage with _ | (old | call) | ⟨before, old⟩
  · exact iff_of_true ⟨_, rfl⟩ (by simp [kinds])
  · exact iff_of_true ⟨_, rfl⟩ (by simp [kinds, ContentKind.Goes])
  · exact iff_of_false (by rintro ⟨next, hnext⟩; cases hnext) (by simp [kinds, ContentKind.Goes])
  · exact iff_of_false (by rintro ⟨next, hnext⟩; cases hnext) (by simp [kinds, ContentKind.Goes])

theorem Stage.addFragments_iff {fragments : List ToolCallResponse} :
    (∃ next, stage.addFragments fragments = some next) ↔
      stage.kinds = [.tools] ∧ Continue fragments := by
  rcases stage with _ | (old | call) | ⟨before, old⟩
  · exact iff_of_false (by rintro ⟨next, hnext⟩; cases hnext) (by rintro ⟨hkind, -⟩; cases hkind)
  · exact iff_of_false (by rintro ⟨next, hnext⟩; cases hnext) (by rintro ⟨hkind, -⟩; cases hkind)
  · rw [addFragments]
    split
    case isTrue hcontinue => exact iff_of_true ⟨_, rfl⟩ ⟨rfl, hcontinue⟩
    case isFalse hcontinue =>
      exact iff_of_false (by rintro ⟨next, hnext⟩; cases hnext) fun h => hcontinue h.2
  · exact iff_of_false (by rintro ⟨next, hnext⟩; cases hnext) (by rintro ⟨hkind, -⟩; cases hkind)

/-- The text may follow anything. -/
theorem Stage.chain_text (stage : Stage) :
    (stage.kinds ++ [ContentKind.text]).IsChain ContentKind.Goes := by
  rcases stage with _ | (old | call) | ⟨before, old⟩ <;> simp [kinds, ContentKind.Goes]

theorem Stage.chain_kinds (stage : Stage) : stage.kinds.IsChain ContentKind.Goes := by
  rcases stage with _ | (old | call) | ⟨before, old⟩ <;> simp [kinds]

/-- Which chunks a stage can take. -/
theorem Stage.next_iff :
    (∃ next, stage.next chunk.delta = some next) ↔
      (stage.kinds ++ chunk.taken).IsChain ContentKind.Goes ∧
        (.tools ∈ chunk.taken → stage.kinds = [.tools]) ∧ Continue chunk.fragments := by
  rcases taken_cases chunk with ⟨hfragments, htaken, -⟩ | ⟨hfragments, hsome, htaken, -⟩ |
      ⟨hfragments, hnone, hsome, htaken, -⟩ | ⟨hfragments, hnone, hempty, htaken, -⟩
  · rw [next_fragments hfragments, addFragments_iff, htaken]
    constructor
    · rintro ⟨hkinds, hcontinue⟩
      rw [hkinds]
      exact ⟨by decide, fun _ => rfl, hcontinue⟩
    · rintro ⟨-, htools, hcontinue⟩
      exact ⟨htools (List.mem_singleton_self _), hcontinue⟩
  · rw [next_thinking hfragments hsome, addThinking_iff, htaken, hfragments]
    exact ⟨fun hchain => ⟨hchain, fun htools => absurd htools (by decide), continue_nil⟩,
      And.left⟩
  · rw [next_text hfragments hnone hsome, htaken, hfragments]
    exact iff_of_true ⟨_, rfl⟩
      ⟨stage.chain_text, fun htools => absurd htools (by decide), continue_nil⟩
  · rw [next_nothing hfragments hnone hempty, htaken, hfragments, List.append_nil]
    exact iff_of_true ⟨_, rfl⟩
      ⟨stage.chain_kinds, fun htools => absurd htools List.not_mem_nil, continue_nil⟩

/-- A stage has the kind of the last chunk with content. -/
theorem Stage.kinds_next (hnext : stage.next chunk.delta = some next) :
    next.kinds = if chunk.taken = [] then stage.kinds else chunk.taken := by
  rcases taken_cases chunk with ⟨hfragments, htaken, -⟩ | ⟨hfragments, hsome, htaken, -⟩ |
      ⟨hfragments, hnone, hsome, htaken, -⟩ | ⟨hfragments, hnone, hempty, htaken, -⟩
  · rw [next_fragments hfragments] at hnext
    rw [htaken, if_neg (List.cons_ne_nil _ _)]
    exact (kinds_addFragments hnext).1
  · rw [next_thinking hfragments hsome] at hnext
    rw [htaken, if_neg (List.cons_ne_nil _ _)]
    exact kinds_addThinking hnext
  · rw [next_text hfragments hnone hsome] at hnext
    obtain rfl := Option.some.inj hnext
    rw [htaken, if_neg (List.cons_ne_nil _ _)]
    exact stage.kinds_addText chunk.text
  · rw [next_nothing hfragments hnone hempty] at hnext
    obtain rfl := Option.some.inj hnext
    rw [htaken, if_pos rfl]

/-- A chain goes on after a chunk from the kind of the chunk. -/
theorem chain_next (hnext : stage.next chunk.delta = some next) (rest : List ContentKind) :
    (stage.kinds ++ (chunk.taken ++ rest)).IsChain ContentKind.Goes ↔
      (stage.kinds ++ chunk.taken).IsChain ContentKind.Goes ∧
        (next.kinds ++ rest).IsChain ContentKind.Goes := by
  rw [Stage.kinds_next hnext]
  have hchain := stage.chain_kinds
  rcases taken_cases chunk with ⟨-, htaken, -⟩ | ⟨-, -, htaken, -⟩ | ⟨-, -, -, htaken, -⟩ |
      ⟨-, -, -, htaken, -⟩
  · rw [htaken, if_neg (List.cons_ne_nil _ _), List.singleton_append]
    exact List.isChain_split
  · rw [htaken, if_neg (List.cons_ne_nil _ _), List.singleton_append]
    exact List.isChain_split
  · rw [htaken, if_neg (List.cons_ne_nil _ _), List.singleton_append]
    exact List.isChain_split
  · rw [htaken, if_pos rfl, List.nil_append, List.append_nil]
    exact (and_iff_right hchain).symm

/-- Which chunks can be taken one after the other. -/
theorem Stage.run_iff :
    (∃ final, stage.run chunks = some final) ↔
      (stage.kinds ++ chunks.flatMap ChatCompletionsStreamResponse.taken).IsChain
          ContentKind.Goes ∧
        (.tools ∈ chunks.flatMap ChatCompletionsStreamResponse.taken → stage.kinds = [.tools]) ∧
        Continue (chunks.flatMap ChatCompletionsStreamResponse.fragments) := by
  induction chunks generalizing stage with
  | nil =>
      rw [List.flatMap_nil, List.flatMap_nil, List.append_nil]
      exact iff_of_true ⟨stage, rfl⟩
        ⟨stage.chain_kinds, fun htools => absurd htools List.not_mem_nil, continue_nil⟩
  | cons chunk chunks ih =>
      rw [List.flatMap_cons, List.flatMap_cons, continue_append]
      constructor
      · -- The order of the first chunk and that of the others meet at the next stage.
        rintro ⟨final, hrun⟩
        rw [run_cons, Option.bind_eq_some_iff] at hrun
        obtain ⟨next, hnext, hrun⟩ := hrun
        obtain ⟨hchain, htools, hcontinue⟩ := next_iff.1 ⟨next, hnext⟩
        obtain ⟨hchains, htool, hcontinues⟩ := ih.1 ⟨final, hrun⟩
        refine ⟨(chain_next hnext _).2 ⟨hchain, hchains⟩, ?_, hcontinue, hcontinues⟩
        intro hmem
        rcases List.mem_append.1 hmem with hmem | hmem
        · exact htools hmem
        · have hkinds := htool hmem
          rw [kinds_next hnext] at hkinds
          split at hkinds
          case isTrue => exact hkinds
          case isFalse => exact htools (hkinds ▸ List.mem_singleton_self _)
      · rintro ⟨hchain, htools, hcontinue, hcontinues⟩
        have hfront : (stage.kinds ++ chunk.taken ++
            chunks.flatMap ChatCompletionsStreamResponse.taken).IsChain ContentKind.Goes := by
          rw [List.append_assoc]
          exact hchain
        obtain ⟨next, hnext⟩ := next_iff.2 ⟨hfront.left_of_append,
          fun hmem => htools (List.mem_append_left _ hmem), hcontinue⟩
        have hchains := ((chain_next hnext _).1 hchain).2
        -- The stage before tool calls is one of tool calls.
        have htool : .tools ∈ chunks.flatMap ChatCompletionsStreamResponse.taken →
            next.kinds = [.tools] := by
          intro hmem
          have hstage := htools (List.mem_append_right _ hmem)
          have hkinds := kinds_next hnext
          rcases next with _ | (old | call) | ⟨before, old⟩
          · split at hkinds
            case isTrue => exact hkinds.trans hstage
            case isFalse hsome => exact absurd hkinds.symm hsome
          · exact absurd (eq_tools_of_chain hchains hmem) (by decide)
          · rfl
          · exact absurd (eq_tools_of_chain hchains hmem) (by decide)
        obtain ⟨final, hrun⟩ := ih.2 ⟨hchains, htool, hcontinues⟩
        exact ⟨final, by rw [run_cons, hnext, Option.bind_some, hrun]⟩

theorem Stage.kinds_eq_nil : stage.kinds = [] ↔ stage = .nothing := by
  rcases stage with _ | (old | call) | ⟨before, old⟩ <;> simp [kinds]

/-- Chunks with content leave no stage without it. -/
theorem Stage.kinds_run (hrun : stage.run chunks = some final) :
    final = .nothing ↔
      stage = .nothing ∧ chunks.flatMap ChatCompletionsStreamResponse.taken = [] := by
  induction chunks generalizing stage with
  | nil =>
      obtain rfl := Option.some.inj hrun
      exact (and_iff_left rfl).symm
  | cons chunk chunks ih =>
      rw [run_cons, Option.bind_eq_some_iff] at hrun
      obtain ⟨next, hnext, hrun⟩ := hrun
      have hkinds := kinds_next hnext
      rw [ih hrun, ← kinds_eq_nil, hkinds, List.flatMap_cons, List.append_eq_nil_iff,
        ← kinds_eq_nil]
      by_cases htaken : chunk.taken = []
      · rw [if_pos htaken, htaken]
        exact and_congr_right fun _ => (and_iff_right rfl).symm
      · rw [if_neg htaken]
        constructor
        · exact fun h => absurd h.1 htaken
        · exact fun h => absurd h.2.1 htaken

end Order

/-! ## The chunks up to the end -/

section Told

variable {chunk first : ChatCompletionsStreamResponse F} {fragment : ToolCallResponse}
  {fragments : List ToolCallResponse} {rest : List (ChatCompletionsStreamResponse F)}
  {stage final : Stage}

/-- The contents come in an order that the stages allow: the text after what the first chunks
begin with, and tool calls only when the first chunk begins one. -/
structure Orderly (told : List (ChatCompletionsStreamResponse F)) : Prop where
  content : told.flatMap ChatCompletionsStreamResponse.taken ≠ []
  order : (told.flatMap ChatCompletionsStreamResponse.taken).IsChain ContentKind.Goes
  tools : .tools ∈ told.flatMap ChatCompletionsStreamResponse.taken →
    ∀ first ∈ told.head?, first.fragments ≠ []
  calls : Continue (told.flatMap ChatCompletionsStreamResponse.fragments).tail
  alone : ∀ first ∈ told.head?, first.fragments ≠ [] → first.reasoning = "" ∧ first.text = ""

theorem tools_mem_taken : .tools ∈ chunk.taken ↔ chunk.fragments ≠ [] := by
  rcases taken_cases chunk with ⟨hfragments, htaken, -⟩ | ⟨hfragments, -, htaken, -⟩ |
      ⟨hfragments, -, -, htaken, -⟩ | ⟨hfragments, -, -, htaken, -⟩ <;>
    simp [hfragments, htaken]

theorem tools_mem_flatMap_taken {chunks : List (ChatCompletionsStreamResponse F)} :
    .tools ∈ chunks.flatMap ChatCompletionsStreamResponse.taken ↔
      chunks.flatMap ChatCompletionsStreamResponse.fragments ≠ [] := by
  rw [List.mem_flatMap, Ne, List.flatMap_eq_nil_iff, not_forall]
  exact exists_congr fun chunk => by rw [tools_mem_taken, Classical.not_imp]

/-- Without a call in the first chunk there is none. -/
theorem Orderly.fragments_eq_nil (horderly : Orderly (first :: rest))
    (hfragments : first.fragments = []) :
    (first :: rest).flatMap ChatCompletionsStreamResponse.fragments = [] := by
  by_contra hsome
  exact horderly.tools (tools_mem_flatMap_taken.2 hsome) first rfl hfragments

theorem Stage.first_nil (hfragments : first.fragments = []) :
    Stage.first first.delta = Stage.nothing.next first.delta := by
  unfold Stage.first
  rw [show first.delta.fragments = [] from hfragments]

theorem Stage.first_cons (hfragments : first.fragments = fragment :: fragments) :
    Stage.first first.delta =
      if first.reasoning = "" ∧ first.text = "" then
        some (.opening (.tool ⟨fragment.id, fragment.name, fragment.arguments⟩))
      else none := by
  unfold Stage.first
  rw [show first.delta.fragments = fragment :: fragments from hfragments]
  rfl

theorem Stage.runAll_nil (hfragments : first.fragments = []) :
    runAll (first :: rest) = nothing.run (first :: rest) := by
  rw [runAll, first_nil hfragments, run_cons]

/-- Which chunks are read as blocks, when the first one begins one call at most. -/
theorem Stage.runAll_iff (hcontinue : Continue first.fragments.tail) :
    (∃ final, runAll (first :: rest) = some final ∧ final ≠ .nothing) ↔
      Orderly (first :: rest) := by
  cases hfragments : first.fragments with
  | nil =>
      -- Without a call the first chunk is taken as any other.
      rw [runAll_nil hfragments]
      constructor
      · rintro ⟨final, hrun, hfinal⟩
        obtain ⟨hchain, htools, hcalls⟩ := run_iff.1 ⟨final, hrun⟩
        refine ⟨fun hempty => hfinal ((kinds_run hrun).2 ⟨rfl, hempty⟩), hchain, ?_, ?_, ?_⟩
        · intro hmem
          cases htools hmem
        · exact fun fragment hmem => hcalls fragment (List.mem_of_mem_tail hmem)
        · rintro _ ⟨rfl⟩ hsome
          exact absurd hfragments hsome
      · intro horderly
        have hnone := horderly.fragments_eq_nil hfragments
        have hcalls : Continue
            ((first :: rest).flatMap ChatCompletionsStreamResponse.fragments) := by
          rw [hnone]
          exact continue_nil
        have hrun : ∃ final, nothing.run (first :: rest) = some final := run_iff.2
          ⟨horderly.order, fun hmem => absurd hnone (tools_mem_flatMap_taken.1 hmem), hcalls⟩
        obtain ⟨final, hrun⟩ := hrun
        exact ⟨final, hrun, fun hfinal => horderly.content ((kinds_run hrun).1 hfinal).2⟩
  | cons fragment fragments =>
      have hsome : first.fragments ≠ [] := hfragments ▸ List.cons_ne_nil _ _
      have htaken : first.taken = [.tools] := if_pos hsome
      have hcalls : Continue
          ((first :: rest).flatMap ChatCompletionsStreamResponse.fragments).tail ↔
            Continue (rest.flatMap ChatCompletionsStreamResponse.fragments) := by
        rw [hfragments] at hcontinue
        rw [List.flatMap_cons, hfragments, List.cons_append, List.tail_cons, continue_append]
        exact and_iff_right hcontinue
      -- The call of the first chunk is open from the start.
      rw [runAll, first_cons hfragments]
      split
      case isTrue halone =>
        rw [Option.bind_some]
        constructor
        · rintro ⟨final, hrun, -⟩
          obtain ⟨hchain, -, hrest⟩ := run_iff.1 ⟨final, hrun⟩
          refine ⟨?_, ?_, ?_, hcalls.2 hrest, ?_⟩
          · rw [List.flatMap_cons, htaken]
            exact List.cons_ne_nil _ _
          · rw [List.flatMap_cons, htaken]
            exact hchain
          · rintro - _ ⟨rfl⟩
            exact hsome
          · rintro _ ⟨rfl⟩ -
            exact halone
        · intro horderly
          have horder := horderly.order
          rw [List.flatMap_cons, htaken] at horder
          have hrun : ∃ final, (Stage.opening (.tool
              ⟨fragment.id, fragment.name, fragment.arguments⟩)).run rest = some final :=
            run_iff.2 ⟨horder, fun _ => rfl, hcalls.1 horderly.calls⟩
          obtain ⟨final, hrun⟩ := hrun
          exact ⟨final, hrun, fun hfinal => nomatch ((kinds_run hrun).1 hfinal).1⟩
      case isFalse halone =>
        refine iff_of_false ?_ fun horderly => halone (horderly.alone first rfl hsome)
        rintro ⟨final, hrun, -⟩
        cases hrun

/-- The calls of the blocks: the one that the first chunk begins. -/
def keptCalls : List (ChatCompletionsStreamResponse F) → List ToolCall
  | [] => []
  | first :: rest =>
      match first.fragments with
      | [] => []
      | fragment :: _ =>
          [⟨fragment.id, fragment.name, fragment.arguments ++
            argumentsOf (rest.flatMap ChatCompletionsStreamResponse.fragments)⟩]

/-- What the blocks hold of the chunks. -/
structure Stage.Holds (final : Stage) (told : List (ChatCompletionsStreamResponse F)) : Prop where
  text : textOf final.blocks = concat (told.map ChatCompletionsStreamResponse.takenText)
  thinking : thinkingOf final.blocks =
    concat (told.map ChatCompletionsStreamResponse.takenReasoning)
  calls : callsOf final.blocks = keptCalls told

theorem Stage.holds_runAll (hrun : runAll (first :: rest) = some final) :
    final.Holds (first :: rest) := by
  cases hfragments : first.fragments with
  | nil =>
      rw [runAll_nil hfragments] at hrun
      obtain ⟨htakes, -⟩ := takes_run hrun
      refine ⟨htakes.text.trans String.empty_append, htakes.thinking.trans String.empty_append,
        htakes.calls.trans ?_⟩
      rw [keptCalls, hfragments]
      rfl
  | cons fragment fragments =>
      rw [runAll, first_cons hfragments] at hrun
      split at hrun
      case isTrue halone =>
        obtain ⟨htakes, -⟩ := takes_run hrun
        have htext : first.takenText = "" :=
          if_neg fun h => List.cons_ne_nil _ _ (hfragments.symm.trans h.1)
        have hreasoning : first.takenReasoning = "" :=
          if_neg fun h => List.cons_ne_nil _ _ (hfragments.symm.trans h)
        refine ⟨?_, ?_, htakes.calls.trans ?_⟩
        · rw [htakes.text, List.map_cons, concat_cons, htext]
          rfl
        · rw [htakes.thinking, List.map_cons, concat_cons, hreasoning]
          rfl
        · rw [keptCalls, hfragments]
          rfl
      case isFalse => cases hrun

end Told

end NewApi.Model
