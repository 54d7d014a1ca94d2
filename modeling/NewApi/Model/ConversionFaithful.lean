import NewApi.Model.ClaudeBlocks
import NewApi.Model.ConversionPanics

/-!
# When the conversion keeps the conversation

A conversation of texts, tool calls and results is kept if the roles are those that Claude knows,
every tool call and every text stands in what is built, and each result behind its call.  The
joining of neighbours loses the tool calls of all but the last of a run, and quotes at its ends.
-/

namespace NewApi.Model.ChatToClaude

open NewApi.Lib NewApi.Lib.Strings

section

variable {N F : Type}

/-! ## The conversation and what is read of the request -/

/-- The contents are texts, the arguments of the tool calls are objects, and a tool answers a call
of an assistant before it. -/
structure TextConversation (json : ArgumentsDecoder N F) (messages : List (Dto.Message F)) : Prop where
  roles : ∀ message ∈ messages,
    message.role ∈ ["system", "developer", "user", "assistant", "tool", ""]
  texts : ∀ message ∈ messages, IsText message.content
  arguments : ∀ message ∈ messages, ∀ call ∈ message.parseToolCalls,
    ∃ keys value, json.tree call.function.arguments = some (.obj keys value)
  results : ∀ before message rest, messages = before ++ message :: rest → message.role = "tool" →
    ∃ caller ∈ before, caller.role = "assistant" ∧
      ∃ call ∈ caller.parseToolCalls, call.id = message.toolCallId

/-- A call as the client has sent it: its id, its name and the value of its arguments. -/
def sentCall (json : ArgumentsDecoder N F) (call : Dto.ToolCallRequest F) :
    String × String × Option (JsonTree N) :=
  (call.id, call.function.name, json.tree call.function.arguments)

/-- A call as Claude gets it. -/
def toldCall (json : ArgumentsDecoder N F) :
    ClaudeBlock F → Option (String × String × Option (JsonTree N))
  | .toolUse id name input => some (id, name, some (input.map json.print))
  | _ => none

/-- The call that a result belongs to. -/
def toldResult : ClaudeBlock F → Option String
  | .toolResult toolUseId _ => some toolUseId
  | _ => none

/-- The texts of a block. -/
def blockTexts : ClaudeBlock F → List String
  | .text t => [t]
  | .toolResult _ content => contentTexts content
  | _ => []

/-- The texts of a run: those of neighbours are joined by one space. -/
def runTexts : List (Dto.Message F) → List String
  | [message] => contentTexts message.content
  | run => [join ' ' (run.map Dto.Message.stringContent)]

/-- The run of a system message. -/
def isSystem (run : List (Dto.Message F)) : Bool :=
  run.all fun message => message.role = "system"

/-- The request keeps the conversation. -/
structure Preserves (json : ArgumentsDecoder N F) (messages : List (Dto.Message F))
    (claudeRequest : ClaudeRequest F) : Prop where
  roles : ∀ message ∈ claudeRequest.messages, message.role = "user" ∨ message.role = "assistant"
  first : ∀ message ∈ claudeRequest.messages.head?, message.role = "user"
  calls : (claudeBlocks claudeRequest.messages).filterMap (toldCall json) =
    (messages.flatMap Dto.Message.parseToolCalls).map (sentCall json)
  results : (claudeBlocks claudeRequest.messages).filterMap toldResult =
    (messages.filter fun message => message.role = "tool").map Dto.Message.toolCallId
  behind : ∀ before toolUseId content rest,
    claudeBlocks claudeRequest.messages = before ++ .toolResult toolUseId content :: rest →
      ∃ name input, .toolUse toolUseId name input ∈ before
  system : (claudeRequest.system.getD []).flatMap blockTexts =
    ((runs messages).filter isSystem).flatMap runTexts
  texts : (claudeBlocks claudeRequest.messages).flatMap blockTexts =
    opening messages ++ ((runs messages).filter fun run => !isSystem run).flatMap runTexts

/-- The numbers of some arguments are read back as they were printed. -/
def ArgumentsDecoder.Keeps (json : ArgumentsDecoder N F) (arguments : String) : Prop :=
  ∀ t, json.tree arguments = some t →
    t.AllNum fun n => json.finite (json.parse n) = true ∧ json.print (json.parse n) = n

/-- The joined text of a run is not trimmed. -/
def KeepsQuotes : List (Dto.Message F) → Prop
  | [] => True
  | first :: rest => rest = [] ∨ first.stringContent.toList.head? ≠ some '"' ∧
      ∀ message ∈ rest, message.stringContent.toList.getLast? ≠ some '"'

/-- What the conversion relies on. -/
structure Convertible (json : ArgumentsDecoder N F) (messages : List (Dto.Message F)) : Prop where
  roles : ∀ message ∈ messages, message.role ≠ "developer" ∧ message.role ≠ ""
  callers : ∀ message ∈ messages, message.role ≠ "assistant" → message.parseToolCalls = []
  joined : ∀ run ∈ runs messages, ∀ message ∈ run.dropLast, message.parseToolCalls = []
  numbers : ∀ message ∈ messages, ∀ call ∈ message.parseToolCalls,
    json.Keeps call.function.arguments
  quotes : ∀ run ∈ runs messages, KeepsQuotes run

/-! ## The text of a run -/

variable {json : ArgumentsDecoder N F} {messages run : List (Dto.Message F)} {message : Dto.Message F}

theorem fmtMessage_content (htext : IsText message.content) :
    (fmtMessage message).content = message.content := by
  unfold fmtMessage
  cases hcontent : message.content with
  | null =>
      rw [hcontent] at htext
      cases htext
  | _ => rfl

theorem isStringContent_of_fmtMessage (htext : IsText message.content)
    (hstring : (fmtMessage message).isStringContent = true) : message.isStringContent = true := by
  rw [isStringContent_iff, fmtMessage_content htext] at hstring
  exact isStringContent_iff.2 hstring

/-- The text of a run of strings. -/
theorem joinRun_content (hne : run ≠ [])
    (hstrings : ∀ message ∈ run, message.isStringContent = true) :
    (joinRun run).content = .str (trimJoin ' ' '"' (run.map Dto.Message.stringContent)) := by
  induction run using List.reverseRecOn with
  | nil => exact absurd rfl hne
  | append_singleton run x ih =>
      by_cases hrun : run = []
      · subst hrun
        obtain ⟨t, ht⟩ := isStringContent_iff.1 (hstrings x (List.mem_singleton_self x))
        show (fmtMessage x).content = .str x.stringContent
        rw [fmtMessage, Dto.Message.stringContent, ht]
      · have hbefore := ih hrun fun message hmem =>
          hstrings message (List.mem_append_left _ hmem)
        have hmap : run.map Dto.Message.stringContent ≠ [] := fun hnil =>
          hrun (List.map_eq_nil_iff.1 hnil)
        rw [joinRun_concat run hrun, List.map_append, List.map_singleton, trimJoin_concat _ _ hmap]
        show JsonTree.str (trim ((joinRun run).stringContent ++ " " ++ x.stringContent) _) = _
        rw [Dto.Message.stringContent, hbefore]
        rfl

/-- Either the run is one message, or all of it are strings. -/
theorem run_cases (hne : run ≠ [])
    (hchain : run.IsChain fun message next => neighbours message next = true)
    (htexts : ∀ message ∈ run, IsText message.content) :
    (∃ message, run = [message]) ∨ (∃ first next rest, run = first :: next :: rest) ∧
      ∀ message ∈ run, message.isStringContent = true ∧ message.role ≠ "tool" := by
  match run, hne with
  | [message], _ => exact .inl ⟨message, rfl⟩
  | first :: next :: rest, _ =>
      refine .inr ⟨⟨first, next, rest, rfl⟩, fun message hmem => ?_⟩
      obtain ⟨hstring, htool⟩ := string_of_mem_run hchain hmem
      exact ⟨isStringContent_of_fmtMessage (htexts message hmem) hstring, htool⟩

theorem joinRun_isText (hne : run ≠ [])
    (hchain : run.IsChain fun message next => neighbours message next = true)
    (htexts : ∀ message ∈ run, IsText message.content) : IsText (joinRun run).content := by
  rcases run_cases hne hchain htexts with ⟨message, rfl⟩ | ⟨-, hstrings⟩
  · show IsText (fmtMessage message).content
    rw [fmtMessage_content (htexts message (List.mem_singleton_self _))]
    exact htexts message (List.mem_singleton_self _)
  · rw [joinRun_content hne fun message hmem => (hstrings message hmem).1]
    trivial

/-- The text of a run is the joined one exactly if its quotes are kept. -/
theorem contentTexts_joinRun (hne : run ≠ [])
    (hchain : run.IsChain fun message next => neighbours message next = true)
    (htexts : ∀ message ∈ run, IsText message.content) :
    (contentTexts (joinRun run).content).length = (runTexts run).length ∧
      (contentTexts (joinRun run).content = runTexts run ↔ KeepsQuotes run) := by
  rcases run_cases hne hchain htexts with ⟨message, rfl⟩ | ⟨⟨first, next, rest, rfl⟩, hstrings⟩
  · have hsame : contentTexts (joinRun [message]).content = runTexts [message] := by
      show contentTexts (fmtMessage message).content = _
      rw [fmtMessage_content (htexts message (List.mem_singleton_self _))]
      rfl
    exact ⟨congrArg List.length hsame, iff_of_true hsame (.inl rfl)⟩
  · rw [joinRun_content hne fun message hmem => (hstrings message hmem).1]
    refine ⟨rfl, ?_⟩
    show [trimJoin ' ' '"' _] = [join ' ' _] ↔ _
    rw [List.singleton_inj, List.map_cons, trimJoin_eq_join_iff (by decide), KeepsQuotes,
      List.map_eq_nil_iff, List.forall_mem_map]

/-! ## The calls of a run -/

/-- The call that is told of a call that was sent. -/
theorem toldCall_convertToolCall (call : Dto.ToolCallRequest F) :
    (convertToolCall json call).bind (toldCall json) =
      (json.unmarshal call.function.arguments).map fun input =>
        (call.id, call.function.name, some (input.map json.print)) := by
  unfold convertToolCall
  cases json.unmarshal call.function.arguments <;> rfl

/-- A call is told as it was sent exactly if the numbers of its arguments are kept. -/
theorem toldCall_eq_iff {call : Dto.ToolCallRequest F}
    (harguments : ∃ keys value, json.tree call.function.arguments = some (.obj keys value)) :
    (convertToolCall json call).bind (toldCall json) = some (sentCall json call) ↔
      json.Keeps call.function.arguments := by
  obtain ⟨keys, value, htree⟩ := harguments
  have hkeeps : json.Keeps call.function.arguments ↔
      (JsonTree.obj keys value).AllNum fun n =>
        json.finite (json.parse n) = true ∧ json.print (json.parse n) = n := by
    constructor
    · intro hall
      exact hall _ htree
    · intro hall t ht
      cases htree.symm.trans ht
      exact hall
  rw [toldCall_convertToolCall, ArgumentsDecoder.unmarshal, htree, hkeeps, sentCall, htree,
    JsonTree.allNum_and]
  dsimp only
  by_cases hfinite : (JsonTree.obj keys value).AllNum fun n => json.finite (json.parse n) = true
  · rw [if_pos hfinite, Option.map_some, JsonTree.map_map, and_iff_right hfinite,
      ← JsonTree.map_eq_self]
    simp only [Option.some.injEq, Prod.mk.injEq, true_and]
    rfl
  · rw [if_neg hfinite]
    exact iff_of_false (fun h => nomatch h) fun h => hfinite h.1

/-- The calls of a message as Claude gets them. -/
def toldCalls (json : ArgumentsDecoder N F) (message : Dto.Message F) :
    List (String × String × Option (JsonTree N)) :=
  message.parseToolCalls.filterMap fun call => (convertToolCall json call).bind (toldCall json)

/-- The calls of the messages as they were sent. -/
def sentCalls (json : ArgumentsDecoder N F) (messages : List (Dto.Message F)) :
    List (String × String × Option (JsonTree N)) :=
  messages.flatMap fun message => message.parseToolCalls.map (sentCall json)

theorem length_toldCalls_le (json : ArgumentsDecoder N F) (message : Dto.Message F) :
    (toldCalls json message).length ≤ message.parseToolCalls.length :=
  List.length_filterMap_le _ _

/-- A message tells all its calls exactly if their numbers are kept. -/
theorem toldCalls_eq_iff (harguments : ∀ call ∈ message.parseToolCalls,
    ∃ keys value, json.tree call.function.arguments = some (.obj keys value)) :
    toldCalls json message = message.parseToolCalls.map (sentCall json) ↔
      ∀ call ∈ message.parseToolCalls, json.Keeps call.function.arguments := by
  rw [toldCalls, List.filterMap_eq_flatMap_toList, List.map_eq_flatMap,
    Runs.flatMap_eq_flatMap_iff]
  · refine forall₂_congr fun call hcall => ?_
    rw [← toldCall_eq_iff (harguments call hcall)]
    cases (convertToolCall json call).bind (toldCall json) <;> simp
  · intro call _
    cases (convertToolCall json call).bind (toldCall json) <;> simp

/-- The calls of a run that are told are those of its last message, if that is the assistant's. -/
theorem parseToolCalls_joinRun (run : List (Dto.Message F)) (x : Dto.Message F)
    (hchain : (run ++ [x]).IsChain fun message next => neighbours message next = true) :
    (joinRun (run ++ [x])).parseToolCalls =
      if x.role = "assistant" then x.parseToolCalls else [] := by
  rw [Dto.Message.parseToolCalls, (joinRun_last run x hchain).2.1, fmtMessage]
  dsimp only
  split <;> rfl

/-- A run keeps its calls. -/
structure KeepsCalls (json : ArgumentsDecoder N F) (run : List (Dto.Message F)) : Prop where
  joined : ∀ message ∈ run.dropLast, message.parseToolCalls = []
  callers : ∀ message ∈ run, message.role ≠ "assistant" → message.parseToolCalls = []
  numbers : ∀ message ∈ run, ∀ call ∈ message.parseToolCalls, json.Keeps call.function.arguments

/-- Only the last message of a run that keeps its calls has any. -/
theorem keepsCalls_concat {x : Dto.Message F} : KeepsCalls json (run ++ [x]) ↔
    (∀ message ∈ run, message.parseToolCalls = []) ∧
      (x.role ≠ "assistant" → x.parseToolCalls = []) ∧
      ∀ call ∈ x.parseToolCalls, json.Keeps call.function.arguments := by
  have hlast : x ∈ run ++ [x] := List.mem_append_right _ (List.mem_singleton_self x)
  constructor
  · intro hkeeps
    have hjoined := hkeeps.joined
    rw [List.dropLast_concat] at hjoined
    exact ⟨hjoined, hkeeps.callers x hlast, hkeeps.numbers x hlast⟩
  · intro hkeeps
    obtain ⟨hjoined, hcaller, hnumbers⟩ := hkeeps
    constructor
    · rw [List.dropLast_concat]
      exact hjoined
    · intro message hmem hrole
      rcases List.mem_append.1 hmem with hbefore | hnew
      · exact hjoined message hbefore
      · obtain rfl := List.mem_singleton.1 hnew
        exact hcaller hrole
    · intro message hmem call hcall
      rcases List.mem_append.1 hmem with hbefore | hnew
      · rw [hjoined message hbefore] at hcall
        cases hcall
      · obtain rfl := List.mem_singleton.1 hnew
        exact hnumbers call hcall

/-- What is told of the last message of a run. -/
theorem toldCalls_last_iff (harguments : ∀ call ∈ message.parseToolCalls,
    ∃ keys value, json.tree call.function.arguments = some (.obj keys value)) :
    (if message.role = "assistant" then toldCalls json message else []) =
        message.parseToolCalls.map (sentCall json) ↔
      (message.role ≠ "assistant" → message.parseToolCalls = []) ∧
        ∀ call ∈ message.parseToolCalls, json.Keeps call.function.arguments := by
  by_cases hrole : message.role = "assistant"
  · rw [if_pos hrole, toldCalls_eq_iff harguments]
    exact (and_iff_right fun hnot => absurd hrole hnot).symm
  · rw [if_neg hrole, eq_comm, List.map_eq_nil_iff]
    constructor
    · intro hnone
      refine ⟨fun _ => hnone, fun call hcall => ?_⟩
      rw [hnone] at hcall
      cases hcall
    · intro hkeeps
      exact hkeeps.1 hrole

/-- The calls of a run. -/
theorem toldCalls_joinRun (hne : run ≠ [])
    (hchain : run.IsChain fun message next => neighbours message next = true)
    (harguments : ∀ message ∈ run, ∀ call ∈ message.parseToolCalls,
      ∃ keys value, json.tree call.function.arguments = some (.obj keys value)) :
    (toldCalls json (joinRun run)).length ≤ (sentCalls json run).length ∧
      (toldCalls json (joinRun run) = sentCalls json run ↔ KeepsCalls json run) := by
  rcases List.eq_nil_or_concat run with hnil | ⟨before, x, hrun⟩
  · exact absurd hnil hne
  rw [List.concat_eq_append] at hrun
  subst hrun
  have htold : toldCalls json (joinRun (before ++ [x])) =
      if x.role = "assistant" then toldCalls json x else [] := by
    rw [toldCalls, parseToolCalls_joinRun before x hchain]
    split <;> rfl
  have hsent : sentCalls json (before ++ [x]) =
      sentCalls json before ++ x.parseToolCalls.map (sentCall json) := by
    rw [sentCalls, List.flatMap_append, List.flatMap_singleton]
    rfl
  have hle : (if x.role = "assistant" then toldCalls json x else []).length ≤
      (x.parseToolCalls.map (sentCall json)).length := by
    rw [List.length_map]
    split
    · exact length_toldCalls_le json x
    · exact Nat.zero_le _
  have hnone : sentCalls json before = [] ↔ ∀ message ∈ before, message.parseToolCalls = [] := by
    rw [sentCalls, List.flatMap_eq_nil_iff]
    exact forall₂_congr fun message _ => List.map_eq_nil_iff
  rw [htold, hsent, Runs.eq_append_iff_of_length_le hle, keepsCalls_concat, hnone,
    toldCalls_last_iff (harguments x (List.mem_append_right _ (List.mem_singleton_self x)))]
  refine ⟨?_, Iff.rfl⟩
  rw [List.length_append]
  omega

/-! ## What is built of the runs -/

variable {s : ConvertState F}

theorem mem_runs : message ∈ messages ↔ ∃ run ∈ runs messages, message ∈ run := by
  rw [← List.mem_flatten, runs, List.flatten_splitBy]

/-- What is known of a run of a conversation. -/
theorem run_of_mem (hrun : run ∈ runs messages) : run ≠ [] ∧
    (run.IsChain fun message next => neighbours message next = true) ∧
    ∀ message ∈ run, message ∈ messages :=
  ⟨List.ne_nil_of_mem_splitBy hrun, List.isChain_of_mem_splitBy hrun,
    fun _ hmem => mem_runs.2 ⟨run, hrun, hmem⟩⟩

theorem TextConversation.texts_run (hconversation : TextConversation json messages)
    (hrun : run ∈ runs messages) : ∀ message ∈ run, IsText message.content :=
  fun message hmem => hconversation.texts message ((run_of_mem hrun).2.2 message hmem)

theorem TextConversation.arguments_run (hconversation : TextConversation json messages)
    (hrun : run ∈ runs messages) : ∀ message ∈ run, ∀ call ∈ message.parseToolCalls,
      ∃ keys value, json.tree call.function.arguments = some (.obj keys value) :=
  fun message hmem => hconversation.arguments message ((run_of_mem hrun).2.2 message hmem)

theorem isSystem_iff (hrun : run ∈ runs messages) :
    isSystem run = true ↔ (joinRun run).role = "system" := by
  obtain ⟨hne, hchain, -⟩ := run_of_mem hrun
  rw [isSystem, List.all_eq_true]
  constructor
  · intro hall
    have hhead := List.head_mem hne
    rw [← role_of_mem_run hchain hhead]
    exact of_decide_eq_true (hall _ hhead)
  · intro hsystem message hmem
    exact decide_eq_true ((role_of_mem_run hchain hmem).trans hsystem)

/-- What is read of other blocks is not read of texts. -/
theorem filterMap_map_text {α : Type} {read : ClaudeBlock F → Option α}
    (hnone : ∀ t, read (.text t) = none) (texts : List String) :
    (texts.map ClaudeBlock.text).filterMap read = [] := by
  rw [List.filterMap_map]
  exact List.filterMap_eq_nil_iff.2 fun t _ => hnone t

/-- The blocks of a message that are read as calls, results and texts. -/
theorem filterMap_toldCall_blocksOf (hcallers : message.role ≠ "assistant" →
    message.parseToolCalls = []) :
    (blocksOf json message).filterMap (toldCall json) = toldCalls json message := by
  unfold blocksOf
  split
  case isTrue hsystem =>
    rw [toldCalls, hcallers (by rw [hsystem]; decide)]
    rfl
  case isFalse =>
    split
    case isTrue htool =>
      rw [toldCalls, hcallers (by rw [htool]; decide)]
      rfl
    case isFalse =>
      rw [List.filterMap_append, filterMap_map_text fun _ => rfl, List.nil_append,
        List.filterMap_filterMap]
      rfl

theorem filterMap_toldResult_blocksOf (message : Dto.Message F) :
    (blocksOf json message).filterMap toldResult =
      if message.role = "tool" then [message.toolCallId] else [] := by
  have hcalls : (message.parseToolCalls.filterMap (convertToolCall json)).filterMap toldResult =
      [] := by
    rw [List.filterMap_filterMap]
    refine List.filterMap_eq_nil_iff.2 fun call _ => ?_
    unfold convertToolCall
    cases json.unmarshal call.function.arguments <;> rfl
  unfold blocksOf
  by_cases hsystem : message.role = "system"
  · have hnot : message.role ≠ "tool" := by
      rw [hsystem]
      decide
    rw [if_pos hsystem, if_neg hnot]
    rfl
  · rw [if_neg hsystem]
    split
    · rfl
    · rw [List.filterMap_append, filterMap_map_text fun _ => rfl, hcalls]
      rfl

theorem flatMap_blockTexts_map_text (texts : List String) :
    (texts.map (ClaudeBlock.text (F := F))).flatMap blockTexts = texts := by
  rw [List.flatMap_map]
  exact List.flatMap_singleton' texts

theorem flatMap_blockTexts_blocksOf (message : Dto.Message F) :
    (blocksOf json message).flatMap blockTexts =
      if message.role = "system" then [] else contentTexts message.content := by
  have hcalls : (message.parseToolCalls.filterMap (convertToolCall json)).flatMap blockTexts =
      [] := by
    rw [List.flatMap_eq_nil_iff]
    intro block hblock
    obtain ⟨call, -, hcall⟩ := List.mem_filterMap.1 hblock
    obtain ⟨input, -, rfl⟩ := Option.map_eq_some_iff.1 hcall
    rfl
  unfold blocksOf
  split
  · rfl
  · split
    · exact List.flatMap_singleton _ _
    · rw [List.flatMap_append, flatMap_blockTexts_map_text, hcalls, List.append_nil]

/-- Only an assistant's message goes on with calls. -/
theorem callers_joinRun (hrun : run ∈ runs messages) (hrole : (joinRun run).role ≠ "assistant") :
    (joinRun run).parseToolCalls = [] := by
  obtain ⟨hne, hchain, -⟩ := run_of_mem hrun
  rcases List.eq_nil_or_concat run with hnil | ⟨before, x, rfl⟩
  · exact absurd hnil hne
  · rw [List.concat_eq_append] at hchain hrole ⊢
    rw [(joinRun_last before x hchain).1] at hrole
    rw [parseToolCalls_joinRun before x hchain, if_neg hrole]

/-- The user begins the runs as it begins the messages. -/
theorem opening_runs (messages : List (Dto.Message F)) :
    opening ((runs messages).map joinRun) = opening messages := by
  have hrole : ∀ rs : List (List (Dto.Message F)), (∀ run ∈ rs, run ≠ [] ∧
      ∀ message ∈ run, message.role = (joinRun run).role) →
      ((rs.map joinRun).find? fun message => message.role ≠ "system").map Dto.Message.role =
        (rs.flatten.find? fun message => message.role ≠ "system").map Dto.Message.role := by
    intro rs
    induction rs with
    | nil => exact fun _ => rfl
    | cons run rs ih =>
        intro hall
        obtain ⟨⟨hne, hrun⟩, hrest⟩ := List.forall_mem_cons.1 hall
        rw [List.map_cons, List.flatten_cons, List.find?_append]
        by_cases hsystem : (joinRun run).role = "system"
        · have hnone : run.find? (fun message => message.role ≠ "system") = none := by
            rw [List.find?_eq_none]
            intro message hmem
            simp [hrun message hmem, hsystem]
          rw [List.find?_cons_of_neg (by simpa using hsystem), hnone, Option.none_or]
          exact ih hrest
        · obtain ⟨first, rest, rfl⟩ := List.exists_cons_of_ne_nil hne
          have hfirst := hrun first List.mem_cons_self
          rw [List.find?_cons_of_pos (by simpa using hsystem),
            List.find?_cons_of_pos (by simpa [hfirst] using hsystem), Option.some_or,
            Option.map_some, Option.map_some, hfirst]
  have hsame := hrole (runs messages) fun run hrun =>
    ⟨(run_of_mem hrun).1, fun message hmem => role_of_mem_run (run_of_mem hrun).2.1 hmem⟩
  have hflatten : (runs messages).flatten = messages := List.flatten_splitBy _ _
  rw [hflatten] at hsame
  unfold opening
  cases hfirst : ((runs messages).map joinRun).find? fun message => message.role ≠ "system" with
  | none =>
      rw [hfirst, Option.map_none, eq_comm, Option.map_eq_none_iff] at hsame
      rw [hsame]
  | some first =>
      rw [hfirst, Option.map_some, eq_comm, Option.map_eq_some_iff] at hsame
      obtain ⟨first', hfirst', hrole'⟩ := hsame
      rw [hfirst']
      dsimp only
      rw [hrole']

/-- The calls that are told are all that were sent exactly if every run keeps its calls. -/
theorem calls_iff (hconversation : TextConversation json messages)
    (hconverted : Converted json ((runs messages).map joinRun) s) :
    (claudeBlocks s.claudeMessages).filterMap (toldCall json) =
        (messages.flatMap Dto.Message.parseToolCalls).map (sentCall json) ↔
      ∀ run ∈ runs messages, KeepsCalls json run := by
  have htold : (claudeBlocks s.claudeMessages).filterMap (toldCall json) =
      (runs messages).flatMap fun run => toldCalls json (joinRun run) := by
    rw [hconverted.blocks, List.filterMap_append, filterMap_map_text fun _ => rfl,
      List.nil_append, List.filterMap_flatMap, List.flatMap_map]
    exact List.flatMap_congr fun run hrun => filterMap_toldCall_blocksOf (callers_joinRun hrun)
  have hsent : (messages.flatMap Dto.Message.parseToolCalls).map (sentCall json) =
      (runs messages).flatMap fun run => sentCalls json run := by
    rw [List.map_flatMap]
    exact (Runs.flatMap_splitBy neighbours messages _).symm
  have hrun : ∀ run ∈ runs messages,
      (toldCalls json (joinRun run)).length ≤ (sentCalls json run).length ∧
        (toldCalls json (joinRun run) = sentCalls json run ↔ KeepsCalls json run) := by
    intro run hrun
    obtain ⟨hne, hchain, -⟩ := run_of_mem hrun
    exact toldCalls_joinRun hne hchain (hconversation.arguments_run hrun)
  rw [htold, hsent, Runs.flatMap_eq_flatMap_iff fun run hmem => (hrun run hmem).1]
  exact forall₂_congr fun run hmem => (hrun run hmem).2

/-- Every result of a tool is told. -/
theorem results_eq (hconversation : TextConversation json messages)
    (hconverted : Converted json ((runs messages).map joinRun) s) :
    (claudeBlocks s.claudeMessages).filterMap toldResult =
      (messages.filter fun message => message.role = "tool").map Dto.Message.toolCallId := by
  have hresults : (messages.filter fun message => message.role = "tool").map Dto.Message.toolCallId =
      (runs messages).flatMap fun run => run.flatMap fun message =>
        if message.role = "tool" then [message.toolCallId] else [] := by
    rw [runs, Runs.flatMap_splitBy, List.map_eq_flatMap, Runs.flatMap_filter]
    refine List.flatMap_congr fun message _ => ?_
    by_cases htool : message.role = "tool" <;> simp [htool]
  rw [hconverted.blocks, List.filterMap_append, filterMap_map_text fun _ => rfl, List.nil_append,
    List.filterMap_flatMap, List.flatMap_map, hresults]
  refine List.flatMap_congr fun run hrun => ?_
  obtain ⟨hne, hchain, -⟩ := run_of_mem hrun
  rw [filterMap_toldResult_blocksOf]
  rcases run_cases hne hchain (hconversation.texts_run hrun) with ⟨message, rfl⟩ | ⟨-, hstrings⟩
  · rw [List.flatMap_singleton]
    show (if message.role = "tool" then
      [if message.role = "tool" then message.toolCallId else ""] else []) = _
    split <;> rfl
  · have hnone : run.flatMap (fun message =>
        if message.role = "tool" then [message.toolCallId] else []) = [] :=
      List.flatMap_eq_nil_iff.2 fun message hmessage => if_neg (hstrings message hmessage).2
    have hhead := List.head_mem hne
    rw [hnone, if_neg]
    rw [← role_of_mem_run hchain hhead]
    exact (hstrings _ hhead).2

/-- All texts are told as they were sent exactly if every run keeps its quotes. -/
theorem texts_iff (hconversation : TextConversation json messages)
    (hconverted : Converted json ((runs messages).map joinRun) s) :
    s.systemMessages.flatMap blockTexts = ((runs messages).filter isSystem).flatMap runTexts ∧
        (claudeBlocks s.claudeMessages).flatMap blockTexts =
          opening messages ++ ((runs messages).filter fun run => !isSystem run).flatMap runTexts ↔
      ∀ run ∈ runs messages, KeepsQuotes run := by
  have hrun : ∀ run ∈ runs messages,
      (contentTexts (joinRun run).content).length = (runTexts run).length ∧
        (contentTexts (joinRun run).content = runTexts run ↔ KeepsQuotes run) := by
    intro run hrun
    obtain ⟨hne, hchain, -⟩ := run_of_mem hrun
    exact contentTexts_joinRun hne hchain (hconversation.texts_run hrun)
  have hsystem : s.systemMessages.flatMap blockTexts =
      ((runs messages).filter isSystem).flatMap fun run => contentTexts (joinRun run).content := by
    have hfilter : ((runs messages).map joinRun).filter (fun message => message.role = "system") =
        ((runs messages).filter isSystem).map joinRun := by
      rw [List.filter_map]
      refine congrArg _ (List.filter_congr fun run hmem => ?_)
      exact Bool.eq_iff_iff.2 (decide_eq_true_iff.trans (isSystem_iff hmem).symm)
    rw [hconverted.system, hfilter, List.flatMap_map, List.flatMap_assoc]
    exact List.flatMap_congr fun run _ => flatMap_blockTexts_map_text _
  have htexts : (claudeBlocks s.claudeMessages).flatMap blockTexts = opening messages ++
      ((runs messages).filter fun run => !isSystem run).flatMap fun run =>
        contentTexts (joinRun run).content := by
    rw [hconverted.blocks, List.flatMap_append, flatMap_blockTexts_map_text, opening_runs,
      List.flatMap_assoc, List.flatMap_map, Runs.flatMap_filter]
    refine congrArg _ (List.flatMap_congr fun run hmem => ?_)
    rw [flatMap_blockTexts_blocksOf]
    cases hkind : isSystem run with
    | true => exact if_pos ((isSystem_iff hmem).1 hkind)
    | false =>
        refine if_neg fun hrole => ?_
        rw [(isSystem_iff hmem).2 hrole] at hkind
        cases hkind
  rw [hsystem, htexts, List.append_cancel_left_eq,
    Runs.flatMap_eq_flatMap_iff fun run hmem => (hrun run (List.mem_filter.1 hmem).1).1.le,
    Runs.flatMap_eq_flatMap_iff fun run hmem => (hrun run (List.mem_filter.1 hmem).1).1.le]
  constructor
  · intro hsame run hmem
    rw [← (hrun run hmem).2]
    cases hkind : isSystem run with
    | true => exact hsame.1 run (List.mem_filter.2 ⟨hmem, hkind⟩)
    | false => exact hsame.2 run (List.mem_filter.2 ⟨hmem, by rw [hkind]; rfl⟩)
  · intro hkeeps
    exact ⟨fun run hmem => (hrun run (List.mem_filter.1 hmem).1).2.2
        (hkeeps run (List.mem_filter.1 hmem).1),
      fun run hmem => (hrun run (List.mem_filter.1 hmem).1).2.2
        (hkeeps run (List.mem_filter.1 hmem).1)⟩

/-- The roles are Claude's exactly if none is the developer's or missing. -/
theorem roles_iff (hconversation : TextConversation json messages)
    (hconverted : Converted json ((runs messages).map joinRun) s) :
    (∀ message ∈ s.claudeMessages, message.role = "user" ∨ message.role = "assistant") ↔
      ∀ message ∈ messages, message.role ≠ "developer" ∧ message.role ≠ "" := by
  constructor
  · intro hroles message hmem
    obtain ⟨run, hrun, hmessage⟩ := mem_runs.1 hmem
    have hrole := role_of_mem_run (run_of_mem hrun).2.1 hmessage
    -- a role that is neither the system's nor a tool's is passed through
    have htold : message.role ≠ "system" → message.role ≠ "tool" →
        message.role = "user" ∨ message.role = "assistant" := by
      intro hsystem htool
      rw [hrole] at hsystem htool ⊢
      obtain ⟨built, hbuilt, hsame⟩ := List.mem_map.1 (hconverted.told (joinRun run)
        (List.mem_map_of_mem hrun) hsystem htool)
      rw [← hsame]
      exact hroles built hbuilt
    constructor
    · intro hdeveloper
      rw [hdeveloper] at htold
      simp at htold
    · intro hempty
      rw [hempty] at htold
      simp at htold
  · intro hroles built hbuilt
    rcases hconverted.roles built.role (List.mem_map_of_mem hbuilt) with
      huser | ⟨joined, hjoined, hsame, hsystem, htool⟩
    · exact .inl huser
    · obtain ⟨run, hrun, rfl⟩ := List.mem_map.1 hjoined
      obtain ⟨hne, hchain, hmem⟩ := run_of_mem hrun
      have hhead := List.head_mem hne
      have hrole := (role_of_mem_run hchain hhead).trans hsame
      have hknown := hconversation.roles _ (hmem _ hhead)
      have hnot := hroles _ (hmem _ hhead)
      rw [hrole] at hknown hnot
      simp only [List.mem_cons, List.not_mem_nil, or_false] at hknown
      rcases hknown with h | h | h | h | h | h
      · exact absurd h hsystem
      · exact absurd h hnot.1
      · exact .inl h
      · exact .inr h
      · exact absurd h htool
      · exact absurd h hnot.2

/-- A result of a tool stands for a run of one message. -/
theorem eq_singleton_of_toolResult (hconversation : TextConversation json messages)
    (hrun : run ∈ runs messages) {toolUseId : String} {content : JsonTree F}
    (hresult : .toolResult toolUseId content ∈ blocksOf json (joinRun run)) :
    ∃ message, run = [message] ∧ message.role = "tool" ∧ message.toolCallId = toolUseId := by
  obtain ⟨hne, hchain, -⟩ := run_of_mem hrun
  have htold : toolUseId ∈ (blocksOf json (joinRun run)).filterMap toldResult :=
    List.mem_filterMap.2 ⟨_, hresult, rfl⟩
  rw [filterMap_toldResult_blocksOf] at htold
  by_cases htool : (joinRun run).role = "tool"
  · rw [if_pos htool, List.mem_singleton] at htold
    rcases run_cases hne hchain (hconversation.texts_run hrun) with
      ⟨message, rfl⟩ | ⟨-, hstrings⟩
    · refine ⟨message, rfl, htool, ?_⟩
      rw [htold]
      exact (if_pos (show message.role = "tool" from htool)).symm
    · have hhead := List.head_mem hne
      exact absurd ((role_of_mem_run hchain hhead).trans htool) (hstrings _ hhead).2
  · rw [if_neg htool] at htold
    cases htold

/-- A call of a run that keeps its calls has its block. -/
theorem toolUse_mem_blocksOf (hconversation : TextConversation json messages)
    (hrun : run ∈ runs messages) (hkeeps : KeepsCalls json run) (hmessage : message ∈ run)
    {call : Dto.ToolCallRequest F} (hcall : call ∈ message.parseToolCalls) :
    ∃ name input, .toolUse call.id name input ∈ blocksOf json (joinRun run) := by
  obtain ⟨hne, hchain, -⟩ := run_of_mem hrun
  have htold : toldCalls json (joinRun run) = sentCalls json run :=
    (toldCalls_joinRun hne hchain (hconversation.arguments_run hrun)).2.2 hkeeps
  have hsent : sentCall json call ∈ sentCalls json run :=
    List.mem_flatMap.2 ⟨message, hmessage, List.mem_map_of_mem hcall⟩
  rw [← htold, ← filterMap_toldCall_blocksOf (callers_joinRun hrun)] at hsent
  obtain ⟨block, hblock, hsame⟩ := List.mem_filterMap.1 hsent
  cases block with
  | toolUse id name input =>
      obtain ⟨rfl, -⟩ := Prod.mk.inj (Option.some.inj hsame)
      exact ⟨name, input, hblock⟩
  | _ => cases hsame

/-- Where the runs keep their calls, a result stands behind the call it belongs to. -/
theorem behind_of_keepsCalls (hconversation : TextConversation json messages)
    (hconverted : Converted json ((runs messages).map joinRun) s)
    (hkeeps : ∀ run ∈ runs messages, KeepsCalls json run)
    {before rest : List (ClaudeBlock F)} {toolUseId : String} {content : JsonTree F}
    (hwhole : claudeBlocks s.claudeMessages = before ++ .toolResult toolUseId content :: rest) :
    ∃ name input, .toolUse toolUseId name input ∈ before := by
  -- the result is none of the opening texts
  have hsplit : ∃ before', before =
        (opening ((runs messages).map joinRun)).map ClaudeBlock.text ++ before' ∧
      ((runs messages).flatMap fun run => blocksOf json (joinRun run)) =
        before' ++ .toolResult toolUseId content :: rest := by
    rw [hconverted.blocks, List.flatMap_map, List.append_eq_append_iff] at hwhole
    rcases hwhole with hlater | ⟨more, hopening, hrest⟩
    · exact hlater
    · cases more with
      | nil => exact ⟨[], by rw [hopening, List.append_nil, List.append_nil], hrest.symm⟩
      | cons block more =>
          have hmem : block ∈ (opening ((runs messages).map joinRun)).map
              (ClaudeBlock.text (F := F)) := by
            rw [hopening]
            exact List.mem_append_right _ List.mem_cons_self
          obtain ⟨t, -, rfl⟩ := List.mem_map.1 hmem
          cases hrest
  obtain ⟨before', hbefore, hblocks⟩ := hsplit
  obtain ⟨done, run, todo, start, more, hruns, hpiece, hstart⟩ :=
    Runs.exists_of_flatMap_eq hblocks
  have hdone : ∀ earlier ∈ done, earlier ∈ runs messages := by
    intro earlier hearlier
    rw [hruns]
    exact List.mem_append_left _ hearlier
  have hrun : run ∈ runs messages := by
    rw [hruns]
    exact List.mem_append_right _ List.mem_cons_self
  have hresult : ClaudeBlock.toolResult toolUseId content ∈ blocksOf json (joinRun run) := by
    rw [hpiece]
    exact List.mem_append_right _ List.mem_cons_self
  obtain ⟨message, rfl, htool, rfl⟩ := eq_singleton_of_toolResult hconversation hrun hresult
  have hmessages : messages = done.flatten ++ message :: todo.flatten := by
    rw [← List.flatten_splitBy neighbours messages]
    show (runs messages).flatten = _
    rw [hruns, List.flatten_append, List.flatten_cons]
    rfl
  obtain ⟨caller, hcaller, -, call, hcall, hid⟩ :=
    hconversation.results _ message _ hmessages htool
  obtain ⟨earlier, hearlier, hmem⟩ := List.mem_flatten.1 hcaller
  obtain ⟨name, input, hblock⟩ := toolUse_mem_blocksOf hconversation (hdone earlier hearlier)
    (hkeeps earlier (hdone earlier hearlier)) hmem hcall
  refine ⟨name, input, ?_⟩
  rw [hbefore, hstart, ← hid]
  refine List.mem_append_right _ (List.mem_append_left _ ?_)
  exact List.mem_flatMap.2 ⟨earlier, hearlier, hblock⟩

/-! ## The request -/

/-- What the conversion relies on, run by run. -/
theorem convertible_iff : Convertible json messages ↔
    (∀ message ∈ messages, message.role ≠ "developer" ∧ message.role ≠ "") ∧
      (∀ run ∈ runs messages, KeepsCalls json run) ∧ ∀ run ∈ runs messages, KeepsQuotes run := by
  constructor
  · intro hconvertible
    refine ⟨hconvertible.roles, fun run hrun => ?_, hconvertible.quotes⟩
    have hmem := (run_of_mem hrun).2.2
    exact ⟨hconvertible.joined run hrun,
      fun message hmessage => hconvertible.callers message (hmem message hmessage),
      fun message hmessage => hconvertible.numbers message (hmem message hmessage)⟩
  · intro hall
    obtain ⟨hroles, hcalls, hquotes⟩ := hall
    refine ⟨hroles, fun message hmem => ?_, fun run hrun => (hcalls run hrun).joined,
      fun message hmem => ?_, hquotes⟩
    · obtain ⟨run, hrun, hmessage⟩ := mem_runs.1 hmem
      exact (hcalls run hrun).callers message hmessage
    · obtain ⟨run, hrun, hmessage⟩ := mem_runs.1 hmem
      exact (hcalls run hrun).numbers message hmessage

/-- What the fields other than the messages need. -/
structure OthersConvert (textRequest : Dto.GeneralOpenAIRequest F) : Prop where
  tools : ∀ tool ∈ textRequest.tools.getD [], Typed tool
  reasoning : ¬∃ err, textRequest.reasoning = some (.error err)
  stops : StopsAreStrings textRequest.stop

/-- The loops go well over a conversation. -/
theorem converted_conversation (files : FileReader)
    (hconversation : TextConversation json messages) :
    ∃ s, convertMessages json files ((runs messages).map joinRun) = .ok s ∧
      Converted json ((runs messages).map joinRun) s := by
  refine converted_all json files fun joined hjoined => ?_
  obtain ⟨run, hrun, rfl⟩ := List.mem_map.1 hjoined
  obtain ⟨hne, hchain, -⟩ := run_of_mem hrun
  exact joinRun_isText hne hchain (hconversation.texts_run hrun)

/-- What is built where the loops go well. -/
theorem requestOpenAI2ClaudeMessage_eq_ok [Zero F] [One F] {settings : ClaudeSettings}
    {files : FileReader} {textRequest : Dto.GeneralOpenAIRequest F} {claudeRequest : ClaudeRequest F}
    (hs : convertMessages json files ((runs textRequest.messages).map joinRun) = .ok s) :
    requestOpenAI2ClaudeMessage settings json files textRequest = .ok claudeRequest ↔
      ∃ claudeTools thinking stops, convertTools textRequest = .ok claudeTools ∧
        reasoningThinking textRequest.reasoning
          (initialRequest settings textRequest claudeTools).thinking = .ok thinking ∧
        stopSequences textRequest.stop = .ok stops ∧
        claudeRequest =
          { initialRequest settings textRequest claudeTools with
            thinking := thinking
            stopSequences := stops
            system := if s.systemMessages = [] then none else some s.systemMessages
            messages := s.claudeMessages } := by
  unfold requestOpenAI2ClaudeMessage
  simp only [Outcome.bind_eq_ok, formatMessages_eq, Outcome.ok.injEq, exists_eq_left', hs,
    Outcome.pure_eq, exists_and_left]
  constructor
  · intro hbuilt
    obtain ⟨claudeTools, htools, thinking, hthinking, stops, hstops, hrequest⟩ := hbuilt
    exact ⟨claudeTools, htools, thinking, hthinking, stops, hstops, hrequest.symm⟩
  · intro hbuilt
    obtain ⟨claudeTools, htools, thinking, hthinking, stops, hstops, hrequest⟩ := hbuilt
    exact ⟨claudeTools, htools, thinking, hthinking, stops, hstops, hrequest.symm⟩

/-- The other fields decide whether a request is built. -/
theorem exists_built_iff [Zero F] [One F] {settings : ClaudeSettings} {files : FileReader}
    {textRequest : Dto.GeneralOpenAIRequest F}
    (hs : convertMessages json files ((runs textRequest.messages).map joinRun) = .ok s) :
    (∃ claudeRequest,
        requestOpenAI2ClaudeMessage settings json files textRequest = .ok claudeRequest) ↔
      OthersConvert textRequest := by
  simp only [requestOpenAI2ClaudeMessage_eq_ok hs]
  constructor
  · intro hbuilt
    obtain ⟨-, claudeTools, thinking, stops, htools, hthinking, hstops, -⟩ := hbuilt
    refine ⟨?_, ?_, ?_⟩
    · by_contra hnot
      rw [convertTools_panicked hnot] at htools
      cases htools
    · intro herr
      obtain ⟨err, herr⟩ := herr
      rw [herr] at hthinking
      cases hthinking
    · by_contra hnot
      rw [stopSequences_panicked hnot] at hstops
      cases hstops
  · intro hothers
    obtain ⟨claudeTools, htools⟩ := convertTools_ok hothers.tools
    obtain ⟨stops, hstops⟩ := stopSequences_ok hothers.stops
    rcases reasoningThinking_cases textRequest.reasoning
      (initialRequest settings textRequest claudeTools).thinking with
      ⟨err, herr, -⟩ | ⟨-, thinking, hthinking⟩
    · exact absurd ⟨err, herr⟩ hothers.reasoning
    · exact ⟨_, claudeTools, thinking, stops, htools, hthinking, hstops, rfl⟩

/-- A request with a conversation of texts is converted exactly if its other fields can be, and what
is built keeps the conversation exactly if the roles are known, only an assistant calls, no message
with calls is joined to a later one, and numbers and quotes are kept. -/
theorem conversion_preserves_iff [Zero F] [One F] (settings : ClaudeSettings)
    (json : ArgumentsDecoder N F) (files : FileReader) (textRequest : Dto.GeneralOpenAIRequest F)
    (hconversation : TextConversation json textRequest.messages) :
    ((∃ claudeRequest,
        requestOpenAI2ClaudeMessage settings json files textRequest = .ok claudeRequest) ↔
      OthersConvert textRequest) ∧
    ∀ claudeRequest,
      requestOpenAI2ClaudeMessage settings json files textRequest = .ok claudeRequest →
        (Preserves json textRequest.messages claudeRequest ↔
          Convertible json textRequest.messages) := by
  obtain ⟨s, hs, hconverted⟩ := converted_conversation files hconversation
  refine ⟨exists_built_iff hs, fun claudeRequest hok => ?_⟩
  obtain ⟨claudeTools, thinking, stops, -, -, -, rfl⟩ :=
    (requestOpenAI2ClaudeMessage_eq_ok hs).1 hok
  have hsystem : (if s.systemMessages = [] then none else some s.systemMessages).getD [] =
      s.systemMessages := by
    split
    case isTrue hnone => exact hnone.symm
    case isFalse => rfl
  rw [convertible_iff, ← roles_iff hconversation hconverted, ← calls_iff hconversation hconverted,
    ← texts_iff hconversation hconverted]
  constructor
  · intro hpreserves
    refine ⟨hpreserves.roles, hpreserves.calls, ?_, hpreserves.texts⟩
    rw [← hsystem]
    exact hpreserves.system
  · intro hkept
    obtain ⟨hroles, hcalls, hsystems, htexts⟩ := hkept
    constructor
    · exact hroles
    · intro message hfirst
      refine hconverted.first message.role ?_
      rw [List.head?_map]
      exact Option.mem_map_of_mem _ hfirst
    · exact hcalls
    · exact results_eq hconversation hconverted
    · intro before toolUseId content rest hwhole
      exact behind_of_keepsCalls hconversation hconverted
        ((calls_iff hconversation hconverted).1 hcalls) hwhole
    · rw [hsystem]
      exact hsystems
    · exact htexts

end

/-- A question, for which the assistant calls a tool. -/
def askingWeather (rest : List (Dto.Message ℤ)) : List (Dto.Message ℤ) :=
  { role := "user", content := .str "Is it sunny?" } ::
    { role := "assistant"
      content := .str "Let me look."
      toolCalls := some [{
        id := "call_1"
        type := "function"
        function := ⟨"", "get_weather", .null, "\x7b\"city\":\"Paris\"\x7d"⟩ }] } :: rest

/-- The result of the call. -/
def weatherResult : Dto.Message ℤ where
  role := "tool"
  content := .str "It is."
  toolCallId := "call_1"

theorem textConversation_askingWeather {rest : List (Dto.Message ℤ)}
    (hrest : ∀ message ∈ rest, message.role ∈ ["assistant", "tool"] ∧ IsText message.content ∧
      message.toolCalls = none ∧ (message.role = "tool" → message.toolCallId = "call_1")) :
    TextConversation sampleDecoder (askingWeather rest) where
  roles := by
    unfold askingWeather
    rw [List.forall_mem_cons, List.forall_mem_cons]
    refine ⟨by decide, by decide, fun message hmem => ?_⟩
    have hrole := (hrest message hmem).1
    simp only [List.mem_cons, List.not_mem_nil, or_false] at hrole
    rcases hrole with h | h <;> simp [h]
  texts := by
    unfold askingWeather
    rw [List.forall_mem_cons, List.forall_mem_cons]
    exact ⟨trivial, trivial, fun message hmem => (hrest message hmem).2.1⟩
  arguments := by
    unfold askingWeather
    rw [List.forall_mem_cons, List.forall_mem_cons]
    refine ⟨fun call hcall => ?_, fun call hcall => ?_, fun message hmem call hcall => ?_⟩
    · cases hcall
    · obtain rfl := List.mem_singleton.1 hcall
      exact ⟨{"city"}, fun _ => .str "Paris", rfl⟩
    · rw [Dto.Message.parseToolCalls, (hrest message hmem).2.2.1] at hcall
      cases hcall
  results before message rest' hwhole htool := by
    -- the first two messages are no results, and the call is the second
    rcases before with _ | ⟨first, _ | ⟨second, before⟩⟩
    · obtain ⟨rfl, -⟩ := List.cons.inj hwhole
      simp at htool
    · obtain ⟨rfl, -⟩ := List.cons.inj (List.cons.inj hwhole).2
      simp at htool
    · obtain ⟨rfl, hlater⟩ := List.cons.inj (List.cons.inj hwhole).2
      have hmem : message ∈ rest := by
        rw [hlater]
        exact List.mem_append_right _ List.mem_cons_self
      refine ⟨_, List.mem_cons_of_mem _ List.mem_cons_self, rfl, _, List.mem_cons_self, ?_⟩
      exact ((hrest message hmem).2.2.2 htool).symm

/-- The question with the result of the tool right behind the call. -/
def weatherConversation : List (Dto.Message ℤ) :=
  askingWeather [weatherResult]

theorem convertible_weatherConversation : Convertible sampleDecoder weatherConversation := by
  have hruns : runs weatherConversation = weatherConversation.map fun message => [message] := rfl
  constructor
  · simp [weatherConversation, askingWeather, weatherResult]
  · simp [weatherConversation, askingWeather, weatherResult, Dto.Message.parseToolCalls]
  · rw [hruns, List.forall_mem_map]
    intro message _ other hother
    cases hother
  · intro message hmem call hcall t ht
    simp only [weatherConversation, askingWeather, List.mem_cons, List.not_mem_nil,
      or_false] at hmem
    rcases hmem with rfl | rfl | rfl
    · cases hcall
    · obtain rfl := List.mem_singleton.1 hcall
      cases ht
      exact fun key => trivial
    · cases hcall
  · rw [hruns, List.forall_mem_map]
    exact fun message _ => .inl rfl

/-- The result of the tool, told to Claude behind its call. -/
theorem conversion_preserves_weatherConversation :
    ∃ claudeRequest, requestOpenAI2ClaudeMessage sampleSettings sampleDecoder noFiles
        (sampleRequest weatherConversation [] .null) = .ok claudeRequest ∧
      Preserves sampleDecoder weatherConversation claudeRequest := by
  have hconversation : TextConversation sampleDecoder weatherConversation :=
    textConversation_askingWeather (by simp [weatherResult, IsText])
  obtain ⟨hbuilt, hpreserves⟩ := conversion_preserves_iff sampleSettings sampleDecoder noFiles
    (sampleRequest weatherConversation [] .null) hconversation
  obtain ⟨claudeRequest, hok⟩ := hbuilt.2
    ⟨fun tool htool => (nomatch htool), fun ⟨err, herr⟩ => (nomatch herr),
      fun n item hstop => (nomatch hstop)⟩
  exact ⟨claudeRequest, hok, (hpreserves claudeRequest hok).2 convertible_weatherConversation⟩

/-- The assistant says one more thing before the result comes. -/
def interruptedConversation : List (Dto.Message ℤ) :=
  askingWeather [{ role := "assistant", content := .str "One moment." }, weatherResult]

/-- The call is lost, and the result has none. -/
theorem joined_call_is_lost :
    TextConversation sampleDecoder interruptedConversation ∧
    ∃ claudeRequest, requestOpenAI2ClaudeMessage sampleSettings sampleDecoder noFiles
        (sampleRequest interruptedConversation [] .null) = .ok claudeRequest ∧
      (claudeBlocks claudeRequest.messages).filterMap (toldCall sampleDecoder) = [] ∧
      ¬Preserves sampleDecoder interruptedConversation claudeRequest := by
  refine ⟨textConversation_askingWeather ?_, _, rfl, rfl, fun hpreserves => ?_⟩
  · simp [weatherResult, IsText]
  · have hlength := congrArg List.length hpreserves.calls
    exact absurd hlength (by decide)

end NewApi.Model.ChatToClaude
