import NewApi.Lib.Runs
import NewApi.Model.ClaudeConversion

/-!
# The first loop as runs

Neighbours whose contents are strings of one role form a run, and the first loop makes one message
of each run. It never cuts off the last of no messages.
-/

namespace NewApi.Model.ChatToClaude

open NewApi.Lib NewApi.Lib.Strings

variable {F : Type}

/-- The second message is joined to the first. -/
def neighbours (message next : Dto.Message F) : Bool :=
  joins (fmtMessage message) next

/-- The runs of the messages. -/
def runs (messages : List (Dto.Message F)) : List (List (Dto.Message F)) :=
  messages.splitBy neighbours

/-- The message that a run becomes. -/
def joinRun : List (Dto.Message F) → Dto.Message F
  | [] => { role := "tool", content := .null }
  | first :: rest => rest.foldl joinMessage (fmtMessage first)

theorem joinRun_concat (run : List (Dto.Message F)) (hrun : run ≠ []) (next : Dto.Message F) :
    joinRun (run ++ [next]) = joinMessage (joinRun run) next := by
  cases run with
  | nil => exact absurd rfl hrun
  | cons first rest =>
      rw [List.cons_append, joinRun, joinRun, List.foldl_append]
      rfl

theorem isStringContent_iff {message : Dto.Message F} :
    message.isStringContent = true ↔ ∃ s, message.content = .str s := by
  unfold Dto.Message.isStringContent
  cases message.content <;> simp

theorem isStringContent_fmtMessage {message : Dto.Message F} (hstring : message.isStringContent = true) :
    (fmtMessage message).isStringContent = true := by
  obtain ⟨s, hs⟩ := isStringContent_iff.1 hstring
  refine isStringContent_iff.2 ⟨s, ?_⟩
  rw [fmtMessage, hs]

/-- All but its text a run has from its last message. -/
theorem joinRun_last (run : List (Dto.Message F)) (x : Dto.Message F)
    (hchain : (run ++ [x]).IsChain fun message next => neighbours message next = true) :
    (joinRun (run ++ [x])).role = x.role ∧
      (joinRun (run ++ [x])).toolCalls = (fmtMessage x).toolCalls ∧
      (joinRun (run ++ [x])).toolCallId = (fmtMessage x).toolCallId ∧
      (joinRun (run ++ [x])).isStringContent = (fmtMessage x).isStringContent := by
  by_cases hrun : run = []
  · rw [hrun]
    exact ⟨rfl, rfl, rfl, rfl⟩
  · rw [joinRun_concat run hrun]
    refine ⟨rfl, rfl, rfl, ?_⟩
    have hrel : neighbours (run.getLast hrun) x = true :=
      (List.isChain_append.1 hchain).2.2 _ (List.getLast_mem_getLast? hrun) _ rfl
    have hjoins : joins (fmtMessage (run.getLast hrun)) x := of_decide_eq_true hrel
    rw [isStringContent_fmtMessage hjoins.2.2.2]
    rfl

/-- The messages of a run have its role. -/
theorem role_of_mem_run {run : List (Dto.Message F)} {message : Dto.Message F}
    (hchain : run.IsChain fun message next => neighbours message next = true)
    (hmem : message ∈ run) : message.role = (joinRun run).role := by
  induction run using List.reverseRecOn with
  | nil => cases hmem
  | append_singleton run x ih =>
      rw [(joinRun_last run x hchain).1]
      rcases List.mem_append.1 hmem with hold | hnew
      · obtain ⟨hbefore, -, hlast⟩ := List.isChain_append.1 hchain
        have hne : run ≠ [] := List.ne_nil_of_mem hold
        have hrel : neighbours (run.getLast hne) x = true :=
          hlast _ (List.getLast_mem_getLast? hne) _ rfl
        have hjoins : joins (fmtMessage (run.getLast hne)) x := of_decide_eq_true hrel
        have hrole := (joinRun_last run.dropLast (run.getLast hne)
          (by rw [List.dropLast_append_getLast]; exact hbefore)).1
        rw [List.dropLast_append_getLast] at hrole
        exact (ih hbefore hold).trans (hrole.trans hjoins.1)
      · rw [List.mem_singleton.1 hnew]

/-- In a run of several messages all are strings, and none is the result of a tool. -/
theorem string_of_mem_run {first next message : Dto.Message F} {rest : List (Dto.Message F)}
    (hchain : (first :: next :: rest).IsChain fun message next => neighbours message next = true)
    (hmem : message ∈ first :: next :: rest) :
    (fmtMessage message).isStringContent = true ∧ message.role ≠ "tool" := by
  induction rest generalizing first next with
  | nil =>
      have hjoins : joins (fmtMessage first) next :=
        of_decide_eq_true (List.isChain_cons_cons.1 hchain).1
      rcases List.mem_cons.1 hmem with rfl | hnext
      · exact ⟨hjoins.2.2.1, hjoins.2.1⟩
      · rw [List.mem_singleton.1 hnext]
        exact ⟨isStringContent_fmtMessage hjoins.2.2.2, fun htool => hjoins.2.1 (hjoins.1.trans htool)⟩
  | cons after rest ih =>
      obtain ⟨hrel, htail⟩ := List.isChain_cons_cons.1 hchain
      have hjoins : joins (fmtMessage first) next := of_decide_eq_true hrel
      rcases List.mem_cons.1 hmem with rfl | hrest
      · exact ⟨hjoins.2.2.1, hjoins.2.1⟩
      · exact ih htail hrest

/-- Whether a message is joined to a run depends on the last message of the run. -/
theorem joins_joinRun (run : List (Dto.Message F)) (x next : Dto.Message F)
    (hchain : (run ++ [x]).IsChain fun message next => neighbours message next = true) :
    joins (joinRun (run ++ [x])) next ↔ neighbours x next = true := by
  obtain ⟨hrole, -, -, hstring⟩ := joinRun_last run x hchain
  unfold neighbours
  rw [decide_eq_true_iff, joins, joins, hrole, hstring]
  rfl

/-- The state after some messages. -/
def formatted (messages : List (Dto.Message F)) : FormatState F where
  formatMessages := (runs messages).map joinRun
  lastMessage := ((runs messages).getLast?.map joinRun).getD { role := "tool", content := .null }

/-- The step of the loop. -/
theorem formatMessage_formatted (messages : List (Dto.Message F)) (next : Dto.Message F) :
    formatMessage (formatted messages) next = .ok (formatted (messages ++ [next])) := by
  rcases List.eq_nil_or_concat messages with rfl | ⟨before, x, hmessages⟩
  · rw [formatMessage, if_neg fun hjoins => hjoins.2.1 rfl]
    rfl
  rw [List.concat_eq_append] at hmessages
  obtain ⟨done, run, hruns⟩ := Runs.splitBy_concat neighbours before x
  rw [← hmessages] at hruns
  have hruns' : runs messages = done ++ [run ++ [x]] := hruns
  have hchain : (run ++ [x]).IsChain fun message next => neighbours message next = true := by
    refine List.isChain_of_mem_splitBy (?_ : run ++ [x] ∈ messages.splitBy neighbours)
    rw [hruns]
    exact List.mem_append_right _ (List.mem_singleton_self _)
  have hstate : formatted messages =
      ⟨done.map joinRun ++ [joinRun (run ++ [x])], joinRun (run ++ [x])⟩ := by
    rw [formatted, hruns', List.map_append, List.getLast?_concat]
    rfl
  rw [hstate, formatMessage]
  by_cases hjoins : neighbours x next = true
  · rw [if_pos ((joins_joinRun run x next hchain).2 hjoins), if_neg (by simp)]
    have hnext : runs (messages ++ [next]) = done ++ [run ++ [x] ++ [next]] :=
      Runs.splitBy_concat_of_rel hruns hjoins
    rw [formatted, hnext, List.map_append, List.getLast?_concat, List.dropLast_concat,
      Option.map_some, Option.getD_some, List.map_singleton, joinRun_concat (run ++ [x]) (by simp)]
    rfl
  · rw [if_neg (mt (joins_joinRun run x next hchain).1 hjoins)]
    have hnext : runs (messages ++ [next]) = runs messages ++ [[next]] := by
      refine Runs.splitBy_concat_of_not fun y hy => ?_
      rw [hmessages, List.getLast?_concat] at hy
      cases hy
      exact Bool.eq_false_iff.2 hjoins
    rw [formatted, hnext, hruns', List.map_append, List.getLast?_concat, List.map_append]
    rfl

/-- The first loop makes one message of each run. -/
theorem formatMessages_eq (messages : List (Dto.Message F)) :
    formatMessages messages = .ok ((runs messages).map joinRun) := by
  have hstep : ∀ done (s : FormatState F), ∀ next ∈ messages, s = formatted done →
      ∃ s', formatMessage s next = .ok s' ∧ s' = formatted (done ++ [next]) := by
    intro done s next _ hs
    exact ⟨_, hs ▸ formatMessage_formatted done next, rfl⟩
  have hloop : ∃ s, messages.foldlM formatMessage (formatted []) = .ok s ∧
      s = formatted ([] ++ messages) := Outcome.foldlM_ok hstep rfl
  obtain ⟨s, hs, rfl⟩ := hloop
  unfold formatMessages
  have hstart : (⟨[], { role := "tool", content := .null }⟩ : FormatState F) = formatted [] := rfl
  rw [hstart, hs]
  rfl

end NewApi.Model.ChatToClaude
