import NewApi.Model.JoinedMessages

/-!
# The second loop as blocks

On contents that are text the second loop always ends well.  What it has built is the blocks of one
message after the other, behind a placeholder where the user does not begin.
-/

namespace NewApi.Model.ChatToClaude

open NewApi.Lib NewApi.Lib.Strings

variable {N F : Type}

/-! ## Contents that are text -/

/-- A part of a list that is text. -/
def IsTextPart (item : JsonTree F) : Prop :=
  item.child "type" = some (.str "text") ∧ ∃ t, item.child "text" = some (.str t)

/-- A string, or a list of text parts. -/
def IsText (content : JsonTree F) : Prop :=
  match content with
  | .str _ => True
  | .arr _ item => ∀ i, IsTextPart (item i)
  | _ => False

/-- The text of a part. -/
def partText (item : JsonTree F) : Option String :=
  if Dto.stringAt item "type" = some "text" then Dto.stringAt item "text" else none

/-- The texts of a content. -/
def contentTexts (content : JsonTree F) : List String :=
  match content with
  | .str t => [t]
  | .arr _ item => (List.ofFn item).filterMap partText
  | _ => []

/-- The blocks of a message, those that the system's has not. -/
def blocksOf (json : ArgumentsDecoder N F) (message : Dto.Message F) : List (ClaudeBlock F) :=
  if message.role = "system" then []
  else if message.role = "tool" then [.toolResult message.toolCallId message.content]
  else (contentTexts message.content).map .text ++
    message.parseToolCalls.filterMap (convertToolCall json)

/-- The placeholder of a conversation that the user does not begin. -/
def opening (messages : List (Dto.Message F)) : List String :=
  match messages.find? fun message => message.role ≠ "system" with
  | some message => if message.role = "user" then [] else ["..."]
  | none => []

/-- The blocks of the messages that are built. -/
def claudeBlocks (claudeMessages : List (ClaudeMessage F)) : List (ClaudeBlock F) :=
  claudeMessages.flatMap fun message => message.content.toMedia

theorem IsTextPart.parse {item : JsonTree F} (hitem : IsTextPart item) :
    Dto.MediaContent.parse item = (partText item).map .text := by
  obtain ⟨htype, t, ht⟩ := hitem
  have htype' : Dto.stringAt item "type" = some "text" := by
    rw [Dto.stringAt, htype]
  have ht' : Dto.stringAt item "text" = some t := by
    rw [Dto.stringAt, ht]
  rw [Dto.MediaContent.parse, htype', partText, if_pos htype', ht']
  rfl

/-- The parts of a text are its texts. -/
theorem parseContent_of_isText {message : Dto.Message F} (htext : IsText message.content) :
    message.parseContent = (contentTexts message.content).map .text := by
  unfold Dto.Message.parseContent contentTexts
  cases hcontent : message.content with
  | str t => rfl
  | arr n item =>
      rw [hcontent] at htext
      dsimp only
      rw [List.map_filterMap]
      refine List.filterMap_congr fun part hpart => ?_
      obtain ⟨i, rfl⟩ := (List.mem_ofFn' item part).1 hpart
      exact (htext i).parse
  | _ =>
      rw [hcontent] at htext
      cases htext

theorem systemTexts_of_isText {message : Dto.Message F} (htext : IsText message.content) :
    systemTexts message = (contentTexts message.content).map .text := by
  unfold systemTexts
  split
  case isTrue hstring =>
    obtain ⟨t, ht⟩ := isStringContent_iff.1 hstring
    rw [Dto.Message.stringContent, ht]
    rfl
  case isFalse =>
    rw [parseContent_of_isText htext, List.filterMap_map]
    congr 1
    exact List.filterMap_some

theorem convertContent_of_isText (json : ArgumentsDecoder N F) (files : FileReader)
    {message : Dto.Message F} (htext : IsText message.content) :
    ∃ content, convertContent json files message = .ok content ∧
      content.toMedia = (contentTexts message.content).map .text ++
        message.parseToolCalls.filterMap (convertToolCall json) := by
  unfold convertContent
  split
  case isTrue hstring =>
    obtain ⟨hcontent, hnone⟩ := Bool.and_eq_true_iff.1 hstring
    obtain ⟨t, ht⟩ := isStringContent_iff.1 hcontent
    refine ⟨_, rfl, ?_⟩
    rw [Dto.Message.stringContent, Dto.Message.parseToolCalls, ht, Option.isNone_iff_eq_none.1 hnone]
    rfl
  case isFalse =>
    have hmedia : message.parseContent.mapM (convertMedia files) =
        .ok ((contentTexts message.content).map (ClaudeBlock.text (F := F))) := by
      rw [parseContent_of_isText htext, List.mapM_map]
      exact Outcome.mapM_ok fun t _ => rfl
    rw [hmedia]
    exact ⟨_, rfl, rfl⟩

/-! ## The state of the loop -/

/-- What the loop has built of some messages. -/
structure Converted (json : ArgumentsDecoder N F) (done : List (Dto.Message F)) (s : ConvertState F) :
    Prop where
  system : s.systemMessages = (done.filter fun message => message.role = "system").flatMap
    fun message => (contentTexts message.content).map .text
  blocks : claudeBlocks s.claudeMessages = (opening done).map .text ++ done.flatMap (blocksOf json)
  started : s.isFirstMessage = true ↔ ∀ message ∈ done, message.role = "system"
  empty : s.isFirstMessage = true ↔ s.claudeMessages = []
  first : ∀ role ∈ (s.claudeMessages.map Dto.ClaudeMessage.role).head?, role = "user"
  roles : ∀ role ∈ s.claudeMessages.map Dto.ClaudeMessage.role, role = "user" ∨
    ∃ message ∈ done, message.role = role ∧ role ≠ "system" ∧ role ≠ "tool"
  told : ∀ message ∈ done, message.role ≠ "system" → message.role ≠ "tool" →
    message.role ∈ s.claudeMessages.map Dto.ClaudeMessage.role

variable {json : ArgumentsDecoder N F} {files : FileReader} {done : List (Dto.Message F)}
  {s : ConvertState F} {message : Dto.Message F}

theorem opening_concat_system (done : List (Dto.Message F)) (hsystem : message.role = "system") :
    opening (done ++ [message]) = opening done := by
  unfold opening
  rw [List.find?_append, List.find?_cons_of_neg (by simpa using hsystem), List.find?_nil,
    Option.or_none]

/-- Only the first message that is not the system's has a part in the opening. -/
theorem opening_concat (done : List (Dto.Message F)) (hnot : message.role ≠ "system") :
    opening (done ++ [message]) =
      if (∀ message ∈ done, message.role = "system") ∧ message.role ≠ "user" then ["..."]
      else opening done := by
  unfold opening
  rw [List.find?_append, List.find?_cons_of_pos (by simpa using hnot)]
  cases hfirst : done.find? fun message => message.role ≠ "system" with
  | none =>
      have hall : ∀ message ∈ done, message.role = "system" := by
        simpa using hfirst
      rw [Option.none_or]
      by_cases huser : message.role = "user"
      · rw [if_neg fun h => h.2 huser]
        exact if_pos huser
      · rw [if_pos ⟨hall, huser⟩]
        exact if_neg huser
  | some first =>
      have hsome : ¬∀ message ∈ done, message.role = "system" := by
        intro hall
        have hother := List.find?_some hfirst
        simp [hall first (List.mem_of_find?_eq_some hfirst)] at hother
      rw [Option.some_or, if_neg fun h => hsome h.1]

theorem claudeBlocks_append (claudeMessages more : List (ClaudeMessage F)) :
    claudeBlocks (claudeMessages ++ more) =
      claudeBlocks claudeMessages ++ claudeBlocks more :=
  List.flatMap_append

theorem claudeBlocks_addToolResult (claudeMessages : List (ClaudeMessage F)) (message : Dto.Message F) :
    claudeBlocks (addToolResult claudeMessages message) =
      claudeBlocks claudeMessages ++ [.toolResult message.toolCallId message.content] := by
  unfold addToolResult
  rcases List.eq_nil_or_concat claudeMessages with rfl | ⟨before, last, rfl⟩
  · rfl
  · rw [List.concat_eq_append, List.getLast?_concat]
    dsimp only
    split
    · rw [List.dropLast_concat, claudeBlocks_append, claudeBlocks_append, List.append_assoc]
      simp [claudeBlocks, ClaudeContent.toMedia]
    · rw [claudeBlocks_append]
      rfl

/-- The roles are those of before, with one more of the user if the last message is not the
user's. -/
theorem roles_addToolResult (claudeMessages : List (ClaudeMessage F)) (message : Dto.Message F) :
    (addToolResult claudeMessages message).map Dto.ClaudeMessage.role =
        claudeMessages.map Dto.ClaudeMessage.role ∧ claudeMessages ≠ [] ∨
      (addToolResult claudeMessages message).map Dto.ClaudeMessage.role =
        claudeMessages.map Dto.ClaudeMessage.role ++ ["user"] := by
  unfold addToolResult
  rcases List.eq_nil_or_concat claudeMessages with rfl | ⟨before, last, rfl⟩
  · exact .inr rfl
  · rw [List.concat_eq_append, List.getLast?_concat]
    dsimp only
    split
    · refine .inl ⟨?_, by simp⟩
      rw [List.dropLast_concat, List.map_append, List.map_append]
      rfl
    · refine .inr ?_
      rw [List.map_append]
      rfl

theorem converted_nil : Converted json [] (⟨[], true, []⟩ : ConvertState F) where
  system := rfl
  blocks := rfl
  started := iff_of_true rfl fun _ hmessage => nomatch hmessage
  empty := iff_of_true rfl rfl
  first _ hrole := nomatch hrole
  roles _ hrole := nomatch hrole
  told _ hmessage := nomatch hmessage

/-- What is there when a message comes that is not the system's. -/
theorem converted_begin (hconverted : Converted json done s) (hnot : message.role ≠ "system") :
    claudeBlocks (beginMessages s message) =
        (opening (done ++ [message])).map .text ++ done.flatMap (blocksOf json) ∧
      (beginMessages s message = [] → message.role = "user") ∧
      (∀ role ∈ ((beginMessages s message).map Dto.ClaudeMessage.role).head?, role = "user") ∧
      (∀ role ∈ (beginMessages s message).map Dto.ClaudeMessage.role, role = "user" ∨
        ∃ message ∈ done, message.role = role ∧ role ≠ "system" ∧ role ≠ "tool") ∧
      ∀ role ∈ s.claudeMessages.map Dto.ClaudeMessage.role,
        role ∈ (beginMessages s message).map Dto.ClaudeMessage.role := by
  rw [opening_concat done hnot]
  unfold beginMessages
  by_cases hfirst : s.isFirstMessage = true
  · have hempty := hconverted.empty.1 hfirst
    have hdone := hconverted.started.1 hfirst
    have hblocks := hconverted.blocks
    rw [hempty] at hblocks ⊢
    by_cases huser : message.role = "user"
    · rw [if_neg fun h => h.2 huser, if_neg fun h => h.2 huser]
      exact ⟨hblocks, fun _ => huser, fun role hrole => (nomatch hrole),
        fun role hrole => (nomatch hrole), fun role hrole => hrole⟩
    · rw [if_pos ⟨hfirst, huser⟩, if_pos ⟨hdone, huser⟩]
      have hnone : done.flatMap (blocksOf json) = [] := by
        rw [List.flatMap_eq_nil_iff]
        exact fun message hmessage => if_pos (hdone message hmessage)
      rw [hnone]
      refine ⟨rfl, fun hnil => (nomatch hnil), fun role hrole => ?_, fun role hrole => ?_,
        fun role hrole => (nomatch hrole)⟩
      · cases hrole
        rfl
      · exact .inl (List.mem_singleton.1 hrole)
  · rw [if_neg fun h => hfirst h.1, if_neg fun h => hfirst (hconverted.started.2 h.1)]
    exact ⟨hconverted.blocks, fun hempty => absurd (hconverted.empty.2 hempty) hfirst,
      hconverted.first, hconverted.roles, fun role hrole => hrole⟩

/-- The system's message. -/
theorem converted_system (hconverted : Converted json done s) (hsystem : message.role = "system")
    (htext : IsText message.content) :
    Converted json (done ++ [message])
      { s with systemMessages := s.systemMessages ++ systemTexts message } where
  system := by
    rw [List.filter_append, List.filter_cons_of_pos (by simpa using hsystem), List.filter_nil,
      List.flatMap_append, List.flatMap_singleton, hconverted.system, systemTexts_of_isText htext]
  blocks := by
    have hnone : blocksOf json message = [] := if_pos hsystem
    rw [opening_concat_system done hsystem, List.flatMap_append, List.flatMap_singleton, hnone,
      List.append_nil]
    exact hconverted.blocks
  started := by
    rw [List.forall_mem_append, List.forall_mem_singleton]
    exact hconverted.started.trans (and_iff_left hsystem).symm
  empty := hconverted.empty
  first := hconverted.first
  roles role hrole := by
    rcases hconverted.roles role hrole with huser | ⟨message', hmem, hrole'⟩
    · exact .inl huser
    · exact .inr ⟨message', List.mem_append_left _ hmem, hrole'⟩
  told message' hmem hnot htool := by
    rcases List.mem_append.1 hmem with hold | hnew
    · exact hconverted.told message' hold hnot htool
    · rw [List.mem_singleton.1 hnew] at hnot
      exact absurd hsystem hnot

/-- A message of another role: its blocks come behind, and its role, or the user's for the result of
a tool. -/
theorem converted_next (hconverted : Converted json done s) (hnot : message.role ≠ "system")
    {claudeMessages : List (ClaudeMessage F)}
    (hblocks : claudeBlocks claudeMessages =
      claudeBlocks (beginMessages s message) ++ blocksOf json message)
    (hroles : message.role = "tool" ∧ beginMessages s message ≠ [] ∧
        claudeMessages.map Dto.ClaudeMessage.role =
          (beginMessages s message).map Dto.ClaudeMessage.role ∨
      ∃ role, claudeMessages.map Dto.ClaudeMessage.role =
          (beginMessages s message).map Dto.ClaudeMessage.role ++ [role] ∧
        (message.role ≠ "tool" ∧ role = message.role ∨ message.role = "tool" ∧ role = "user")) :
    Converted json (done ++ [message]) ⟨claudeMessages, false, s.systemMessages⟩ := by
  obtain ⟨hbegin, hnil, hfirst, hbefore, htold⟩ := converted_begin hconverted hnot
  have hsome : claudeMessages ≠ [] := by
    intro hempty
    rw [hempty] at hroles
    rcases hroles with ⟨-, hne, hsame⟩ | ⟨role, hsame, -⟩
    · exact hne (List.map_eq_nil_iff.1 hsame.symm)
    · simp at hsame
  have hkept : ∀ role ∈ (beginMessages s message).map Dto.ClaudeMessage.role,
      role ∈ claudeMessages.map Dto.ClaudeMessage.role := by
    intro role hrole
    rcases hroles with ⟨-, -, hsame⟩ | ⟨role', hsame, -⟩
    · rw [hsame]
      exact hrole
    · rw [hsame]
      exact List.mem_append_left _ hrole
  constructor
  · rw [List.filter_append, List.filter_cons_of_neg (by simpa using hnot), List.filter_nil,
      List.append_nil]
    exact hconverted.system
  · rw [hblocks, hbegin, List.flatMap_append, List.flatMap_singleton, List.append_assoc]
  · refine iff_of_false Bool.false_ne_true fun hall => hnot ?_
    exact hall message (List.mem_append_right _ (List.mem_singleton_self _))
  · exact iff_of_false Bool.false_ne_true hsome
  · intro role hrole
    rcases hroles with ⟨-, -, hsame⟩ | ⟨role', hsame, hrole'⟩
    · rw [hsame] at hrole
      exact hfirst role hrole
    · rw [hsame] at hrole
      cases hbegun : beginMessages s message with
      | nil =>
          rw [hbegun] at hrole
          cases hrole
          rcases hrole' with ⟨-, hrole'⟩ | ⟨-, hrole'⟩
          · exact hrole'.trans (hnil hbegun)
          · exact hrole'
      | cons begun rest =>
          rw [hbegun] at hrole hfirst
          exact hfirst role hrole
  · intro role hrole
    have hold : role ∈ (beginMessages s message).map Dto.ClaudeMessage.role →
        role = "user" ∨ ∃ message' ∈ done ++ [message], message'.role = role ∧ role ≠ "system" ∧
          role ≠ "tool" := by
      intro hmem
      rcases hbefore role hmem with huser | ⟨message', hmessage', hrole'⟩
      · exact .inl huser
      · exact .inr ⟨message', List.mem_append_left _ hmessage', hrole'⟩
    rcases hroles with ⟨-, -, hsame⟩ | ⟨role', hsame, hrole'⟩
    · exact hold (hsame ▸ hrole)
    · rw [hsame] at hrole
      rcases List.mem_append.1 hrole with hmem | hnew
      · exact hold hmem
      · rw [List.mem_singleton.1 hnew]
        rcases hrole' with ⟨htool, rfl⟩ | ⟨-, huser⟩
        · exact .inr ⟨message, List.mem_append_right _ (List.mem_singleton_self _), rfl, hnot,
            htool⟩
        · exact .inl huser
  · intro message' hmem hnot' htool
    rcases List.mem_append.1 hmem with hold | hnew
    · exact hkept _ (htold _ (hconverted.told message' hold hnot' htool))
    · obtain rfl := List.mem_singleton.1 hnew
      rcases hroles with ⟨htool', -, -⟩ | ⟨role', hsame, hrole'⟩
      · exact absurd htool' htool
      · rw [hsame]
        rcases hrole' with ⟨-, rfl⟩ | ⟨htool', -⟩
        · exact List.mem_append_right _ (List.mem_singleton_self _)
        · exact absurd htool' htool

/-- The step of the loop. -/
theorem converted_step (hconverted : Converted json done s) (htext : IsText message.content) :
    ∃ s', convertMessage json files s message = .ok s' ∧ Converted json (done ++ [message]) s' := by
  unfold convertMessage
  by_cases hsystem : message.role = "system"
  · rw [if_pos hsystem]
    exact ⟨_, rfl, converted_system hconverted hsystem htext⟩
  · rw [if_neg hsystem]
    by_cases htool : message.role = "tool"
    · rw [if_pos htool]
      refine ⟨_, rfl, converted_next hconverted hsystem ?_ ?_⟩
      · rw [claudeBlocks_addToolResult, blocksOf, if_neg hsystem, if_pos htool]
      · rcases roles_addToolResult (beginMessages s message) message with ⟨hsame, hne⟩ | hsame
        · exact .inl ⟨htool, hne, hsame⟩
        · exact .inr ⟨"user", hsame, .inr ⟨htool, rfl⟩⟩
    · rw [if_neg htool]
      obtain ⟨content, hcontent, hmedia⟩ := convertContent_of_isText json files htext
      rw [hcontent]
      refine ⟨_, rfl, converted_next hconverted hsystem ?_ ?_⟩
      · rw [claudeBlocks_append, blocksOf, if_neg hsystem, if_neg htool, ← hmedia]
        simp [claudeBlocks]
      · refine .inr ⟨message.role, ?_, .inl ⟨htool, rfl⟩⟩
        rw [List.map_append]
        rfl

/-- The loop over contents that are text. -/
theorem converted_all (json : ArgumentsDecoder N F) (files : FileReader)
    {messages : List (Dto.Message F)} (htexts : ∀ message ∈ messages, IsText message.content) :
    ∃ s, convertMessages json files messages = .ok s ∧ Converted json messages s :=
  Outcome.foldlM_ok (fun _ _ message hmessage hconverted =>
    converted_step hconverted (htexts message hmessage)) converted_nil

end NewApi.Model.ChatToClaude
