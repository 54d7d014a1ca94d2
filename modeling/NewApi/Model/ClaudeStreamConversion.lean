import NewApi.Model.ClaudeStreamChoices

/-!
# The conversion of a stream for a Claude client

A Claude client reads the conversion of an OpenAI stream to the end, and has all that the stream
carries, exactly when the contents come in an order that the conversion can take: one kind in a
chunk, thinking or the one call of the first chunk before the text, and a usage in time; and all of
it is said by the first choices.
-/

namespace NewApi.Model

open NewApi.Lib NewApi.Lib.Strings

variable {F : Type} {chunk first : ChatCompletionsStreamResponse F}
  {rest chunks : List (ChatCompletionsStreamResponse F)}
  {fragments more : List ToolCallResponse} {blocks : List ContentBlock} {stopReason : String}
  {usage : Usage F}

/-- A client reads the events to the end: one start, the blocks at the indices 0, 1, 2, ..., a
stop reason and the end; and the blocks hold the text, the thinking and the arguments of every
call in all choices of the chunks. -/
structure Converted (events : List ClaudeEvent) (chunks : List (ChatCompletionsStreamResponse F))
    (blocks : List ContentBlock) (stopReason : String) : Prop where
  read : Reader.before.readAll events = some (.ended blocks stopReason)
  text : textOf blocks = contentOf chunks
  thinking : thinkingOf blocks = reasoningOf chunks
  calls : (callsOf blocks).map ToolCall.arguments =
    (callsOfChoices chunks).map ToolCall.arguments

/-- The streams whose conversion keeps everything.  The second chunk is not the last one, unless
the first one has the finish reason; the chunks after the finish reason say nothing more, and the
choices behind the first one say nothing at all. -/
structure Convertible (chunks : List (ChatCompletionsStreamResponse F)) : Prop where
  length : 2 ≤ chunks.length ∧
    ((∀ first ∈ chunks.head?, first.finish = "") → 3 ≤ chunks.length)
  finished : ∃ chunk ∈ chunks, chunk.finish ≠ ""
  usage : afterFinish chunks ≠ [] → ∃ chunk ∈ toFinish chunks, chunk.usage.isSome
  orderly : Orderly (toFinish chunks)
  single : ∀ chunk ∈ toFinish chunks, chunk.kinds.length ≤ 1
  begun : ∀ first ∈ chunks.head?, argumentsOf first.fragments.tail = ""
  trailing : ∀ chunk ∈ afterFinish chunks, chunk.text = "" ∧ chunk.reasoning = "" ∧
    Continue chunk.fragments ∧ argumentsOf chunk.fragments = ""
  others : ∀ choice ∈ otherChoices chunks, choice.Silent

/-! ## What is kept of the chunks -/

/-- A chunk is taken whole when it carries one kind of content at most. -/
theorem kinds_length_le_one_iff :
    chunk.kinds.length ≤ 1 ↔
      chunk.takenText = chunk.text ∧ chunk.takenReasoning = chunk.reasoning := by
  unfold ChatCompletionsStreamResponse.kinds ChatCompletionsStreamResponse.takenText
    ChatCompletionsStreamResponse.takenReasoning
  by_cases hfragments : chunk.fragments = []
  · by_cases hreasoning : chunk.reasoning = ""
    · by_cases htext : chunk.text = "" <;> simp [hfragments, hreasoning, htext]
    · by_cases htext : chunk.text = "" <;> simp [hfragments, hreasoning, htext]
  · by_cases hreasoning : chunk.reasoning = ""
    · by_cases htext : chunk.text = "" <;> simp [hfragments, hreasoning, htext]
    · by_cases htext : chunk.text = "" <;> simp [hfragments, hreasoning, htext]

theorem takenText_visible (chunk : ChatCompletionsStreamResponse F) :
    chunk.takenText = chunk.text ∨ chunk.takenText = "" :=
  ite_eq_or_eq ..

theorem takenReasoning_visible (chunk : ChatCompletionsStreamResponse F) :
    chunk.takenReasoning = chunk.reasoning ∨ chunk.takenReasoning = "" :=
  ite_eq_or_eq ..

theorem continue_flatMap :
    Continue (chunks.flatMap ChatCompletionsStreamResponse.fragments) ↔
      ∀ chunk ∈ chunks, Continue chunk.fragments :=
  List.forall_mem_flatMap

theorem argumentsOf_flatMap :
    argumentsOf (chunks.flatMap ChatCompletionsStreamResponse.fragments) = "" ↔
      ∀ chunk ∈ chunks, argumentsOf chunk.fragments = "" := by
  simp only [argumentsOf, concat_map_eq_empty]
  exact List.forall_mem_flatMap

theorem append_eq_self_iff {before kept after : String} :
    kept = before ++ (kept ++ after) ↔ before = "" ∧ after = "" := by
  constructor
  · intro h
    have hlength := congrArg String.length h
    rw [String.length_append, String.length_append] at hlength
    rw [← String.length_eq_zero_iff, ← String.length_eq_zero_iff]
    omega
  · rintro ⟨rfl, rfl⟩
    rw [String.append_empty, String.empty_append]

/-- Fragments that go on with nothing are none. -/
theorem continue_iff_nil (hcalls : CallFragments 0 fragments) :
    Continue fragments ↔ fragments = [] := by
  cases fragments with
  | nil => exact iff_of_true continue_nil rfl
  | cons fragment fragments =>
      refine iff_of_false (fun hcontinue => ?_) (List.cons_ne_nil _ _)
      exact hcalls.begins.2.1 (hcontinue fragment (List.mem_cons_self ..))

theorem reassemble_eq_nil (hcalls : CallFragments 0 fragments) :
    reassemble fragments = [] ↔ fragments = [] := by
  rw [← List.length_eq_zero_iff, length_reassemble hcalls, begins_eq_zero, continue_iff_nil hcalls]

/-- The call of the blocks is that of the chunks when no fragment of it was left out. -/
theorem keptCalls_iff (horderly : Orderly (first :: rest))
    (hcalls : CallFragments 0
      ((first :: rest).flatMap ChatCompletionsStreamResponse.fragments ++ more)) :
    (keptCalls (first :: rest)).map ToolCall.arguments =
        (reassemble ((first :: rest).flatMap ChatCompletionsStreamResponse.fragments ++ more)).map
          (fun call => call.2.arguments) ↔
      argumentsOf first.fragments.tail = "" ∧ Continue more ∧ argumentsOf more = "" := by
  cases hfragments : first.fragments with
  | nil =>
      have hnone := horderly.fragments_eq_nil hfragments
      rw [hnone, List.nil_append] at hcalls
      rw [hnone, List.nil_append, keptCalls, hfragments, List.map_nil, eq_comm, List.map_eq_nil_iff,
        reassemble_eq_nil hcalls, continue_iff_nil hcalls]
      constructor
      · rintro rfl
        exact ⟨rfl, rfl, rfl⟩
      · exact fun h => h.2.1
  | cons fragment fragments =>
      have hcontinue := horderly.calls
      rw [List.flatMap_cons, hfragments, List.cons_append, List.tail_cons] at hcontinue
      rw [List.flatMap_cons, hfragments, List.cons_append, List.cons_append] at hcalls ⊢
      rw [keptCalls, hfragments, List.map_singleton, List.tail_cons]
      -- When no other call begins, only the arguments can differ.
      have hkept : ∀ hmore : Continue more,
          ([fragment.arguments ++
              argumentsOf (rest.flatMap ChatCompletionsStreamResponse.fragments)] =
            (reassemble (fragment :: (fragments ++
              rest.flatMap ChatCompletionsStreamResponse.fragments ++ more))).map
                (fun call => call.2.arguments)) ↔
            argumentsOf fragments = "" ∧ argumentsOf more = "" := by
        intro hmore
        rw [reassemble_single hcalls (continue_append.2 ⟨hcontinue, hmore⟩), List.map_singleton,
          List.singleton_inj, String.append_right_inj, argumentsOf_append, argumentsOf_append,
          String.append_assoc, append_eq_self_iff]
      constructor
      · intro hsame
        -- A second call would be one more.
        have hlength := congrArg List.length hsame
        rw [List.length_singleton, List.length_map, length_reassemble hcalls, begins_cons,
          if_pos hcalls.begins.2.1, begins_append] at hlength
        have hmore : Continue more := begins_eq_zero.1 (by omega)
        obtain ⟨hfragments, hempty⟩ := (hkept hmore).1 hsame
        exact ⟨hfragments, hmore, hempty⟩
      · rintro ⟨hfragments, hmore, hempty⟩
        exact (hkept hmore).2 ⟨hfragments, hempty⟩

/-- The blocks hold all that the first choices say when no chunk is taken in part, and nothing comes
after the end. -/
theorem holds_iff {final : Stage} (trailing : List (ChatCompletionsStreamResponse F))
    (hholds : final.Holds (first :: rest)) (horderly : Orderly (first :: rest))
    (hcalls : CallFragments 0
      ((first :: rest ++ trailing).flatMap ChatCompletionsStreamResponse.fragments)) :
    (textOf final.blocks =
          concat ((first :: rest ++ trailing).map ChatCompletionsStreamResponse.text) ∧
        thinkingOf final.blocks =
          concat ((first :: rest ++ trailing).map ChatCompletionsStreamResponse.reasoning) ∧
        (callsOf final.blocks).map ToolCall.arguments =
          (reassemble ((first :: rest ++ trailing).flatMap
            ChatCompletionsStreamResponse.fragments)).map fun call => call.2.arguments) ↔
      (∀ chunk ∈ first :: rest, chunk.kinds.length ≤ 1) ∧
        argumentsOf first.fragments.tail = "" ∧
        ∀ chunk ∈ trailing, chunk.text = "" ∧ chunk.reasoning = "" ∧
          Continue chunk.fragments ∧ argumentsOf chunk.fragments = "" := by
  rw [List.flatMap_append] at hcalls ⊢
  rw [hholds.text, hholds.thinking, hholds.calls, keptCalls_iff horderly hcalls, List.map_append,
    List.map_append, concat_append, concat_append,
    concat_eq_append_iff fun chunk _ => takenText_visible chunk,
    concat_eq_append_iff fun chunk _ => takenReasoning_visible chunk, concat_map_eq_empty,
    concat_map_eq_empty, continue_flatMap, argumentsOf_flatMap]
  simp only [kinds_length_le_one_iff]
  constructor
  · rintro ⟨⟨htext, htexts⟩, ⟨hreasoning, hreasonings⟩, hbegun, hcontinue, harguments⟩
    exact ⟨fun chunk hmem => ⟨htext chunk hmem, hreasoning chunk hmem⟩, hbegun,
      fun chunk hmem => ⟨htexts chunk hmem, hreasonings chunk hmem, hcontinue chunk hmem,
        harguments chunk hmem⟩⟩
  · rintro ⟨hwhole, hbegun, htrailing⟩
    exact ⟨⟨fun chunk hmem => (hwhole chunk hmem).1, fun chunk hmem => (htrailing chunk hmem).1⟩,
      ⟨fun chunk hmem => (hwhole chunk hmem).2, fun chunk hmem => (htrailing chunk hmem).2.1⟩,
      hbegun, fun chunk hmem => (htrailing chunk hmem).2.2.1,
      fun chunk hmem => (htrailing chunk hmem).2.2.2⟩

theorem Orderly.continue_tail (horderly : Orderly (first :: rest)) :
    Continue first.fragments.tail := by
  have hcalls := horderly.calls
  rw [List.flatMap_cons] at hcalls
  cases hfragments : first.fragments with
  | nil => exact continue_nil
  | cons fragment fragments =>
      rw [hfragments, List.cons_append, List.tail_cons, continue_append] at hcalls
      exact hcalls.1

theorem toFinish_cons (first : ChatCompletionsStreamResponse F)
    (rest : List (ChatCompletionsStreamResponse F)) :
    ∃ told, toFinish (first :: rest) = first :: told := by
  rw [toFinish]
  split
  case isTrue => exact ⟨_, rfl⟩
  case isFalse => exact ⟨[], rfl⟩

/-- How a client reads a stream whose first chunk begins one call at most. -/
theorem read_iff (estimatePromptTokens : ℤ)
    (hcalls : CallFragments 0
      ((first :: rest).flatMap ChatCompletionsStreamResponse.fragments))
    (hcontinue : Continue first.fragments.tail) :
    Reader.before.readAll
        (oaiStreamHandler usage (.initial estimatePromptTokens) (first :: rest)) =
          some (.ended blocks stopReason) ↔
      ∃ final, Stage.runAll (toFinish (first :: rest)) = some final ∧
        final.Ends false (first :: rest) blocks stopReason ∧ 2 ≤ (first :: rest).length ∧
        ((∀ chunk ∈ (first :: rest).head?, chunk.finish = "") → 3 ≤ (first :: rest).length) := by
  have hhead : ∀ chunk ∈ (first :: rest).head?, Continue chunk.fragments.tail := by
    rintro _ ⟨rfl⟩
    exact hcontinue
  rw [readAll_stream estimatePromptTokens hcalls hhead, streamOutcome_iff]

/-! ## What is kept of all choices -/

/-- What is no more than the first choices say is all that is said when they say it all. -/
theorem said_iff {f : ChoiceDelta → String} {said : String} (hempty : f ChoiceDelta.empty = "")
    (hlength : said.length ≤ (concat (chunks.map fun chunk => f chunk.delta)).length) :
    said = concat ((allChoices chunks).map fun choice => f choice.delta) ↔
      said = concat (chunks.map fun chunk => f chunk.delta) ∧
        ∀ choice ∈ otherChoices chunks, f choice.delta = "" := by
  rw [concat_firstChoices hempty] at hlength ⊢
  constructor
  · intro hsaid
    rw [hsaid] at hlength
    have hothers := others_of_length_le hlength
    exact ⟨hsaid.trans (concat_allChoices hothers), hothers⟩
  · rintro ⟨hsaid, hothers⟩
    exact hsaid.trans (concat_allChoices hothers).symm

theorem argumentsOf_choices (choices : List StreamChoice) :
    argumentsOf (choices.flatMap fun choice => choice.delta.fragments) =
      concat (choices.map fun choice => argumentsOf choice.delta.fragments) := by
  rw [argumentsOf, List.map_flatMap, concat_flatMap]
  rfl

theorem argumentsOf_chunks (chunks : List (ChatCompletionsStreamResponse F)) :
    argumentsOf (chunks.flatMap ChatCompletionsStreamResponse.fragments) =
      concat (chunks.map fun chunk => argumentsOf chunk.delta.fragments) := by
  rw [argumentsOf, List.map_flatMap, concat_flatMap]
  rfl

/-- There is one call at most in the blocks, with arguments of the chunks. -/
theorem keptCalls_cases (first : ChatCompletionsStreamResponse F)
    (told trailing : List (ChatCompletionsStreamResponse F)) :
    (keptCalls (first :: told)).map ToolCall.arguments = [] ∨
      ∃ arguments, (keptCalls (first :: told)).map ToolCall.arguments = [arguments] ∧
        arguments.length ≤ (argumentsOf ((first :: told ++ trailing).flatMap
          ChatCompletionsStreamResponse.fragments)).length := by
  rw [keptCalls]
  cases hfragments : first.fragments with
  | nil => exact .inl rfl
  | cons fragment fragments =>
      refine .inr ⟨_, rfl, ?_⟩
      rw [List.cons_append, List.flatMap_cons, hfragments, List.flatMap_append, argumentsOf_append,
        argumentsOf_append, argumentsOf_cons]
      simp only [String.length_append]
      omega

section Choices

variable {told trailing : List (ChatCompletionsStreamResponse F)} {final : Stage}

/-- Without a call in the other choices there are fragments only if the first ones have some. -/
theorem fragmentsOf_eq_nil_iff (hall : CallFragments 0 (fragmentsOf chunks))
    (hothers : begins ((otherChoices chunks).flatMap fun choice => choice.delta.fragments) = 0) :
    fragmentsOf chunks = [] ↔
      chunks.flatMap ChatCompletionsStreamResponse.fragments = [] := by
  constructor
  · intro hnone
    rw [fragmentsOf_eq] at hnone
    rw [fragments_firstChoices]
    exact List.sublist_nil.1 (hnone ▸ (firstChoices_sublist chunks).flatMap _)
  · intro hnone
    have hbegins := begins_fragmentsOf chunks
    rw [hnone, hothers] at hbegins
    exact (continue_iff_nil hall).1 (begins_eq_zero.1 hbegins)

theorem callFragments_firstChoices
    (hcalls : ∀ number, CallFragments 0 (choiceFragments number chunks))
    (hone : beginsAt (· = 0) (fragmentsOf chunks) ≤ 1)
    (hothers : begins ((otherChoices chunks).flatMap fun choice => choice.delta.fragments) = 0) :
    CallFragments 0 (chunks.flatMap ChatCompletionsStreamResponse.fragments) := by
  have hbegins := begins_fragmentsOf chunks
  rw [hothers, Nat.add_zero] at hbegins
  refine callFragments_of_sublist ?_ hbegins.symm (callFragments_of_choices hcalls hone)
  rw [fragments_firstChoices, fragmentsOf_eq]
  exact (firstChoices_sublist chunks).flatMap _

/-- The one call of the blocks has the arguments of all choices exactly when it has those of the
first ones, and the others have none. -/
theorem keptCalls_choices_iff (hchunks : first :: told ++ trailing = chunks)
    (hcalls : ∀ number, CallFragments 0 (choiceFragments number chunks))
    (hone : beginsAt (· = 0) (fragmentsOf chunks) ≤ 1)
    (hothers : begins ((otherChoices chunks).flatMap fun choice => choice.delta.fragments) = 0) :
    (keptCalls (first :: told)).map ToolCall.arguments =
        (callsOfChoices chunks).map ToolCall.arguments ↔
      (keptCalls (first :: told)).map ToolCall.arguments =
          (reassemble (chunks.flatMap ChatCompletionsStreamResponse.fragments)).map
            (fun call => call.2.arguments) ∧
        ∀ choice ∈ otherChoices chunks, argumentsOf choice.delta.fragments = "" := by
  have hall := callFragments_of_choices hcalls hone
  have hfirst := callFragments_firstChoices hcalls hone hothers
  have hbegins := begins_fragmentsOf chunks
  rw [hothers, Nat.add_zero] at hbegins
  have hkept := keptCalls_cases first told trailing
  rw [hchunks] at hkept
  rw [callsOfChoices_eq hcalls hone, List.map_map]
  -- There is one call at most, for the blocks have no more.
  by_cases hbegun : begins (fragmentsOf chunks) ≤ 1
  · have hsame := arguments_reassemble hall hbegun
    have hread := arguments_reassemble hfirst (hbegins ▸ hbegun)
    show _ = (reassemble (fragmentsOf chunks)).map (fun call => call.2.arguments) ↔ _
    rw [hsame, hread]
    by_cases hnone : fragmentsOf chunks = []
    · rw [if_pos hnone, if_pos ((fragmentsOf_eq_nil_iff hall hothers).1 hnone)]
      refine (and_iff_left fun choice hmem => ?_).symm
      rw [fragmentsOf_eq, List.flatMap_eq_nil_iff] at hnone
      rw [hnone choice (mem_otherChoices hmem)]
      rfl
    · rw [if_neg hnone, if_neg fun h => hnone ((fragmentsOf_eq_nil_iff hall hothers).2 h)]
      rcases hkept with hempty | ⟨arguments, harguments, hlength⟩
      · rw [hempty]
        exact iff_of_false (fun h => nomatch h) fun h => nomatch h.1
      · rw [argumentsOf_chunks] at hlength
        rw [harguments, List.singleton_inj, List.singleton_inj, argumentsOf_chunks, fragmentsOf_eq,
          argumentsOf_choices]
        exact said_iff (f := fun delta => argumentsOf delta.fragments) rfl hlength
  · have hmany : ∀ {calls : List (Option ℤ × ToolCall)}, calls.length = begins (fragmentsOf chunks) →
        (keptCalls (first :: told)).map ToolCall.arguments ≠
          calls.map fun call => call.2.arguments := by
      intro calls hlength hsame
      have hcount := congrArg List.length hsame
      rw [List.length_map, List.length_map, hlength] at hcount
      rcases hkept with hempty | ⟨arguments, harguments, -⟩
      · have hzero := congrArg List.length hempty
        rw [List.length_map, List.length_nil] at hzero
        omega
      · have hsingle := congrArg List.length harguments
        rw [List.length_map, List.length_singleton] at hsingle
        omega
    refine iff_of_false (hmany (length_reassemble hall)) fun h => ?_
    exact hmany ((length_reassemble hfirst).trans hbegins.symm) h.1

/-- The blocks hold all that the choices say exactly when they hold what the first ones say, and the
others are silent. -/
theorem holds_choices_iff (hchunks : first :: told ++ trailing = chunks)
    (hholds : final.Holds (first :: told))
    (hcalls : ∀ number, CallFragments 0 (choiceFragments number chunks))
    (hone : beginsAt (· = 0) (fragmentsOf chunks) ≤ 1)
    (hothers : begins ((otherChoices chunks).flatMap fun choice => choice.delta.fragments) = 0) :
    (textOf final.blocks = contentOf chunks ∧ thinkingOf final.blocks = reasoningOf chunks ∧
        (callsOf final.blocks).map ToolCall.arguments =
          (callsOfChoices chunks).map ToolCall.arguments) ↔
      (textOf final.blocks = concat (chunks.map ChatCompletionsStreamResponse.text) ∧
        thinkingOf final.blocks = concat (chunks.map ChatCompletionsStreamResponse.reasoning) ∧
        (callsOf final.blocks).map ToolCall.arguments =
          (reassemble (chunks.flatMap ChatCompletionsStreamResponse.fragments)).map
            fun call => call.2.arguments) ∧
        ∀ choice ∈ otherChoices chunks, choice.Silent := by
  have hcontinue : ∀ choice ∈ otherChoices chunks, Continue choice.delta.fragments :=
    List.forall_mem_flatMap.1 (begins_eq_zero.1 hothers)
  have htext : (textOf final.blocks).length ≤
      (concat (chunks.map ChatCompletionsStreamResponse.text)).length := by
    rw [hholds.text, ← hchunks, List.map_append, concat_append, String.length_append]
    exact (length_concat_le fun chunk _ => takenText_visible chunk).trans (Nat.le_add_right _ _)
  have hreasoning : (thinkingOf final.blocks).length ≤
      (concat (chunks.map ChatCompletionsStreamResponse.reasoning)).length := by
    rw [hholds.thinking, ← hchunks, List.map_append, concat_append, String.length_append]
    exact (length_concat_le fun chunk _ => takenReasoning_visible chunk).trans
      (Nat.le_add_right _ _)
  have htexts : textOf final.blocks = contentOf chunks ↔
      textOf final.blocks = concat (chunks.map ChatCompletionsStreamResponse.text) ∧
        ∀ choice ∈ otherChoices chunks, choice.delta.getContentString = "" := by
    rw [contentOf_eq]
    exact said_iff rfl htext
  have hreasonings : thinkingOf final.blocks = reasoningOf chunks ↔
      thinkingOf final.blocks = concat (chunks.map ChatCompletionsStreamResponse.reasoning) ∧
        ∀ choice ∈ otherChoices chunks, choice.delta.getReasoningContent = "" := by
    rw [reasoningOf_eq]
    exact said_iff rfl hreasoning
  rw [hholds.calls, htexts, hreasonings, keptCalls_choices_iff hchunks hcalls hone hothers]
  constructor
  · rintro ⟨⟨htext, htexts⟩, ⟨hreasoning, hreasonings⟩, hkept, harguments⟩
    exact ⟨⟨htext, hreasoning, hkept⟩, fun choice hmem => ⟨htexts choice hmem,
      hreasonings choice hmem, hcontinue choice hmem, harguments choice hmem⟩⟩
  · rintro ⟨⟨htext, hreasoning, hkept⟩, hsilent⟩
    exact ⟨⟨htext, fun choice hmem => (hsilent choice hmem).text⟩,
      ⟨hreasoning, fun choice hmem => (hsilent choice hmem).reasoning⟩, hkept,
      fun choice hmem => (hsilent choice hmem).arguments⟩

/-- The first fragment of the first choice begins a call. -/
theorem begins_first (hcalls : ∀ number, CallFragments 0 (choiceFragments number (first :: rest)))
    (hsome : first.fragments ≠ []) :
    begins first.fragments = 1 + begins first.fragments.tail := by
  cases hchoices : first.choices with
  | nil =>
      unfold ChatCompletionsStreamResponse.fragments ChatCompletionsStreamResponse.delta at hsome
      rw [hchoices] at hsome
      exact absurd rfl hsome
  | cons choice choices =>
      have hfragments : first.fragments = choice.delta.fragments := by
        unfold ChatCompletionsStreamResponse.fragments ChatCompletionsStreamResponse.delta
        rw [hchoices]
        rfl
      have hnumbered := hcalls choice.index
      rw [choiceFragments, allChoices, List.flatMap_cons, hchoices, List.cons_append,
        List.filter_cons_of_pos (by simp), List.flatMap_cons, ← hfragments] at hnumbered
      cases hcons : first.fragments with
      | nil => exact absurd hcons hsome
      | cons fragment fragments =>
          rw [hcons] at hnumbered
          have hname := hnumbered.left.begins.2.1
          rw [begins_cons, if_pos hname, List.tail_cons, Nat.add_comm]

/-- When no call is lost one begins at the index 0 at most, and none in the other choices or behind
the first fragment. -/
theorem calls_of_read (estimatePromptTokens : ℤ)
    (hcalls : ∀ number, CallFragments 0 (choiceFragments number (first :: rest)))
    (hended : Reader.before.readAll
      (oaiStreamHandler usage (.initial estimatePromptTokens) (first :: rest)) =
        some (.ended blocks stopReason))
    (hlength : toolBlocks blocks = begins (fragmentsOf (first :: rest))) :
    begins ((otherChoices (first :: rest)).flatMap fun choice => choice.delta.fragments) = 0 ∧
      beginsAt (· = 0) (fragmentsOf (first :: rest)) ≤ 1 ∧ Continue first.fragments.tail := by
  have hle := toolBlocks_le estimatePromptTokens hended
  have hlater := toolBlocks_le_later estimatePromptTokens hended
  have hall := begins_fragmentsOf (first :: rest)
  rw [List.flatMap_cons, begins_append] at hall
  -- The calls of the later chunks are among all calls.
  have hsub : (rest.flatMap ChatCompletionsStreamResponse.fragments).Sublist
      (fragmentsOf (first :: rest)) := by
    have hfirst : (first :: rest).flatMap ChatCompletionsStreamResponse.fragments =
        (firstChoices (first :: rest)).flatMap fun choice => choice.delta.fragments :=
      fragments_firstChoices _
    rw [List.flatMap_cons] at hfirst
    rw [fragmentsOf_eq]
    refine List.Sublist.trans ?_ ((firstChoices_sublist (first :: rest)).flatMap _)
    rw [← hfirst]
    exact List.sublist_append_right _ _
  have hcount : beginsAt (· ≠ 0) (rest.flatMap ChatCompletionsStreamResponse.fragments) ≤
      beginsAt (· ≠ 0) (fragmentsOf (first :: rest)) := hsub.countP_le
  have hsplit := begins_eq_beginsAt (index_isSome hcalls)
  by_cases hsome : first.fragments = []
  · rw [if_neg (not_not.2 hsome)] at hle
    refine ⟨by omega, by omega, ?_⟩
    rw [hsome]
    exact continue_nil
  · have hfirst := begins_first hcalls hsome
    rw [if_pos hsome] at hle
    exact ⟨by omega, by omega, begins_eq_zero.1 (by omega)⟩

/-- A stream that is convertible begins one call at most. -/
theorem Convertible.begins_le (hconvertible : Convertible (first :: rest)) :
    begins ((otherChoices (first :: rest)).flatMap fun choice => choice.delta.fragments) = 0 ∧
      beginsAt (· = 0) (fragmentsOf (first :: rest)) ≤ 1 := by
  have hothers : begins ((otherChoices (first :: rest)).flatMap
      fun choice => choice.delta.fragments) = 0 :=
    begins_eq_zero.2 (List.forall_mem_flatMap.2 fun choice hmem =>
      (hconvertible.others choice hmem).calls)
  have htrailing : begins ((afterFinish (first :: rest)).flatMap
      ChatCompletionsStreamResponse.fragments) = 0 :=
    begins_eq_zero.2 (List.forall_mem_flatMap.2 fun chunk hmem =>
      (hconvertible.trailing chunk hmem).2.2.1)
  have htold : begins ((toFinish (first :: rest)).flatMap
      ChatCompletionsStreamResponse.fragments) ≤ 1 := by
    have htail := begins_eq_zero.2 hconvertible.orderly.calls
    cases hfragments : (toFinish (first :: rest)).flatMap
        ChatCompletionsStreamResponse.fragments with
    | nil => exact Nat.zero_le 1
    | cons fragment fragments =>
        rw [hfragments, List.tail_cons] at htail
        rw [begins_cons, htail]
        split <;> omega
  have hbegins := begins_fragmentsOf (first :: rest)
  have hsplit : begins ((first :: rest).flatMap ChatCompletionsStreamResponse.fragments) ≤ 1 := by
    rw [← toFinish_append_afterFinish (first :: rest), List.flatMap_append, begins_append,
      htrailing]
    exact htold
  have hcount : beginsAt (· = 0) (fragmentsOf (first :: rest)) ≤
      begins (fragmentsOf (first :: rest)) :=
    List.countP_mono_left fun fragment _ h => (Bool.and_eq_true_iff.1 h).1
  exact ⟨hothers, by omega⟩

end Choices

/-- A Claude client has read the whole stream exactly when it is convertible. -/
theorem converted_iff (estimatePromptTokens : ℤ)
    (hcalls : ∀ number, CallFragments 0 (choiceFragments number (first :: rest))) :
    (∃ blocks stopReason, Converted
        (oaiStreamHandler usage (.initial estimatePromptTokens) (first :: rest)) (first :: rest)
        blocks stopReason) ↔
      Convertible (first :: rest) := by
  obtain ⟨told, htold⟩ := toFinish_cons first rest
  have hsplit : first :: told ++ afterFinish (first :: rest) = first :: rest := by
    rw [← htold, toFinish_append_afterFinish]
  have hkept := fun hone hothers final (hrun : Stage.runAll (first :: told) = some final) horderly =>
    (holds_choices_iff hsplit (Stage.holds_runAll hrun) hcalls hone hothers).trans
      (and_congr_left' (hsplit ▸ holds_iff (afterFinish (first :: rest)) (Stage.holds_runAll hrun)
        horderly (hsplit.symm ▸ callFragments_firstChoices hcalls hone hothers)))
  constructor
  · rintro ⟨blocks, stopReason, hread, htext, hthinking, harguments⟩
    -- No call is missing, so that the stages tell what is read.
    have hlength := congrArg List.length harguments
    rw [List.length_map, List.length_map, length_callsOfChoices hcalls, callsOf,
      ← toolBlocks_eq_length] at hlength
    obtain ⟨hothers, hone, hcontinue⟩ := calls_of_read estimatePromptTokens hcalls hread hlength
    have hfirst := callFragments_firstChoices hcalls hone hothers
    obtain ⟨final, hrun, hends, hstarted⟩ :=
      (read_iff estimatePromptTokens hfirst hcontinue).1 hread
    rw [htold] at hrun
    have horderly := (Stage.runAll_iff hcontinue).1 ⟨final, hrun, hends.block⟩
    rw [hends.blocks] at htext hthinking harguments
    obtain ⟨⟨hsingle, hbegun, htrailing⟩, hsilent⟩ :=
      (hkept hone hothers final hrun horderly).1 ⟨htext, hthinking, harguments⟩
    refine ⟨hstarted, hends.finished, fun hafter => ?_, htold ▸ horderly, htold ▸ hsingle, ?_,
      htrailing, hsilent⟩
    · exact (hends.usage hafter).resolve_left Bool.false_ne_true
    · rintro _ ⟨rfl⟩
      exact hbegun
  · intro hconvertible
    obtain ⟨hothers, hone⟩ := hconvertible.begins_le
    obtain ⟨hstarted, hfinished, husage, horderly, hsingle, hbegun, htrailing, hsilent⟩ :=
      hconvertible
    rw [htold] at horderly hsingle
    have hfirst := callFragments_firstChoices hcalls hone hothers
    have hcontinue := horderly.continue_tail
    obtain ⟨final, hrun, hblock⟩ := (Stage.runAll_iff hcontinue).2 horderly
    obtain ⟨htext, hthinking, harguments⟩ := (hkept hone hothers final hrun horderly).2
      ⟨⟨hsingle, hbegun first rfl, htrailing⟩, hsilent⟩
    refine ⟨final.blocks, openAIFinishReasonToClaudeStopReason (firstFinish (first :: rest)), ?_,
      htext, hthinking, harguments⟩
    exact (read_iff estimatePromptTokens hfirst hcontinue).2 ⟨final, htold ▸ hrun,
      ⟨hfinished, hblock, fun hafter => .inr (husage hafter), rfl, rfl⟩, hstarted⟩

/-- A chunk of one choice. -/
def sampleChunk (content reasoning : String) (toolCalls : List ToolCallResponse)
    (finishReason : Option String) : ChatCompletionsStreamResponse ℕ where
  id := "chatcmpl-1"
  model := "gpt"
  choices :=
    [{ index := 0
       delta :=
        { content := some content
          reasoningContent := some reasoning
          reasoning := none
          role := "assistant"
          toolCalls := some toolCalls }
       finishReason := finishReason }]
  usage := none

/-- Thinking and then a text. -/
def thoughtfulChunks : List (ChatCompletionsStreamResponse ℕ) :=
  [sampleChunk "" "Two " [] none, sampleChunk "" "cases." [] none, sampleChunk "Yes" "" [] none,
    sampleChunk "" "" [] (some "stop")]

theorem converted_sample : ∃ blocks stopReason, Converted
    (oaiStreamHandler (Usage.empty : Usage ℕ) (.initial 10) thoughtfulChunks) thoughtfulChunks
    blocks stopReason :=
  have hcalls : ∀ number, CallFragments 0 (choiceFragments number thoughtfulChunks) := by
    intro number
    have hnone : choiceFragments number thoughtfulChunks = [] :=
      List.flatMap_eq_nil_iff.2 fun choice hmem =>
        (by decide : ∀ choice ∈ allChoices thoughtfulChunks, choice.delta.fragments = []) choice
          (List.mem_filter.1 hmem).1
    rw [hnone]
    trivial
  (converted_iff 10 hcalls).2
    { length := ⟨by decide, fun _ => by decide⟩
      finished := by decide
      usage := fun hafter => absurd rfl hafter
      orderly :=
        { content := by decide
          order := by decide
          tools := fun htools => absurd htools (by decide)
          calls := continue_nil
          alone := by
            rintro _ ⟨rfl⟩ hfragments
            exact absurd rfl hfragments }
      single := by decide
      begun := by
        rintro _ ⟨rfl⟩
        rfl
      trailing := fun _ hmem => absurd hmem List.not_mem_nil
      others := fun _ hmem => absurd hmem List.not_mem_nil }

/-- A text and then a tool call. -/
def callingChunks : List (ChatCompletionsStreamResponse ℕ) :=
  [sampleChunk "Let me look." "" [] none,
    sampleChunk "" "" [⟨some 0, "call_1", "search", "\x7b\"q\":1\x7d"⟩] none,
    sampleChunk "" "" [] (some "tool_calls")]

/-- The tool call is opened at the index of the text. -/
theorem call_after_text_not_converted :
    (∀ number, CallFragments 0 (choiceFragments number callingChunks)) ∧
      ¬ ∃ blocks stopReason, Converted
        (oaiStreamHandler (Usage.empty : Usage ℕ) (.initial 10) callingChunks) callingChunks blocks
        stopReason := by
  refine ⟨fun number => ?_, ?_⟩
  · by_cases hnumber : number = 0
    · rw [hnumber]
      exact .inl ⟨rfl, by decide, trivial⟩
    · have hnone : (allChoices callingChunks).filter (fun choice => choice.index = number) = [] := by
        simp [allChoices, callingChunks, sampleChunk, Ne.symm hnumber]
      rw [choiceFragments, hnone]
      trivial
  rintro ⟨blocks, stopReason, hconverted⟩
  have hread : Reader.before.readAll
      (oaiStreamHandler (Usage.empty : Usage ℕ) (.initial 10) callingChunks) = none := rfl
  cases hread.symm.trans hconverted.read

end NewApi.Model
