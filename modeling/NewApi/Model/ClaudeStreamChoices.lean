import Mathlib.Data.List.Dedup
import NewApi.Lib.Runs
import NewApi.Model.ClaudeStreamOrder

/-!
# The choices of a converted stream

A chunk may have several choices, each with calls of its own, and the conversion reads the first
one only.  The others are no loss when they say nothing, and then one choice has all the calls.
-/

namespace NewApi.Model

open NewApi.Lib NewApi.Lib.Strings

variable {F : Type} {chunks : List (ChatCompletionsStreamResponse F)}

/-! ## All that the choices say -/

/-- The choices of all chunks. -/
def allChoices (chunks : List (ChatCompletionsStreamResponse F)) : List StreamChoice :=
  chunks.flatMap ChatCompletionsStreamResponse.choices

/-- The fragments of one choice, by its number. -/
def choiceFragments (number : ℤ) (chunks : List (ChatCompletionsStreamResponse F)) :
    List ToolCallResponse :=
  ((allChoices chunks).filter fun choice => choice.index = number).flatMap
    fun choice => choice.delta.fragments

def choiceNumbers (chunks : List (ChatCompletionsStreamResponse F)) : List ℤ :=
  ((allChoices chunks).map StreamChoice.index).dedup

/-- The tool calls of a stream, those of each choice put together. -/
def callsOfChoices (chunks : List (ChatCompletionsStreamResponse F)) : List ToolCall :=
  (choiceNumbers chunks).flatMap fun number =>
    (reassemble (choiceFragments number chunks)).map Prod.snd

/-- The choices that are read. -/
def firstChoices (chunks : List (ChatCompletionsStreamResponse F)) : List StreamChoice :=
  chunks.flatMap fun chunk => chunk.choices.head?.toList

/-- The choices behind the first one of a chunk. -/
def otherChoices (chunks : List (ChatCompletionsStreamResponse F)) : List StreamChoice :=
  chunks.flatMap fun chunk => chunk.choices.tail

/-- A choice that says nothing, and begins no call. -/
structure StreamChoice.Silent (choice : StreamChoice) : Prop where
  text : choice.delta.getContentString = ""
  reasoning : choice.delta.getReasoningContent = ""
  calls : Continue choice.delta.fragments
  arguments : argumentsOf choice.delta.fragments = ""

/-! ## The first choices and the others -/

theorem allChoices_perm (chunks : List (ChatCompletionsStreamResponse F)) :
    (allChoices chunks).Perm (firstChoices chunks ++ otherChoices chunks) := by
  induction chunks with
  | nil => exact .nil
  | cons chunk chunks ih =>
      have hchunk : chunk.choices = chunk.choices.head?.toList ++ chunk.choices.tail := by
        cases chunk.choices <;> rfl
      rw [allChoices, firstChoices, otherChoices, List.flatMap_cons, List.flatMap_cons,
        List.flatMap_cons, ← allChoices, ← firstChoices, ← otherChoices]
      refine ((List.Perm.of_eq hchunk).append ih).trans ?_
      rw [List.append_assoc, List.append_assoc]
      refine List.Perm.append_left _ ?_
      rw [← List.append_assoc, ← List.append_assoc]
      exact List.perm_append_comm.append_right _

theorem firstChoices_sublist (chunks : List (ChatCompletionsStreamResponse F)) :
    (firstChoices chunks).Sublist (allChoices chunks) := by
  induction chunks with
  | nil => exact .refl _
  | cons chunk chunks ih =>
      have hfirst : chunk.choices.head?.toList.Sublist chunk.choices := by
        cases chunk.choices with
        | nil => exact .refl _
        | cons choice choices => exact (List.nil_sublist _).cons_cons choice
      exact hfirst.append ih

theorem mem_otherChoices {choice : StreamChoice} (hmem : choice ∈ otherChoices chunks) :
    choice ∈ allChoices chunks :=
  (allChoices_perm chunks).mem_iff.2 (List.mem_append_right _ hmem)

theorem fragments_firstChoices (chunks : List (ChatCompletionsStreamResponse F)) :
    chunks.flatMap ChatCompletionsStreamResponse.fragments =
      (firstChoices chunks).flatMap fun choice => choice.delta.fragments := by
  rw [firstChoices, List.flatMap_assoc]
  refine List.flatMap_congr fun chunk _ => ?_
  unfold ChatCompletionsStreamResponse.fragments ChatCompletionsStreamResponse.delta
  cases chunk.choices with
  | nil => rfl
  | cons choice choices => exact (List.flatMap_singleton _ _).symm

/-- What a chunk is read as is what its first choice says. -/
theorem concat_firstChoices {f : ChoiceDelta → String} (hempty : f ChoiceDelta.empty = "")
    (chunks : List (ChatCompletionsStreamResponse F)) :
    concat (chunks.map fun chunk => f chunk.delta) =
      concat ((firstChoices chunks).map fun choice => f choice.delta) := by
  rw [firstChoices, List.map_flatMap, concat_flatMap]
  refine congrArg concat (List.map_congr_left fun chunk _ => ?_)
  unfold ChatCompletionsStreamResponse.delta
  cases chunk.choices with
  | nil => exact hempty
  | cons choice choices => exact (String.append_empty).symm

theorem length_concat_allChoices (f : StreamChoice → String)
    (chunks : List (ChatCompletionsStreamResponse F)) :
    (concat ((allChoices chunks).map f)).length =
      (concat ((firstChoices chunks).map f)).length +
        (concat ((otherChoices chunks).map f)).length := by
  have hperm : ∀ choices choices' : List StreamChoice, choices.Perm choices' →
      (concat (choices.map f)).length = (concat (choices'.map f)).length := by
    intro choices choices' hperm
    induction hperm with
    | nil => rfl
    | cons choice _ ih =>
        rw [List.map_cons, List.map_cons, concat_cons, concat_cons, String.length_append,
          String.length_append, ih]
    | swap choice choice' choices =>
        simp only [List.map_cons, concat_cons, String.length_append]
        omega
    | trans _ _ ih ih' => exact ih.trans ih'
  rw [hperm _ _ (allChoices_perm chunks), List.map_append, concat_append, String.length_append]

/-- When the first choices say as much as all of them, the others say nothing. -/
theorem others_of_length_le {f : StreamChoice → String}
    (hlength : (concat ((allChoices chunks).map f)).length ≤
      (concat ((firstChoices chunks).map f)).length) :
    ∀ choice ∈ otherChoices chunks, f choice = "" := by
  have hsplit := length_concat_allChoices f chunks
  have hnone : (concat ((otherChoices chunks).map f)).length = 0 := by omega
  exact concat_map_eq_empty.1 (String.length_eq_zero_iff.1 hnone)

theorem concat_allChoices {f : StreamChoice → String}
    (hothers : ∀ choice ∈ otherChoices chunks, f choice = "") :
    concat ((allChoices chunks).map f) = concat ((firstChoices chunks).map f) := by
  induction chunks with
  | nil => rfl
  | cons chunk chunks ih =>
      rw [otherChoices, List.flatMap_cons, List.forall_mem_append] at hothers
      rw [allChoices, firstChoices, List.flatMap_cons, List.flatMap_cons, List.map_append,
        List.map_append, concat_append, concat_append]
      refine congrArg₂ (· ++ ·) ?_ (ih hothers.2)
      have hchunk := hothers.1
      cases hchoices : chunk.choices with
      | nil => rfl
      | cons choice choices =>
          rw [hchoices, List.tail_cons] at hchunk
          rw [List.map_cons, concat_cons, concat_map_eq_empty.2 hchunk]
          rfl

/-! ## One choice with calls -/

section Fragments

variable {begun : ℕ} {fragment : ToolCallResponse} {fragments fewer : List ToolCallResponse}

theorem begins_perm {choices choices' : List StreamChoice} (hperm : choices.Perm choices') :
    begins (choices.flatMap fun choice => choice.delta.fragments) =
      begins (choices'.flatMap fun choice => choice.delta.fragments) :=
  (hperm.flatMap_right _).countP_eq _

theorem beginsAt_perm (p : ℤ → Bool) {choices choices' : List StreamChoice}
    (hperm : choices.Perm choices') :
    beginsAt p (choices.flatMap fun choice => choice.delta.fragments) =
      beginsAt p (choices'.flatMap fun choice => choice.delta.fragments) :=
  (hperm.flatMap_right _).countP_eq _

/-- Numbered fragments have an index. -/
theorem CallFragments.isSome (hcalls : CallFragments begun fragments) :
    ∀ fragment ∈ fragments, fragment.index.isSome := by
  induction fragments generalizing begun with
  | nil => exact fun _ hmem => absurd hmem List.not_mem_nil
  | cons fragment fragments ih =>
      rw [List.forall_mem_cons]
      rcases hcalls with ⟨hindex, -, hrest⟩ | ⟨⟨number, -, hindex⟩, -, hrest⟩
      · exact ⟨by rw [hindex]; rfl, ih hrest⟩
      · exact ⟨by rw [hindex]; rfl, ih hrest⟩

/-- Calls begin at the index 0 or at another one. -/
theorem begins_eq_beginsAt (hindex : ∀ fragment ∈ fragments, fragment.index.isSome) :
    begins fragments = beginsAt (· = 0) fragments + beginsAt (· ≠ 0) fragments := by
  induction fragments with
  | nil => rfl
  | cons fragment fragments ih =>
      rw [List.forall_mem_cons] at hindex
      obtain ⟨index, hsome⟩ := Option.isSome_iff_exists.1 hindex.1
      have hrest := ih hindex.2
      rw [begins, beginsAt, beginsAt] at hrest ⊢
      rw [List.countP_cons, List.countP_cons, List.countP_cons, hrest, hsome]
      by_cases hname : fragment.name = ""
      · simp [hname]
      · by_cases hzero : index = 0
        · simp [hname, hzero]
          omega
        · simp [hname, hzero]
          omega

/-- Fragments without some that begin no call are numbered as before. -/
theorem callFragments_of_sublist (hsub : fewer.Sublist fragments)
    (hbegins : begins fewer = begins fragments) (hcalls : CallFragments begun fragments) :
    CallFragments begun fewer := by
  induction hsub generalizing begun with
  | slnil => trivial
  | cons fragment hsub ih =>
      -- The fragment that is left out has no name.
      rename_i fewer fragments
      have hle : begins fewer ≤ begins fragments := hsub.countP_le
      rw [begins_cons] at hbegins
      rcases hcalls with ⟨-, hname, -⟩ | ⟨-, hname, hrest⟩
      · rw [if_pos hname] at hbegins
        omega
      · rw [if_neg (not_not.2 hname)] at hbegins
        exact ih hbegins hrest
  | cons_cons fragment hsub ih =>
      rename_i fewer fragments
      have hrest : begins fewer = begins fragments := by
        rw [begins_cons, begins_cons] at hbegins
        exact Nat.add_right_cancel hbegins
      rcases hcalls with ⟨hindex, hname, hcalls⟩ | ⟨hindex, hname, hcalls⟩
      · exact .inl ⟨hindex, hname, ih hrest hcalls⟩
      · exact .inr ⟨hindex, hname, ih hrest hcalls⟩

/-- The arguments of one call at most. -/
theorem arguments_reassemble (hcalls : CallFragments 0 fragments) (hbegins : begins fragments ≤ 1) :
    (reassemble fragments).map (fun call => call.2.arguments) =
      if fragments = [] then [] else [argumentsOf fragments] := by
  cases fragments with
  | nil => rfl
  | cons fragment fragments =>
      obtain ⟨-, hname, -⟩ := hcalls.begins
      rw [begins_cons, if_pos hname] at hbegins
      have hcontinue : Continue fragments := begins_eq_zero.1 (by omega)
      rw [reassemble_single hcalls hcontinue, if_neg (List.cons_ne_nil _ _)]
      rfl

end Fragments

section Numbers

variable {choices : List StreamChoice} {numbers : List ℤ}

theorem begins_filter (p : StreamChoice → Bool) (choices : List StreamChoice) :
    begins (choices.flatMap fun choice => choice.delta.fragments) =
      begins ((choices.filter p).flatMap fun choice => choice.delta.fragments) +
        begins ((choices.filter fun choice => !p choice).flatMap
          fun choice => choice.delta.fragments) := by
  rw [← begins_append, ← List.flatMap_append]
  exact begins_perm (List.filter_append_perm p choices).symm

/-- The calls of each choice are all calls. -/
theorem length_flatMap_numbers {β : Type} {g : ℤ → List β} (hnodup : numbers.Nodup)
    (hall : ∀ choice ∈ choices, choice.index ∈ numbers)
    (hlength : ∀ number ∈ numbers, (g number).length =
      begins ((choices.filter fun choice => choice.index = number).flatMap
        fun choice => choice.delta.fragments)) :
    (numbers.flatMap g).length = begins (choices.flatMap fun choice => choice.delta.fragments) := by
  induction numbers generalizing choices with
  | nil =>
      have hnone : choices = [] :=
        List.eq_nil_iff_forall_not_mem.2 fun choice hmem => List.not_mem_nil (hall choice hmem)
      rw [hnone]
      rfl
  | cons number numbers ih =>
      rw [List.nodup_cons] at hnodup
      rw [List.forall_mem_cons] at hlength
      rw [List.flatMap_cons, List.length_append, hlength.1,
        begins_filter (fun choice => choice.index = number) choices]
      refine congrArg _ (ih hnodup.2 (fun choice hmem => ?_) fun other hother => ?_)
      · obtain ⟨hmem, hindex⟩ := List.mem_filter.1 hmem
        exact (List.mem_cons.1 (hall choice hmem)).resolve_left (by simpa using hindex)
      · rw [hlength.2 other hother, List.filter_filter]
        refine congrArg begins (congrArg _ (List.filter_congr fun choice _ => ?_))
        by_cases hindex : choice.index = other
        · have hne : other ≠ number := fun hsame => hnodup.1 (hsame ▸ hother)
          simp [hindex, hne]
        · simp [hindex]

end Numbers

theorem length_callsOfChoices
    (hcalls : ∀ number, CallFragments 0 (choiceFragments number chunks)) :
    (callsOfChoices chunks).length = begins (fragmentsOf chunks) := by
  rw [fragmentsOf_eq]
  refine length_flatMap_numbers (List.nodup_dedup _) (fun choice hmem => ?_) fun number _ => ?_
  · exact List.mem_dedup.2 (List.mem_map_of_mem hmem)
  · rw [List.length_map, length_reassemble (hcalls number)]
    rfl

theorem begins_fragmentsOf (chunks : List (ChatCompletionsStreamResponse F)) :
    begins (fragmentsOf chunks) =
      begins (chunks.flatMap ChatCompletionsStreamResponse.fragments) +
        begins ((otherChoices chunks).flatMap fun choice => choice.delta.fragments) := by
  rw [fragmentsOf_eq, fragments_firstChoices, ← begins_append, ← List.flatMap_append]
  exact begins_perm (allChoices_perm chunks)

theorem index_isSome (hcalls : ∀ number, CallFragments 0 (choiceFragments number chunks)) :
    ∀ fragment ∈ fragmentsOf chunks, fragment.index.isSome := by
  intro fragment hmem
  rw [fragmentsOf_eq] at hmem
  obtain ⟨choice, hchoice, hfragment⟩ := List.mem_flatMap.1 hmem
  exact (hcalls choice.index).isSome fragment (List.mem_flatMap.2
    ⟨choice, List.mem_filter.2 ⟨hchoice, decide_eq_true rfl⟩, hfragment⟩)

/-- A choice with fragments begins a call at the index 0. -/
theorem one_le_beginsAt {fragments : List ToolCallResponse} (hcalls : CallFragments 0 fragments)
    (hsome : fragments ≠ []) : 1 ≤ beginsAt (· = 0) fragments := by
  cases fragments with
  | nil => exact absurd rfl hsome
  | cons fragment fragments =>
      obtain ⟨hindex, hname, -⟩ := hcalls.begins
      rw [beginsAt, List.countP_cons_of_pos (by simp [hindex, hname])]
      exact Nat.le_add_left 1 _

/-- Of two choices, each with fragments, both begin a call at the index 0. -/
theorem choice_unique (hcalls : ∀ number, CallFragments 0 (choiceFragments number chunks))
    (hone : beginsAt (· = 0) (fragmentsOf chunks) ≤ 1) {number other : ℤ}
    (hnumber : choiceFragments number chunks ≠ []) (hother : choiceFragments other chunks ≠ []) :
    number = other := by
  by_contra hne
  have hsplit : beginsAt (· = 0) (fragmentsOf chunks) =
      beginsAt (· = 0) (choiceFragments number chunks) +
        beginsAt (· = 0) (((allChoices chunks).filter fun choice => !decide (choice.index = number)).flatMap
          fun choice => choice.delta.fragments) := by
    rw [← beginsAt_append, choiceFragments, ← List.flatMap_append, fragmentsOf_eq]
    exact beginsAt_perm _ (List.filter_append_perm _ (allChoices chunks)).symm
  have hrest : (choiceFragments other chunks).Sublist
      (((allChoices chunks).filter fun choice => !decide (choice.index = number)).flatMap
        fun choice => choice.delta.fragments) := by
    refine List.Sublist.flatMap ?_ _
    have hsub : ((allChoices chunks).filter fun choice => choice.index = other) =
        ((allChoices chunks).filter fun choice => !decide (choice.index = number)).filter
          fun choice => choice.index = other := by
      rw [List.filter_filter]
      refine List.filter_congr fun choice _ => ?_
      by_cases hindex : choice.index = other
      · simp [hindex, Ne.symm hne]
      · simp [hindex]
    rw [hsub]
    exact List.filter_sublist
  have hfirst := one_le_beginsAt (hcalls number) hnumber
  have hsecond := one_le_beginsAt (hcalls other) hother
  have hle := hrest.countP_le (p := fun fragment => fragment.name ≠ "" && fragment.index.all (· = 0))
  rw [← beginsAt, ← beginsAt] at hle
  omega

/-- All fragments are those of one choice. -/
theorem fragmentsOf_single (hcalls : ∀ number, CallFragments 0 (choiceFragments number chunks))
    (hone : beginsAt (· = 0) (fragmentsOf chunks) ≤ 1) {number : ℤ}
    (hnumber : choiceFragments number chunks ≠ []) :
    fragmentsOf chunks = choiceFragments number chunks := by
  rw [fragmentsOf_eq, choiceFragments, Runs.flatMap_filter]
  refine List.flatMap_congr fun choice hmem => ?_
  split
  case isTrue => rfl
  case isFalse hindex =>
    by_contra hsome
    have hother : choiceFragments choice.index chunks ≠ [] := by
      intro hnil
      exact hsome (List.flatMap_eq_nil_iff.1 hnil choice
        (List.mem_filter.2 ⟨hmem, decide_eq_true rfl⟩))
    exact hindex (decide_eq_true (choice_unique hcalls hone hother hnumber))

theorem exists_choice (hsome : fragmentsOf chunks ≠ []) :
    ∃ number ∈ choiceNumbers chunks, choiceFragments number chunks ≠ [] := by
  rw [fragmentsOf_eq, Ne, List.flatMap_eq_nil_iff, not_forall] at hsome
  obtain ⟨choice, hchoice⟩ := hsome
  rw [Classical.not_imp] at hchoice
  refine ⟨choice.index, List.mem_dedup.2 (List.mem_map_of_mem hchoice.1), fun hnil => ?_⟩
  exact hchoice.2 (List.flatMap_eq_nil_iff.1 hnil choice
    (List.mem_filter.2 ⟨hchoice.1, decide_eq_true rfl⟩))

/-- When one call at most begins at the index 0, all fragments are numbered as those of one
choice. -/
theorem callFragments_of_choices
    (hcalls : ∀ number, CallFragments 0 (choiceFragments number chunks))
    (hone : beginsAt (· = 0) (fragmentsOf chunks) ≤ 1) : CallFragments 0 (fragmentsOf chunks) := by
  by_cases hnone : fragmentsOf chunks = []
  · rw [hnone]
    trivial
  · obtain ⟨number, -, hnumber⟩ := exists_choice hnone
    rw [fragmentsOf_single hcalls hone hnumber]
    exact hcalls number

theorem flatMap_unique {α β : Type} {l : List α} {g : α → List β} {a : α} (hnodup : l.Nodup)
    (ha : a ∈ l) (hothers : ∀ b ∈ l, b ≠ a → g b = []) : l.flatMap g = g a := by
  induction l with
  | nil => exact absurd ha List.not_mem_nil
  | cons b l ih =>
      rw [List.nodup_cons] at hnodup
      rw [List.forall_mem_cons] at hothers
      rw [List.flatMap_cons]
      rcases List.mem_cons.1 ha with rfl | ha
      · rw [List.flatMap_eq_nil_iff.2 fun b hb => hothers.2 b hb fun hsame => hnodup.1 (hsame ▸ hb),
          List.append_nil]
      · rw [hothers.1 fun hsame => hnodup.1 (hsame ▸ ha), List.nil_append, ih hnodup.2 ha hothers.2]

/-- The calls of the one choice that has any. -/
theorem callsOfChoices_eq (hcalls : ∀ number, CallFragments 0 (choiceFragments number chunks))
    (hone : beginsAt (· = 0) (fragmentsOf chunks) ≤ 1) :
    callsOfChoices chunks = (reassemble (fragmentsOf chunks)).map Prod.snd := by
  by_cases hnone : fragmentsOf chunks = []
  · have hlength := length_callsOfChoices hcalls
    rw [hnone] at hlength ⊢
    exact List.length_eq_zero_iff.1 hlength
  · obtain ⟨number, hmem, hnumber⟩ := exists_choice hnone
    rw [fragmentsOf_single hcalls hone hnumber, callsOfChoices]
    refine flatMap_unique (List.nodup_dedup _) hmem fun other _ hne => ?_
    have hother : choiceFragments other chunks = [] := by
      by_contra hsome
      exact hne (choice_unique hcalls hone hsome hnumber)
    rw [hother]
    rfl

end NewApi.Model
