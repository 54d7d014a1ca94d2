import NewApi.Lib.Json
import NewApi.Model.OpenAIMessage
import NewApi.Model.ValidRequest

/-!
# The text of a stream for billing

A stream without usage is billed by its text and its tool calls.  `processTokens` decodes the items
of the stream all at once, as the array with commas between them; where that fails it decodes one
after the other, and stops at the first that fails for chat, while it goes on behind it for
completions.  An item that decodes alone may be text of another one in the array.
-/

namespace NewApi.Model

open NewApi.Lib NewApi.Lib.Strings

/-- The nesting that `encoding/json` allows. -/
def maxNestingDepth : ℕ := 10000

/-- The choices of `dto.CompletionsStreamResponse`. -/
structure CompletionChoice where
  text : String
  finishReason : String
deriving DecidableEq

/-- `dto.CompletionsStreamResponse`. -/
structure CompletionsStreamResponse where
  choices : List CompletionChoice
deriving DecidableEq

/-- `responseTextBuilder` and `toolCount`. -/
structure StreamText where
  text : String
  toolCount : ℕ
deriving DecidableEq

namespace StreamText

/-- What the handler starts with. -/
def empty : StreamText where
  text := ""
  toolCount := 0

def writeString (s : StreamText) (text : String) : StreamText :=
  { s with text := s.text ++ text }

def countTools (s : StreamText) (tools : ℕ) : StreamText :=
  { s with toolCount := if tools > s.toolCount then tools else s.toolCount }

/-- What `ProcessStreamResponse` does with a choice. -/
def processChoice (s : StreamText) (choice : StreamChoice) : StreamText :=
  let s := s.writeString choice.delta.getContentString
  let s := s.writeString choice.delta.getReasoningContent
  match choice.delta.toolCalls with
  | none => s
  | some toolCalls => toolCalls.foldl (fun s tool =>
      (s.writeString tool.name).writeString tool.arguments) (s.countTools toolCalls.length)

variable {F : Type}

def processStreamResponse (s : StreamText) (response : ChatCompletionsStreamResponse F) :
    StreamText :=
  response.choices.foldl processChoice s

def processCompletion (s : StreamText) (response : CompletionsStreamResponse) : StreamText :=
  response.choices.foldl (fun s choice => s.writeString choice.text) s

end StreamText

section Unmarshal

variable {R : Type}

/-- `json.Unmarshal` into a struct, by what the value of the text is bound to. -/
def unmarshal (decode : Json → Option R) (data : String) : Option R :=
  (Json.parse maxNestingDepth data.toList).bind decode

/-- `json.Unmarshal` into a slice of structs. -/
def unmarshalSlice (decode : Json → Option R) (data : String) : Option (List R) :=
  (Json.parse maxNestingDepth data.toList).bind fun
    | .null => some []
    | .arr items => items.mapM decode
    | _ => none

/-- The item decodes on its own. -/
def decodes (decode : Json → Option R) (item : String) : Bool :=
  (unmarshal decode item).isSome

/-- `streamResp`. -/
def joinItems (streamItems : List String) : String :=
  "[" ++ join ',' streamItems ++ "]"

end Unmarshal

/-- How values are bound to the structs of the two modes. -/
structure StreamDecoders (F : Type) where
  chat : Json → Option (ChatCompletionsStreamResponse F)
  completions : Json → Option CompletionsStreamResponse

namespace StreamDecoders

variable {F : Type}

/-- The items one by one; the first that does not decode is an error. -/
def processChatItems (decoders : StreamDecoders F) : List String → StreamText → StreamText × Bool
  | [], s => (s, true)
  | item :: items, s =>
      match unmarshal decoders.chat item with
      | none => (s, false)
      | some response => decoders.processChatItems items (s.processStreamResponse response)

/-- The result says whether there is no error. -/
def processChatCompletions (decoders : StreamDecoders F) (streamResp : String)
    (streamItems : List String) (s : StreamText) : StreamText × Bool :=
  match unmarshalSlice decoders.chat streamResp with
  | none => decoders.processChatItems streamItems s
  | some responses => (responses.foldl StreamText.processStreamResponse s, true)

/-- An item that does not decode is passed over. -/
def processCompletionItem (decoders : StreamDecoders F) (s : StreamText) (item : String) :
    StreamText :=
  match unmarshal decoders.completions item with
  | none => s
  | some response => s.processCompletion response

def processCompletions (decoders : StreamDecoders F) (streamResp : String)
    (streamItems : List String) (s : StreamText) : StreamText × Bool :=
  match unmarshalSlice decoders.completions streamResp with
  | none => (streamItems.foldl decoders.processCompletionItem s, true)
  | some responses => (responses.foldl StreamText.processCompletion s, true)

def processTokens (decoders : StreamDecoders F) (relayMode : RelayMode)
    (streamItems : List String) (s : StreamText) : StreamText × Bool :=
  match relayMode with
  | .chatCompletions => decoders.processChatCompletions (joinItems streamItems) streamItems s
  | .completions => decoders.processCompletions (joinItems streamItems) streamItems s
  | _ => (s, true)

end StreamDecoders

/-! ## What the items carry -/

namespace StreamText

/-- The text goes on, and the larger number of tool calls counts. -/
def add (s t : StreamText) : StreamText where
  text := s.text ++ t.text
  toolCount := max s.toolCount t.toolCount

/-- The texts in order, with the largest number of tool calls. -/
def carried (pieces : List StreamText) : StreamText where
  text := concat (pieces.map StreamText.text)
  toolCount := (pieces.map StreamText.toolCount).foldr max 0

/-- Content, reasoning, and the names and arguments of the tools. -/
def ofChoice (choice : StreamChoice) : StreamText where
  text := choice.delta.getContentString ++ choice.delta.getReasoningContent ++
    concat (choice.delta.fragments.map fun tool => tool.name ++ tool.arguments)
  toolCount := choice.delta.fragments.length

def ofCompletion (response : CompletionsStreamResponse) : StreamText where
  text := concat (response.choices.map CompletionChoice.text)
  toolCount := 0

variable {F : Type}

def ofResponse (response : ChatCompletionsStreamResponse F) : StreamText :=
  carried (response.choices.map ofChoice)

/-- What the items that decode on their own carry together. -/
def ofItems {R : Type} (decode : Json → Option R) (piece : R → StreamText)
    (items : List String) : StreamText :=
  carried ((items.filterMap (unmarshal decode)).map piece)

variable {s t : StreamText} {p : StreamText} {ps qs : List StreamText}

theorem add_assoc (s t u : StreamText) : (s.add t).add u = s.add (t.add u) := by
  simp only [add, String.append_assoc, Nat.max_assoc]

theorem add_empty (s : StreamText) : s.add empty = s := by
  simp [add, empty]

theorem empty_add (s : StreamText) : empty.add s = s := by
  simp [add, empty]

theorem add_eq_self_iff : s.add t = s ↔ t.text = "" ∧ t.toolCount ≤ s.toolCount := by
  rw [StreamText.mk.injEq]
  show s.text ++ t.text = s.text ∧ max s.toolCount t.toolCount = s.toolCount ↔ _
  rw [String.append_eq_left_iff, max_eq_left_iff]

theorem carried_nil : carried [] = empty := rfl

theorem carried_cons (p : StreamText) (ps : List StreamText) :
    carried (p :: ps) = p.add (carried ps) := rfl

theorem carried_append (ps qs : List StreamText) :
    carried (ps ++ qs) = (carried ps).add (carried qs) := by
  induction ps with
  | nil => rw [List.nil_append, carried_nil, empty_add]
  | cons p ps ih => rw [List.cons_append, carried_cons, carried_cons, ih, add_assoc]

/-- A loop whose turns add a piece adds all that the pieces carry. -/
theorem foldl_eq_add {α : Type} {step : StreamText → α → StreamText} {piece : α → StreamText}
    (hstep : ∀ s a, step s a = s.add (piece a)) (as : List α) (s : StreamText) :
    as.foldl step s = s.add (carried (as.map piece)) := by
  induction as generalizing s with
  | nil => rw [List.foldl_nil, List.map_nil, carried_nil, add_empty]
  | cons a as ih => rw [List.foldl_cons, ih, hstep, List.map_cons, carried_cons, add_assoc]

theorem writeString_writeString (s : StreamText) (first second : String) :
    (s.writeString first).writeString second = s.writeString (first ++ second) := by
  simp only [writeString, String.append_assoc]

theorem foldl_writeString {α : Type} {step : StreamText → α → StreamText} {text : α → String}
    (hstep : ∀ s a, step s a = s.writeString (text a)) (as : List α) (s : StreamText) :
    as.foldl step s = s.writeString (concat (as.map text)) := by
  induction as generalizing s with
  | nil => simp [writeString]
  | cons a as ih =>
      rw [List.foldl_cons, ih, hstep, writeString_writeString, List.map_cons, concat_cons]

theorem countTools_eq (s : StreamText) (tools : ℕ) :
    s.countTools tools = { s with toolCount := max s.toolCount tools } := by
  unfold countTools
  by_cases hmore : tools > s.toolCount
  · rw [if_pos hmore, Nat.max_eq_right (Nat.le_of_lt hmore)]
  · rw [if_neg hmore, Nat.max_eq_left (Nat.le_of_not_lt hmore)]

theorem processChoice_eq (s : StreamText) (choice : StreamChoice) :
    s.processChoice choice = s.add (ofChoice choice) := by
  have htools : ∀ (s : StreamText) (tool : ToolCallResponse),
      (s.writeString tool.name).writeString tool.arguments =
        s.writeString (tool.name ++ tool.arguments) := fun s tool =>
    writeString_writeString s tool.name tool.arguments
  unfold processChoice add ofChoice ChoiceDelta.fragments
  dsimp only
  rw [writeString_writeString]
  cases choice.delta.toolCalls with
  | none => simp [writeString]
  | some toolCalls =>
      dsimp only
      rw [foldl_writeString htools, countTools_eq]
      simp only [writeString, Option.getD_some, String.append_assoc]

theorem processStreamResponse_eq (s : StreamText) (response : ChatCompletionsStreamResponse F) :
    s.processStreamResponse response = s.add (ofResponse response) :=
  foldl_eq_add processChoice_eq response.choices s

theorem processCompletion_eq (s : StreamText) (response : CompletionsStreamResponse) :
    s.processCompletion response = s.add (ofCompletion response) := by
  have htext : ∀ (s : StreamText) (choice : CompletionChoice),
      s.writeString choice.text = s.writeString choice.text := fun _ _ => rfl
  rw [processCompletion, foldl_writeString htext]
  simp [writeString, add, ofCompletion]

end StreamText

/-! ## All at once and one by one -/

section Together

variable {R : Type} {decode : Json → Option R} {items : List String} {responses : List R}

/-- Items that decode on their own are the elements of the array, if it is read at all. -/
theorem unmarshalSlice_joinItems (hall : ∀ item ∈ items, decodes decode item = true)
    (htogether : unmarshalSlice decode (joinItems items) = some responses) :
    responses = items.filterMap (unmarshal decode) := by
  obtain ⟨vs, hparsed, hdecoded⟩ : ∃ vs,
      List.Forall₂ (fun text v => Json.parse maxNestingDepth text = some v)
        (items.map String.toList) vs ∧
      vs.mapM decode = some (items.filterMap (unmarshal decode)) := by
    clear htogether
    induction items with
    | nil => exact ⟨[], .nil, rfl⟩
    | cons item items ih =>
        obtain ⟨hitem, hitems⟩ := List.forall_mem_cons.1 hall
        obtain ⟨vs, hparsed, hdecoded⟩ := ih hitems
        obtain ⟨response, hresponse⟩ := Option.isSome_iff_exists.1 hitem
        obtain ⟨v, hv, hdecode⟩ := Option.bind_eq_some_iff.1 hresponse
        refine ⟨v :: vs, .cons hv hparsed, ?_⟩
        rw [List.mapM_cons, hdecode, hdecoded, List.filterMap_cons_some hresponse]
        rfl
  obtain ⟨v, hv, hresponses⟩ := Option.bind_eq_some_iff.1 htogether
  have htext : (joinItems items).toList = Json.joined (items.map String.toList) := by
    rw [joinItems, String.toList_append, String.toList_append, toList_join]
    rfl
  rw [htext] at hv
  rw [Json.eq_of_parse_joined hparsed hv] at hresponses
  exact Option.some.inj (hresponses.symm.trans hdecoded)

theorem ofItems_append (piece : R → StreamText) (items rest : List String) :
    StreamText.ofItems decode piece (items ++ rest) =
      (StreamText.ofItems decode piece items).add (StreamText.ofItems decode piece rest) := by
  unfold StreamText.ofItems
  rw [List.filterMap_append, List.map_append, StreamText.carried_append]

theorem ofItems_cons_some (piece : R → StreamText) {item : String} {response : R}
    (hitem : unmarshal decode item = some response) (items : List String) :
    StreamText.ofItems decode piece (item :: items) =
      (piece response).add (StreamText.ofItems decode piece items) := by
  unfold StreamText.ofItems
  rw [List.filterMap_cons_some hitem, List.map_cons, StreamText.carried_cons]

theorem ofItems_cons_none (piece : R → StreamText) {item : String}
    (hitem : unmarshal decode item = none) (items : List String) :
    StreamText.ofItems decode piece (item :: items) = StreamText.ofItems decode piece items := by
  unfold StreamText.ofItems
  rw [List.filterMap_cons_none hitem]

/-- The array carries what its items carry when all of them decode. -/
theorem carried_of_all {piece : R → StreamText}
    (hall : ∀ item ∈ items, decodes decode item = true)
    (htogether : unmarshalSlice decode (joinItems items) = some responses) :
    StreamText.carried (responses.map piece) = StreamText.ofItems decode piece items := by
  rw [unmarshalSlice_joinItems hall htogether]
  rfl

end Together

namespace StreamDecoders

variable {F : Type} {decoders : StreamDecoders F}

open StreamText (ofItems ofResponse ofCompletion carried)

/-- The items that `processChatItems` gets to are those before the first that does not decode. -/
theorem processChatItems_fst (items : List String) (s : StreamText) :
    (decoders.processChatItems items s).1 =
      s.add (ofItems decoders.chat ofResponse (items.takeWhile (decodes decoders.chat))) := by
  induction items generalizing s with
  | nil => exact (StreamText.add_empty s).symm
  | cons item items ih =>
      rw [processChatItems]
      cases hitem : unmarshal decoders.chat item with
      | none =>
          have hstop : ¬ decodes decoders.chat item = true := by simp [decodes, hitem]
          rw [List.takeWhile_cons_of_neg hstop]
          exact (StreamText.add_empty s).symm
      | some response =>
          have hgo : decodes decoders.chat item = true := by simp [decodes, hitem]
          dsimp only
          rw [ih, List.takeWhile_cons_of_pos hgo, ofItems_cons_some ofResponse hitem,
            StreamText.processStreamResponse_eq, StreamText.add_assoc]

theorem foldl_processCompletionItem (items : List String) (s : StreamText) :
    items.foldl decoders.processCompletionItem s =
      s.add (ofItems decoders.completions ofCompletion items) := by
  induction items generalizing s with
  | nil => exact (StreamText.add_empty s).symm
  | cons item items ih =>
      rw [List.foldl_cons, ih, processCompletionItem]
      cases hitem : unmarshal decoders.completions item with
      | none => rw [ofItems_cons_none ofCompletion hitem]
      | some response =>
          dsimp only
          rw [ofItems_cons_some ofCompletion hitem, StreamText.processCompletion_eq,
            StreamText.add_assoc]

/-- Behind the first item that does not decode nothing more is carried. -/
def EndsAtMalformed (decoders : StreamDecoders F) (items : List String) : Prop :=
  (ofItems decoders.chat ofResponse (items.dropWhile (decodes decoders.chat))).text = "" ∧
    (ofItems decoders.chat ofResponse (items.dropWhile (decodes decoders.chat))).toolCount ≤
      (ofItems decoders.chat ofResponse (items.takeWhile (decodes decoders.chat))).toolCount

/-- All items of a chat decode; or, where they make up an array all the same, it carries what those
that decode carry; or, where they make up none, nothing comes behind the first that does not. -/
def ChatItemsKept (decoders : StreamDecoders F) (items : List String) : Prop :=
  (∀ item ∈ items, decodes decoders.chat item = true) ∨
    (∃ responses, unmarshalSlice decoders.chat (joinItems items) = some responses ∧
      carried (responses.map ofResponse) = ofItems decoders.chat ofResponse items) ∨
    (unmarshalSlice decoders.chat (joinItems items) = none ∧ decoders.EndsAtMalformed items)

/-- All items of completions decode; or, where they make up an array all the same, it carries what
those that decode carry; or they make up none. -/
def CompletionItemsKept (decoders : StreamDecoders F) (items : List String) : Prop :=
  (∀ item ∈ items, decodes decoders.completions item = true) ∨
    (∃ responses, unmarshalSlice decoders.completions (joinItems items) = some responses ∧
      carried (responses.map ofCompletion) = ofItems decoders.completions ofCompletion items) ∨
    unmarshalSlice decoders.completions (joinItems items) = none

theorem endsAtMalformed_of_all {items : List String}
    (hall : ∀ item ∈ items, decodes decoders.chat item = true) :
    decoders.EndsAtMalformed items := by
  have hdrop : items.dropWhile (decodes decoders.chat) = [] := List.dropWhile_eq_nil_iff.2 hall
  rw [EndsAtMalformed, hdrop]
  exact ⟨rfl, Nat.zero_le _⟩

/-! ## What is billed -/

section

variable {items : List String}

theorem chat_together {responses : List (ChatCompletionsStreamResponse F)}
    (htogether : unmarshalSlice decoders.chat (joinItems items) = some responses) :
    (decoders.processTokens .chatCompletions items .empty).1 =
      carried (responses.map ofResponse) := by
  show (decoders.processChatCompletions (joinItems items) items .empty).1 = _
  rw [processChatCompletions, htogether]
  show responses.foldl StreamText.processStreamResponse .empty = _
  rw [StreamText.foldl_eq_add StreamText.processStreamResponse_eq, StreamText.empty_add]

theorem chat_one_by_one (htogether : unmarshalSlice decoders.chat (joinItems items) = none) :
    (decoders.processTokens .chatCompletions items .empty).1 =
      ofItems decoders.chat ofResponse (items.takeWhile (decodes decoders.chat)) := by
  show (decoders.processChatCompletions (joinItems items) items .empty).1 = _
  rw [processChatCompletions, htogether]
  show (decoders.processChatItems items .empty).1 = _
  rw [processChatItems_fst, StreamText.empty_add]

theorem completions_together {responses : List CompletionsStreamResponse}
    (htogether : unmarshalSlice decoders.completions (joinItems items) = some responses) :
    (decoders.processTokens .completions items .empty).1 =
      carried (responses.map ofCompletion) := by
  show (decoders.processCompletions (joinItems items) items .empty).1 = _
  rw [processCompletions, htogether]
  show responses.foldl StreamText.processCompletion .empty = _
  rw [StreamText.foldl_eq_add StreamText.processCompletion_eq, StreamText.empty_add]

theorem completions_one_by_one
    (htogether : unmarshalSlice decoders.completions (joinItems items) = none) :
    (decoders.processTokens .completions items .empty).1 =
      ofItems decoders.completions ofCompletion items := by
  show (decoders.processCompletions (joinItems items) items .empty).1 = _
  rw [processCompletions, htogether]
  show items.foldl decoders.processCompletionItem .empty = _
  rw [foldl_processCompletionItem, StreamText.empty_add]

end

theorem chat_covers_iff (items : List String) :
    (decoders.processTokens .chatCompletions items .empty).1 =
      ofItems decoders.chat ofResponse items ↔ decoders.ChatItemsKept items := by
  unfold ChatItemsKept
  cases htogether : unmarshalSlice decoders.chat (joinItems items) with
  | some responses =>
      rw [chat_together htogether]
      constructor
      · intro hsame
        exact Or.inr (Or.inl ⟨responses, rfl, hsame⟩)
      · intro hkept
        obtain hall | ⟨_, hresponses, hsame⟩ | ⟨hnone, -⟩ := hkept
        · exact carried_of_all hall htogether
        · cases hresponses
          exact hsame
        · cases hnone
  | none =>
      have hsplit : ofItems decoders.chat ofResponse items =
          (ofItems decoders.chat ofResponse (items.takeWhile (decodes decoders.chat))).add
            (ofItems decoders.chat ofResponse (items.dropWhile (decodes decoders.chat))) := by
        rw [← ofItems_append, List.takeWhile_append_dropWhile]
      rw [chat_one_by_one htogether, hsplit, eq_comm, StreamText.add_eq_self_iff]
      constructor
      · intro hends
        exact Or.inr (Or.inr ⟨rfl, hends⟩)
      · intro hkept
        obtain hall | ⟨_, hresponses, -⟩ | ⟨-, hends⟩ := hkept
        · exact endsAtMalformed_of_all hall
        · cases hresponses
        · exact hends

theorem completions_cover_iff (items : List String) :
    (decoders.processTokens .completions items .empty).1 =
      ofItems decoders.completions ofCompletion items ↔ decoders.CompletionItemsKept items := by
  unfold CompletionItemsKept
  cases htogether : unmarshalSlice decoders.completions (joinItems items) with
  | some responses =>
      rw [completions_together htogether]
      constructor
      · intro hsame
        exact Or.inr (Or.inl ⟨responses, rfl, hsame⟩)
      · intro hkept
        obtain hall | ⟨_, hresponses, hsame⟩ | hnone := hkept
        · exact carried_of_all hall htogether
        · cases hresponses
          exact hsame
        · cases hnone
  | none => exact iff_of_true (completions_one_by_one htogether) (Or.inr (Or.inr rfl))

/-- The text and the tool calls of a stream are those of the items that decode exactly where no
item that does not decode hides or brings in any. -/
theorem stream_text_covers_iff (decoders : StreamDecoders F) (items : List String) :
    ((decoders.processTokens .chatCompletions items .empty).1 =
      ofItems decoders.chat ofResponse items ↔ decoders.ChatItemsKept items) ∧
    ((decoders.processTokens .completions items .empty).1 =
      ofItems decoders.completions ofCompletion items ↔ decoders.CompletionItemsKept items) :=
  ⟨chat_covers_iff items, completions_cover_iff items⟩

/-- Where all items decode, one by one gives the same as all at once. -/
theorem processChatItems_of_all {items : List String}
    (hall : ∀ item ∈ items, decodes decoders.chat item = true)
    {responses : List (ChatCompletionsStreamResponse F)}
    (htogether : unmarshalSlice decoders.chat (joinItems items) = some responses)
    (s : StreamText) :
    (decoders.processChatItems items s).1 =
      responses.foldl StreamText.processStreamResponse s := by
  rw [processChatItems_fst, List.takeWhile_eq_self_iff.2 hall,
    StreamText.foldl_eq_add StreamText.processStreamResponse_eq, carried_of_all hall htogether]

end StreamDecoders

/-! ## A chunk behind a malformed item -/

namespace StreamText

/-- The value of a key. -/
def field (key : String) : Json → Option Json
  | .obj fields => (fields.find? fun entry => entry.1 = key.toList).map Prod.snd
  | _ => none

/-- A choice whose delta has a content only. -/
def sampleChoice (v : Json) : Option StreamChoice :=
  match (field "delta" v).bind (field "content") with
  | some (.str raw) => some {
      index := 0
      delta := { ChoiceDelta.empty with content := some (String.ofList raw) }
      finishReason := none }
  | _ => none

def sampleChat (v : Json) : Option (ChatCompletionsStreamResponse Decimal) :=
  match field "choices" v with
  | some (.arr choices) => (choices.mapM sampleChoice).map fun choices =>
      { id := "", model := "", choices := choices, usage := none }
  | _ => none

/-- Chunks of the simplest form. -/
def sampleDecoders : StreamDecoders Decimal where
  chat := sampleChat
  completions := fun _ => none

/-- A malformed item and a chunk with text. -/
def brokenItems : List String :=
  ["\x7b", "\x7b\"choices\":[\x7b\"delta\":\x7b\"content\":\"hi\"\x7d\x7d]\x7d"]

/-- The text behind a malformed item is not billed. -/
theorem broken_item_ends_text :
    (sampleDecoders.processTokens .chatCompletions brokenItems .empty).1 ≠
        ofItems sampleDecoders.chat ofResponse brokenItems ∧
      (sampleDecoders.processTokens .chatCompletions brokenItems .empty).1.text = "" ∧
      (ofItems sampleDecoders.chat ofResponse brokenItems).text = "hi" := by
  decide +kernel

end StreamText

end NewApi.Model
