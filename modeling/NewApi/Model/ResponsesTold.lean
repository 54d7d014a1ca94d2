import NewApi.Model.ResponsesToChat
import NewApi.Model.ToolCallTable

/-!
# What a stream tells of its calls

A well-formed stream tells of each function call of the final object by output items and by pieces
of its arguments, mixed with the others in any order.  The maps of the handler keep, under the
call's id, the arguments told so far, and the fragments that it sends carry what is new.
-/

namespace NewApi.Model

open NewApi.Lib NewApi.Lib.Strings

/-- An event as it is told of a final object: some text, an output item of a call with the arguments
so far, a piece of the arguments of a call, or an event that tells nothing. -/
inductive Told where
  | text (delta : String)
  | item (done : Bool) (call : ResponsesOutput) (arguments : String)
  | piece (call : ResponsesOutput) (delta : String)
  | aside (event : ResponsesStreamEvent)

/-- The part of an event that is about one call. -/
inductive CallPart where
  | item (arguments : String)
  | delta (delta : String)

/-- An event that tells neither text nor anything of a call, and does not end the stream. -/
def ResponsesStreamEvent.IsAside : ResponsesStreamEvent → Prop
  | .created _ => True
  | .outputItemAdded item => ∀ out ∈ item, out.type ≠ "function_call"
  | .outputItemDone item => ∀ out ∈ item, out.type ≠ "function_call"
  | .functionCallArgumentsDone => True
  | .other _ => True
  | _ => False

namespace Told

def event : Told → ResponsesStreamEvent
  | .text delta => .outputTextDelta delta
  | .item false call arguments => .outputItemAdded (some { call with arguments := arguments })
  | .item true call arguments => .outputItemDone (some { call with arguments := arguments })
  | .piece call delta => .functionCallArgumentsDelta call.id delta
  | .aside event => event

def delta : Told → String
  | .text delta => delta
  | _ => ""

def call : Told → Option ResponsesOutput
  | .item _ call _ => some call
  | .piece call _ => some call
  | _ => none

def part (call : ResponsesOutput) : Told → Option CallPart
  | .item _ other arguments => if other = call then some (.item arguments) else none
  | .piece other delta => if other = call then some (.delta delta) else none
  | _ => none

/-- What an event does to the maps, and the fragment that it makes the handler send. -/
def tell (maps : ToolCallMaps) : Told → ToolCallMaps × Option ToolCallResponse
  | .item _ call arguments =>
      let (maps, callID, name, argsDelta) := maps.item { call with arguments := arguments }
      let (maps, tool) := maps.send callID name argsDelta
      (maps, some tool)
  | .piece call delta =>
      let callID := maps.callOfItem call.id
      let maps :=
        { maps with argsByID := Function.update maps.argsByID callID (maps.argsByID callID ++ delta) }
      let (maps, tool) := maps.send callID "" delta
      (maps, some tool)
  | _ => (maps, none)

def tellAll : ToolCallMaps → List Told → ToolCallMaps × List ToolCallResponse
  | maps, [] => (maps, [])
  | maps, told :: rest =>
      let (maps, tool) := told.tell maps
      let (maps, tools) := tellAll maps rest
      (maps, tool.toList ++ tools)

end Told

/-- The parts told of a call add up to its arguments: pieces are appended, an item repeats what was
told and may go on, and there is an item. -/
def AddsUpTo (final : String) : String → Bool → List CallPart → Prop
  | sofar, seen, [] => seen = true ∧ sofar = final
  | sofar, seen, .delta delta :: parts => AddsUpTo final (sofar ++ delta) seen parts
  | sofar, _, .item arguments :: parts =>
      if arguments = "" then AddsUpTo final sofar true parts
      else (∃ more, arguments = sofar ++ more) ∧ AddsUpTo final arguments true parts

theorem addsUpTo_item (final : String) (seen : Bool) : AddsUpTo final "" seen [.item final] := by
  rw [AddsUpTo]
  split
  case isTrue hnone => exact ⟨rfl, hnone.symm⟩
  case isFalse hsome => exact ⟨⟨final, String.empty_append.symm⟩, rfl, rfl⟩

/-- Pieces, and an item that repeats them. -/
theorem addsUpTo_pieces (sofar : String) (seen : Bool) (pieces : List String) :
    AddsUpTo (sofar ++ concat pieces) sofar seen
      (pieces.map .delta ++ [.item (sofar ++ concat pieces)]) := by
  induction pieces generalizing sofar with
  | nil =>
      rw [concat_nil, String.append_empty]
      show if sofar = "" then true = true ∧ sofar = sofar
        else (∃ more, sofar = sofar ++ more) ∧ true = true ∧ sofar = sofar
      split
      · exact ⟨rfl, rfl⟩
      · exact ⟨⟨"", String.append_empty.symm⟩, rfl, rfl⟩
  | cons piece pieces ih =>
      rw [concat_cons, ← String.append_assoc]
      exact ih (sofar ++ piece)

/-- The first part told is a piece of the arguments. -/
def BeginsEarly : List CallPart → Prop
  | .delta _ :: _ => True
  | _ => False

instance : DecidablePred BeginsEarly
  | [] => isFalse id
  | .item _ :: _ => isFalse id
  | .delta _ :: _ => isTrue trivial

def ResponsesOutput.itemID (out : ResponsesOutput) : String :=
  trimSpace out.id

/-- Calls that have an id and a name, and share no id. -/
structure DistinctCalls (calls : List ResponsesOutput) : Prop where
  nodup : calls.Nodup
  functionCall : ∀ call ∈ calls, call.type = "function_call"
  item : ∀ call ∈ calls, call.itemID ≠ ""
  name : ∀ call ∈ calls, trimSpace call.name ≠ ""
  eq_of_itemID : ∀ call ∈ calls, ∀ other ∈ calls, call.itemID = other.itemID → call = other
  eq_of_toolCallID : ∀ call ∈ calls, ∀ other ∈ calls,
    call.toolCallID = other.toolCallID → call = other
  eq_of_mixed : ∀ call ∈ calls, ∀ other ∈ calls, call.itemID = other.toolCallID → call = other

section

variable {calls : List ResponsesOutput} {call other : ResponsesOutput} {maps : ToolCallMaps}
  {callID name argsDelta id : String} {told : Told} {rest : List Told}

theorem toolCallID_ne (hcalls : DistinctCalls calls) (hcall : call ∈ calls) :
    call.toolCallID ≠ "" := by
  rw [ResponsesOutput.toolCallID]
  split
  case isTrue hnone => exact hcalls.item call hcall
  case isFalse hsome => exact hsome

/-! ## One fragment -/

theorem hasPrefix_append (start more : String) : hasPrefix (start ++ more) start = true := by
  rw [hasPrefix, String.toList_append, List.isPrefixOf_iff_prefix]
  exact List.prefix_append _ _

theorem drop_append (start more : String) :
    String.ofList ((start ++ more).toList.drop start.toList.length) = more := by
  rw [String.toList_append, List.drop_left, String.ofList_toList]

/-- Other ids keep what is known of them. -/
theorem send_other (hid : id ≠ callID) :
    (maps.send callID name argsDelta).1.nameByID id = maps.nameByID id ∧
      (maps.send callID name argsDelta).1.nameSent id = maps.nameSent id := by
  constructor
  · show (if name ≠ "" then Function.update maps.nameByID callID name else maps.nameByID) id = _
    split
    · exact Function.update_of_ne hid _ _
    · rfl
  · rw [ToolCallMaps.send]
    dsimp only
    rw [apply_ite fun sent : String → Bool => sent id, Function.update_of_ne hid, ite_self]

/-- A name is sent with the first fragment for which it is known. -/
theorem send_name (maps : ToolCallMaps) (callID argsDelta : String)
    (hname : maps.nameByID callID = name ∨ name = "") :
    (maps.send callID name argsDelta).1.nameByID callID = maps.nameByID callID ∧
    (maps.send callID name argsDelta).2.name =
        (if maps.nameSent callID then "" else maps.nameByID callID) ∧
      (maps.send callID name argsDelta).1.nameSent callID =
        (maps.nameSent callID || maps.nameByID callID ≠ "") := by
  have hknown : (if name ≠ "" then Function.update maps.nameByID callID name else maps.nameByID)
      callID = maps.nameByID callID := by
    split
    case isTrue hsome =>
      rw [Function.update_self]
      exact (hname.resolve_right hsome).symm
    case isFalse hnone => rfl
  have hsent : (if maps.nameByID callID ≠ "" then maps.nameByID callID else name) =
      maps.nameByID callID := by
    split
    case isTrue hsome => rfl
    case isFalse hnone =>
      rcases hname with heq | heq
      · exact heq.symm
      · rw [heq]
        exact (not_not.1 hnone).symm
  rw [ToolCallMaps.send]
  dsimp only
  rw [hknown, hsent]
  refine ⟨rfl, ?_, ?_⟩
  · cases maps.nameSent callID with
    | true => simp
    | false =>
        rw [Bool.not_false, Bool.and_true, if_neg Bool.false_ne_true]
        split
        case isTrue hsome => rfl
        case isFalse hnone =>
          have hempty : maps.nameByID callID = "" := by simpa using hnone
          exact hempty.symm
  · cases hsends : maps.nameSent callID with
    | true => simp [hsends]
    | false =>
        rw [Bool.not_false, Bool.and_true, Bool.false_or]
        split
        case isTrue hsome =>
          rw [Function.update_self]
          exact hsome.symm
        case isFalse hnone =>
          rw [hsends]
          exact (Bool.not_eq_true _ ▸ hnone : _ = false).symm

/-- What is known of the other ids stays. -/
structure KeepsOthers (maps maps' : ToolCallMaps) (callID : String) : Prop where
  name : ∀ id ≠ callID, maps'.nameByID id = maps.nameByID id
  sent : ∀ id ≠ callID, maps'.nameSent id = maps.nameSent id
  args : ∀ id ≠ callID, maps'.argsByID id = maps.argsByID id

/-- A fragment is sent under its id, which is numbered when it is new. -/
structure SendsUnder (ids ids' : List String) (tool : ToolCallResponse)
    (callID : String) : Prop where
  id : tool.id = callID
  ids : ids' = if callID ∈ ids then ids else ids ++ [callID]
  index : tool.index = some ((ids'.idxOf callID : ℕ) : ℤ)

theorem send_under (maps : ToolCallMaps) (callID name argsDelta : String) :
    SendsUnder maps.indexByID (maps.send callID name argsDelta).1.indexByID
      (maps.send callID name argsDelta).2 callID :=
  ⟨rfl, rfl, rfl⟩

theorem send_canonical (maps : ToolCallMaps) (callID name argsDelta : String) :
    (maps.send callID name argsDelta).1.canonicalIDByItemID = maps.canonicalIDByItemID := by
  rw [ToolCallMaps.send]

/-- An output item names its call, and sends the arguments that are new. -/
structure TellsItem (maps maps' : ToolCallMaps) (tool : ToolCallResponse) (call : ResponsesOutput)
    (arguments : String) : Prop where
  sends : SendsUnder maps.indexByID maps'.indexByID tool call.toolCallID
  others : KeepsOthers maps maps' call.toolCallID
  toolName : tool.name = if maps.nameSent call.toolCallID then "" else trimSpace call.name
  name : maps'.nameByID call.toolCallID = trimSpace call.name
  sent : maps'.nameSent call.toolCallID = true
  args : maps'.argsByID call.toolCallID =
    if arguments = "" then maps.argsByID call.toolCallID else arguments
  toolArgs : (arguments = "" ∨ ∃ more, arguments = maps.argsByID call.toolCallID ++ more) →
    maps.argsByID call.toolCallID ++ tool.arguments = maps'.argsByID call.toolCallID
  canonical : maps'.canonicalIDByItemID =
    Function.update maps.canonicalIDByItemID call.itemID call.toolCallID

section Item

variable {out : ResponsesOutput}

theorem item_indexByID (maps : ToolCallMaps) (out : ResponsesOutput) :
    (maps.item out).1.indexByID = maps.indexByID := by
  rw [ToolCallMaps.item]

theorem item_nameSent (maps : ToolCallMaps) (out : ResponsesOutput) :
    (maps.item out).1.nameSent = maps.nameSent := by
  rw [ToolCallMaps.item]

theorem item_nameByID (maps : ToolCallMaps) (hname : trimSpace out.name ≠ "") :
    (maps.item out).1.nameByID =
      Function.update maps.nameByID out.toolCallID (trimSpace out.name) := by
  rw [ToolCallMaps.item]
  dsimp only
  rw [if_pos hname]

theorem item_canonical (maps : ToolCallMaps) (hid : trimSpace out.id ≠ "" ∧ out.toolCallID ≠ "") :
    (maps.item out).1.canonicalIDByItemID =
      Function.update maps.canonicalIDByItemID (trimSpace out.id) out.toolCallID := by
  rw [ToolCallMaps.item]
  dsimp only
  rw [if_pos hid]

theorem item_argsByID (maps : ToolCallMaps) (out : ResponsesOutput) :
    (maps.item out).1.argsByID =
      if out.arguments = "" then maps.argsByID
      else Function.update maps.argsByID out.toolCallID out.arguments := by
  rw [ToolCallMaps.item]

theorem item_argsDelta (maps : ToolCallMaps) (out : ResponsesOutput) :
    (maps.item out).2.2.2 =
      if out.arguments = "" then ""
      else if hasPrefix out.arguments (maps.argsByID out.toolCallID) then
        String.ofList (out.arguments.toList.drop (maps.argsByID out.toolCallID).toList.length)
      else out.arguments := by
  rw [ToolCallMaps.item]

end Item

theorem tell_item (hcalls : DistinctCalls calls) (hcall : call ∈ calls) (done : Bool)
    (arguments : String) (maps : ToolCallMaps) :
    ∃ maps' tool, (Told.item done call arguments).tell maps = (maps', some tool) ∧
      TellsItem maps maps' tool call arguments := by
  let out : ResponsesOutput := { call with arguments := arguments }
  let item := (maps.item out).1
  let argsDelta := (maps.item out).2.2.2
  have hcallID : out.toolCallID = call.toolCallID := rfl
  have hname := hcalls.name call hcall
  have hid := toolCallID_ne hcalls hcall
  have hitem : item.nameByID =
      Function.update maps.nameByID call.toolCallID (trimSpace call.name) := by
    rw [← hcallID]
    exact item_nameByID maps hname
  have hknown : item.nameByID call.toolCallID = trimSpace call.name := by
    rw [hitem, Function.update_self]
  have hargs : item.argsByID =
      if arguments = "" then maps.argsByID
      else Function.update maps.argsByID call.toolCallID arguments := by
    rw [← hcallID]
    exact item_argsByID maps out
  have hdelta : argsDelta =
      if arguments = "" then ""
      else if hasPrefix arguments (maps.argsByID call.toolCallID) then
        String.ofList (arguments.toList.drop (maps.argsByID call.toolCallID).toList.length)
      else arguments := by
    rw [← hcallID]
    exact item_argsDelta maps out
  have hargsOwn : item.argsByID call.toolCallID =
      if arguments = "" then maps.argsByID call.toolCallID else arguments := by
    rw [hargs]
    split
    · rfl
    · exact Function.update_self _ _ _
  have hsends := send_under item call.toolCallID (trimSpace call.name) argsDelta
  rw [item_indexByID] at hsends
  obtain ⟨hnamed, htool, hsent⟩ := send_name item call.toolCallID argsDelta (.inl hknown)
  refine ⟨(item.send call.toolCallID (trimSpace call.name) argsDelta).1,
    (item.send call.toolCallID (trimSpace call.name) argsDelta).2, rfl, hsends,
    ?_, ?_, ?_, ?_, ?_, ?_, ?_⟩
  · refine ⟨fun id hid => ?_, fun id hid => (send_other hid).2, fun id hid => ?_⟩
    · rw [(send_other hid).1, hitem, Function.update_of_ne hid]
    · show item.argsByID id = _
      rw [hargs]
      split
      · rfl
      · exact Function.update_of_ne hid _ _
  · rw [htool, hknown, item_nameSent]
  · rw [hnamed, hknown]
  · rw [hsent, hknown, decide_eq_true hname, Bool.or_true]
  · exact hargsOwn
  · intro hgoesOn
    show maps.argsByID call.toolCallID ++ argsDelta = item.argsByID call.toolCallID
    rw [hargsOwn, hdelta]
    split
    case isTrue hnone => rw [String.append_empty]
    case isFalse hsome =>
      obtain ⟨more, hmore⟩ := hgoesOn.resolve_left hsome
      rw [hmore, if_pos (hasPrefix_append _ _), drop_append]
  · rw [← hcallID] at hid ⊢
    rw [send_canonical]
    exact item_canonical maps ⟨hcalls.item call hcall, hid⟩

/-- A piece of arguments goes to the call that is known for its item, or to one named like it. -/
structure TellsPiece (maps maps' : ToolCallMaps) (tool : ToolCallResponse) (callID delta : String) :
    Prop where
  sends : SendsUnder maps.indexByID maps'.indexByID tool callID
  others : KeepsOthers maps maps' callID
  toolName : tool.name = if maps.nameSent callID then "" else maps.nameByID callID
  name : maps'.nameByID callID = maps.nameByID callID
  sent : maps'.nameSent callID = (maps.nameSent callID || maps.nameByID callID ≠ "")
  args : maps'.argsByID callID = maps.argsByID callID ++ delta
  toolArgs : tool.arguments = delta
  canonical : maps'.canonicalIDByItemID = maps.canonicalIDByItemID

theorem tell_piece (call : ResponsesOutput) (delta : String) (maps : ToolCallMaps) :
    ∃ maps' tool, (Told.piece call delta).tell maps = (maps', some tool) ∧
      TellsPiece maps maps' tool (maps.callOfItem call.id) delta := by
  let callID := maps.callOfItem call.id
  let grown : ToolCallMaps :=
    { maps with argsByID := Function.update maps.argsByID callID (maps.argsByID callID ++ delta) }
  obtain ⟨hnamed, htool, hsent⟩ := send_name grown callID delta (.inr rfl)
  refine ⟨(grown.send callID "" delta).1, (grown.send callID "" delta).2, rfl,
    send_under grown callID "" delta, ?_, htool, hnamed, hsent,
      Function.update_self _ _ _, rfl, rfl⟩
  exact ⟨fun id hid => (send_other hid).1, fun id hid => (send_other hid).2,
    fun id hid => Function.update_of_ne hid _ _⟩

/-! ## What is known of a call -/

/-- The item of a call is known by the call's id, or not at all. -/
def Known (calls : List ResponsesOutput) (maps : ToolCallMaps) : Prop :=
  ∀ call ∈ calls, maps.canonicalIDByItemID call.itemID = "" ∨
    maps.canonicalIDByItemID call.itemID = call.toolCallID

theorem callOfItem_eq (maps : ToolCallMaps) (call : ResponsesOutput) :
    maps.callOfItem call.id =
      if maps.canonicalIDByItemID call.itemID = "" then call.itemID
      else maps.canonicalIDByItemID call.itemID := rfl

/-- A piece goes to no other call. -/
theorem callOfItem_ne (hcalls : DistinctCalls calls) (hknown : Known calls maps)
    (hcall : call ∈ calls)
    (hother : other ∈ calls) (hne : other ≠ call) : maps.callOfItem other.id ≠ call.toolCallID := by
  rw [callOfItem_eq]
  intro heq
  split at heq
  case isTrue hunknown => exact hne (hcalls.eq_of_mixed other hother call hcall heq)
  case isFalse hsome =>
    rw [(hknown other hother).resolve_left hsome] at heq
    exact hne (hcalls.eq_of_toolCallID other hother call hcall heq)

theorem callOfItem_ne_empty (hcalls : DistinctCalls calls) (hother : other ∈ calls) :
    maps.callOfItem other.id ≠ "" := by
  rw [callOfItem_eq]
  split
  case isTrue hunknown => exact hcalls.item other hother
  case isFalse hsome => exact hsome

theorem Known.item {maps' : ToolCallMaps} (hcalls : DistinctCalls calls) (hknown : Known calls maps)
    (hcall : call ∈ calls)
    (hcanonical : maps'.canonicalIDByItemID =
      Function.update maps.canonicalIDByItemID call.itemID call.toolCallID) :
    Known calls maps' := by
  intro other hother
  rw [hcanonical]
  by_cases hsame : other.itemID = call.itemID
  · rw [hsame, Function.update_self]
    rw [hcalls.eq_of_itemID other hother call hcall hsame]
    exact .inr rfl
  · rw [Function.update_of_ne hsame]
    exact hknown other hother

/-- An event about calls that are known keeps them known. -/
theorem Known.tell (hcalls : DistinctCalls calls) (hknown : Known calls maps)
    (hcall : ∀ call ∈ told.call, call ∈ calls) : Known calls (told.tell maps).1 := by
  cases told with
  | text delta => exact hknown
  | aside event => exact hknown
  | item done call arguments =>
      have hmem := hcall call rfl
      obtain ⟨maps', tool, htell, hitem⟩ := tell_item hcalls hmem done arguments maps
      rw [htell]
      exact hknown.item hcalls hmem hitem.canonical
  | piece call delta =>
      obtain ⟨maps', tool, htell, hpiece⟩ := tell_piece call delta maps
      rw [htell]
      intro other hother
      rw [hpiece.canonical]
      exact hknown other hother

theorem known_empty (calls : List ResponsesOutput) : Known calls .empty := fun _ _ => .inl rfl

/-! ## The arguments of a call -/

/-- What the maps know of a call, of which so much has been told. -/
structure CallKnown (call : ResponsesOutput) (sofar : String) (seen : Bool) (maps : ToolCallMaps) :
    Prop where
  args : maps.argsByID call.toolCallID = sofar
  sent : maps.nameSent call.toolCallID = seen
  name : maps.nameByID call.toolCallID = if seen then trimSpace call.name else ""
  canonical : maps.canonicalIDByItemID call.itemID = if seen then call.toolCallID else ""

theorem tellAll_cons (maps : ToolCallMaps) (told : Told) (rest : List Told) :
    (Told.tellAll maps (told :: rest)).2 =
      (told.tell maps).2.toList ++ (Told.tellAll (told.tell maps).1 rest).2 := rfl

/-- Fragments under other ids tell nothing of the call. -/
theorem callIn_append_of_ne {others tools : List ToolCallResponse}
    (hid : ∀ tool ∈ others, tool.id ≠ id) : nameIn (others ++ tools) id = nameIn tools id ∧
      argumentsIn (others ++ tools) id = argumentsIn tools id := by
  have hnone : others.filter (fun tool => tool.id = id) = [] := by
    simpa [List.filter_eq_nil_iff] using hid
  rw [nameIn, argumentsIn, List.filter_append, hnone]
  exact ⟨rfl, rfl⟩

theorem nameIn_cons_self {tool : ToolCallResponse} {tools : List ToolCallResponse}
    (hid : tool.id = id) :
    nameIn (tool :: tools) id = tool.name ++ nameIn tools id := by
  rw [nameIn, List.filter_cons_of_pos (by simpa using hid)]
  rfl

theorem argumentsIn_cons_self {tool : ToolCallResponse} {tools : List ToolCallResponse}
    (hid : tool.id = id) :
    argumentsIn (tool :: tools) id = tool.arguments ++ argumentsIn tools id := by
  rw [argumentsIn, List.filter_cons_of_pos (by simpa using hid)]
  rfl

/-- What is known of a call stays. -/
structure KeepsCall (call : ResponsesOutput) (maps maps' : ToolCallMaps) : Prop where
  args : maps'.argsByID call.toolCallID = maps.argsByID call.toolCallID
  sent : maps'.nameSent call.toolCallID = maps.nameSent call.toolCallID
  name : maps'.nameByID call.toolCallID = maps.nameByID call.toolCallID
  canonical : maps'.canonicalIDByItemID call.itemID = maps.canonicalIDByItemID call.itemID

theorem KeepsOthers.keepsCall {maps' : ToolCallMaps} (hothers : KeepsOthers maps maps' callID)
    (hid : call.toolCallID ≠ callID)
    (hcanonical : maps'.canonicalIDByItemID call.itemID = maps.canonicalIDByItemID call.itemID) :
    KeepsCall call maps maps' :=
  ⟨hothers.args _ hid, hothers.sent _ hid, hothers.name _ hid, hcanonical⟩

/-- An event that is not about the call sends nothing under its id. -/
theorem tell_other (hcalls : DistinctCalls calls) (hknown : Known calls maps) (hcall : call ∈ calls)
    (htold : ∀ other ∈ told.call, other ∈ calls) (hne : told.call ≠ some call) :
    told.part call = none ∧ (∀ tool ∈ (told.tell maps).2.toList, tool.id ≠ call.toolCallID) ∧
      KeepsCall call maps (told.tell maps).1 := by
  cases told with
  | text delta => exact ⟨rfl, fun tool htool => (List.not_mem_nil htool).elim, rfl, rfl, rfl, rfl⟩
  | aside event => exact ⟨rfl, fun tool htool => (List.not_mem_nil htool).elim, rfl, rfl, rfl, rfl⟩
  | item done other arguments =>
      have hother := htold other rfl
      have hsame : other ≠ call := fun heq => hne (congrArg some heq)
      have hid : call.toolCallID ≠ other.toolCallID := fun heq =>
        hsame (hcalls.eq_of_toolCallID call hcall other hother heq).symm
      have hitemID : call.itemID ≠ other.itemID := fun heq =>
        hsame (hcalls.eq_of_itemID call hcall other hother heq).symm
      obtain ⟨maps', tool, htell, hitem⟩ := tell_item hcalls hother done arguments maps
      rw [htell]
      refine ⟨if_neg hsame, List.forall_mem_singleton.2 (hitem.sends.id.trans_ne hid.symm),
        hitem.others.keepsCall hid ?_⟩
      rw [hitem.canonical, Function.update_of_ne hitemID]
  | piece other delta =>
      have hsame : other ≠ call := fun heq => hne (congrArg some heq)
      have hid := callOfItem_ne hcalls hknown hcall (htold other rfl) hsame
      obtain ⟨maps', tool, htell, hpiece⟩ := tell_piece other delta maps
      rw [htell]
      exact ⟨if_neg hsame, List.forall_mem_singleton.2 (hpiece.sends.id.trans_ne hid),
        hpiece.others.keepsCall hid.symm (congrFun hpiece.canonical _)⟩

theorem CallKnown.keeps {sofar : String} {seen : Bool} {maps' : ToolCallMaps}
    (hknown : CallKnown call sofar seen maps) (hkeeps : KeepsCall call maps maps') :
    CallKnown call sofar seen maps' where
  args := hkeeps.args.trans hknown.args
  sent := hkeeps.sent.trans hknown.sent
  name := hkeeps.name.trans hknown.name
  canonical := hkeeps.canonical.trans hknown.canonical

theorem CallKnown.item {sofar arguments : String} {seen : Bool} {maps' : ToolCallMaps}
    {tool : ToolCallResponse} (hknown : CallKnown call sofar seen maps)
    (hitem : TellsItem maps maps' tool call arguments) :
    CallKnown call (if arguments = "" then sofar else arguments) true maps' where
  args := by rw [hitem.args, hknown.args]
  sent := hitem.sent
  name := hitem.name
  canonical := by
    rw [hitem.canonical, Function.update_self, if_pos rfl]

/-- The fragments of a call that does not begin early carry its name and its arguments. -/
theorem tellAll_call (hcalls : DistinctCalls calls) (hcall : call ∈ calls)
    {sofar : String} {seen : Bool}
    (hknown : Known calls maps) (hcallKnown : CallKnown call sofar seen maps)
    (htold : ∀ t ∈ rest, ∀ other ∈ t.call, other ∈ calls)
    (hreports : AddsUpTo call.arguments sofar seen (rest.filterMap (Told.part call)))
    (hbegins : call.toolCallID = call.itemID ∨
      (seen = false → ¬BeginsEarly (rest.filterMap (Told.part call)))) :
    nameIn (Told.tellAll maps rest).2 call.toolCallID =
        (if seen then "" else trimSpace call.name) ∧
      sofar ++ argumentsIn (Told.tellAll maps rest).2 call.toolCallID = call.arguments := by
  induction rest generalizing maps sofar seen with
  | nil =>
      obtain ⟨rfl, rfl⟩ := hreports
      exact ⟨rfl, String.append_empty⟩
  | cons told rest ih =>
      obtain ⟨htold, hrest⟩ := List.forall_mem_cons.1 htold
      have hknown' := hknown.tell hcalls htold
      by_cases hother : told.call ≠ some call
      · obtain ⟨hpart, hids, hkeeps⟩ := tell_other hcalls hknown hcall htold hother
        rw [List.filterMap_cons_none hpart] at hreports hbegins
        rw [tellAll_cons, (callIn_append_of_ne hids).1, (callIn_append_of_ne hids).2]
        exact ih hknown' (hcallKnown.keeps hkeeps) hrest hreports hbegins
      rw [not_not] at hother
      rw [tellAll_cons]
      cases told with
      | text delta => cases hother
      | aside event => cases hother
      | item done other arguments =>
          obtain rfl := Option.some.inj hother
          obtain ⟨maps', tool, htell, hitem⟩ := tell_item hcalls hcall done arguments maps
          rw [htell] at hknown' ⊢
          have hpart : Told.part other (.item done other arguments) = some (.item arguments) :=
            if_pos rfl
          rw [List.filterMap_cons_some hpart, AddsUpTo] at hreports
          have hgoesOn : arguments = "" ∨
              ∃ more, arguments = maps.argsByID other.toolCallID ++ more := by
            rw [hcallKnown.args]
            split at hreports
            case isTrue hnone => exact .inl hnone
            case isFalse hsome => exact .inr hreports.1
          have hlater : AddsUpTo other.arguments (if arguments = "" then sofar else arguments) true
              (rest.filterMap (Told.part other)) := by
            split at hreports
            case isTrue hnone => rwa [if_pos hnone]
            case isFalse hsome => rw [if_neg hsome]; exact hreports.2
          obtain ⟨hname, hargs⟩ :=
            ih hknown' (hcallKnown.item hitem) hrest hlater (.inr fun h => nomatch h)
          rw [Option.toList_some, List.singleton_append, nameIn_cons_self hitem.sends.id,
            argumentsIn_cons_self hitem.sends.id, hname, hitem.toolName, hcallKnown.sent, if_pos rfl, String.append_empty]
          refine ⟨rfl, ?_⟩
          have hsent := hitem.toolArgs hgoesOn
          rw [hitem.args, hcallKnown.args] at hsent
          rw [← String.append_assoc, hsent]
          exact hargs
      | piece other delta =>
          obtain rfl := Option.some.inj hother
          obtain ⟨maps', tool, htell, hpiece⟩ := tell_piece other delta maps
          rw [htell] at hknown' ⊢
          have hpart : Told.part other (.piece other delta) = some (.delta delta) := if_pos rfl
          rw [List.filterMap_cons_some hpart] at hreports hbegins
          -- before its item is known the piece goes to the item's id
          have hnamed : seen = false → other.toolCallID = other.itemID := fun hunseen =>
            hbegins.resolve_right fun h => h hunseen trivial
          have hgoes : maps.callOfItem other.id = other.toolCallID := by
            rw [callOfItem_eq, hcallKnown.canonical]
            cases seen with
            | true => rw [if_pos rfl, if_neg (toolCallID_ne hcalls hcall)]
            | false => exact (hnamed rfl).symm
          rw [hgoes] at hpiece
          have hgrown : CallKnown other (sofar ++ delta) seen maps' := by
            refine ⟨by rw [hpiece.args, hcallKnown.args], ?_, hpiece.name.trans hcallKnown.name,
              (congrFun hpiece.canonical _).trans hcallKnown.canonical⟩
            rw [hpiece.sent, hcallKnown.sent, hcallKnown.name]
            cases seen with
            | true => rfl
            | false => rfl
          have hlater : other.toolCallID = other.itemID ∨
              (seen = false → ¬BeginsEarly (rest.filterMap (Told.part other))) := by
            cases seen with
            | true => exact .inr fun h => nomatch h
            | false => exact .inl (hnamed rfl)
          obtain ⟨hname, hargs⟩ := ih hknown' hgrown hrest hreports hlater
          have hsilent : tool.name = "" := by
            rw [hpiece.toolName, hcallKnown.sent, hcallKnown.name]
            cases seen <;> rfl
          rw [Option.toList_some, List.singleton_append, nameIn_cons_self hpiece.sends.id,
            argumentsIn_cons_self hpiece.sends.id, hname, hsilent, hpiece.toolArgs, String.empty_append, ← String.append_assoc]
          exact ⟨rfl, hargs⟩

/-! ## The ids -/

theorem Numbered.sends {ids ids' : List String} {tools : List ToolCallResponse}
    {tool : ToolCallResponse} (hnumbered : Numbered ids tools)
    (hsends : SendsUnder ids ids' tool callID) : Numbered ids' (tools ++ [tool]) := by
  obtain ⟨rfl, rfl, hindex⟩ := hsends
  exact hnumbered.concat hindex

/-- The fragments are numbered by the ids in the maps. -/
theorem tellAll_numbered (maps : ToolCallMaps) (hcalls : DistinctCalls calls)
    {tools : List ToolCallResponse}
    (htold : ∀ t ∈ rest, ∀ other ∈ t.call, other ∈ calls)
    (hnumbered : Numbered maps.indexByID tools) :
    Numbered (Told.tellAll maps rest).1.indexByID (tools ++ (Told.tellAll maps rest).2) := by
  induction rest generalizing maps tools with
  | nil =>
      rw [Told.tellAll, List.append_nil]
      exact hnumbered
  | cons told rest ih =>
      obtain ⟨htold, hrest⟩ := List.forall_mem_cons.1 htold
      cases told with
      | text delta => exact ih maps hrest hnumbered
      | aside event => exact ih maps hrest hnumbered
      | item done call arguments =>
          obtain ⟨maps', tool, htell, hitem⟩ :=
            tell_item hcalls (htold call rfl) done arguments maps
          have hmore := ih maps' hrest (hnumbered.sends hitem.sends)
          rw [List.append_assoc] at hmore
          rw [Told.tellAll, htell]
          exact hmore
      | piece call delta =>
          obtain ⟨maps', tool, htell, hpiece⟩ := tell_piece call delta maps
          have hmore := ih maps' hrest (hnumbered.sends hpiece.sends)
          rw [List.append_assoc] at hmore
          rw [Told.tellAll, htell]
          exact hmore

/-- Where no call begins early under another id, the fragments are those of the calls. -/
theorem tellAll_ids (hcalls : DistinctCalls calls) (hknown : Known calls maps)
    (htold : ∀ t ∈ rest, ∀ other ∈ t.call, other ∈ calls)
    (hbegins : ∀ call ∈ calls, maps.canonicalIDByItemID call.itemID = "" →
      call.toolCallID = call.itemID ∨ ¬BeginsEarly (rest.filterMap (Told.part call))) :
    (Told.tellAll maps rest).2.map ToolCallResponse.id =
      (rest.filterMap Told.call).map ResponsesOutput.toolCallID := by
  induction rest generalizing maps with
  | nil => rfl
  | cons told rest ih =>
      obtain ⟨htold, hrest⟩ := List.forall_mem_cons.1 htold
      have hknown' := hknown.tell hcalls htold
      -- the calls that the event is not about begin as they did
      have hothers : ∀ call ∈ calls, told.call ≠ some call →
          (told.tell maps).1.canonicalIDByItemID call.itemID = "" →
          call.toolCallID = call.itemID ∨ ¬BeginsEarly (rest.filterMap (Told.part call)) := by
        intro call hcall hne hunknown
        obtain ⟨hpart, -, hkeeps⟩ := tell_other hcalls hknown hcall htold hne
        have hcondition := hbegins call hcall (hkeeps.canonical.symm.trans hunknown)
        rwa [List.filterMap_cons_none hpart] at hcondition
      cases told with
      | text delta => exact ih hknown' hrest hbegins
      | aside event => exact ih hknown' hrest hbegins
      | item done other arguments =>
          obtain ⟨maps', tool, htell, hitem⟩ :=
            tell_item hcalls (htold other rfl) done arguments maps
          rw [tellAll_cons]
          rw [htell] at hknown' hothers ⊢
          refine congrArg₂ _ hitem.sends.id (ih hknown' hrest fun call hcall hunknown => ?_)
          by_cases hsame : other = call
          · rw [hitem.canonical, hsame, Function.update_self] at hunknown
            exact absurd hunknown (toolCallID_ne hcalls hcall)
          · exact hothers call hcall (fun heq => hsame (Option.some.inj heq)) hunknown
      | piece other delta =>
          have hother := htold other rfl
          obtain ⟨maps', tool, htell, hpiece⟩ := tell_piece other delta maps
          have hpart : Told.part other (.piece other delta) = some (.delta delta) := if_pos rfl
          have hnamed : maps.canonicalIDByItemID other.itemID = "" →
              other.toolCallID = other.itemID := by
            intro hunknown
            have hcondition := hbegins other hother hunknown
            rw [List.filterMap_cons_some hpart] at hcondition
            exact hcondition.resolve_right fun h => h trivial
          have hgoes : maps.callOfItem other.id = other.toolCallID := by
            rw [callOfItem_eq]
            split
            case isTrue hunknown => exact (hnamed hunknown).symm
            case isFalse hsome => exact (hknown other hother).resolve_left hsome
          rw [tellAll_cons]
          rw [htell] at hknown' hothers ⊢
          refine congrArg₂ _ (hpiece.sends.id.trans hgoes)
            (ih hknown' hrest fun call hcall hunknown => ?_)
          by_cases hsame : other = call
          · rw [hpiece.canonical, ← hsame] at hunknown
            exact .inl (hsame ▸ hnamed hunknown)
          · exact hothers call hcall (fun heq => hsame (Option.some.inj heq)) hunknown

/-- A call that begins early sends a fragment under the id of its item. -/
theorem itemID_mem_of_beginsEarly (hcalls : DistinctCalls calls) (hknown : Known calls maps)
    (hcall : call ∈ calls)
    (htold : ∀ t ∈ rest, ∀ other ∈ t.call, other ∈ calls)
    (hunknown : maps.canonicalIDByItemID call.itemID = "")
    (hearly : BeginsEarly (rest.filterMap (Told.part call))) :
    call.itemID ∈ (Told.tellAll maps rest).2.map ToolCallResponse.id := by
  induction rest generalizing maps with
  | nil => cases hearly
  | cons told rest ih =>
      obtain ⟨htold, hrest⟩ := List.forall_mem_cons.1 htold
      by_cases hother : told.call ≠ some call
      · obtain ⟨hpart, -, hkeeps⟩ := tell_other hcalls hknown hcall htold hother
        rw [List.filterMap_cons_none hpart] at hearly
        rw [tellAll_cons, List.map_append]
        exact List.mem_append_right _ (ih (hknown.tell hcalls htold) hrest
          (hkeeps.canonical.trans hunknown) hearly)
      rw [not_not] at hother
      cases told with
      | text delta => cases hother
      | aside event => cases hother
      | item done other arguments =>
          obtain rfl := Option.some.inj hother
          have hpart : Told.part other (.item done other arguments) = some (.item arguments) :=
            if_pos rfl
          rw [List.filterMap_cons_some hpart] at hearly
          cases hearly
      | piece other delta =>
          obtain rfl := Option.some.inj hother
          obtain ⟨maps', tool, htell, hpiece⟩ := tell_piece other delta maps
          have hgoes : maps.callOfItem other.id = other.itemID := by
            rw [callOfItem_eq, if_pos hunknown]
          rw [tellAll_cons, htell]
          exact List.mem_map.2 ⟨tool, List.mem_cons_self, hpiece.sends.id.trans hgoes⟩

end

end NewApi.Model
