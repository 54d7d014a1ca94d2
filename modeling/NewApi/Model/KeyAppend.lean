import NewApi.Model.ChannelRow
import NewApi.Model.KeyListEdit

/-!
# Appending keys to a multi-key channel

`UpdateChannel` with the key mode `append` parses the stored key text, puts the new keys behind the
old ones and writes the whole list as lines.  The keys are read from these lines later, by another
rule than the one they were parsed with here.
-/

namespace NewApi.Model.Channel

open NewApi.Lib NewApi.Lib.Strings

/-- The trimmed keys that are neither empty nor there already, each once. -/
def distinctKeys (present keys : List String) : List String :=
  ((keys.map trimSpace).filter fun key => key ≠ "" ∧ key ∉ present).eraseDups

/- The JSON decoder for an array of raw values. -/
variable (unmarshal : String → Option (List String))

/-- The key list after an append. -/
def appendedKeys (row : Channel) (keys : List String) : List String :=
  row.getKeys unmarshal ++ distinctKeys ((row.getKeys unmarshal).map trimSpace) keys

/-- The new keys stand behind the old ones, which keep their entries; they are enabled, and all are
counted. -/
structure Appended (row row' : Channel) (keys : List String) : Prop where
  keys : row'.getKeys unmarshal = row.appendedKeys unmarshal keys
  kept : ∀ (i : ℕ) entry, (row.entries unmarshal)[i]? = some entry →
    (row'.entries unmarshal)[i]? = some entry
  added : ∀ (i : ℕ) entry, (row.getKeys unmarshal).length ≤ i →
    (row'.entries unmarshal)[i]? = some entry → entry.status = ChannelStatusEnabled
  size : row'.channelInfo.multiKeySize = (row'.getKeys unmarshal).length

/-- A text that begins like an array and is none: its keys are its lines, but an append takes it for
a text without keys. -/
def Undecoded (text : String) : Prop :=
  hasPrefix (trimSpace text) "[" = true ∧ unmarshal (trimSpace text) = none

/-- The keys stand in a text as its elements or its lines. -/
def StandIn (text : String) (keys : List String) : Prop :=
  match asArray unmarshal text with
  | some values => values = keys
  | none => trim text (· = '\n') = join '\n' keys ∧ keys ≠ [] ∧ ∀ key ∈ keys, '\n' ∉ key.toList

/-- What an append relies on: the list can be read from the text that it leaves, no disabled status
is stored for a place behind the old keys, and there is a key. -/
structure Appendable (row : Channel) (text : String) (keys : List String) : Prop where
  first : row.key = "" → text = "" ∨ StandIn unmarshal text (row.appendedKeys unmarshal keys)
  undecoded : row.key ≠ "" → Undecoded unmarshal row.key → distinctKeys [] keys = [] ∨
    StandIn unmarshal (join '\n' (distinctKeys [] keys)) (row.appendedKeys unmarshal keys)
  rejoins : row.key ≠ "" → ¬Undecoded unmarshal row.key →
    row.Rejoins unmarshal (row.appendedKeys unmarshal keys)
  enabled : ∀ i < (row.appendedKeys unmarshal keys).length, (row.getKeys unmarshal).length ≤ i →
    row.keyStatus i = ChannelStatusEnabled
  nonempty : row.appendedKeys unmarshal keys = [] → row.key = "" ∧ text = ""

/-! ## The list that is written -/

section

variable {unmarshal} {row : Channel} {text : String} {keys present : List String}

theorem dedupedNewKeys_eq (seen keys : List String) :
    dedupedNewKeys seen keys = distinctKeys seen keys := by
  induction keys generalizing seen with
  | nil => rfl
  | cons key keys ih =>
      rw [dedupedNewKeys, distinctKeys, List.map_cons]
      by_cases hseen : trimSpace key = "" ∨ trimSpace key ∈ seen
      · rw [if_pos hseen, ih, List.filter_cons_of_neg (by simpa [or_iff_not_imp_left] using hseen)]
        rfl
      · rw [if_neg hseen, ih, List.filter_cons_of_pos (by simpa [not_or] using hseen),
          List.eraseDups_cons, List.filter_filter, distinctKeys]
        congr 2
        refine List.filter_congr fun other _ => ?_
        by_cases hsame : other = trimSpace key <;> simp [hsame, and_comm]

theorem mem_distinctKeys {key : String} : key ∈ distinctKeys present keys ↔
    (∃ new ∈ keys, trimSpace new = key) ∧ key ≠ "" ∧ key ∉ present := by
  rw [distinctKeys, List.mem_eraseDups, List.mem_filter, List.mem_map, decide_eq_true_iff]

/-- The keys that are not seen yet are the same with and without the empty ones among the seen. -/
theorem distinctKeys_filter : distinctKeys (present.filter fun key => key ≠ "") keys =
    distinctKeys present keys := by
  rw [distinctKeys, distinctKeys]
  congr 1
  refine List.filter_congr fun key _ => ?_
  by_cases hempty : key = "" <;> simp [hempty]

/-- Where no key is new to an empty list, none is new at all. -/
theorem distinctKeys_eq_nil (hnone : distinctKeys [] keys = []) :
    distinctKeys present keys = [] := by
  refine List.eq_nil_iff_forall_not_mem.2 fun key hkey => ?_
  obtain ⟨hnew, hne, -⟩ := mem_distinctKeys.1 hkey
  have hmem : key ∈ distinctKeys [] keys := mem_distinctKeys.2 ⟨hnew, hne, List.not_mem_nil⟩
  rw [hnone] at hmem
  cases hmem

theorem join_distinctKeys_ne (hsome : distinctKeys present keys ≠ []) :
    join '\n' (distinctKeys present keys) ≠ "" := by
  intro hempty
  have hmem : "" ∈ distinctKeys present keys := by
    rw [eq_of_join_eq_empty hsome hempty]
    exact List.mem_singleton_self ""
  exact (mem_distinctKeys.1 hmem).2.1 rfl

theorem existingKeys_eq (hkey : row.key ≠ "") (hdecoded : ¬Undecoded unmarshal row.key) :
    existingKeys unmarshal row.key = row.getKeys unmarshal := by
  rw [existingKeys, getKeys, if_neg hkey]
  dsimp only
  by_cases harray : hasPrefix (trimSpace row.key) "[" = true
  · rw [if_pos harray, if_pos harray]
    cases hvalues : unmarshal (trimSpace row.key) with
    | none => exact absurd ⟨harray, hvalues⟩ hdecoded
    | some values => rw [Option.getD_some, Option.getD_some]
  · rw [if_neg harray, if_neg harray]

theorem existingKeys_undecoded (hundecoded : Undecoded unmarshal row.key) :
    existingKeys unmarshal row.key = [] := by
  rw [existingKeys, if_pos hundecoded.1, hundecoded.2]
  rfl

/-- The keys that are read from a text. -/
theorem getKeys_eq_iff (hkey : row.key ≠ "") :
    row.getKeys unmarshal = keys ↔ StandIn unmarshal row.key keys := by
  rw [getKeys_eq unmarshal hkey, StandIn]
  cases asArray unmarshal row.key with
  | some values => rfl
  | none =>
      rw [Option.getD_none]
      exact split_eq_iff

/-- The text that an append writes over a key text. -/
theorem appendKeys_ok {getVertexArrayKeys : String → Except String (List String)}
    {usesVertexKeys : Bool} {origin : String}
    (hnew : newKeys getVertexArrayKeys usesVertexKeys text = .ok keys) :
    appendKeys unmarshal getVertexArrayKeys usesVertexKeys origin text =
      .ok (join '\n' (existingKeys unmarshal origin ++
        distinctKeys ((existingKeys unmarshal origin).map trimSpace) keys)) := by
  rw [appendKeys, hnew]
  show Except.ok (join '\n' (existingKeys unmarshal origin ++ dedupedNewKeys
    (((existingKeys unmarshal origin).map trimSpace).filter fun key => key ≠ "") keys)) = _
  rw [dedupedNewKeys_eq, distinctKeys_filter]

/-- The row that is written, with the list behind the old one exactly if it can be read back. -/
theorem getKeys_appended_iff {row' : Channel} (hne : row.key ≠ "")
    (hkey : row'.key = writeText row.key (join '\n' (existingKeys unmarshal row.key ++
      distinctKeys ((existingKeys unmarshal row.key).map trimSpace) keys))) :
    row'.getKeys unmarshal = row.appendedKeys unmarshal keys ↔
      (Undecoded unmarshal row.key → distinctKeys [] keys = [] ∨
        StandIn unmarshal (join '\n' (distinctKeys [] keys)) (row.appendedKeys unmarshal keys)) ∧
      (¬Undecoded unmarshal row.key → row.Rejoins unmarshal (row.appendedKeys unmarshal keys)) := by
  by_cases hundecoded : Undecoded unmarshal row.key
  · rw [existingKeys_undecoded hundecoded, List.nil_append, List.map_nil] at hkey
    have hiff : row'.getKeys unmarshal = row.appendedKeys unmarshal keys ↔
        distinctKeys [] keys = [] ∨
          StandIn unmarshal (join '\n' (distinctKeys [] keys))
            (row.appendedKeys unmarshal keys) := by
      by_cases hnone : distinctKeys [] keys = []
      · rw [hnone] at hkey
        have hsame : row'.key = row.key := hkey
        refine iff_of_true ?_ (.inl hnone)
        rw [appendedKeys, distinctKeys_eq_nil hnone, List.append_nil, getKeys_congr hsame]
      · have hwritten : join '\n' (distinctKeys [] keys) ≠ "" := join_distinctKeys_ne hnone
        rw [writeText, if_neg hwritten] at hkey
        rw [getKeys_eq_iff (by rw [hkey]; exact hwritten), hkey, or_iff_right hnone]
    rw [hiff]
    exact ⟨fun h => ⟨fun _ => h, fun hnot => absurd hundecoded hnot⟩, fun h => h.1 hundecoded⟩
  · rw [existingKeys_eq hne hundecoded] at hkey
    have hiff : row'.getKeys unmarshal = row.appendedKeys unmarshal keys ↔
        row.Rejoins unmarshal (row.appendedKeys unmarshal keys) := getKeys_written_iff hkey
    rw [hiff]
    exact ⟨fun h => ⟨fun hin => absurd hin hundecoded, fun _ => h⟩, fun h => h.2 hundecoded⟩

/-- What a save with another key text does: the list, the stored statuses at its new places, and the
count. -/
theorem appended_iff {edited : Channel} (hmulti : row.channelInfo.isMultiKey = true) (mode : String)
    (hinfo : edited.channelInfo = { row.channelInfo with multiKeyMode := mode }) :
    Appended unmarshal row (row.updates unmarshal edited) keys ↔
      (row.updates unmarshal edited).getKeys unmarshal = row.appendedKeys unmarshal keys ∧
      (∀ i < (row.appendedKeys unmarshal keys).length, (row.getKeys unmarshal).length ≤ i →
        row.keyStatus i = ChannelStatusEnabled) ∧
      (row.appendedKeys unmarshal keys = [] → writeText row.key edited.key = "") := by
  have hedited : edited.channelInfo.isMultiKey = true := by
    rw [hinfo]
    exact hmulti
  have hentries : (row.updates unmarshal edited).entries unmarshal =
      row.channelInfo.entries 0 ((row.updates unmarshal edited).getKeys unmarshal) := by
    rw [entries_updates hedited, hinfo]
    exact ChannelInfo.entries_congr fun _ _ _ _ => rfl
  have hsize : (row.updates unmarshal edited).channelInfo.multiKeySize =
      countKeys unmarshal (row.updates unmarshal edited).key :=
    (updates_spec unmarshal row edited.key hedited).2.1
  have hcounted : (row.updates unmarshal edited).channelInfo.multiKeySize =
      ((row.updates unmarshal edited).getKeys unmarshal).length ↔
        ((row.updates unmarshal edited).getKeys unmarshal = [] →
          writeText row.key edited.key = "") := by
    rw [hsize, Int.ofNat_inj, countKeys_eq_iff, EmptyArray, not_and', not_not]
    rfl
  constructor
  · intro happended
    have hkeys := happended.keys
    refine ⟨hkeys, fun i hi hbehind => ?_, hkeys ▸ hcounted.1 happended.size⟩
    refine happended.added i (row.channelInfo.entry i (row.appendedKeys unmarshal keys)[i]) hbehind
      ?_
    rw [hentries, hkeys]
    exact ChannelInfo.getElem?_entries_of_eq (List.getElem?_eq_getElem hi)
  · intro hsaved
    obtain ⟨hkeys, henabled, hnonempty⟩ := hsaved
    refine ⟨hkeys, fun i entry hentry => ?_, fun i entry hbehind hentry => ?_,
      hcounted.2 (hkeys ▸ hnonempty)⟩
    · obtain ⟨key, hkey, rfl⟩ := ChannelInfo.eq_entry_of_getElem? hentry
      rw [hentries, hkeys]
      refine ChannelInfo.getElem?_entries_of_eq ?_
      rw [appendedKeys, List.getElem?_append_left (List.getElem?_eq_some_iff.1 hkey).1]
      exact hkey
    · rw [hentries, hkeys] at hentry
      obtain ⟨key, hkey, rfl⟩ := ChannelInfo.eq_entry_of_getElem? hentry
      exact henabled i (List.getElem?_eq_some_iff.1 hkey).1 hbehind

/-- An empty text has no new keys. -/
theorem distinctKeys_of_empty {getVertexArrayKeys : String → Except String (List String)}
    {usesVertexKeys : Bool} (hnew : newKeys getVertexArrayKeys usesVertexKeys "" = .ok keys) :
    distinctKeys present keys = [] := by
  have hblank : keys = [] ∨ keys = [""] := by
    cases usesVertexKeys with
    | true =>
        cases hnew
        exact .inr rfl
    | false =>
        cases hnew
        exact .inl rfl
  rcases hblank with rfl | rfl <;> rfl

/-- A channel without a key stores the text as it was sent. -/
theorem appended_first_iff {edited : Channel}
    {getVertexArrayKeys : String → Except String (List String)} {usesVertexKeys : Bool}
    (hmulti : row.channelInfo.isMultiKey = true) (mode : String)
    (hinfo : edited.channelInfo = { row.channelInfo with multiKeyMode := mode })
    (hfirst : row.key = "") (htext : edited.key = text)
    (hnew : newKeys getVertexArrayKeys usesVertexKeys text = .ok keys) :
    Appended unmarshal row (row.updates unmarshal edited) keys ↔
      Appendable unmarshal row text keys := by
  have hkey : writeText row.key edited.key = text := by
    rw [writeText, hfirst, htext, ite_eq_right_iff]
    exact Eq.symm
  have hread : (row.updates unmarshal edited).getKeys unmarshal =
      row.appendedKeys unmarshal keys ↔
        text = "" ∨ StandIn unmarshal text (row.appendedKeys unmarshal keys) := by
    by_cases hempty : text = ""
    · rw [hempty] at hnew
      refine iff_of_true ?_ (.inl hempty)
      rw [appendedKeys, distinctKeys_of_empty hnew, List.append_nil]
      exact getKeys_congr (hkey.trans (hempty.trans hfirst.symm))
    · rw [or_iff_right hempty, ← hkey]
      exact getKeys_eq_iff fun h => hempty (hkey.symm.trans h)
  rw [appended_iff hmulti mode hinfo, hread, hkey]
  constructor
  · intro hsaved
    exact ⟨fun _ => hsaved.1, fun hne => absurd hfirst hne, fun hne => absurd hfirst hne,
      hsaved.2.1, fun hnone => ⟨hfirst, hsaved.2.2 hnone⟩⟩
  · intro happendable
    exact ⟨happendable.first hfirst, happendable.enabled,
      fun hnone => (happendable.nonempty hnone).2⟩

/-- The new keys are joined to those that the request has found. -/
theorem appended_behind_iff {edited : Channel} (hmulti : row.channelInfo.isMultiKey = true)
    (mode : String) (hinfo : edited.channelInfo = { row.channelInfo with multiKeyMode := mode })
    (hne : row.key ≠ "")
    (hkey : edited.key = join '\n' (existingKeys unmarshal row.key ++
      distinctKeys ((existingKeys unmarshal row.key).map trimSpace) keys)) :
    Appended unmarshal row (row.updates unmarshal edited) keys ↔
      Appendable unmarshal row text keys := by
  have hwritten : writeText row.key edited.key ≠ "" := by
    intro hempty
    rw [writeText] at hempty
    split at hempty
    · exact hne hempty
    · contradiction
  rw [appended_iff hmulti mode hinfo, getKeys_appended_iff hne (congrArg (writeText row.key) hkey)]
  constructor
  · intro hsaved
    exact ⟨fun hempty => absurd hempty hne, fun _ => hsaved.1.1, fun _ => hsaved.1.2,
      hsaved.2.1, fun hnone => absurd (hsaved.2.2 hnone) hwritten⟩
  · intro happendable
    exact ⟨⟨happendable.undecoded hne, happendable.rejoins hne⟩, happendable.enabled,
      fun hnone => absurd (happendable.nonempty hnone).1 hne⟩

end

/-- An append keeps the old keys with their entries, puts the new ones behind them and counts them
exactly if the list can be read back and its new places are free. -/
theorem append_keys_iff {F : Type} [Zero F] [DecidableEq F]
    (getVertexArrayKeys : String → Except String (List String)) (row patch : ChannelRow F)
    (hmulti : row.channelInfo.isMultiKey = true) (multiKeyMode : Option String)
    (usesVertexKeys : Bool) :
    (∀ err, row.key ≠ "" → newKeys getVertexArrayKeys usesVertexKeys patch.key = .error err →
      (ChannelRequest.updateChannel patch multiKeyMode (some "append") usesVertexKeys).edit
        unmarshal getVertexArrayKeys row = none) ∧
    ∀ keys, newKeys getVertexArrayKeys usesVertexKeys patch.key = .ok keys →
      ∃ edit, (ChannelRequest.updateChannel patch multiKeyMode (some "append") usesVertexKeys).edit
          unmarshal getVertexArrayKeys row = some edit ∧
        (Appended unmarshal row.toChannel
            (row.toChannel.updates unmarshal edit.channel.toChannel) keys ↔
          Appendable unmarshal row.toChannel patch.key keys) := by
  have happends : ChannelRequest.Appends row.toChannel (some "append") ↔ row.key ≠ "" :=
    ⟨fun h => h.2.2, fun h => ⟨rfl, hmulti, h⟩⟩
  refine ⟨fun err hne herr => ?_, fun keys hnew => ?_⟩
  · rw [ChannelRequest.edit]
    dsimp only
    rw [if_pos (happends.2 hne), appendKeys, herr]
  · by_cases hfirst : row.key = ""
    · have hedit : ∃ edit,
          (ChannelRequest.updateChannel patch multiKeyMode (some "append") usesVertexKeys).edit
            unmarshal getVertexArrayKeys row = some edit ∧
          edit.channel.channelInfo = { row.channelInfo with
            multiKeyMode := writeText row.channelInfo.multiKeyMode (multiKeyMode.getD "") } ∧
          edit.channel.key = patch.key := by
        rw [ChannelRequest.edit]
        dsimp only
        rw [if_neg fun h => happends.1 h hfirst]
        exact ⟨_, rfl, rfl, rfl⟩
      obtain ⟨edit, hsome, hinfo, hkey⟩ := hedit
      exact ⟨edit, hsome, appended_first_iff hmulti _ hinfo hfirst hkey hnew⟩
    · have hedit : ∃ edit,
          (ChannelRequest.updateChannel patch multiKeyMode (some "append") usesVertexKeys).edit
            unmarshal getVertexArrayKeys row = some edit ∧
          edit.channel.channelInfo = { row.channelInfo with
            multiKeyMode := writeText row.channelInfo.multiKeyMode (multiKeyMode.getD "") } ∧
          edit.channel.key = join '\n' (existingKeys unmarshal row.key ++
            distinctKeys ((existingKeys unmarshal row.key).map trimSpace) keys) := by
        rw [ChannelRequest.edit]
        dsimp only
        rw [if_pos (happends.2 hfirst), appendKeys_ok hnew]
        dsimp only
        generalize join '\n' (existingKeys unmarshal row.key ++
          distinctKeys ((existingKeys unmarshal row.key).map trimSpace) keys) = written
        exact ⟨_, rfl, rfl, rfl⟩
      obtain ⟨edit, hsome, hinfo, hkey⟩ := hedit
      exact ⟨edit, hsome, appended_behind_iff hmulti _ hinfo hfirst hkey⟩

/-- A row with a key text, whose first key was disabled. -/
def sampleAppendRow (key : String) : ChannelRow ℤ :=
  { sampleKeyListRow with key := key, usedQuota := 5, balance := 0 }

theorem append_keys_iff_lines :
    ∃ edit, (ChannelRequest.updateChannel (sampleAppendRow " sk-4\nsk-2\n\nsk-4 ") none
        (some "append") false).edit (fun _ => none) (fun _ => .error "")
          (sampleAppendRow "sk-1\nsk-2\nsk-3") = some edit ∧
      Appended (fun _ => none) (sampleAppendRow "sk-1\nsk-2\nsk-3").toChannel
        ((sampleAppendRow "sk-1\nsk-2\nsk-3").toChannel.updates (fun _ => none)
          edit.channel.toChannel) ["sk-4", "sk-2", "sk-4"] := by
  have hold : (sampleAppendRow "sk-1\nsk-2\nsk-3").getKeys (fun _ => none) =
      ["sk-1", "sk-2", "sk-3"] := by
    decide
  have hall : (sampleAppendRow "sk-1\nsk-2\nsk-3").appendedKeys (fun _ => none)
      ["sk-4", "sk-2", "sk-4"] = ["sk-1", "sk-2", "sk-3", "sk-4"] := by
    rw [appendedKeys, hold]
    decide +kernel
  obtain ⟨-, happend⟩ := append_keys_iff (fun _ => none) (fun _ => .error "")
    (sampleAppendRow "sk-1\nsk-2\nsk-3") (sampleAppendRow " sk-4\nsk-2\n\nsk-4 ") rfl none false
  obtain ⟨edit, hedit, hiff⟩ := happend ["sk-4", "sk-2", "sk-4"]
    (congrArg Except.ok (by decide +kernel))
  refine ⟨edit, hedit, hiff.2 ⟨fun hempty => ?_, fun _ hundecoded => ?_, fun _ _ => ?_,
    fun i hi hbehind => ?_, fun hnone => ?_⟩⟩
  · exact absurd hempty (by decide)
  · exact absurd hundecoded.1 (by decide)
  · have hlines : asArray (fun _ => none) (join '\n' ["sk-1", "sk-2", "sk-3", "sk-4"]) = none := by
      rw [asArray, ite_id]
    rw [hall, Rejoins, if_neg (by decide), hlines]
    exact ⟨by decide, by decide, by decide⟩
  · rw [hold] at hbehind
    rw [hall] at hi
    have hi' : i < 4 := hi
    have hbehind' : 3 ≤ i := hbehind
    obtain rfl : i = 3 := by omega
    decide
  · rw [hall] at hnone
    cases hnone

/-- An element of a key array that is written over two lines becomes two keys. -/
theorem appended_array_splits :
    ¬ ∀ (unmarshal : String → Option (List String))
      (getVertexArrayKeys : String → Except String (List String)) (row patch : ChannelRow ℤ)
      (usesVertexKeys : Bool) (keys : List String) (edit : RowEdit ℤ),
      row.channelInfo.isMultiKey = true →
      newKeys getVertexArrayKeys usesVertexKeys patch.key = .ok keys →
      (ChannelRequest.updateChannel patch none (some "append") usesVertexKeys).edit unmarshal
        getVertexArrayKeys row = some edit →
      Appended unmarshal row.toChannel
        (row.toChannel.updates unmarshal edit.channel.toChannel) keys := by
  intro hclaim
  have happended := hclaim
    (fun text => if text = "[\x7b\"id\":\n1\x7d]" then some ["\x7b\"id\":\n1\x7d"] else none)
    (fun _ => .error "") (sampleAppendRow "[\x7b\"id\":\n1\x7d]")
    (sampleAppendRow "\x7b\"id\":2\x7d") true ["\x7b\"id\":2\x7d"] _ rfl rfl rfl
  exact absurd happended.keys (by decide +kernel)

end NewApi.Model.Channel
