import NewApi.Lib.Rotation
import NewApi.Model.ChannelContext

/-!
# The polling of a channel's keys

`GetNextEnabledKey` reads the polling index from the object that `CacheGetChannelInfo` finds, but
writes the next one into the object that it was called on.  These are the same object only if the
caller took its channel from the cache and no `InitChannelCache` has replaced it since.  Without the
memory cache the index is read from the row and written to it.  The theorem of this file follows the
calls, which the lock of the channel puts one after the other, between resyncs.
-/

namespace NewApi.Model

open NewApi.Lib NewApi.Lib.Rotation

/-- The channel as its copies stand in memory: they only differ in the polling index.  Copies are
numbered in the order in which they were read from the row. -/
structure PollState where
  indices : List ℤ
  /-- The copy that `channelsIDM` names. -/
  cached : Option ℕ
  /-- The index in the row. -/
  dbIndex : ℤ
  /-- The copy that `InitChannelCache` has given the index of the cached one and not published. -/
  copied : Option ℕ
  /-- The copy that the call under the lock was made on, and the index that it read. -/
  call : Option (ℕ × ℤ)
  returned : List (String × ℕ)
deriving DecidableEq

inductive PollAction where
  /-- `GetChannelById` reads the row. -/
  | load
  /-- `GetNextEnabledKey` takes the lock of the channel and reads the index. -/
  | enter (object : ℕ)
  /-- It finds the key and writes the next index; `saved` is whether `SaveChannelInfo` succeeds. -/
  | leave (saved : Bool)
  /-- `InitChannelCache` takes `channelSyncLock` and copies the index into the row it has read. -/
  | copyIndex
  /-- `InitChannelCache` publishes its rows and releases the lock. -/
  | swap
deriving DecidableEq

namespace PollState

/-- No call is under way and none has returned. -/
def start (indices : List ℤ) (cached : Option (Fin indices.length)) (dbIndex : ℤ) : PollState where
  indices := indices
  cached := cached.map Fin.val
  dbIndex := dbIndex
  copied := none
  call := none
  returned := []

variable (s : PollState)

/-- The index of the cached copy. -/
def cachedIndex : Option ℤ :=
  s.cached.bind fun object => s.indices[object]?

/-- How often the key at an index was returned. -/
def timesReturned (i : ℕ) : ℕ :=
  (s.returned.map Prod.snd).count i

end PollState

section

variable {S O M : Type} (json : ChannelJson S O M) (channel : ConfiguredChannel) (rand : Rand)
  (memoryCacheEnabled : Bool)

/-- The channel's information with another polling index. -/
def infoAt (index : ℤ) : ChannelInfo :=
  { channel.channelInfo with multiKeyPollingIndex := index }

/-- The rest of `GetNextEnabledKey` in polling mode, from the index that it read. -/
def pollKey (index : ℤ) : Except NewAPIError (String × ℕ) :=
  channel.getNextEnabledKey json rand (.ok (infoAt channel index))

def pollStep (s : PollState) : PollAction → Option PollState
  | .load => some { s with indices := s.indices ++ [s.dbIndex] }
  | .enter object =>
      if s.call.isSome ∨ s.indices.length ≤ object then none
      else if memoryCacheEnabled then
        -- `CacheGetChannelInfo` waits for `channelSyncLock`
        if s.copied.isSome then none
        else s.cachedIndex.map fun index => { s with call := some (object, index) }
      else some { s with call := some (object, s.dbIndex) }
  | .leave saved =>
      match s.call with
      | none => none
      | some (object, index) =>
          match pollKey json channel rand index with
          | .error _ => some { s with call := none }
          | .ok (key, idx) =>
              let next : ℤ := ((idx + 1) % (channel.getKeys json.keys).length : ℕ)
              some
                { s with
                  indices := s.indices.set object next
                  dbIndex := if !memoryCacheEnabled && saved then next else s.dbIndex
                  call := none
                  returned := s.returned ++ [(key, idx)] }
  | .copyIndex =>
      if !memoryCacheEnabled || s.copied.isSome then none
      else
        some
          { s with
            indices := s.indices ++ [s.cachedIndex.getD s.dbIndex]
            copied := some s.indices.length }
  | .swap =>
      match s.copied with
      | none => none
      | some object => some { s with cached := some object, copied := none }

/-- The calls on the channel between loads and resyncs. -/
def keyPolling : System PollState PollAction where
  step := pollStep json channel rand memoryCacheEnabled

/-- The index that a call writes is the one that the next call reads: the call was made on the copy
that is cached, and no resync has passed that copy's index on already; without the memory cache, the
row is saved. -/
def IndexKept (memoryCacheEnabled : Bool) (s : PollState) (action : PollAction) : Prop :=
  match action with
  | .leave saved =>
      if memoryCacheEnabled then
        (∀ call ∈ s.call, s.cached = some call.1) ∧ s.copied = none
      else saved = true
  | _ => True

instance (memoryCacheEnabled : Bool) (s : PollState) :
    ∀ action, Decidable (IndexKept memoryCacheEnabled s action)
  | .leave saved =>
      inferInstanceAs (Decidable (if memoryCacheEnabled then
        (∀ call ∈ s.call, s.cached = some call.1) ∧ s.copied = none else saved = true))
  | .load | .enter _ | .copyIndex | .swap => inferInstanceAs (Decidable True)

/-- The key is enabled and stands at the index. -/
def IsEnabledKey (entry : String × ℕ) : Prop :=
  (channel.getKeys json.keys)[entry.2]? = some entry.1 ∧
    channel.keyStatus entry.2 = ChannelStatusEnabled

/-- Whether the key at an index takes part in the polling. -/
def polled (i : ℕ) : Bool :=
  decide (channel.keyStatus i = ChannelStatusEnabled)

end

section

variable {S O M : Type} {json : ChannelJson S O M} {channel : ConfiguredChannel} {rand : Rand}
  {memoryCacheEnabled : Bool} {s s' : PollState} {action : PollAction}

/-- The place where the search starts: an index that names no key stands for the first. -/
def startPlace (n : ℕ) (index : ℤ) : ℕ :=
  if index < 0 ∨ (n : ℤ) ≤ index then 0 else index.toNat

theorem startPlace_lt {n : ℕ} (hn : 0 < n) (index : ℤ) : startPlace n index < n := by
  unfold startPlace
  split_ifs with hout
  · exact hn
  · omega

theorem startPlace_next {n : ℕ} (hn : 0 < n) (idx : ℕ) :
    startPlace n (((idx + 1) % n : ℕ) : ℤ) = (idx + 1) % n := by
  have hlt : (idx + 1) % n < n := Nat.mod_lt _ hn
  unfold startPlace
  rw [if_neg (by omega), Int.toNat_natCast]

theorem nextIdx_eq_serve (index : ℤ) :
    channel.nextIdx json index =
      serve (channel.getKeys json.keys).length
        (startPlace (channel.getKeys json.keys).length index) (polled channel) := rfl

/-- In polling mode the call serves the next enabled key of the ring. -/
theorem pollKey_eq (rand : Rand) (hmulti : channel.channelInfo.isMultiKey = true)
    (hpolling : channel.channelInfo.multiKeyMode = ChannelCache.ConstantMultiKeyModePolling)
    (henabled : channel.SomeKeyEnabled json.keys) (index : ℤ) :
    ∃ key idx, pollKey json channel rand index = .ok (key, idx) ∧
      IsEnabledKey json channel (key, idx) ∧
      serve (channel.getKeys json.keys).length
        (startPlace (channel.getKeys json.keys).length index) (polled channel) = some idx := by
  obtain ⟨i, hi, hstatus⟩ := henabled
  have hpos : 0 < (channel.getKeys json.keys).length := by omega
  have htakes : polled channel i = true := decide_eq_true hstatus
  obtain ⟨idx, hserve⟩ := serve_isSome (startPlace_lt hpos index) hi htakes
  obtain ⟨hlt, hpolled, -⟩ := serve_spec (startPlace_lt hpos index) hserve
  have hnotRandom : channel.channelInfo.multiKeyMode ≠ MultiKeyModeRandom := by
    rw [hpolling]
    decide
  refine ⟨(channel.getKeys json.keys).getD idx "", idx, ?_, ⟨?_, of_decide_eq_true hpolled⟩, hserve⟩
  · unfold pollKey ConfiguredChannel.getNextEnabledKey
    rw [if_neg (by rw [hmulti]; decide), if_neg (List.ne_nil_of_length_pos hpos)]
    cases hlist : channel.enabledIdx json with
    | nil => exact absurd ⟨i, hi, hstatus⟩ (ConfiguredChannel.enabledIdx_eq_nil.1 hlist)
    | cons first rest =>
        have hpick : channel.pickIdx json rand (.ok (infoAt channel index)) first rest =
            .ok idx := by
          unfold ConfiguredChannel.pickIdx
          rw [if_neg hnotRandom, if_pos hpolling]
          show Except.ok ((channel.nextIdx json index).getD first) = .ok idx
          rw [nextIdx_eq_serve, hserve, Option.getD_some]
        dsimp only
        rw [hpick]
  · rw [List.getD_eq_getElem _ _ hlt, List.getElem?_eq_getElem hlt]

/-- What a call that has found a key leaves behind. -/
def PollState.left (s : PollState) (memoryCacheEnabled saved : Bool) (object next : ℕ)
    (entry : String × ℕ) : PollState :=
  { s with
    indices := s.indices.set object next
    dbIndex := if !memoryCacheEnabled && saved then next else s.dbIndex
    call := none
    returned := s.returned ++ [entry] }

/-- What a step can do. -/
theorem pollStep_cases (hmulti : channel.channelInfo.isMultiKey = true)
    (hpolling : channel.channelInfo.multiKeyMode = ChannelCache.ConstantMultiKeyModePolling)
    (henabled : channel.SomeKeyEnabled json.keys)
    (hstep : (keyPolling json channel rand memoryCacheEnabled).step s action = some s') :
    (action = .load ∧ s' = { s with indices := s.indices ++ [s.dbIndex] }) ∨
    (∃ object index, action = .enter object ∧ s.call = none ∧
      (if memoryCacheEnabled then s.copied = none ∧ s.cachedIndex = some index
        else index = s.dbIndex) ∧
      object < s.indices.length ∧ s' = { s with call := some (object, index) }) ∨
    (∃ saved object index key idx, action = .leave saved ∧ s.call = some (object, index) ∧
      IsEnabledKey json channel (key, idx) ∧
      serve (channel.getKeys json.keys).length
        (startPlace (channel.getKeys json.keys).length index) (polled channel) = some idx ∧
      s' = s.left memoryCacheEnabled saved object
        ((idx + 1) % (channel.getKeys json.keys).length) (key, idx)) ∨
    (action = .copyIndex ∧ memoryCacheEnabled = true ∧ s.copied = none ∧
      s' =
        { s with
          indices := s.indices ++ [s.cachedIndex.getD s.dbIndex]
          copied := some s.indices.length }) ∨
    ∃ object, action = .swap ∧ s.copied = some object ∧
      s' = { s with cached := some object, copied := none } := by
  cases action with
  | load => exact .inl ⟨rfl, (Option.some.inj hstep).symm⟩
  | enter object =>
      refine .inr (.inl ?_)
      simp only [keyPolling, pollStep] at hstep
      split at hstep
      · cases hstep
      · rename_i hfree
        rw [not_or, not_le, Option.not_isSome_iff_eq_none] at hfree
        split at hstep
        · rename_i hmemory
          split at hstep
          · cases hstep
          · rename_i hunlocked
            obtain ⟨index, hindex, rfl⟩ := Option.map_eq_some_iff.1 hstep
            refine ⟨object, index, rfl, hfree.1, ?_, hfree.2, rfl⟩
            rw [if_pos hmemory]
            exact ⟨Option.not_isSome_iff_eq_none.1 hunlocked, hindex⟩
        · rename_i hmemory
          obtain rfl := Option.some.inj hstep
          refine ⟨object, s.dbIndex, rfl, hfree.1, ?_, hfree.2, rfl⟩
          rw [if_neg hmemory]
  | leave saved =>
      refine .inr (.inr (.inl ?_))
      simp only [keyPolling, pollStep] at hstep
      cases hcall : s.call with
      | none =>
          rw [hcall] at hstep
          cases hstep
      | some call =>
          obtain ⟨object, index⟩ := call
          obtain ⟨key, idx, hpoll, hkey, hserve⟩ :=
            pollKey_eq rand hmulti hpolling henabled index
          rw [hcall] at hstep
          dsimp only at hstep
          rw [hpoll] at hstep
          exact ⟨saved, object, index, key, idx, rfl, rfl, hkey, hserve,
            (Option.some.inj hstep).symm⟩
  | copyIndex =>
      refine .inr (.inr (.inr (.inl ?_)))
      simp only [keyPolling, pollStep] at hstep
      split at hstep
      · cases hstep
      · rename_i hfree
        rw [Bool.or_eq_true, not_or, Bool.not_eq_true', Bool.not_eq_false,
          Option.not_isSome_iff_eq_none] at hfree
        exact ⟨rfl, hfree.1, hfree.2, (Option.some.inj hstep).symm⟩
  | swap =>
      refine .inr (.inr (.inr (.inr ?_)))
      simp only [keyPolling, pollStep] at hstep
      cases hcopied : s.copied with
      | none =>
          rw [hcopied] at hstep
          cases hstep
      | some object =>
          rw [hcopied] at hstep
          exact ⟨object, rfl, rfl, (Option.some.inj hstep).symm⟩

/-- The index that the next call reads. -/
def PollState.cursor (s : PollState) (memoryCacheEnabled : Bool) : ℤ :=
  if memoryCacheEnabled then s.cachedIndex.getD s.dbIndex else s.dbIndex

/-- The calls have served the ring in turn up to the index that the next call reads, which is the
one that a call under way has read and the one that a resync has passed on. -/
structure FairPolling (json : ChannelJson S O M) (channel : ConfiguredChannel)
    (memoryCacheEnabled : Bool) (s : PollState) : Prop where
  balanced : Balanced (channel.getKeys json.keys).length (polled channel)
    (startPlace (channel.getKeys json.keys).length (s.cursor memoryCacheEnabled)) s.timesReturned
  call : ∀ call ∈ s.call, call.2 = s.cursor memoryCacheEnabled
  copied : ∀ object ∈ s.copied, memoryCacheEnabled = true ∧
    s.indices[object]? = some (s.cursor memoryCacheEnabled)
  cached : ∀ object ∈ s.cached, object < s.indices.length

theorem cursor_append (memoryCacheEnabled : Bool) (index : ℤ)
    (hcached : ∀ object ∈ s.cached, object < s.indices.length) :
    PollState.cursor { s with indices := s.indices ++ [index] } memoryCacheEnabled =
      s.cursor memoryCacheEnabled := by
  unfold PollState.cursor PollState.cachedIndex
  cases hobject : s.cached with
  | none => rfl
  | some object =>
      have hlt := hcached object hobject
      dsimp only [Option.bind_some]
      rw [List.getElem?_append_left hlt]

theorem timesReturned_append {key : String} {idx i : ℕ} :
    ((s.returned ++ [(key, idx)]).map Prod.snd).count i =
      s.timesReturned i + if idx = i then 1 else 0 := by
  rw [List.map_append, List.count_append, PollState.timesReturned, List.map_singleton,
    List.count_singleton]
  by_cases hsame : idx = i
  · rw [if_pos hsame, if_pos (beq_iff_eq.2 hsame)]
  · rw [if_neg hsame, if_neg fun hbeq => hsame (beq_iff_eq.1 hbeq)]

namespace FairPolling

/-- Another copy of the row changes nothing for the calls. -/
theorem append (hfair : FairPolling json channel memoryCacheEnabled s) (index : ℤ) :
    FairPolling json channel memoryCacheEnabled { s with indices := s.indices ++ [index] } := by
  have hcursor := cursor_append memoryCacheEnabled index hfair.cached
  refine ⟨?_, ?_, fun object hobject => ?_, fun object hobject => ?_⟩
  · rw [hcursor]
    exact hfair.balanced
  · rw [hcursor]
    exact hfair.call
  · rw [hcursor]
    obtain ⟨hmemory, hat⟩ := hfair.copied object hobject
    rw [List.getElem?_append_left (List.getElem?_eq_some_iff.1 hat).1]
    exact ⟨hmemory, hat⟩
  · have hlt := hfair.cached object hobject
    rw [List.length_append]
    omega

/-- A call reads the index that the calls before it have left. -/
theorem enter {object : ℕ} {index : ℤ} (hfair : FairPolling json channel memoryCacheEnabled s)
    (hindex : if memoryCacheEnabled then s.copied = none ∧ s.cachedIndex = some index
      else index = s.dbIndex) :
    FairPolling json channel memoryCacheEnabled { s with call := some (object, index) } := by
  refine ⟨hfair.balanced, fun call hmem => ?_, hfair.copied, hfair.cached⟩
  obtain rfl := Option.some.inj hmem
  show index = s.cursor memoryCacheEnabled
  unfold PollState.cursor
  cases memoryCacheEnabled with
  | false => exact hindex
  | true =>
      rw [if_pos rfl] at hindex ⊢
      rw [hindex.2, Option.getD_some]

/-- A call that keeps its index serves the next place of the ring. -/
theorem leave {saved : Bool} {object idx : ℕ} {index : ℤ} {key : String}
    (hfair : FairPolling json channel memoryCacheEnabled s)
    (hpos : 0 < (channel.getKeys json.keys).length)
    (hkept : IndexKept memoryCacheEnabled s (.leave saved)) (hcall : s.call = some (object, index))
    (hserve : serve (channel.getKeys json.keys).length
      (startPlace (channel.getKeys json.keys).length index) (polled channel) = some idx) :
    FairPolling json channel memoryCacheEnabled (s.left memoryCacheEnabled saved object
      ((idx + 1) % (channel.getKeys json.keys).length) (key, idx)) := by
  have hread : index = s.cursor memoryCacheEnabled := hfair.call _ hcall
  have hwritten : (s.left memoryCacheEnabled saved object
      ((idx + 1) % (channel.getKeys json.keys).length) (key, idx)).cursor memoryCacheEnabled =
        (((idx + 1) % (channel.getKeys json.keys).length : ℕ) : ℤ) := by
    unfold PollState.cursor PollState.cachedIndex PollState.left
    cases memoryCacheEnabled with
    | false =>
        have hsaved : saved = true := hkept
        rw [hsaved]
        rfl
    | true =>
        have hobject : s.cached = some object := hkept.1 _ hcall
        dsimp only
        rw [if_pos rfl, hobject, Option.bind_some,
          List.getElem?_set_self (hfair.cached object hobject), Option.getD_some]
  refine ⟨?_, fun call hmem => (nomatch hmem), fun other hother => ?_, fun other hother => ?_⟩
  · rw [hwritten, startPlace_next hpos]
    rw [hread] at hserve
    refine hfair.balanced.served (startPlace_lt hpos _) hserve ?_ fun other hother => ?_
    · exact timesReturned_append.trans (by rw [if_pos rfl])
    · exact timesReturned_append.trans (by rw [if_neg (Ne.symm hother), Nat.add_zero])
  · -- a resync that has passed an index on would publish the one before
    obtain ⟨hmemory, -⟩ := hfair.copied other hother
    subst hmemory
    have hnone : s.copied = none := hkept.2
    rw [show s.copied = some other from hother] at hnone
    cases hnone
  · rw [PollState.left, List.length_set]
    exact hfair.cached other hother

/-- A resync passes the index on to the copy that it has made. -/
theorem copyIndex (hfair : FairPolling json channel true s) :
    FairPolling json channel true
      { s with
        indices := s.indices ++ [s.cachedIndex.getD s.dbIndex]
        copied := some s.indices.length } := by
  have happend := hfair.append (s.cachedIndex.getD s.dbIndex)
  refine ⟨happend.balanced, happend.call, fun object hobject => ?_, happend.cached⟩
  obtain rfl := Option.some.inj hobject
  have hcursor := cursor_append true (s.cachedIndex.getD s.dbIndex) hfair.cached
  refine ⟨rfl, Eq.trans ?_ (congrArg some hcursor.symm)⟩
  rw [List.getElem?_append_right le_rfl, Nat.sub_self]
  rfl

/-- The copy that is published has the index of the one before. -/
theorem swap {object : ℕ} (hfair : FairPolling json channel memoryCacheEnabled s)
    (hcopied : s.copied = some object) :
    FairPolling json channel memoryCacheEnabled
      { s with cached := some object, copied := none } := by
  obtain ⟨hmemory, hat⟩ := hfair.copied object hcopied
  subst hmemory
  have hcursor : PollState.cursor { s with cached := some object, copied := none } true =
      s.cursor true := by
    show (s.indices[object]?).getD s.dbIndex = s.cursor true
    rw [hat, Option.getD_some]
  refine ⟨?_, ?_, fun other hother => (nomatch hother), fun other hother => ?_⟩
  · rw [hcursor]
    exact hfair.balanced
  · rw [hcursor]
    exact hfair.call
  · obtain rfl := Option.some.inj hother
    exact (List.getElem?_eq_some_iff.1 hat).1

end FairPolling

variable (hmulti : channel.channelInfo.isMultiKey = true)
  (hpolling : channel.channelInfo.multiKeyMode = ChannelCache.ConstantMultiKeyModePolling)
  (henabled : channel.SomeKeyEnabled json.keys)

include hmulti hpolling henabled

/-- A call only ever returns an enabled key at its index. -/
theorem returned_step
    (hstep : (keyPolling json channel rand memoryCacheEnabled).step s action = some s')
    (hreturned : ∀ entry ∈ s.returned, IsEnabledKey json channel entry) :
    ∀ entry ∈ s'.returned, IsEnabledKey json channel entry := by
  obtain ⟨-, rfl⟩ | ⟨object, index, -, -, -, -, rfl⟩ |
    ⟨saved, object, index, key, idx, -, -, hkey, -, rfl⟩ | ⟨-, -, -, rfl⟩ | ⟨object, -, -, rfl⟩ :=
    pollStep_cases hmulti hpolling henabled hstep
  · exact hreturned
  · exact hreturned
  · intro entry hentry
    rcases List.mem_append.1 hentry with hbefore | hnow
    · exact hreturned entry hbefore
    · rw [List.mem_singleton.1 hnow]
      exact hkey
  · exact hreturned
  · exact hreturned

/-- Every step whose call keeps its index keeps the calls fair. -/
theorem fair_step
    (hstep : (keyPolling json channel rand memoryCacheEnabled).step s action = some s')
    (hkept : IndexKept memoryCacheEnabled s action)
    (hfair : FairPolling json channel memoryCacheEnabled s) :
    FairPolling json channel memoryCacheEnabled s' := by
  obtain ⟨-, rfl⟩ | ⟨object, index, -, -, hindex, -, rfl⟩ |
    ⟨saved, object, index, key, idx, rfl, hcall, -, hserve, rfl⟩ |
    ⟨-, hmemory, -, rfl⟩ | ⟨object, -, hcopied, rfl⟩ :=
    pollStep_cases hmulti hpolling henabled hstep
  · exact hfair.append s.dbIndex
  · exact hfair.enter hindex
  · have hpos : 0 < (channel.getKeys json.keys).length := by
      obtain ⟨i, hi, -⟩ := henabled
      omega
    exact hfair.leave hpos hkept hcall hserve
  · subst hmemory
    exact hfair.copyIndex
  · exact hfair.swap hcopied

/-- Every call returns an enabled key at its index; and in every run whose calls keep their index,
the numbers of times that two enabled keys were returned differ by at most one. -/
theorem key_polling_fair (indices : List ℤ) (cached : Option (Fin indices.length)) (dbIndex : ℤ)
    {actions : List PollAction} {s : PollState}
    (hrun : (keyPolling json channel rand memoryCacheEnabled).run
      (PollState.start indices cached dbIndex) actions = some s) :
    (∀ entry ∈ s.returned, IsEnabledKey json channel entry) ∧
    ((keyPolling json channel rand memoryCacheEnabled).Along (IndexKept memoryCacheEnabled)
        (PollState.start indices cached dbIndex) actions →
      ∀ i ∈ channel.enabledIdx json, ∀ j ∈ channel.enabledIdx json,
        s.timesReturned i ≤ s.timesReturned j + 1) := by
  constructor
  · refine System.kept_run (returned_step hmulti hpolling henabled) ?_ hrun
    exact fun entry hentry => (nomatch hentry)
  · intro halong i hi j hj
    have hstart : FairPolling json channel memoryCacheEnabled
        (PollState.start indices cached dbIndex) := by
      refine ⟨balanced_zero _ _ _, fun call hcall => (nomatch hcall),
        fun object hobject => (nomatch hobject), fun object hobject => ?_⟩
      obtain ⟨k, -, rfl⟩ := Option.map_eq_some_iff.1 hobject
      exact k.isLt
    have hfair := System.invariant_run (fun hstep hkept hfair =>
      fair_step hmulti hpolling henabled hstep hkept hfair) hstart halong hrun
    obtain ⟨hilt, histatus⟩ := ConfiguredChannel.mem_enabledIdx.1 hi
    obtain ⟨hjlt, hjstatus⟩ := ConfiguredChannel.mem_enabledIdx.1 hj
    exact hfair.balanced.fair hilt hjlt (decide_eq_true histatus) (decide_eq_true hjstatus)

end

/-- A polled channel of three keys, of which the second is disabled. -/
def samplePolledChannel : ConfiguredChannel :=
  { sampleConfiguredChannel 1 true none with
    key := "sk-1\nsk-2\nsk-3"
    channelInfo :=
      { ChannelInfo.empty with
        isMultiKey := true
        multiKeySize := 3
        multiKeyStatusList := AList.singleton 1 ChannelStatusAutoDisabled
        multiKeyMode := ChannelCache.ConstantMultiKeyModePolling } }

/-- Three calls on the cached channel, which a resync replaces in between. -/
def polledCalls : List PollAction :=
  [.enter 0, .leave false, .copyIndex, .swap, .enter 1, .leave false, .enter 1, .leave false]

/-- Two calls on rows that were read from the table, as `Distribute` makes them for a token that
names its channel. -/
def rowCalls : List PollAction :=
  [.load, .enter 1, .leave false, .load, .enter 2, .leave false]

theorem key_polling_fair_three :
    ∃ s, (keyPolling sampleChannelJson samplePolledChannel (Choice.constRand 0) true).run
        (PollState.start [0] (some 0) 0) polledCalls = some s ∧
      s.returned = [("sk-1", 0), ("sk-3", 2), ("sk-1", 0)] ∧
      ∀ i ∈ samplePolledChannel.enabledIdx sampleChannelJson,
        ∀ j ∈ samplePolledChannel.enabledIdx sampleChannelJson,
          s.timesReturned i ≤ s.timesReturned j + 1 := by
  have hrun : (keyPolling sampleChannelJson samplePolledChannel (Choice.constRand 0) true).run
      (PollState.start [0] (some 0) 0) polledCalls =
        some ⟨[1, 1], some 1, 0, none, none, [("sk-1", 0), ("sk-3", 2), ("sk-1", 0)]⟩ := by
    decide +kernel
  refine ⟨_, hrun, rfl, ?_⟩
  refine (key_polling_fair rfl rfl ⟨0, by decide +kernel, rfl⟩ [0] (some 0) 0 hrun).2 ?_
  decide +kernel

/-- Both calls return the first key. -/
theorem row_calls_repeat_key :
    ¬ ∀ (channel : ConfiguredChannel) (actions : List PollAction) (s : PollState),
      channel.channelInfo.isMultiKey = true →
      channel.channelInfo.multiKeyMode = ChannelCache.ConstantMultiKeyModePolling →
      channel.SomeKeyEnabled sampleChannelJson.keys →
      (keyPolling sampleChannelJson channel (Choice.constRand 0) true).run
        (PollState.start [0] (some 0) 0) actions = some s →
      ∀ i ∈ channel.enabledIdx sampleChannelJson, ∀ j ∈ channel.enabledIdx sampleChannelJson,
        s.timesReturned i ≤ s.timesReturned j + 1 := by
  intro hclaim
  have hrun : (keyPolling sampleChannelJson samplePolledChannel (Choice.constRand 0) true).run
      (PollState.start [0] (some 0) 0) rowCalls =
        some ⟨[0, 1, 1], some 0, 0, none, none, [("sk-1", 0), ("sk-1", 0)]⟩ := by
    decide +kernel
  have hfair := hclaim samplePolledChannel rowCalls _ rfl rfl ⟨0, by decide +kernel, rfl⟩ hrun
    0 (by decide +kernel) 2 (by decide +kernel)
  exact absurd hfair (by decide +kernel)

end NewApi.Model
