import NewApi.Lib.Blocks
import NewApi.Model.ChannelSatisfy
import NewApi.Model.RetryLoop

/-!
# The order of a cross-group retry

A request for the group `auto` whose attempts all fail goes through the auto groups.  The doc
comment of the selection describes the order: every group uses up its priorities, from the
highest to the lowest, before the next group starts.  The loop really gives every group the
same number of attempts, and repeats the lowest priority where a group has fewer.
-/

namespace NewApi.Model

open NewApi.Lib NewApi.Lib.Choice

/-! ## The documented order -/

/-- An attempt as the doc comment speaks of it: the auto group and the priority. -/
abbrev Place := Option String × Option ℤ

/-- A selection as the loop sees it; every draw has its own random numbers. -/
def drawnSource (select : Rand → String → String → ℕ → Except String (Option Channel))
    (rand : String → ℕ → Rand) : ChannelSource :=
  fun group model retry =>
    match select (rand group retry) group model retry with
    | .ok channel => (channel, none)
    | .error err => (none, some err)

namespace ChannelCache

/-- The channels that a group has for a model. -/
def pool (cache : ChannelCache) (modelName group : String) : List Channel :=
  (cache.satisfied group modelName).filterMap cache.channelsIDM

/-- The distinct priorities of a group, the highest first. -/
def priorities (cache : ChannelCache) (modelName group : String) : List ℤ :=
  levels Channel.getPriority (cache.pool modelName group)

/-- Each priority of a group once. -/
def documentedIn (cache : ChannelCache) (modelName group : String) : List Place :=
  (cache.priorities modelName group).map fun priority => (some group, some priority)

/-- Every group in turn. -/
def documentedOrder (cache : ChannelCache) (modelName : String) (groups : List String) :
    List Place :=
  groups.flatMap (cache.documentedIn modelName)

def place (cache : ChannelCache) (tried : TriedChannel) : Place :=
  (tried.autoGroup, (cache.channelsIDM tried.channelId).map Channel.getPriority)

/-- The groups that have a channel for the model. -/
def servedGroups (cache : ChannelCache) (modelName : String) (groups : List String) :
    List String :=
  groups.filter fun group => cache.pool modelName group ≠ []

/-- The attempt of a retry in a group. -/
def placeAt (cache : ChannelCache) (modelName group : String) (retry : ℕ) : Place :=
  (some group, some (level Channel.getPriority (cache.pool modelName group) retry))

/-- The attempts of the loop in one group. -/
def attemptsIn (cache : ChannelCache) (modelName : String) (retryTimes : ℕ) (group : String) :
    List Place :=
  (List.range (retryTimes + 1)).map (cache.placeAt modelName group)

/-- The attempts of the loop.  Without retries the first group has the only one. -/
def attemptedOrder (cache : ChannelCache) (modelName : String) (retryTimes : ℕ)
    (groups : List String) : List Place :=
  let served := cache.servedGroups modelName groups
  (if retryTimes = 0 then served.take 1 else served).flatMap
    (cache.attemptsIn modelName retryTimes)

/-- The selection from the cache as the loop sees it. -/
def source (cache : ChannelCache) (rand : String → ℕ → Rand) : ChannelSource :=
  drawnSource (fun rand => cache.getRandomSatisfiedChannel rand) rand

end ChannelCache

/-- The attempts follow the documented order as far as the retries allow: they begin it, and
they are all of it or more than the retries. -/
def InDocumentedOrder (retryTimes : ℕ) (order tried : List Place) : Prop :=
  tried <+: order ∧ (tried = order ∨ retryTimes < tried.length)

/-- Every group but the last has exactly as many priorities as it gets attempts, the last one
at least as many. -/
def FitsRetries (retryTimes : ℕ) (sizes : List ℕ) : Prop :=
  (∀ size ∈ sizes.dropLast, size = retryTimes + 1) ∧ ∀ size ∈ sizes.getLast?, retryTimes + 1 ≤ size

instance (retryTimes : ℕ) (sizes : List ℕ) : Decidable (FitsRetries retryTimes sizes) :=
  inferInstanceAs (Decidable (_ ∧ _))

section Order

variable {cache : ChannelCache} {modelName : String} {groups served : List String}
  {group : String} {retryTimes : ℕ}

theorem documentedOrder_servedGroups :
    cache.documentedOrder modelName (cache.servedGroups modelName groups) =
      cache.documentedOrder modelName groups := by
  induction groups with
  | nil => rfl
  | cons group groups ih =>
      rw [ChannelCache.servedGroups] at ih ⊢
      by_cases hpool : cache.pool modelName group = []
      · rw [List.filter_cons_of_neg (by simpa using hpool), ih, ChannelCache.documentedOrder,
          ChannelCache.documentedOrder, List.flatMap_cons, ChannelCache.documentedIn,
          ChannelCache.priorities, levels_eq_nil.2 hpool]
        rfl
      · rw [List.filter_cons_of_pos (by simpa using hpool)]
        exact congrArg (_ ++ ·) ih

theorem priorities_pos (hmem : group ∈ cache.servedGroups modelName groups) :
    0 < (cache.priorities modelName group).length := by
  refine List.length_pos_iff.2 fun hnone => ?_
  have hpool : cache.pool modelName group ≠ [] := by simpa using (List.mem_filter.1 hmem).2
  exact hpool (levels_eq_nil.1 hnone)

theorem attemptsIn_length :
    (cache.attemptsIn modelName retryTimes group).length = retryTimes + 1 := by
  rw [ChannelCache.attemptsIn, List.length_map, List.length_range]

theorem documentedIn_length :
    (cache.documentedIn modelName group).length = (cache.priorities modelName group).length :=
  List.length_map _

theorem documentedIn_nodup : (cache.documentedIn modelName group).Nodup :=
  levels_nodup.map fun _ _ hpq => Option.some.inj (congrArg Prod.snd hpq)

/-- A group with enough priorities has its highest ones tried, each once. -/
theorem attemptsIn_eq_take (henough : retryTimes + 1 ≤ (cache.priorities modelName group).length) :
    cache.attemptsIn modelName retryTimes group =
      (cache.documentedIn modelName group).take (retryTimes + 1) := by
  refine List.ext_getElem ?_ fun retry hfirst hsecond => ?_
  · rw [attemptsIn_length, List.length_take, documentedIn_length, Nat.min_eq_left henough]
  · rw [attemptsIn_length] at hfirst
    have hretry : retry < (cache.priorities modelName group).length := by omega
    simp only [ChannelCache.attemptsIn, ChannelCache.documentedIn, ChannelCache.placeAt,
      List.getElem_map, List.getElem_range, List.getElem_take]
    rw [ChannelCache.priorities] at hretry
    rw [level, if_neg (Nat.not_le.2 hretry), List.getD_eq_getElem _ _ hretry]
    rfl

/-- A group with fewer priorities has its lowest one tried more than once. -/
theorem two_le_count_attemptsIn (hpositive : 0 < (cache.priorities modelName group).length)
    (hfew : (cache.priorities modelName group).length ≤ retryTimes) :
    2 ≤ (cache.attemptsIn modelName retryTimes group).count
      (cache.placeAt modelName group retryTimes) := by
  -- the retry that reaches the lowest priority, and the last one
  have hlowest : cache.placeAt modelName group ((cache.priorities modelName group).length - 1) =
      cache.placeAt modelName group retryTimes := by
    rw [ChannelCache.placeAt, ChannelCache.placeAt, level, level, ← ChannelCache.priorities,
      if_pos hfew, if_neg (by omega)]
  have hearlier : 0 < ((List.range retryTimes).map (cache.placeAt modelName group)).count
      (cache.placeAt modelName group retryTimes) := by
    rw [← hlowest]
    exact List.count_pos_iff.2 (List.mem_map_of_mem (List.mem_range.2 (by omega)))
  rw [ChannelCache.attemptsIn, List.range_succ, List.map_append, List.count_append,
    List.map_singleton, List.count_singleton_self]
  omega

theorem count_documentedIn_of_ne {other : String} (hother : other ≠ group) (retry : ℕ) :
    (cache.documentedIn modelName other).count (cache.placeAt modelName group retry) = 0 := by
  refine List.count_eq_zero_of_not_mem fun hmem => hother ?_
  obtain ⟨priority, -, hplace⟩ := List.mem_map.1 hmem
  exact Option.some.inj (congrArg Prod.fst hplace)

/-- Where the attempts begin the documented order, no group has too few priorities. -/
theorem enough_of_starts
    (hserved : ∀ group ∈ served, 0 < (cache.priorities modelName group).length)
    (hstarts : served.flatMap (cache.attemptsIn modelName retryTimes) <+:
      cache.documentedOrder modelName served) (hmem : group ∈ served) :
    retryTimes + 1 ≤ (cache.priorities modelName group).length := by
  by_contra hfew
  have htwo := two_le_count_attemptsIn (hserved group hmem) (Nat.le_of_lt_succ (Nat.not_le.1 hfew))
  have hone : (cache.documentedIn modelName group).count
      (cache.placeAt modelName group retryTimes) ≤ 1 :=
    List.nodup_iff_count_le_one.1 documentedIn_nodup _
  have hmore : (cache.documentedIn modelName group).count
      (cache.placeAt modelName group retryTimes) <
        (cache.attemptsIn modelName retryTimes group).count
          (cache.placeAt modelName group retryTimes) := by
    omega
  refine Blocks.not_prefix_flatMap (fun other _ => ?_) ⟨group, hmem, hmore⟩ hstarts
  by_cases hother : other = group
  · rw [hother]
    exact Nat.le_of_lt hmore
  · rw [count_documentedIn_of_ne hother]
    exact Nat.zero_le _

/-- A group that the next one follows has no further priority. -/
theorem attempts_not_continued {other : String} {first : Place} {later : List Place}
    (hfirst : cache.attemptsIn modelName retryTimes other = first :: later) :
    ¬cache.attemptsIn modelName retryTimes group ++ [first] <+:
      cache.documentedIn modelName group := by
  intro hstarts
  have hhead : first = cache.placeAt modelName other 0 := by
    rw [ChannelCache.attemptsIn, List.range_succ_eq_map] at hfirst
    exact (List.cons.inj hfirst).1.symm
  have hnodup := documentedIn_nodup.sublist hstarts.sublist
  obtain ⟨-, -, hdisjoint⟩ := List.nodup_append.1 hnodup
  have hmem : first ∈ cache.documentedIn modelName group :=
    hstarts.subset (List.mem_append_right _ (List.mem_singleton_self first))
  obtain ⟨priority, -, hplace⟩ := List.mem_map.1 hmem
  -- the same group, which has had its first attempt already
  obtain rfl : group = other :=
    Option.some.inj (congrArg Prod.fst (hplace.trans hhead))
  rw [hhead] at hdisjoint
  refine hdisjoint _ ?_ _ (List.mem_singleton_self _) rfl
  rw [hfirst, hhead]
  exact List.mem_cons_self ..

theorem fits_of_starts (hserved : ∀ group ∈ served, 0 < (cache.priorities modelName group).length)
    (hstarts : served.flatMap (cache.attemptsIn modelName retryTimes) <+:
      cache.documentedOrder modelName served) :
    FitsRetries retryTimes (served.map fun group => (cache.priorities modelName group).length) := by
  constructor
  · have hsame := Blocks.eq_of_prefix_flatMap hstarts
      (fun group _ hnone => by
        have hlength : (cache.attemptsIn modelName retryTimes group).length = retryTimes + 1 :=
          attemptsIn_length
        rw [hnone] at hlength
        cases hlength)
      (fun group hmem => by
        rw [attemptsIn_eq_take (enough_of_starts hserved hstarts hmem)]
        exact List.take_prefix _ _)
      (fun group _ other _ first later hfirst => attempts_not_continued hfirst)
    intro size hsize
    rw [← List.map_dropLast] at hsize
    obtain ⟨group, hmem, rfl⟩ := List.mem_map.1 hsize
    have hlength : (cache.attemptsIn modelName retryTimes group).length = retryTimes + 1 :=
      attemptsIn_length
    rw [← hlength, hsame group hmem, documentedIn_length]
  · intro size hsize
    rw [List.getLast?_map] at hsize
    obtain ⟨group, hlast, rfl⟩ := Option.map_eq_some_iff.1 hsize
    exact enough_of_starts hserved hstarts (List.mem_of_getLast? hlast)

theorem prefix_of_fits (hfits : FitsRetries retryTimes
      (served.map fun group => (cache.priorities modelName group).length)) :
    served.flatMap (cache.attemptsIn modelName retryTimes) <+:
      cache.documentedOrder modelName served := by
  obtain ⟨hsizes, hlast⟩ := hfits
  refine Blocks.prefix_flatMap (fun group hmem => ?_) fun group hmem => ?_
  · rw [← List.map_dropLast] at hsizes
    have hsize := hsizes _ (List.mem_map_of_mem hmem)
    rw [attemptsIn_eq_take (by omega)]
    exact List.take_of_length_le (by rw [documentedIn_length]; omega)
  · rw [attemptsIn_eq_take (hlast _ (by rw [List.getLast?_map, hmem]; rfl))]
    exact List.take_prefix _ _

/-- The loop follows the documented order exactly when it has no retries or the groups have
as many priorities as they get attempts. -/
theorem attemptedOrder_iff :
    InDocumentedOrder retryTimes (cache.documentedOrder modelName groups)
        (cache.attemptedOrder modelName retryTimes groups) ↔
      retryTimes = 0 ∨ FitsRetries retryTimes
        ((cache.servedGroups modelName groups).map fun group =>
        (cache.priorities modelName group).length) := by
  have hserved : ∀ group ∈ cache.servedGroups modelName groups,
      0 < (cache.priorities modelName group).length := fun group => priorities_pos
  rw [← documentedOrder_servedGroups, ChannelCache.attemptedOrder]
  generalize cache.servedGroups modelName groups = served at hserved
  cases served with
  | nil =>
      refine iff_of_true ⟨?_, .inl ?_⟩ (.inr ⟨nofun, nofun⟩)
      · split <;> exact List.prefix_rfl
      · split <;> rfl
  | cons group rest =>
      have hlength : ∀ more : List Place,
          retryTimes < (cache.attemptsIn modelName retryTimes group ++ more).length := by
        intro more
        rw [List.length_append, attemptsIn_length]
        omega
      by_cases hzero : retryTimes = 0
      · refine iff_of_true ?_ (.inl hzero)
        rw [if_pos hzero]
        constructor
        · -- the only attempt is the highest priority of the first group
          have hpositive := hserved group (List.mem_cons_self ..)
          rw [List.take_succ_cons, List.take_zero, List.flatMap_singleton,
            attemptsIn_eq_take (by omega)]
          exact (List.take_prefix _ _).trans (List.prefix_append _ _)
        · exact .inr (hlength [])
      · rw [if_neg hzero, or_iff_right hzero]
        constructor
        · exact fun horder => fits_of_starts hserved horder.1
        · intro hfits
          exact ⟨prefix_of_fits hfits, .inr (hlength _)⟩

end Order

/-! ## The attempts -/

/-- The middleware selects the channel of the first attempt; without one there is no
attempt. -/
def distribute (cfg : RetrySettings) (source : ChannelSource) (request : RetryRequest)
    (ctx : RetryContext) : Option RetryContext :=
  let selected := cacheGetRandomSatisfiedChannel cfg source request .start ctx
  match selected.err, selected.channel with
  | none, some channel => some { selected.ctx with channelId := channel.id }
  | _, _ => none

/-- These are the attempts of a request that finds `source` in the middleware and the turns in
the loop. -/
def Tries (cfg : RetrySettings) (request : RetryRequest) (ctx : RetryContext)
    (source : ChannelSource) (turns : ℕ → RetryTurn) (tried : List TriedChannel) : Prop :=
  match distribute cfg source request ctx with
  | none => tried = []
  | some ctx => ∃ last, (retryLoop cfg request).Ends turns 0 (.enter ctx) tried last

/-- The turn selects from the cache, and its attempt fails with an error that is retried as
long as retries are left. -/
structure FailsOn (cfg : RetrySettings) (cache : ChannelCache) (specificChannel : Bool)
    (turn : RetryTurn) : Prop where
  source : ∃ rand, turn.source = cache.source rand
  setup : ∀ channel, turn.setupContextForSelectedChannel channel = none
  body : turn.bodyErr = none
  handler : ∀ channelId, ∃ error, turn.handler channelId = some error ∧
    shouldRetry cfg.automaticRetryStatusCodeRanges specificChannel
      (error.normalizeViolationFeeError cfg.maskSensitiveInfo) 1 = true

/-- Every listed id is cached, under itself. -/
def ChannelCache.Holds (cache : ChannelCache) : Prop :=
  ∀ group model, ∀ id ∈ cache.group2model2channels group model,
    ∃ channel, cache.channelsIDM id = some channel ∧ channel.id = id

theorem fresh_holds {old cache : ChannelCache} {table : ChannelTable} {abilities : List Ability}
    (hinit : old.initChannelCache table abilities = some cache) : cache.Holds := by
  intro group model id hid
  obtain ⟨channel, hmem, rfl⟩ := (mem_fresh_list hinit).1 hid
  obtain ⟨cached, hcached, hkey⟩ := fresh_channel hinit (mem_serving.1 hmem).1
  exact ⟨cached, hcached, congrArg Prod.fst hkey⟩

/-- What a selection has found: a channel of the level in the group. -/
structure ChannelCache.Found (cache : ChannelCache) (modelName group : String) (retry : ℕ)
    (channel : Channel) : Prop where
  priority : channel.getPriority = level Channel.getPriority (cache.pool modelName group) retry
  cached : cache.channelsIDM channel.id = some channel

/-- The entries of the context that no attempt changes. -/
structure SameRequest (ctx ctx' : RetryContext) : Prop where
  userGroup : ctx'.userGroup = ctx.userGroup
  tokenCrossGroupRetry : ctx'.tokenCrossGroupRetry = ctx.tokenCrossGroupRetry
  specificChannel : ctx'.specificChannel = ctx.specificChannel

section Attempts

variable {cfg : RetrySettings} {cache : ChannelCache} {modelName group : String}
  {rand : String → ℕ → Rand} {param : RetryParam} {ctx : RetryContext} {channel : Channel}
  {groups skipped rest : List String} {startGroupIndex i : ℕ}

theorem ChannelCache.Holds.satisfied (hholds : cache.Holds) :
    ∀ id ∈ cache.satisfied group modelName,
      ∃ channel, cache.channelsIDM id = some channel ∧ channel.id = id := by
  intro id hid
  rw [ChannelCache.satisfied] at hid
  split at hid
  · exact hholds _ _ id hid
  · exact hholds _ _ id hid

theorem source_eq (hholds : cache.Holds) (retry : ℕ) :
    cache.source rand group modelName retry =
      (drawChannel (rand group retry) (onLevel (cache.pool modelName group) retry), none) := by
  rw [ChannelCache.source, drawnSource, getRandomSatisfiedChannel_eq fun id hid =>
    (hholds.satisfied id hid).imp fun _ hchannel => hchannel.1]
  rfl

/-- A group without channels gives none, at whatever retry. -/
theorem source_none (hholds : cache.Holds) (hpool : cache.pool modelName group = []) (retry : ℕ) :
    (cache.source rand group modelName retry).1 = none := by
  rw [source_eq hholds, hpool]
  rfl

/-- A group with channels gives one, at whatever retry: after the last level it stays there. -/
theorem source_some (rand : String → ℕ → Rand) (hholds : cache.Holds)
    (hpool : cache.pool modelName group ≠ []) (retry : ℕ) :
    ∃ channel, (cache.source rand group modelName retry).1 = some channel ∧
      cache.Found modelName group retry channel := by
  obtain ⟨channel, hdraw⟩ := drawChannel_total (onLevel_ne_nil hpool retry) (rand group retry)
  obtain ⟨hmem, -⟩ := drawChannel_iff.1 ⟨_, hdraw⟩
  obtain ⟨hchannel, hpriority⟩ := mem_onLevel.1 hmem
  obtain ⟨id, hid, hcached⟩ := List.mem_filterMap.1 hchannel
  obtain ⟨other, hother, rfl⟩ := hholds.satisfied id hid
  obtain rfl : channel = other := Option.some.inj (hcached.symm.trans hother)
  refine ⟨channel, ?_, hpriority, hcached⟩
  rw [source_eq hholds, hdraw]

/-- The selection in a group that has channels. -/
theorem selectAutoGroup_at (hholds : cache.Holds) (hpool : cache.pool modelName group ≠ [])
    (hcross : ctx.tokenCrossGroupRetry = true) {retry : ℕ} {reset : Bool} :
    ∃ channel, cache.Found modelName group retry channel ∧
      selectAutoGroup cfg (cache.source rand) ⟨"auto", modelName⟩ i i (group :: rest)
          ⟨retry, reset⟩ ctx =
        if cfg.retryTimes ≤ retry then
          ⟨some channel, group, none, ⟨0, true⟩,
            { ctx with autoGroup := some group, autoGroupIndex := some (i + 1) }⟩
        else
          ⟨some channel, group, none, ⟨retry, reset⟩,
            { ctx with autoGroup := some group, autoGroupIndex := some i }⟩ := by
  have hpriority : priorityRetry i i ⟨retry, reset⟩ = retry := if_neg (Nat.lt_irrefl i)
  obtain ⟨channel, hsource, hfound⟩ := source_some rand hholds hpool retry
  have hselected : (cache.source rand group modelName
      (priorityRetry i i ⟨retry, reset⟩).toNat).1 = some channel := by
    rw [hpriority]
    exact hsource
  refine ⟨channel, hfound, ?_⟩
  rw [selectAutoGroup_some hselected, hpriority]
  simp only [hcross, true_and, Int.ofNat_le]
  rfl

theorem SameRequest.trans {ctx' ctx'' : RetryContext} (h : SameRequest ctx ctx')
    (h' : SameRequest ctx' ctx'') : SameRequest ctx ctx'' where
  userGroup := h'.userGroup.trans h.userGroup
  tokenCrossGroupRetry := h'.tokenCrossGroupRetry.trans h.tokenCrossGroupRetry
  specificChannel := h'.specificChannel.trans h.specificChannel

/-- A search from index `i` on has come to the first group with channels; with retries it stays
there. -/
structure SearchEnds (cfg : RetrySettings) (cache : ChannelCache) (modelName : String) (i : ℕ)
    (groups : List String) (ctx : RetryContext) (group : String) (more : List String)
    (selected : Selected) : Prop where
  found : ∃ channel, selected.channel = some channel ∧ cache.Found modelName group 0 channel
  err : selected.err = none
  same : SameRequest ctx selected.ctx
  autoGroup : selected.ctx.autoGroup = some group
  stays : cfg.retryTimes ≠ 0 → selected.param = ⟨0, false⟩ ∧ ∃ skipped rest,
    groups = skipped ++ group :: rest ∧ cache.pool modelName group ≠ [] ∧
      cache.servedGroups modelName rest = more ∧
        selected.ctx.autoGroupIndex = some (i + skipped.length)

theorem servedGroups_cons_nil (hpool : cache.pool modelName group = []) :
    cache.servedGroups modelName (group :: groups) = cache.servedGroups modelName groups :=
  List.filter_cons_of_neg (by simpa using hpool)

theorem servedGroups_cons (hpool : cache.pool modelName group ≠ []) :
    cache.servedGroups modelName (group :: groups) =
      group :: cache.servedGroups modelName groups :=
  List.filter_cons_of_pos (by simpa using hpool)

/-- At the first level the search goes to the next group that has channels. -/
theorem selectAutoGroup_search (hholds : cache.Holds) (hcross : ctx.tokenCrossGroupRetry = true) :
    let selected := selectAutoGroup cfg (cache.source rand) ⟨"auto", modelName⟩ startGroupIndex i
      groups ⟨0, false⟩ ctx
    match cache.servedGroups modelName groups with
    | [] => selected.channel = none
    | group :: more => SearchEnds cfg cache modelName i groups ctx group more selected := by
  induction groups generalizing i ctx with
  | nil => rfl
  | cons group groups ih =>
      have hpriority : priorityRetry startGroupIndex i ⟨0, false⟩ = 0 := by
        rw [priorityRetry]
        split <;> rfl
      by_cases hpool : cache.pool modelName group = []
      · -- the search goes on as from the next index
        let next : RetryContext :=
          { ctx with autoGroupIndex := some (i + 1), autoGroupRetryIndex := some 0 }
        have hnext : next.tokenCrossGroupRetry = true := hcross
        have hsearch := ih (i := i + 1) hnext
        have hreset : (⟨0, false⟩ : RetryParam).select .setRetry = ⟨0, false⟩ := rfl
        rw [selectAutoGroup_none (by rw [hpriority]; exact source_none hholds hpool _), hreset,
          servedGroups_cons_nil hpool]
        split
        case h_1 hnone =>
          rw [hnone] at hsearch
          exact hsearch
        case h_2 found more hfound =>
          rw [hfound] at hsearch
          refine ⟨hsearch.found, hsearch.err, ⟨hsearch.same.userGroup,
            hsearch.same.tokenCrossGroupRetry, hsearch.same.specificChannel⟩, hsearch.autoGroup,
            fun hN => ?_⟩
          obtain ⟨hparam, skipped, rest, hgroups, hne, hmore, hindex⟩ := hsearch.stays hN
          refine ⟨hparam, group :: skipped, rest, ?_, hne, hmore, ?_⟩
          · rw [hgroups]
            rfl
          · rw [hindex, List.length_cons]
            congr 1
            omega
      · obtain ⟨channel, hsource, hfound⟩ := source_some rand hholds hpool 0
        have hselected : (cache.source rand group modelName
            (priorityRetry startGroupIndex i ⟨0, false⟩).toNat).1 = some channel := by
          rw [hpriority]
          exact hsource
        rw [selectAutoGroup_some hselected, hpriority,
          servedGroups_cons hpool]
        dsimp only
        split
        case isTrue hdone =>
          refine ⟨⟨channel, rfl, hfound⟩, rfl, ⟨rfl, rfl, rfl⟩, rfl, fun hN => ?_⟩
          omega
        case isFalse =>
          exact ⟨⟨channel, rfl, hfound⟩, rfl, ⟨rfl, rfl, rfl⟩, rfl,
            fun _ => ⟨rfl, [], groups, rfl, hpool, rfl, rfl⟩⟩

theorem cacheGetRandomSatisfiedChannel_auto {source : ChannelSource}
    (hindex : ctx.autoGroupIndex.getD 0 = i)
    (hgroups : (getUserAutoGroup cfg ctx.userGroup).drop i = groups) (hsome : groups ≠ []) :
    cacheGetRandomSatisfiedChannel cfg source ⟨"auto", modelName⟩ param ctx =
      selectAutoGroup cfg source ⟨"auto", modelName⟩ i i groups param ctx := by
  have hauto : cfg.autoGroups ≠ [] := by
    intro hnone
    refine hsome ?_
    rw [← hgroups, getUserAutoGroup, hnone]
    exact List.drop_nil
  rw [cacheGetRandomSatisfiedChannel, if_pos rfl, if_neg hauto]
  dsimp only
  rw [hindex, hgroups]

theorem cacheGetRandomSatisfiedChannel_done {source : ChannelSource}
    (hgroups : (getUserAutoGroup cfg ctx.userGroup).drop (ctx.autoGroupIndex.getD 0) = []) :
    (cacheGetRandomSatisfiedChannel cfg source ⟨"auto", modelName⟩ param ctx).channel = none := by
  rw [cacheGetRandomSatisfiedChannel, if_pos rfl]
  dsimp only
  rw [hgroups]
  split <;> rfl

/-- The search of the selection from the group in the context on. -/
theorem cacheGetRandomSatisfiedChannel_search (cfg : RetrySettings) (modelName : String)
    (rand : String → ℕ → Rand) (hholds : cache.Holds) (hcross : ctx.tokenCrossGroupRetry = true)
    (hindex : ctx.autoGroupIndex.getD 0 = i)
    (hgroups : (getUserAutoGroup cfg ctx.userGroup).drop i = groups) :
    let selected := cacheGetRandomSatisfiedChannel cfg (cache.source rand) ⟨"auto", modelName⟩
      ⟨0, false⟩ ctx
    match cache.servedGroups modelName groups with
    | [] => selected.channel = none
    | group :: more => SearchEnds cfg cache modelName i groups ctx group more selected := by
  by_cases hsome : groups = []
  · rw [hsome] at hgroups ⊢
    exact cacheGetRandomSatisfiedChannel_done (by rw [hindex]; exact hgroups)
  · rw [cacheGetRandomSatisfiedChannel_auto hindex hgroups hsome]
    exact selectAutoGroup_search hholds hcross

/-- From here on the retry counter stands at `retry` in the group of index `i`. -/
structure InGroup (ctx : RetryContext) (i retry : ℕ) (s : RetryState) : Prop where
  same : SameRequest ctx s.ctx
  index : s.ctx.autoGroupIndex = some i
  param : s.param = ⟨retry, false⟩
  channelMeta : s.channelMeta = true

section Turns

variable {turn : RetryTurn} {s reached : RetryState} {request : RetryRequest} {channelId : ℤ}

theorem shouldRetry_of_left {ranges : List StatusCodeRange} {specificChannel : Bool}
    {error : NewAPIError} {retryTimes : ℤ} (hleft : 1 ≤ retryTimes)
    (hretry : shouldRetry ranges specificChannel error 1 = true) :
    shouldRetry ranges specificChannel error retryTimes = true := by
  rw [shouldRetry] at hretry ⊢
  rw [if_neg (by omega : ¬(1 : ℤ) ≤ 0)] at hretry
  rwa [if_neg (by omega : ¬retryTimes ≤ 0)]

/-- An attempt that fails is retried while retries are left. -/
theorem attempt_fails {specificChannel : Bool} (hfails : FailsOn cfg cache specificChannel turn)
    (hspecific : reached.ctx.specificChannel = specificChannel)
    (hchannel : s.getChannel cfg request turn = (.ok channelId, reached))
    (hleft : 1 ≤ (cfg.retryTimes : ℤ) - reached.param.retry) :
    ∃ error, s.attempt cfg request turn = .again (reached.retried error)
      ⟨channelId, reached.ctx.autoGroup, reached.ctx.autoGroupIndex⟩ := by
  obtain ⟨error, hhandler, hretry⟩ := hfails.handler channelId
  refine ⟨error.normalizeViolationFeeError cfg.maskSensitiveInfo, ?_⟩
  rw [RetryState.attempt, hchannel]
  dsimp only
  rw [hfails.body, hhandler]
  dsimp only
  rw [hspecific, if_pos (shouldRetry_of_left hleft hretry)]
  rfl

theorem getChannel_selected {specificChannel : Bool}
    (hfails : FailsOn cfg cache specificChannel turn) (hmeta : s.channelMeta = true)
    {selected : Selected}
    (hselected : cacheGetRandomSatisfiedChannel cfg turn.source request s.param s.ctx = selected)
    (hsome : selected.channel = some channel) (herr : selected.err = none) :
    s.getChannel cfg request turn = (.ok channel.id,
      { s with
        param := selected.param
        ctx := { selected.ctx with channelId := channel.id } }) := by
  rw [RetryState.getChannel, hmeta, hselected]
  dsimp only
  rw [if_neg Bool.noConfusion, herr, hsome]
  dsimp only
  rw [hfails.setup]

/-- A turn that finds no channel ends the loop without an attempt. -/
theorem attempt_none (hmeta : s.channelMeta = true)
    (hnone : (cacheGetRandomSatisfiedChannel cfg turn.source request s.param s.ctx).channel =
      none) :
    ∃ last, s.attempt cfg request turn = .leave last none := by
  rw [RetryState.attempt, RetryState.getChannel, hmeta]
  dsimp only
  rw [if_neg Bool.noConfusion, hnone]
  split
  case h_1 channelErr reached hchannel => exact ⟨_, rfl⟩
  case h_2 channelId reached hchannel =>
    split at hchannel
    · cases hchannel
    · cases hchannel
    · rename_i hsome
      cases hsome

end Turns

section Run

variable {turns : ℕ → RetryTurn} {n : ℕ} {s : RetryState} {tail : List Place}

/-- The loop ends with attempts at these places. -/
def EndsAt (cfg : RetrySettings) (cache : ChannelCache) (modelName : String)
    (turns : ℕ → RetryTurn) (n : ℕ) (s : RetryState) (places : List Place) : Prop :=
  ∃ tried last, (retryLoop cfg ⟨"auto", modelName⟩).Ends turns n s tried last ∧
    tried.map cache.place = places

theorem EndsAt.again {s' : RetryState} {tried : TriedChannel} {places : List Place}
    (hguard : s.param.retry ≤ cfg.retryTimes)
    (hturn : s.attempt cfg ⟨"auto", modelName⟩ (turns n) = .again s' tried)
    (hends : EndsAt cfg cache modelName turns (n + 1) s' places) :
    EndsAt cfg cache modelName turns n s (cache.place tried :: places) := by
  obtain ⟨rest, last, hends, hplaces⟩ := hends
  exact ⟨tried :: rest, last, hends.again (decide_eq_true hguard) hturn,
    congrArg (cache.place tried :: ·) hplaces⟩

theorem place_eq {retry : ℕ} {index : Option ℕ}
    (hfound : cache.Found modelName group retry channel) :
    cache.place ⟨channel.id, some group, index⟩ = cache.placeAt modelName group retry := by
  rw [ChannelCache.place, hfound.cached, ChannelCache.placeAt, ← hfound.priority]
  rfl

/-- An attempt of a later turn, from what its selection finds. -/
theorem again_of_selected {selected : Selected} {retry : ℕ}
    (hfails : FailsOn cfg cache ctx.specificChannel (turns n)) (hsame : SameRequest ctx s.ctx)
    (hmeta : s.channelMeta = true)
    (hselected : cacheGetRandomSatisfiedChannel cfg (turns n).source ⟨"auto", modelName⟩ s.param
      s.ctx = selected)
    (hchannel : selected.channel = some channel) (herr : selected.err = none)
    (hsame' : SameRequest s.ctx selected.ctx) (hgroup : selected.ctx.autoGroup = some group)
    (hfound : cache.Found modelName group retry channel)
    (hleft : 1 ≤ (cfg.retryTimes : ℤ) - selected.param.retry) :
    ∃ error, ∃ tried, s.attempt cfg ⟨"auto", modelName⟩ (turns n) = .again
        ({ s with
          param := selected.param
          ctx := { selected.ctx with channelId := channel.id } }.retried error) tried ∧
      cache.place tried = cache.placeAt modelName group retry := by
  have hspecific : selected.ctx.specificChannel = ctx.specificChannel :=
    (hsame.trans hsame').specificChannel
  have hget := getChannel_selected hfails hmeta hselected hchannel herr
  obtain ⟨error, hattempt⟩ := attempt_fails hfails hspecific hget hleft
  refine ⟨error, _, hattempt, ?_⟩
  show cache.place ⟨channel.id, selected.ctx.autoGroup, selected.ctx.autoGroupIndex⟩ = _
  rw [hgroup]
  exact place_eq hfound

/-- An attempt in a group: the next one is a further retry there, or the first in a later
group. -/
theorem attempt_in_group (hholds : cache.Holds) (hN : cfg.retryTimes ≠ 0)
    (hcross : ctx.tokenCrossGroupRetry = true)
    (hfails : FailsOn cfg cache ctx.specificChannel (turns n))
    (hgroups : (getUserAutoGroup cfg ctx.userGroup).drop i = group :: rest)
    (hpool : cache.pool modelName group ≠ []) {retry : ℕ} (hs : InGroup ctx i retry s) :
    ∃ s' tried, s.attempt cfg ⟨"auto", modelName⟩ (turns n) = .again s' tried ∧
      cache.place tried = cache.placeAt modelName group retry ∧
        if cfg.retryTimes ≤ retry then InGroup ctx (i + 1) 0 s'
        else InGroup ctx i (retry + 1) s' := by
  obtain ⟨rand, hsource⟩ := hfails.source
  obtain ⟨channel, hfound, hselected⟩ : ∃ channel, cache.Found modelName group retry channel ∧
      cacheGetRandomSatisfiedChannel cfg (turns n).source ⟨"auto", modelName⟩ s.param s.ctx =
        if cfg.retryTimes ≤ retry then
          ⟨some channel, group, none, ⟨0, true⟩,
            { s.ctx with autoGroup := some group, autoGroupIndex := some (i + 1) }⟩
        else
          ⟨some channel, group, none, ⟨retry, false⟩,
            { s.ctx with autoGroup := some group, autoGroupIndex := some i }⟩ := by
    rw [hsource, hs.param, cacheGetRandomSatisfiedChannel_auto (by rw [hs.index, Option.getD_some])
      (by rw [hs.same.userGroup]; exact hgroups) (List.cons_ne_nil group rest)]
    exact selectAutoGroup_at hholds hpool (hs.same.tokenCrossGroupRetry.trans hcross)
  split at hselected
  case isTrue hlast =>
    obtain ⟨error, tried, hattempt, hplace⟩ := again_of_selected hfails hs.same hs.channelMeta
      hselected rfl rfl ⟨rfl, rfl, rfl⟩ rfl hfound (by show 1 ≤ (cfg.retryTimes : ℤ) - 0; omega)
    refine ⟨_, tried, hattempt, hplace, ?_⟩
    rw [if_pos hlast]
    exact ⟨⟨hs.same.userGroup, hs.same.tokenCrossGroupRetry, hs.same.specificChannel⟩, rfl, rfl, rfl⟩
  case isFalse hmore =>
    obtain ⟨error, tried, hattempt, hplace⟩ := again_of_selected hfails hs.same hs.channelMeta
      hselected rfl rfl ⟨rfl, rfl, rfl⟩ rfl hfound
      (by show 1 ≤ (cfg.retryTimes : ℤ) - retry; omega)
    refine ⟨_, tried, hattempt, hplace, ?_⟩
    rw [if_neg hmore]
    exact ⟨⟨hs.same.userGroup, hs.same.tokenCrossGroupRetry, hs.same.specificChannel⟩, rfl, rfl, rfl⟩

/-- The attempts that are left in a group, and then those of the later groups. -/
theorem run_group (hholds : cache.Holds) (hN : cfg.retryTimes ≠ 0)
    (hcross : ctx.tokenCrossGroupRetry = true)
    (hfails : ∀ n, FailsOn cfg cache ctx.specificChannel (turns n))
    (hgroups : (getUserAutoGroup cfg ctx.userGroup).drop i = group :: rest)
    (hpool : cache.pool modelName group ≠ [])
    (hlater : ∀ s n, InGroup ctx (i + 1) 0 s → EndsAt cfg cache modelName turns n s tail)
    {retry left : ℕ} (hretry : retry + left = cfg.retryTimes) (hs : InGroup ctx i retry s) :
    EndsAt cfg cache modelName turns n s
      ((List.range' retry (left + 1)).map (cache.placeAt modelName group) ++ tail) := by
  induction left generalizing retry s n with
  | zero =>
      obtain ⟨s', tried, hattempt, hplace, hnext⟩ :=
        attempt_in_group hholds hN hcross (hfails n) hgroups hpool hs
      rw [if_pos (by omega)] at hnext
      rw [List.range'_one, List.map_singleton, List.singleton_append, ← hplace]
      refine EndsAt.again ?_ hattempt (hlater s' (n + 1) hnext)
      rw [hs.param]
      exact Int.ofNat_le.2 (by omega)
  | succ left ih =>
      obtain ⟨s', tried, hattempt, hplace, hnext⟩ :=
        attempt_in_group hholds hN hcross (hfails n) hgroups hpool hs
      rw [if_neg (by omega)] at hnext
      rw [List.range'_succ, List.map_cons, List.cons_append, ← hplace]
      refine EndsAt.again ?_ hattempt (ih (by omega) hnext)
      rw [hs.param]
      exact Int.ofNat_le.2 (by omega)

/-- The first attempt of a group and the others. -/
theorem attemptsIn_eq_cons (hN : cfg.retryTimes ≠ 0) :
    cache.attemptsIn modelName cfg.retryTimes group =
      cache.placeAt modelName group 0 ::
        (List.range' 1 (cfg.retryTimes - 1 + 1)).map (cache.placeAt modelName group) := by
  rw [ChannelCache.attemptsIn, List.range_eq_range', List.range'_succ, List.map_cons]
  congr 3
  omega

theorem drop_split {all : List String} (hgroups : all.drop i = groups)
    (hsplit : groups = skipped ++ group :: rest) :
    all.drop (i + skipped.length) = group :: rest ∧ all.drop (i + skipped.length + 1) = rest := by
  have hhere : all.drop (i + skipped.length) = group :: rest := by
    rw [← List.drop_drop, hgroups, hsplit, List.drop_left]
  refine ⟨hhere, ?_⟩
  rw [← List.drop_drop, hhere]
  rfl

/-- After the first attempt in a group the counter stands at one. -/
theorem retried_inGroup {selected : Selected} {error : NewAPIError} {channelId : ℤ}
    (hsame : SameRequest ctx s.ctx) (hsame' : SameRequest s.ctx selected.ctx)
    (hindex : selected.ctx.autoGroupIndex = some i) (hparam : selected.param = ⟨0, false⟩) :
    InGroup ctx i 1 ({ s with
      param := selected.param
      ctx := { selected.ctx with channelId := channelId } }.retried error) := by
  have hboth := hsame.trans hsame'
  refine ⟨⟨hboth.userGroup, hboth.tokenCrossGroupRetry, hboth.specificChannel⟩, hindex, ?_, rfl⟩
  show selected.param.increaseRetry = ⟨1, false⟩
  rw [hparam]
  rfl

/-- The attempts of the groups from index `i` on. -/
theorem run_groups (hholds : cache.Holds) (hN : cfg.retryTimes ≠ 0)
    (hcross : ctx.tokenCrossGroupRetry = true)
    (hfails : ∀ n, FailsOn cfg cache ctx.specificChannel (turns n))
    (hgroups : (getUserAutoGroup cfg ctx.userGroup).drop i = groups) (hs : InGroup ctx i 0 s) :
    EndsAt cfg cache modelName turns n s ((cache.servedGroups modelName groups).flatMap
      (cache.attemptsIn modelName cfg.retryTimes)) := by
  -- by induction on how many groups are left
  induction hlength : groups.length using Nat.strong_induction_on generalizing groups i s n with
  | _ length ih =>
    have hguard : s.param.retry ≤ cfg.retryTimes := by
      rw [hs.param]
      exact Int.natCast_nonneg _
    obtain ⟨rand, hsource⟩ := (hfails n).source
    have hgroups' : (getUserAutoGroup cfg s.ctx.userGroup).drop i = groups := by
      rw [hs.same.userGroup, hgroups]
    have hsearch := cacheGetRandomSatisfiedChannel_search cfg modelName rand hholds
      (hs.same.tokenCrossGroupRetry.trans hcross) (by rw [hs.index, Option.getD_some]) hgroups'
    have hparam : s.param = ⟨0, false⟩ := hs.param
    rw [← hsource, ← hparam] at hsearch
    cases hserved : cache.servedGroups modelName groups with
    | nil =>
        rw [hserved] at hsearch
        obtain ⟨last, hattempt⟩ := attempt_none hs.channelMeta hsearch
        exact ⟨[], last, Loop.Ends.leave_none (decide_eq_true hguard) hattempt, rfl⟩
    | cons group more =>
        rw [hserved] at hsearch
        obtain ⟨channel, hchannel, hfound⟩ := hsearch.found
        obtain ⟨hretry, skipped, rest, hsplit, hpool, hmore, hindex⟩ := hsearch.stays hN
        obtain ⟨error, tried, hattempt, hplace⟩ := again_of_selected (hfails n) hs.same
          hs.channelMeta rfl hchannel hsearch.err hsearch.same hsearch.autoGroup hfound (by
            rw [hretry]
            show 1 ≤ (cfg.retryTimes : ℤ) - 0
            omega)
        rw [List.flatMap_cons, attemptsIn_eq_cons hN, List.cons_append, ← hplace]
        refine EndsAt.again hguard hattempt ?_
        obtain ⟨hhere, hnext⟩ := drop_split hgroups hsplit
        refine run_group hholds hN hcross hfails hhere hpool (fun s' n' hs' => ?_) (by omega)
          (retried_inGroup hs.same hsearch.same hindex hretry)
        rw [← hmore]
        exact ih rest.length (by rw [← hlength, hsplit, List.length_append, List.length_cons]; omega)
          hnext hs' rfl

/-- The first attempt has the channel of the context. -/
theorem getChannel_first {request : RetryRequest} {turn : RetryTurn}
    (hmeta : s.channelMeta = false) :
    s.getChannel cfg request turn = (.ok s.ctx.channelId, s) := by
  rw [RetryState.getChannel, if_pos hmeta]

/-- Without retries the first attempt is the only one, whatever its error. -/
theorem run_first {error : NewAPIError} {turn : RetryTurn} (hturn : turns 0 = turn)
    (hmeta : s.channelMeta = false) (hzero : cfg.retryTimes = 0) (hparam : s.param = .start)
    (hbody : turn.bodyErr = none) (hhandler : turn.handler s.ctx.channelId = some error) :
    ∃ last, (retryLoop cfg ⟨"auto", modelName⟩).Ends turns 0 s
      [⟨s.ctx.channelId, s.ctx.autoGroup, s.ctx.autoGroupIndex⟩] last := by
  have hguard : (retryLoop cfg ⟨"auto", modelName⟩).guard s = true := by
    show decide (s.param.retry ≤ cfg.retryTimes) = true
    rw [hparam]
    exact decide_eq_true (Int.natCast_nonneg _)
  have hattempt : ∃ newAPIError last, s.attempt cfg ⟨"auto", modelName⟩ turn =
      if shouldRetry cfg.automaticRetryStatusCodeRanges s.ctx.specificChannel newAPIError
          (cfg.retryTimes - s.param.retry) then
        .again (s.retried newAPIError) ⟨s.ctx.channelId, s.ctx.autoGroup, s.ctx.autoGroupIndex⟩
      else .leave last (some ⟨s.ctx.channelId, s.ctx.autoGroup, s.ctx.autoGroupIndex⟩) := by
    refine ⟨error.normalizeViolationFeeError cfg.maskSensitiveInfo, { s with
      channelMeta := true
      newAPIError := some (error.normalizeViolationFeeError cfg.maskSensitiveInfo) }, ?_⟩
    rw [RetryState.attempt, getChannel_first hmeta]
    dsimp only
    rw [hbody, hhandler]
    rfl
  obtain ⟨newAPIError, last, hattempt⟩ := hattempt
  rw [← hturn] at hattempt
  split at hattempt
  · refine ⟨_, Loop.Ends.again hguard hattempt (Loop.Ends.done ?_)⟩
    -- the counter is above the retries now
    show decide (s.param.increaseRetry.retry ≤ cfg.retryTimes) = false
    rw [hparam, hzero]
    rfl
  · exact ⟨last, Loop.Ends.leave_some hguard hattempt⟩

/-- With retries the middleware's channel is the first attempt in its group. -/
theorem run_distributed {selected : Selected} {more : List String} (hholds : cache.Holds)
    (hN : cfg.retryTimes ≠ 0) (hcross : ctx.tokenCrossGroupRetry = true)
    (hfails : ∀ n, FailsOn cfg cache ctx.specificChannel (turns n))
    (hsearch : SearchEnds cfg cache modelName 0 (getUserAutoGroup cfg ctx.userGroup) ctx group more
      selected)
    (hfound : cache.Found modelName group 0 channel) :
    EndsAt cfg cache modelName turns 0 (.enter { selected.ctx with channelId := channel.id })
      ((group :: more).flatMap (cache.attemptsIn modelName cfg.retryTimes)) := by
  obtain ⟨hparam, skipped, rest, hsplit, hpool, hmore, hindex⟩ := hsearch.stays hN
  obtain ⟨hhere, hnext⟩ := drop_split List.drop_zero hsplit
  obtain ⟨error, hattempt⟩ := attempt_fails
    (s := .enter { selected.ctx with channelId := channel.id }) (hfails 0)
    hsearch.same.specificChannel (getChannel_first rfl)
    (by show 1 ≤ (cfg.retryTimes : ℤ) - 0; omega)
  have hplace : cache.place ⟨channel.id, selected.ctx.autoGroup, selected.ctx.autoGroupIndex⟩ =
      cache.placeAt modelName group 0 := by
    rw [hsearch.autoGroup]
    exact place_eq hfound
  rw [List.flatMap_cons, attemptsIn_eq_cons hN, List.cons_append, ← hplace]
  refine EndsAt.again (Int.natCast_nonneg _) hattempt ?_
  refine run_group hholds hN hcross hfails hhere hpool (fun s n hs => ?_) (by omega)
    ⟨⟨hsearch.same.userGroup, hsearch.same.tokenCrossGroupRetry, hsearch.same.specificChannel⟩,
      hindex, rfl, rfl⟩
  rw [← hmore]
  exact run_groups hholds hN hcross hfails hnext hs

/-- Without retries it is the only attempt. -/
theorem run_single {selected : Selected} {more : List String} (hzero : cfg.retryTimes = 0)
    (hfails : ∀ n, FailsOn cfg cache ctx.specificChannel (turns n))
    (hsearch : SearchEnds cfg cache modelName 0 (getUserAutoGroup cfg ctx.userGroup) ctx group more
      selected)
    (hfound : cache.Found modelName group 0 channel) :
    EndsAt cfg cache modelName turns 0 (.enter { selected.ctx with channelId := channel.id })
      (((group :: more).take 1).flatMap (cache.attemptsIn modelName cfg.retryTimes)) := by
  obtain ⟨error, hhandler, -⟩ := (hfails 0).handler channel.id
  obtain ⟨last, hends⟩ := run_first (s := .enter { selected.ctx with channelId := channel.id })
    rfl rfl hzero rfl (hfails 0).body hhandler
  refine ⟨_, last, hends, ?_⟩
  have hplace : cache.place ⟨channel.id, selected.ctx.autoGroup, selected.ctx.autoGroupIndex⟩ =
      cache.placeAt modelName group 0 := by
    rw [hsearch.autoGroup]
    exact place_eq hfound
  show [cache.place ⟨channel.id, selected.ctx.autoGroup, selected.ctx.autoGroupIndex⟩] = _
  rw [hplace, hzero]
  rfl

/-- A request has the attempts of the attempted order. -/
theorem exists_tries (modelName : String) (rand : String → ℕ → Rand) (hholds : cache.Holds)
    (hcross : ctx.tokenCrossGroupRetry = true) (hindex : ctx.autoGroupIndex = none)
    (hfails : ∀ n, FailsOn cfg cache ctx.specificChannel (turns n)) :
    ∃ tried, Tries cfg ⟨"auto", modelName⟩ ctx (cache.source rand) turns tried ∧
      tried.map cache.place = cache.attemptedOrder modelName cfg.retryTimes
        (getUserAutoGroup cfg ctx.userGroup) := by
  have hsearch := cacheGetRandomSatisfiedChannel_search cfg modelName rand hholds hcross
    (i := 0) (by rw [hindex]; rfl) rfl
  rw [List.drop_zero] at hsearch
  rw [ChannelCache.attemptedOrder]
  cases hserved : cache.servedGroups modelName (getUserAutoGroup cfg ctx.userGroup) with
  | nil =>
      rw [hserved] at hsearch
      have hnone : distribute cfg (cache.source rand) ⟨"auto", modelName⟩ ctx = none := by
        rw [distribute]
        dsimp only at hsearch ⊢
        split
        case h_1 channel _ hsome => cases hsome.symm.trans hsearch
        case h_2 => rfl
      refine ⟨[], ?_, ?_⟩
      · rw [Tries, hnone]
      · split <;> rfl
  | cons group more =>
      rw [hserved] at hsearch
      obtain ⟨channel, hchannel, hfound⟩ := hsearch.found
      have hsome : distribute cfg (cache.source rand) ⟨"auto", modelName⟩ ctx =
          some { (cacheGetRandomSatisfiedChannel cfg (cache.source rand) ⟨"auto", modelName⟩
            ⟨0, false⟩ ctx).ctx with channelId := channel.id } := by
        rw [distribute, RetryParam.start]
        dsimp only
        rw [hsearch.err, hchannel]
      obtain ⟨tried, last, hends, hplaces⟩ : EndsAt cfg cache modelName turns 0
          (.enter { (cacheGetRandomSatisfiedChannel cfg (cache.source rand) ⟨"auto", modelName⟩
            ⟨0, false⟩ ctx).ctx with channelId := channel.id })
          ((if cfg.retryTimes = 0 then (group :: more).take 1 else group :: more).flatMap
            (cache.attemptsIn modelName cfg.retryTimes)) := by
        split
        case isTrue hzero => exact run_single hzero hfails hsearch hfound
        case isFalse hN => exact run_distributed hholds hN hcross hfails hsearch hfound
      refine ⟨tried, ?_, hplaces⟩
      rw [Tries, hsome]
      exact ⟨last, hends⟩

end Run

end Attempts

/-- A request for `auto` with cross-group retry, all of whose attempts fail, follows the
documented order exactly when there are no retries, or every group that has channels has as many
priorities as it gets attempts, the last one at least as many. -/
theorem cross_group_order_iff {old cache : ChannelCache} {table : ChannelTable}
    {abilities : List Ability} (hinit : old.initChannelCache table abilities = some cache)
    (cfg : RetrySettings) (modelName : String) (ctx : RetryContext) (rand : String → ℕ → Rand)
    (turns : ℕ → RetryTurn) (hcross : ctx.tokenCrossGroupRetry = true)
    (hindex : ctx.autoGroupIndex = none)
    (hfails : ∀ n, FailsOn cfg cache ctx.specificChannel (turns n)) :
    let groups := getUserAutoGroup cfg ctx.userGroup
    ∃ tried, Tries cfg ⟨"auto", modelName⟩ ctx (cache.source rand) turns tried ∧
      (InDocumentedOrder cfg.retryTimes (cache.documentedOrder modelName groups)
          (tried.map cache.place) ↔
        cfg.retryTimes = 0 ∨ FitsRetries cfg.retryTimes
          ((cache.servedGroups modelName groups).map fun group =>
            (cache.priorities modelName group).length)) := by
  obtain ⟨tried, htries, hplaces⟩ := exists_tries modelName rand (fresh_holds hinit)
    hcross hindex hfails
  refine ⟨tried, htries, ?_⟩
  rw [hplaces]
  exact attemptedOrder_iff

/-- Two groups with two priorities each. -/
def autoGroupTable : ChannelTable where
  rows := [("a", 2), ("a", 1), ("b", 2), ("b", 1)].zipIdx.map fun ((group, priority), index) =>
    { sampleCachedChannel index false with group := group, priority := some priority }
  nodup := by decide

def autoGroupSettings (retryTimes : ℕ) : RetrySettings where
  retryTimes := retryTimes
  autoGroups := ["a", "b"]
  userUsableGroups _ := ["b", "a"]
  automaticRetryStatusCodeRanges := [⟨500, 599⟩]
  maskSensitiveInfo text := text

def crossGroupContext : RetryContext where
  userGroup := "default"
  tokenCrossGroupRetry := true
  specificChannel := false
  channelId := 0
  autoGroup := none
  autoGroupIndex := none
  autoGroupRetryIndex := none

/-- The upstream answers every attempt with an internal error. -/
def internalErrorTurn (cache : ChannelCache) : RetryTurn where
  source := cache.source fun _ _ => constRand 0
  setupContextForSelectedChannel _ := none
  bodyErr := none
  handler _ := some (NewAPIError.newErrorWithStatusCode "internal" "bad_response_status_code" 500)

theorem internalErrorTurn_fails (cache : ChannelCache) (retryTimes : ℕ) :
    FailsOn (autoGroupSettings retryTimes) cache false (internalErrorTurn cache) where
  source := ⟨_, rfl⟩
  setup _ := rfl
  body := rfl
  handler _ := ⟨_, rfl, by
    show shouldRetry [⟨500, 599⟩] false (NewAPIError.normalizeViolationFeeError (fun text => text)
      (.newErrorWithStatusCode "internal" "bad_response_status_code" 500)) 1 = true
    decide +kernel⟩

def autoGroupCache : ChannelCache :=
  (ChannelCache.empty.initChannelCache autoGroupTable
    (autoGroupTable.rows.flatMap Channel.abilities)).getD ChannelCache.empty

theorem autoGroupCache_init : ChannelCache.empty.initChannelCache autoGroupTable
    (autoGroupTable.rows.flatMap Channel.abilities) = some autoGroupCache := by
  rfl

/-- With one retry each group has its two attempts. -/
theorem cross_group_order_one_retry :
    ∃ tried, Tries (autoGroupSettings 1) ⟨"auto", "o3"⟩ crossGroupContext
        (autoGroupCache.source fun _ _ => constRand 0)
        (fun _ => internalErrorTurn autoGroupCache) tried ∧
      InDocumentedOrder 1 (autoGroupCache.documentedOrder "o3" ["a", "b"])
        (tried.map autoGroupCache.place) := by
  obtain ⟨tried, htries, horder⟩ := cross_group_order_iff autoGroupCache_init
    (autoGroupSettings 1) "o3" crossGroupContext (fun _ _ => constRand 0)
    (fun _ => internalErrorTurn autoGroupCache) rfl rfl
    fun _ => internalErrorTurn_fails autoGroupCache 1
  have hfits : FitsRetries 1 ((autoGroupCache.servedGroups "o3" ["a", "b"]).map fun group =>
      (autoGroupCache.priorities "o3" group).length) := by
    decide +kernel
  exact ⟨tried, htries, horder.2 (.inr hfits)⟩

/-- With three retries the first group has four attempts, two of them at its lowest priority. -/
theorem exhausted_group_is_retried :
    ¬ ∀ (old cache : ChannelCache) (table : ChannelTable) (abilities : List Ability)
      (cfg : RetrySettings) (modelName : String) (ctx : RetryContext) (rand : String → ℕ → Rand)
      (turns : ℕ → RetryTurn) (tried : List TriedChannel),
      old.initChannelCache table abilities = some cache →
        ctx.tokenCrossGroupRetry = true → ctx.autoGroupIndex = none →
          (∀ n, FailsOn cfg cache ctx.specificChannel (turns n)) →
            Tries cfg ⟨"auto", modelName⟩ ctx (cache.source rand) turns tried →
              InDocumentedOrder cfg.retryTimes
                (cache.documentedOrder modelName (getUserAutoGroup cfg ctx.userGroup))
                (tried.map cache.place) := by
  intro hclaim
  have hfails : ∀ n : ℕ, FailsOn (autoGroupSettings 3) autoGroupCache false
      ((fun _ => internalErrorTurn autoGroupCache) n) :=
    fun _ => internalErrorTurn_fails autoGroupCache 3
  obtain ⟨tried, htries, hplaces⟩ := exists_tries "o3" (fun _ _ => constRand 0)
    (fresh_holds autoGroupCache_init) (rfl : crossGroupContext.tokenCrossGroupRetry =
      true) rfl hfails
  have horder := hclaim _ _ _ _ _ _ _ _ _ tried autoGroupCache_init rfl rfl hfails htries
  rw [hplaces, attemptedOrder_iff] at horder
  exact absurd horder (by decide +kernel)

end NewApi.Model
