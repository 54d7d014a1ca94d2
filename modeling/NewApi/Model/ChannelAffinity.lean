import NewApi.Model.HybridCache

/-!
# Channel affinity

A rule takes a value out of a request, and requests with one value go to the channel that served the
last one.  The channel is kept in a cache under a key with the name of the rule, the group and the
value, as far as the rule includes them.  It is read under the key alone and written under the key
with the namespace before it.
-/

namespace NewApi.Model

open NewApi.Lib.Strings

def channelAffinityCacheNamespace : CacheNamespace := "new-api:channel_affinity:v1"

def channelAffinityFailCacheNamespace : CacheNamespace := "new-api:channel_affinity_fail:v1"

/-! ## Settings and requests -/

structure ChannelAffinityKeySource where
  type : String
  key : String
  path : String

structure ChannelAffinityRule where
  name : String
  modelRegex : List String
  pathRegex : List String
  userAgentInclude : List String
  keySources : List ChannelAffinityKeySource
  valueRegex : String
  ttlSeconds : ℤ
  includeUsingGroup : Bool
  includeRuleName : Bool

structure ChannelAffinitySetting where
  enabled : Bool
  switchOnSuccess : Bool
  defaultTTLSeconds : ℤ
  maxFailures : ℤ
  failureStatusCodes : List ℤ
  rules : List ChannelAffinityRule

/-- A value of `gjson`: strings, numbers and booleans have a string, other values their text. -/
inductive GjsonResult
  | plain (string : String)
  | other (raw : String)

/-- What is read of a request: its path and client, the keys of its context, and its body by paths,
where there is one. -/
structure AffinityRequest where
  path : String
  userAgent : String
  getInt : String → ℤ
  getString : String → String
  body : Option (String → Option GjsonResult)

/-- `regexp`, where a pattern may not compile, and the digest of a value. -/
structure AffinityLibrary where
  matchString : String → Option (String → Bool)
  sha1 : String → String

namespace ChannelAffinity

variable (lib : AffinityLibrary)

def matchAnyRegexCached (patterns : List String) (s : String) : Bool :=
  if patterns.length = 0 ∨ s = "" then false
  else patterns.any fun pattern =>
    pattern ≠ "" && match lib.matchString pattern with
      | none => false
      | some re => re s

def matchAnyIncludeFold (patterns : List String) (s : String) : Bool :=
  if patterns.length = 0 ∨ s = "" then false
  else patterns.any fun p =>
    let p := trimSpace p
    p ≠ "" && contains (toLower s) (toLower p)

def extractChannelAffinityValue (req : AffinityRequest) (src : ChannelAffinityKeySource) : String :=
  if src.type = "context_int" then
    if src.key = "" then ""
    else
      let v := req.getInt src.key
      if v ≤ 0 then "" else itoa v
  else if src.type = "context_string" then
    if src.key = "" then "" else trimSpace (req.getString src.key)
  else if src.type = "gjson" then
    if src.path = "" then ""
    else
      match req.body with
      | none => ""
      | some getPath =>
          match getPath src.path with
          | none => ""
          | some (.plain string) => trimSpace string
          | some (.other raw) => trimSpace raw
  else ""

/-- The loop over the sources: the first value that is not empty, and its source. -/
def firstAffinityValue (req : AffinityRequest) :
    List ChannelAffinityKeySource → Option (String × ChannelAffinityKeySource)
  | [] => none
  | src :: sources =>
      if extractChannelAffinityValue req src ≠ "" then
        some (extractChannelAffinityValue req src, src)
      else firstAffinityValue req sources

/-! ## Keys -/

def buildChannelAffinityCacheKeySuffix (rule : ChannelAffinityRule)
    (usingGroup affinityValue : String) : String :=
  let parts := if rule.includeRuleName && rule.name ≠ "" then [rule.name] else []
  let parts := if rule.includeUsingGroup && usingGroup ≠ "" then parts ++ [usingGroup] else parts
  join ':' (parts ++ [affinityValue])

def includedName (rule : ChannelAffinityRule) : Option String :=
  if rule.includeRuleName && rule.name ≠ "" then some rule.name else none

def includedGroup (rule : ChannelAffinityRule) (usingGroup : String) : Option String :=
  if rule.includeUsingGroup && usingGroup ≠ "" then some usingGroup else none

/-- The parts of a key: the name of the rule and the group, where they are included, and the value.
-/
structure IncludedParts where
  ruleName : Option String
  usingGroup : Option String
  affinityValue : String
deriving DecidableEq

def includedParts (rule : ChannelAffinityRule) (usingGroup affinityValue : String) :
    IncludedParts where
  ruleName := includedName rule
  usingGroup := includedGroup rule usingGroup
  affinityValue := affinityValue

/-- An included part with its separator. -/
def leadingPart : Option String → String
  | some part => part ++ String.singleton ':'
  | none => ""

/-- What stands before the value. -/
def leadingText (rule : ChannelAffinityRule) (usingGroup : String) : String :=
  leadingPart (includedName rule) ++ leadingPart (includedGroup rule usingGroup)

/-! ## Lookup -/

/-- `channelAffinityMeta`. -/
structure ChannelAffinityMeta where
  cacheKey : String
  ttlSeconds : ℤ
  ruleName : String
  keySourceType : String
  keySourceKey : String
  keySourcePath : String
  keyFingerprint : String
  usingGroup : String
  modelName : String
  requestPath : String

def affinityFingerprint (s : String) : String :=
  if s = "" then "" else String.ofList ((lib.sha1 s).toList.take 8)

/-- The value that a rule takes out of a request, if the rule applies. -/
def ruleValue (rule : ChannelAffinityRule) (req : AffinityRequest) (modelName : String) :
    Option (String × ChannelAffinityKeySource) :=
  if !matchAnyRegexCached lib rule.modelRegex modelName then none
  else if rule.pathRegex.length > 0 && !matchAnyRegexCached lib rule.pathRegex req.path then none
  else if rule.userAgentInclude.length > 0 &&
      !matchAnyIncludeFold rule.userAgentInclude req.userAgent then none
  else
    match firstAffinityValue req rule.keySources with
    | none => none
    | some (affinityValue, usedSource) =>
        if rule.valueRegex ≠ "" && !matchAnyRegexCached lib [rule.valueRegex] affinityValue then
          none
        else some (affinityValue, usedSource)

/-- The two caches, of the channels and of the failures. -/
structure AffinityCaches (S : Type) where
  affinity : HybridCache S
  failures : HybridCache S

structure AffinityState (S : Type) where
  affinity : S
  failures : S

variable {S : Type} (caches : AffinityCaches S) (setting : ChannelAffinitySetting)

/-- The channel in the cache. -/
def preferredChannel (state : AffinityState S) (rule : ChannelAffinityRule)
    (usingGroup affinityValue : String) : Option ℤ :=
  match caches.affinity.get state.affinity
      (buildChannelAffinityCacheKeySuffix rule usingGroup affinityValue) with
  | .found channelID => some channelID
  | .missing => none
  | .failed => none

/-- `cacheKeyFull`. -/
def cacheKeyFull (rule : ChannelAffinityRule) (usingGroup affinityValue : String) : String :=
  caches.affinity.ns.qualified (buildChannelAffinityCacheKeySuffix rule usingGroup affinityValue)

/-- The loop over the rules: what is stored in the context, and the channel. -/
def preferredByRules (state : AffinityState S) (req : AffinityRequest)
    (modelName usingGroup : String) :
    List ChannelAffinityRule → Option ChannelAffinityMeta × Option ℤ
  | [] => (none, none)
  | rule :: rules =>
      match ruleValue lib rule req modelName with
      | none => preferredByRules state req modelName usingGroup rules
      | some (affinityValue, usedSource) =>
          (some {
            cacheKey := cacheKeyFull caches rule usingGroup affinityValue
            ttlSeconds :=
              if rule.ttlSeconds ≤ 0 then setting.defaultTTLSeconds else rule.ttlSeconds
            ruleName := rule.name
            keySourceType := trimSpace usedSource.type
            keySourceKey := trimSpace usedSource.key
            keySourcePath := trimSpace usedSource.path
            keyFingerprint := affinityFingerprint lib affinityValue
            usingGroup := usingGroup
            modelName := modelName
            requestPath := req.path },
          preferredChannel caches state rule usingGroup affinityValue)

def getPreferredChannelByAffinity (state : AffinityState S) (req : AffinityRequest)
    (modelName usingGroup : String) : Option ChannelAffinityMeta × Option ℤ :=
  if !setting.enabled then (none, none)
  else preferredByRules lib caches setting state req modelName usingGroup setting.rules

/-! ## Recording -/

/-- The key and the time to live that the context has. -/
def getChannelAffinityContext (context : Option ChannelAffinityMeta) : Option (String × ℤ) :=
  match context with
  | none => none
  | some stored => if stored.cacheKey = "" then none else some (stored.cacheKey, stored.ttlSeconds)

/-- The time to live, or a default one. -/
def effectiveTTL (ttlSeconds : ℤ) : ℤ :=
  let ttlSeconds := if ttlSeconds ≤ 0 then setting.defaultTTLSeconds else ttlSeconds
  if ttlSeconds ≤ 0 then 3600 else ttlSeconds

def clearAffinityFailCount (context : Option ChannelAffinityMeta) (state : AffinityState S) :
    AffinityState S :=
  if !setting.enabled || setting.maxFailures ≤ 0 then state
  else
    match getChannelAffinityContext context with
    | none => state
    | some (cacheKey, _) =>
        { state with failures := caches.failures.deleteMany state.failures [cacheKey] }

/-- The channel that is recorded: with `switch_on_success` the one in the context, if there is one.
-/
def recordedChannel (contextChannelID channelID : ℤ) : ℤ :=
  if setting.switchOnSuccess && contextChannelID > 0 then contextChannelID else channelID

def recordChannelAffinity (context : Option ChannelAffinityMeta) (contextChannelID channelID : ℤ)
    (state : AffinityState S) : AffinityState S :=
  if channelID ≤ 0 then state
  else if !setting.enabled then state
  else
    match getChannelAffinityContext context with
    | none => state
    | some (cacheKey, ttlSeconds) =>
        clearAffinityFailCount caches setting context
          { state with
            affinity := caches.affinity.setWithTTL state.affinity cacheKey
              (recordedChannel setting contextChannelID channelID)
              (effectiveTTL setting ttlSeconds) }

/-! ## Failures -/

def isAffinityFailureStatus (statusCode : ℤ) : Bool :=
  if !setting.enabled || setting.maxFailures ≤ 0 then false
  else
    let failureCodes :=
      if setting.failureStatusCodes.length = 0 then [429, 500, 502, 503, 504]
      else setting.failureStatusCodes
    failureCodes.any fun code => statusCode = code

/-- The failures that are counted under a key; an error counts as none. -/
def currentCount (state : AffinityState S) (cacheKey : String) : ℤ :=
  match caches.failures.get state.failures cacheKey with
  | .found count => count
  | .missing => 0
  | .failed => 0

def incrementAffinityFail (context : Option ChannelAffinityMeta) (state : AffinityState S) :
    AffinityState S :=
  if !setting.enabled || setting.maxFailures ≤ 0 then state
  else
    match getChannelAffinityContext context with
    | none => state
    | some (cacheKey, ttlSeconds) =>
        let newCount := currentCount caches state cacheKey + 1
        if newCount ≥ setting.maxFailures then
          { affinity := caches.affinity.deleteMany state.affinity [cacheKey]
            failures := caches.failures.deleteMany state.failures [cacheKey] }
        else
          { state with
            failures := caches.failures.setWithTTL state.failures cacheKey newCount
              (effectiveTTL setting ttlSeconds) }

/-! ## Values and keys -/

section

variable {lib} {req : AffinityRequest} {src : ChannelAffinityKeySource}
  {rule rule' : ChannelAffinityRule} {usingGroup usingGroup' value value' modelName : String}

open CacheNamespace

theorem extract_trimmed (hne : extractChannelAffinityValue req src ≠ "") :
    Trimmed (extractChannelAffinityValue req src) := by
  have hempty : trimSpace "" = "" := by decide
  have htrim : ∀ s, trimSpace (trimSpace s) = trimSpace s := fun s => trim_trim s isSpace
  refine ⟨hne, ?_⟩
  unfold extractChannelAffinityValue
  dsimp only
  repeat' split
  all_goals simp only [hempty, htrim, trimSpace_itoa]

theorem firstAffinityValue_trimmed {sources : List ChannelAffinityKeySource}
    (hfirst : firstAffinityValue req sources = some (value, src)) : Trimmed value := by
  induction sources with
  | nil => cases hfirst
  | cons source sources ih =>
      rw [firstAffinityValue] at hfirst
      split at hfirst
      case isTrue hne =>
        cases hfirst
        exact extract_trimmed hne
      case isFalse => exact ih hfirst

/-- A value that a rule takes out of a request is not empty and has no white space at its ends. -/
theorem ruleValue_trimmed (hvalue : ruleValue lib rule req modelName = some (value, src)) :
    Trimmed value := by
  unfold ruleValue at hvalue
  split at hvalue
  · cases hvalue
  split at hvalue
  · cases hvalue
  split at hvalue
  · cases hvalue
  split at hvalue
  · cases hvalue
  case h_2 affinityValue usedSource hfirst =>
    split at hvalue
    · cases hvalue
    cases hvalue
    exact firstAffinityValue_trimmed hfirst

theorem suffix_eq (rule : ChannelAffinityRule) (usingGroup value : String) :
    buildChannelAffinityCacheKeySuffix rule usingGroup value =
      leadingText rule usingGroup ++ value := by
  unfold buildChannelAffinityCacheKeySuffix leadingText includedName includedGroup
  dsimp only
  split <;> split <;> simp [join, leadingPart, String.append_assoc]

/-- A value can go on from the first text to the second one. -/
def LeadsTo (lead lead' : String) : Prop :=
  ∃ rest, lead' = lead ++ rest ∧ ∀ c, rest.toList.head? = some c → isSpace c = false

theorem leadsTo_of_suffix_eq {lead lead' : String} (hvalue : Trimmed value)
    (hvalue' : Trimmed value') (hsame : lead ++ value = lead' ++ value') :
    LeadsTo lead lead' ∨ LeadsTo lead' lead := by
  have hrest : ∀ {v : String} {rest more : List Char}, Trimmed v → v.toList = rest ++ more →
      ∀ c, (String.ofList rest).toList.head? = some c → isSpace c = false := by
    intro v rest more hv hsplit c hc
    refine hv.head ?_
    rw [String.toList_ofList] at hc
    rw [hsplit, List.head?_append, hc]
    rfl
  have hlists := congrArg String.toList hsame
  rw [String.toList_append, String.toList_append, List.append_eq_append_iff] at hlists
  rcases hlists with ⟨rest, hlead, hsplit⟩ | ⟨rest, hlead, hsplit⟩
  · refine .inl ⟨String.ofList rest, ?_, hrest hvalue hsplit⟩
    rw [← String.toList_inj, hlead, String.toList_append, String.toList_ofList]
  · refine .inr ⟨String.ofList rest, ?_, hrest hvalue' hsplit⟩
    rw [← String.toList_inj, hlead, String.toList_append, String.toList_ofList]

/-- Where one text leads to the other, two values have one key. -/
theorem exists_suffix_eq {lead lead' : String} (hleads : LeadsTo lead lead') :
    ∃ value value', Trimmed value ∧ Trimmed value' ∧ lead ++ value = lead' ++ value' := by
  obtain ⟨rest, rfl, hrest⟩ := hleads
  have hx : Trimmed "x" := ⟨by decide, by decide⟩
  refine ⟨rest ++ "x", "x", ?_, hx, (String.append_assoc).symm⟩
  cases hlist : rest.toList with
  | nil =>
      rw [String.toList_eq_nil_iff.1 hlist, String.empty_append]
      exact hx
  | cons c cs =>
      have hhead : (rest ++ "x").toList.head? = some c := by
        rw [String.toList_append, hlist]
        rfl
      exact trimmed_of_ends (hx.closed.append rest) hhead (hrest c (by rw [hlist]; rfl))

/-- No two values of two rules and groups share a key with different parts exactly if the rules and
groups have the same included parts, or neither leading text can be gone on from to the other. -/
theorem cacheKeySuffix_identifies_iff (rule rule' : ChannelAffinityRule)
    (usingGroup usingGroup' : String) :
    (∀ value value', Trimmed value → Trimmed value' →
        buildChannelAffinityCacheKeySuffix rule usingGroup value =
          buildChannelAffinityCacheKeySuffix rule' usingGroup' value' →
        includedParts rule usingGroup value = includedParts rule' usingGroup' value') ↔
      (includedName rule = includedName rule' ∧
          includedGroup rule usingGroup = includedGroup rule' usingGroup') ∨
        (¬ LeadsTo (leadingText rule usingGroup) (leadingText rule' usingGroup') ∧
          ¬ LeadsTo (leadingText rule' usingGroup') (leadingText rule usingGroup)) := by
  simp only [suffix_eq]
  constructor
  · intro hidentifies
    by_contra hparts
    obtain ⟨hdifferent, hleads⟩ := not_or.1 hparts
    rw [not_and_or, not_not, not_not] at hleads
    rcases hleads with hleads | hleads
    · obtain ⟨value, value', hvalue, hvalue', hsame⟩ := exists_suffix_eq hleads
      have hparts := hidentifies value value' hvalue hvalue' hsame
      injection hparts with hname hgroup
      exact hdifferent ⟨hname, hgroup⟩
    · obtain ⟨value', value, hvalue', hvalue, hsame⟩ := exists_suffix_eq hleads
      have hparts := hidentifies value value' hvalue hvalue' hsame.symm
      injection hparts with hname hgroup
      exact hdifferent ⟨hname, hgroup⟩
  · intro hparts value value' hvalue hvalue' hsame
    rcases hparts with ⟨hname, hgroup⟩ | ⟨hleads, hleads'⟩
    · rw [leadingText, leadingText, hname, hgroup, String.append_right_inj] at hsame
      rw [includedParts, includedParts, hname, hgroup, hsame]
    · rcases leadsTo_of_suffix_eq hvalue hvalue' hsame with hto | hto
      · exact absurd hto hleads
      · exact absurd hto hleads'

/-- A rule whose keys have its name and the group. -/
def codexRule : ChannelAffinityRule where
  name := "codex"
  modelRegex := ["^gpt-.*$"]
  pathRegex := []
  userAgentInclude := []
  keySources := [{ type := "gjson", key := "", path := "prompt_cache_key" }]
  valueRegex := ""
  ttlSeconds := 0
  includeUsingGroup := true
  includeRuleName := true

/-- A value of one group addresses the entry of another one. -/
theorem groups_share_a_key :
    Trimmed "beta:u1" ∧ Trimmed "u1" ∧
      buildChannelAffinityCacheKeySuffix codexRule "vip" "beta:u1" =
        buildChannelAffinityCacheKeySuffix codexRule "vip:beta" "u1" ∧
      includedParts codexRule "vip" "beta:u1" ≠ includedParts codexRule "vip:beta" "u1" := by
  refine ⟨⟨?_, ?_⟩, ⟨?_, ?_⟩, ?_, ?_⟩ <;> decide

/-! ## What is recorded is found -/

variable {caches : AffinityCaches S} {setting : ChannelAffinitySetting} {state : AffinityState S}
  {context : ChannelAffinityMeta} {contextChannelID channelID : ℤ}

theorem effectiveTTL_pos (ttlSeconds : ℤ) : 0 < effectiveTTL setting ttlSeconds := by
  unfold effectiveTTL
  dsimp only
  repeat' split
  all_goals omega

theorem clearAffinityFailCount_affinity (context : Option ChannelAffinityMeta) :
    (clearAffinityFailCount caches setting context state).affinity = state.affinity := by
  unfold clearAffinityFailCount
  split
  · rfl
  split <;> rfl

theorem recordChannelAffinity_affinity (henabled : setting.enabled = true)
    (hid : 0 < channelID) (hkey : context.cacheKey ≠ "") :
    (recordChannelAffinity caches setting (some context) contextChannelID channelID
        state).affinity =
      caches.affinity.setWithTTL state.affinity context.cacheKey
        (recordedChannel setting contextChannelID channelID)
        (effectiveTTL setting context.ttlSeconds) := by
  have hcontext : getChannelAffinityContext (some context) =
      some (context.cacheKey, context.ttlSeconds) := if_neg hkey
  simp only [recordChannelAffinity, if_neg (show ¬ channelID ≤ 0 by omega), henabled, hcontext,
    clearAffinityFailCount_affinity, Bool.not_true, Bool.false_eq_true, if_false]

theorem cacheKeyFull_ne_empty : cacheKeyFull caches rule usingGroup value ≠ "" := by
  rw [cacheKeyFull, qualified]
  simp

theorem recordedChannel_inInt64 (hid : InInt64 channelID) (hcontext : InInt64 contextChannelID) :
    InInt64 (recordedChannel setting contextChannelID channelID) := by
  unfold recordedChannel
  split
  · exact hcontext
  · exact hid

variable (caches setting state) in
/-- Whatever channel is recorded under the key of a value is found for that value, and for no other
one, unless it was there before. -/
def RecordedIsFound (rule : ChannelAffinityRule) (usingGroup value : String) : Prop :=
  ∀ (context : ChannelAffinityMeta) (contextChannelID channelID : ℤ),
    context.cacheKey = cacheKeyFull caches rule usingGroup value → 0 < channelID →
    InInt64 channelID → InInt64 contextChannelID →
    let after := recordChannelAffinity caches setting (some context) contextChannelID channelID
      state
    let recorded := recordedChannel setting contextChannelID channelID
    preferredChannel caches after rule usingGroup value = some recorded ∧
      ∀ other, Trimmed other → other ≠ value →
        preferredChannel caches after rule usingGroup other = some recorded →
        preferredChannel caches state rule usingGroup other = some recorded

theorem preferredChannel_recorded (hbackend : caches.affinity.backend.Documented)
    (henabled : setting.enabled = true)
    (hkey : context.cacheKey = cacheKeyFull caches rule usingGroup value) (hid : 0 < channelID)
    (hrange : InInt64 (recordedChannel setting contextChannelID channelID))
    (hne : caches.affinity.ns.fullKey (cacheKeyFull caches rule usingGroup value) ≠ "")
    (hsame : caches.affinity.ns.fullKey
        (buildChannelAffinityCacheKeySuffix rule usingGroup value') =
      caches.affinity.ns.fullKey (cacheKeyFull caches rule usingGroup value)) :
    preferredChannel caches (recordChannelAffinity caches setting (some context) contextChannelID
      channelID state) rule usingGroup value' =
        some (recordedChannel setting contextChannelID channelID) := by
  rw [preferredChannel, recordChannelAffinity_affinity henabled hid
    (by rw [hkey]; exact cacheKeyFull_ne_empty), hkey,
    HybridCache.get_setWithTTL hbackend hrange (effectiveTTL_pos _) hne hsame]

theorem preferredChannel_other (hbackend : caches.affinity.backend.Documented)
    (henabled : setting.enabled = true)
    (hkey : context.cacheKey = cacheKeyFull caches rule usingGroup value) (hid : 0 < channelID)
    (hother : caches.affinity.ns.fullKey (cacheKeyFull caches rule usingGroup value) = "" ∨
      caches.affinity.ns.fullKey (buildChannelAffinityCacheKeySuffix rule usingGroup value') ≠
        caches.affinity.ns.fullKey (cacheKeyFull caches rule usingGroup value)) {found : ℤ}
    (hfound : preferredChannel caches (recordChannelAffinity caches setting (some context)
      contextChannelID channelID state) rule usingGroup value' = some found) :
    preferredChannel caches state rule usingGroup value' = some found := by
  rw [preferredChannel, recordChannelAffinity_affinity henabled hid
    (by rw [hkey]; exact cacheKeyFull_ne_empty), hkey] at hfound
  rw [preferredChannel]
  rcases hother with hempty | hother
  · rw [HybridCache.setWithTTL_of_empty hempty] at hfound
    exact hfound
  · rcases HybridCache.get_setWithTTL_other hbackend hother with hold | hmissing
    · rw [hold] at hfound
      exact hfound
    · rw [hmissing] at hfound
      cases hfound

theorem recordedChannel_zero (channelID : ℤ) : recordedChannel setting 0 channelID = channelID := by
  simp [recordedChannel]

/-- A context with a key. -/
def contextWithKey (cacheKey : String) : ChannelAffinityMeta where
  cacheKey := cacheKey
  ttlSeconds := 0
  ruleName := ""
  keySourceType := ""
  keySourceKey := ""
  keySourcePath := ""
  keyFingerprint := ""
  usingGroup := ""
  modelName := ""
  requestPath := ""

theorem recordedIsFound_iff_fullKey (hbackend : caches.affinity.backend.Documented)
    (henabled : setting.enabled = true) : RecordedIsFound caches setting state rule usingGroup value ↔
      (caches.affinity.ns.fullKey (buildChannelAffinityCacheKeySuffix rule usingGroup value) =
          caches.affinity.ns.fullKey (cacheKeyFull caches rule usingGroup value) ∧
        caches.affinity.ns.fullKey (cacheKeyFull caches rule usingGroup value) ≠ "") ∧
      ∀ other, Trimmed other → other ≠ value →
        caches.affinity.ns.fullKey (buildChannelAffinityCacheKeySuffix rule usingGroup other) ≠
          caches.affinity.ns.fullKey (cacheKeyFull caches rule usingGroup value) := by
  have hint : ∀ n : ℤ, 0 ≤ n → n ≤ 2 → InInt64 n := by
    intro n hn hle
    unfold InInt64
    omega
  constructor
  · intro hfound
    -- Of the channels 1 and 2, one was not there before.
    have hrecord : ∀ n : ℤ, 0 < n → n ≤ 2 → _ := fun n hn hle =>
      hfound (contextWithKey (cacheKeyFull caches rule usingGroup value)) 0 n rfl hn
        (hint n (by omega) hle) (hint 0 (by omega) (by omega))
    simp only [recordedChannel_zero] at hrecord
    have hsame : ¬ (caches.affinity.ns.fullKey (cacheKeyFull caches rule usingGroup value) = "" ∨
        caches.affinity.ns.fullKey (buildChannelAffinityCacheKeySuffix rule usingGroup value) ≠
          caches.affinity.ns.fullKey (cacheKeyFull caches rule usingGroup value)) := by
      intro hother
      have hbefore : ∀ n : ℤ, 0 < n → n ≤ 2 →
          preferredChannel caches state rule usingGroup value = some n := fun n hn hle =>
        preferredChannel_other hbackend henabled rfl hn hother (hrecord n hn hle).1
      have hone := hbefore 1 (by omega) (by omega)
      rw [hbefore 2 (by omega) (by omega)] at hone
      cases hone
    rw [not_or, not_not] at hsame
    refine ⟨⟨hsame.2, hsame.1⟩, fun other hother hne hkey => ?_⟩
    have hbefore : ∀ n : ℤ, 0 < n → n ≤ 2 →
        preferredChannel caches state rule usingGroup other = some n := by
      intro n hn hle
      have hrange : InInt64 (recordedChannel setting 0 n) :=
        recordedChannel_inInt64 (hint n (by omega) hle) (hint 0 (by omega) (by omega))
      refine (hrecord n hn hle).2 other hother hne ?_
      have hafter : preferredChannel caches (recordChannelAffinity caches setting
          (some (contextWithKey (cacheKeyFull caches rule usingGroup value))) 0 n state) rule
            usingGroup other = some (recordedChannel setting 0 n) :=
        preferredChannel_recorded hbackend henabled rfl hn hrange hsame.1 hkey
      rw [recordedChannel_zero] at hafter
      exact hafter
    have hone := hbefore 1 (by omega) (by omega)
    rw [hbefore 2 (by omega) (by omega)] at hone
    cases hone
  · intro hkeys context contextChannelID channelID hkey hid hrange hcontext
    obtain ⟨⟨hsame, hne⟩, hothers⟩ := hkeys
    refine ⟨preferredChannel_recorded hbackend henabled hkey hid
      (recordedChannel_inInt64 hrange hcontext) hne hsame, fun other hother hdifferent hfound => ?_⟩
    exact preferredChannel_other hbackend henabled hkey hid
      (.inr (hothers other hother hdifferent)) hfound

theorem recordedIsFound_iff_coherent (hbackend : caches.affinity.backend.Documented)
    (henabled : setting.enabled = true) (hvalue : Trimmed value) :
    RecordedIsFound caches setting state rule usingGroup value ↔
      Coherent caches.affinity.ns (leadingText rule usingGroup) value := by
  rw [recordedIsFound_iff_fullKey hbackend henabled, ← coherent_iff hvalue, cacheKeyFull]
  simp only [suffix_eq]

/-- A recorded channel is found for its value and for no other one exactly if the key is coherent in
the namespace. -/
theorem recordedIsFound_iff (caches : AffinityCaches S)
    (hbackend : caches.affinity.backend.Documented) (setting : ChannelAffinitySetting)
    (henabled : setting.enabled = true) (state : AffinityState S) (rule : ChannelAffinityRule)
    (usingGroup value : String) (hvalue : Trimmed value) :
    RecordedIsFound caches setting state rule usingGroup value ↔
      Coherent caches.affinity.ns (leadingText rule usingGroup) value :=
  recordedIsFound_iff_coherent hbackend henabled hvalue

/-! ## Two requests -/

variable {state' : AffinityState S} {next : AffinityRequest} {modelName' : String}
  {src' : ChannelAffinityKeySource}

variable (lib setting) in
/-- The rule that a request is routed by, and its value. -/
def chosenRule (req : AffinityRequest) (modelName : String) :
    Option (ChannelAffinityRule × String × ChannelAffinityKeySource) :=
  if !setting.enabled then none
  else setting.rules.findSome? fun rule =>
    (ruleValue lib rule req modelName).map fun found => (rule, found)

theorem getPreferred_of_chosen
    (hchosen : chosenRule lib setting req modelName = some (rule, value, src)) :
    (getPreferredChannelByAffinity lib caches setting state req modelName usingGroup).2 =
        preferredChannel caches state rule usingGroup value ∧
      ∃ context,
        (getPreferredChannelByAffinity lib caches setting state req modelName usingGroup).1 =
          some context ∧ context.cacheKey = cacheKeyFull caches rule usingGroup value := by
  unfold chosenRule at hchosen
  unfold getPreferredChannelByAffinity
  split at hchosen
  · cases hchosen
  case isFalse henabled =>
    rw [if_neg henabled]
    generalize setting.rules = rules at hchosen
    induction rules with
    | nil => cases hchosen
    | cons first rules ih =>
        cases hvalue : ruleValue lib first req modelName with
        | none =>
            simp only [List.findSome?_cons, hvalue, Option.map_none] at hchosen
            simp only [preferredByRules, hvalue]
            exact ih hchosen
        | some found =>
            simp only [List.findSome?_cons, hvalue, Option.map_some, Option.some.injEq,
              Prod.mk.injEq] at hchosen
            obtain ⟨rfl, rfl⟩ := hchosen
            simp only [preferredByRules, hvalue, true_and]
            exact ⟨_, rfl, rfl⟩

theorem chosenRule_enabled
    (hchosen : chosenRule lib setting req modelName = some (rule, value, src)) :
    setting.enabled = true ∧ Trimmed value := by
  unfold chosenRule at hchosen
  split at hchosen
  · cases hchosen
  case isFalse henabled =>
    obtain ⟨first, -, hfound⟩ := List.exists_of_findSome?_eq_some hchosen
    obtain ⟨found, hvalue, hsame⟩ := Option.map_eq_some_iff.1 hfound
    cases hsame
    exact ⟨by simpa using henabled, ruleValue_trimmed hvalue⟩

/-- The next request with the rule, the group and the value goes to the recorded channel. -/
theorem next_request_is_routed (hbackend : caches.affinity.backend.Documented)
    (hchosen : chosenRule lib setting req modelName = some (rule, value, src))
    (hnext : chosenRule lib setting next modelName' = some (rule, value, src'))
    (hcoherent : Coherent caches.affinity.ns (leadingText rule usingGroup) value)
    (hid : 0 < channelID) (hrange : InInt64 channelID) (hcontext : InInt64 contextChannelID) :
    let context :=
      (getPreferredChannelByAffinity lib caches setting state req modelName usingGroup).1
    let after := recordChannelAffinity caches setting context contextChannelID channelID state'
    (getPreferredChannelByAffinity lib caches setting after next modelName' usingGroup).2 =
      some (recordedChannel setting contextChannelID channelID) := by
  obtain ⟨henabled, hvalue⟩ := chosenRule_enabled hchosen
  obtain ⟨context, hstored, hkey⟩ : ∃ context,
      (getPreferredChannelByAffinity lib caches setting state req modelName usingGroup).1 =
        some context ∧ context.cacheKey = cacheKeyFull caches rule usingGroup value :=
    (getPreferred_of_chosen hchosen).2
  have hfound : RecordedIsFound caches setting state' rule usingGroup value :=
    (recordedIsFound_iff_coherent hbackend henabled hvalue).2 hcoherent
  show (getPreferredChannelByAffinity lib caches setting _ next modelName' usingGroup).2 = _
  rw [hstored, (getPreferred_of_chosen hnext).1]
  exact (hfound context contextChannelID channelID hkey hid hrange hcontext).1

/-! ## Two examples -/

/-- Both caches in memory. -/
def memoryCaches : AffinityCaches (String → Option ℤ) where
  affinity := ⟨channelAffinityCacheNamespace, .memory (KeyValue.ofMap ℤ)⟩
  failures := ⟨channelAffinityFailCacheNamespace, .memory (KeyValue.ofMap ℤ)⟩

def emptyState : AffinityState (String → Option ℤ) where
  affinity := fun _ => none
  failures := fun _ => none

/-- The defaults, enabled. -/
def defaultSetting : ChannelAffinitySetting where
  enabled := true
  switchOnSuccess := true
  defaultTTLSeconds := 3600
  maxFailures := 3
  failureStatusCodes := [429, 500, 502, 503, 504]
  rules := [codexRule]

theorem plain_channelAffinityCacheNamespace : Plain channelAffinityCacheNamespace := by
  unfold Plain
  decide

/-- A key that begins with the name of the rule is coherent. -/
theorem coherent_codex : Coherent channelAffinityCacheNamespace "codex:default:" "u1" := by
  refine .inl ⟨plain_channelAffinityCacheNamespace, ?_, by decide, ?_⟩
  · intro c hc
    obtain rfl : 'c' = c := Option.some.inj hc
    decide
  · intro hgoes
    obtain ⟨c, rest, hnamespace, -⟩ := hgoes
    have hhead := congrArg List.head? hnamespace
    have hfirst : (keyPrefix channelAffinityCacheNamespace).toList.head? = some 'n' := by decide
    rw [hfirst] at hhead
    cases hhead

/-- With both caches in memory, the channel of a request is found. -/
theorem codex_channel_is_found :
    RecordedIsFound memoryCaches defaultSetting emptyState codexRule "default" "u1" :=
  (recordedIsFound_iff memoryCaches (KeyValue.ofMap_documented ℤ) defaultSetting rfl emptyState
    codexRule "default" "u1" ⟨by decide, by decide⟩).2 coherent_codex

/-- A request whose body has the key "u1" for the cache of its prompt. -/
def keyedRequest : AffinityRequest where
  path := "/v1/responses"
  userAgent := ""
  getInt := fun _ => 0
  getString := fun _ => ""
  body := some fun path => if path = "prompt_cache_key" then some (.plain "u1") else none

/-- What the pattern of the rule says of the names of models, and the digest of "u1". -/
def codexLibrary : AffinityLibrary where
  matchString _ := some fun model => hasPrefix model "gpt-"
  sha1 _ := "c5ea71554c774daf7fab320fc3476afc0617eb00"

theorem keyedRequest_is_routed :
    let context := (getPreferredChannelByAffinity codexLibrary memoryCaches defaultSetting
      emptyState keyedRequest "gpt-5" "default").1
    let after := recordChannelAffinity memoryCaches defaultSetting context 0 7 emptyState
    (getPreferredChannelByAffinity codexLibrary memoryCaches defaultSetting after keyedRequest
      "gpt-5" "default").2 = some (recordedChannel defaultSetting 0 7) := by
  have hchosen : chosenRule codexLibrary defaultSetting keyedRequest "gpt-5" =
      some (codexRule, "u1", ⟨"gjson", "", "prompt_cache_key"⟩) := by rfl
  exact next_request_is_routed (KeyValue.ofMap_documented ℤ) hchosen hchosen coherent_codex
    (by decide) (by decide) (by decide)

/-- A rule whose keys are the values alone. -/
def bareRule : ChannelAffinityRule :=
  { codexRule with includeUsingGroup := false, includeRuleName := false }

/-- The channel of a value that begins with a colon is not found. -/
theorem colon_value_is_not_found : Trimmed ":u1" ∧
    ¬ RecordedIsFound memoryCaches defaultSetting emptyState bareRule "default" ":u1" := by
  refine ⟨⟨by decide, by decide⟩, ?_⟩
  have hbackend : memoryCaches.affinity.backend.Documented := KeyValue.ofMap_documented ℤ
  intro hfound
  have hsame := ((recordedIsFound_iff_fullKey hbackend rfl).1 hfound).1.1
  revert hsame
  decide

end

end ChannelAffinity

end NewApi.Model
