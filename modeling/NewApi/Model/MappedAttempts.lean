import NewApi.Model.ModelMapped

/-!
# The model names of a sequence of attempts

All attempts of a request share the relay info, the request context and the parameter of the retry
loop.  A channel is always selected for the model of the retry parameter, but the map of the next
channel is followed from the name that the last attempt has left in the relay info: a compaction is
renamed after its upstream model, and a Gemini request without thinking after its own price.
-/

namespace NewApi.Model

open NewApi.Lib NewApi.Lib.Strings

/-- The names that the attempts of a request share: in the relay info, `original_model` of the
context, and the model of the retry parameter. -/
structure RetryNames where
  info : MappedInfo
  originalModel : String
  modelName : String

/-- The names of one attempt: what the channel is selected for, what it is asked for, and what is
priced and logged. -/
structure AttemptNames where
  selected : String
  upstream : String
  request : String
  priced : String
  logged : String
deriving DecidableEq

namespace RetryNames

/-- The names before the first attempt. -/
def start (modelName requestModel : String) : RetryNames where
  info := MappedInfo.genRelayInfo modelName requestModel
  originalModel := modelName
  modelName := modelName

/-- How the handler goes on with the names that `ModelMappedHelper` has found. -/
def handled (mode : NamingMode) (modelName : String) (mapped : MappedInfo) : AttemptNames :=
  let info := mode.handle mapped
  { selected := modelName
    upstream := info.upstreamModelName
    request := info.requestModel
    -- Only a compaction is priced again, once it has been answered.
    priced := if mode.isCompaction then info.originModelName else modelName
    logged := info.originModelName }

/-- The rest of an attempt behind `InitChannelMeta` and `ModelMappedHelper`.  The request that is
sent is a copy, and the channel meta is made anew by the next attempt. -/
def leave (mode : NamingMode) (names : RetryNames) (info : MappedInfo) :
    Except String MappedInfo → RetryNames × Except String AttemptNames
  | .error err => ({ names with info := info }, .error err)
  | .ok mapped =>
      ({ names with info := { mode.handle mapped with requestModel := info.requestModel } },
        .ok (handled mode names.modelName mapped))

/-- An attempt on a channel with this mapping, from `SetupContextForSelectedChannel` on. -/
def attempt (mode : NamingMode) (names : RetryNames) (mapping : ModelMapping) :
    Option (RetryNames × Except String AttemptNames) :=
  let names := { names with originalModel := names.info.originModelName }
  let info := names.info.initChannelMeta names.originalModel
  (info.modelMappedHelper mode.isCompaction mapping (mapping.size + 1)).map
    (names.leave mode info)

/-- The names after some attempts. -/
def after (mode : NamingMode) (names : RetryNames) (earlier : List ModelMapping) :
    Option RetryNames :=
  earlier.foldlM (fun names mapping => (names.attempt mode mapping).map Prod.fst) names

/-- The names of the attempt that follows some others. -/
def attemptAfter (mode : NamingMode) (names : RetryNames) (earlier : List ModelMapping)
    (mapping : ModelMapping) : Option (Except String AttemptNames) := do
  let names ← names.after mode earlier
  let (_, result) ← names.attempt mode mapping
  return result

end RetryNames

/-! ## The name that an attempt leaves -/

/-- The name in the relay info after an attempt on a channel with this mapping. -/
def Renames (mode : NamingMode) (mapping : ModelMapping) (name name' : String) : Prop :=
  match mapping.modelMap with
  | none => name' = name
  | some modelMap =>
      match mode with
      | .normal => name' = name
      | .compaction =>
          (∃ last, Chain.Ends (redirect modelMap) (trimSuffix name CompactModelSuffix) last ∧
            name' = if MapsOrigin modelMap name last then name else withCompactModelSuffix last) ∨
          (Chain.EntersCycle (redirect modelMap) (trimSuffix name CompactModelSuffix) ∧ name' = name)
      | .noThinking containPriceOrRatio =>
          (∃ last, Chain.Ends (redirect modelMap) name last ∧
            name' = if NamingMode.turnsThinkingOff containPriceOrRatio name then
              NamingMode.noThinkingModelName name else name) ∨
          (Chain.EntersCycle (redirect modelMap) name ∧ name' = name)

/-- The name in the relay info after attempts on channels with these mappings. -/
inductive RenamedTo (mode : NamingMode) : String → List ModelMapping → String → Prop
  | nil (name : String) : RenamedTo mode name [] name
  | cons {mapping : ModelMapping} {earlier : List ModelMapping} {name name' last : String}
      (hrenames : Renames mode mapping name name') (hrest : RenamedTo mode name' earlier last) :
      RenamedTo mode name (mapping :: earlier) last

section

variable {mode : NamingMode} {mapping : ModelMapping} {earlier : List ModelMapping}
  {name name' name'' last last' : String}

theorem Renames.unique (hname' : Renames mode mapping name name')
    (hname'' : Renames mode mapping name name'') : name' = name'' := by
  unfold Renames at hname' hname''
  cases hmap : mapping.modelMap with
  | none =>
      rw [hmap] at hname' hname''
      exact hname'.trans hname''.symm
  | some modelMap =>
      rw [hmap] at hname' hname''
      cases mode with
      | normal => exact hname'.trans hname''.symm
      | compaction =>
          rcases hname' with ⟨last, hends, rfl⟩ | ⟨hcycle, rfl⟩ <;>
            rcases hname'' with ⟨last', hends', rfl⟩ | ⟨hcycle', rfl⟩
          · rw [hends.unique hends']
          · exact absurd hcycle' hends.not_entersCycle
          · exact absurd hcycle hends'.not_entersCycle
          · rfl
      | noThinking containPriceOrRatio =>
          rcases hname' with ⟨last, hends, rfl⟩ | ⟨hcycle, rfl⟩ <;>
            rcases hname'' with ⟨last', hends', rfl⟩ | ⟨hcycle', rfl⟩
          · rfl
          · exact absurd hcycle' hends.not_entersCycle
          · exact absurd hcycle hends'.not_entersCycle
          · rfl

theorem RenamedTo.unique (hlast : RenamedTo mode name earlier last)
    (hlast' : RenamedTo mode name earlier last') : last = last' := by
  induction hlast with
  | nil name =>
      cases hlast'
      rfl
  | cons hrenames _ ih =>
      cases hlast' with
      | cons hrenames' hrest' =>
          obtain rfl := hrenames.unique hrenames'
          exact ih hrest'

theorem withCompactModelSuffix_ne_empty (modelName : String) :
    withCompactModelSuffix modelName ≠ "" := by
  unfold withCompactModelSuffix
  split
  case isTrue hsuffix =>
    rintro rfl
    exact absurd hsuffix (by decide)
  case isFalse =>
    rw [Ne, String.append_eq_empty_iff]
    exact fun hempty => absurd hempty.2 (by decide)

theorem noThinkingModelName_ne (modelName : String) :
    NamingMode.noThinkingModelName modelName ≠ modelName := by
  unfold NamingMode.noThinkingModelName
  rw [Ne, String.append_eq_left_iff]
  decide

theorem noThinkingModelName_ne_empty (modelName : String) :
    NamingMode.noThinkingModelName modelName ≠ "" := by
  unfold NamingMode.noThinkingModelName
  rw [Ne, String.append_eq_empty_iff]
  exact fun hempty => absurd hempty.2 (by decide)

/-- A name is never lost. -/
theorem Renames.ne_empty (hrenames : Renames mode mapping name name') (hname : name ≠ "") :
    name' ≠ "" := by
  unfold Renames at hrenames
  split at hrenames
  · rw [hrenames]
    exact hname
  · split at hrenames
    · rw [hrenames]
      exact hname
    · rcases hrenames with ⟨last, -, rfl⟩ | ⟨-, rfl⟩
      · split
        · exact hname
        · exact withCompactModelSuffix_ne_empty last
      · exact hname
    · rcases hrenames with ⟨last, -, rfl⟩ | ⟨-, rfl⟩
      · split
        · exact noThinkingModelName_ne_empty name
        · exact hname
      · exact hname

/-- Only a compaction or a request without thinking is renamed. -/
theorem renamedTo_normal (hrenamed : RenamedTo .normal name earlier last) : last = name := by
  induction hrenamed with
  | nil name => rfl
  | cons hrenames _ ih =>
      unfold Renames at hrenames
      split at hrenames <;> exact ih.trans hrenames

/-! ## One attempt -/

open MappedInfo (begun fresh_begun)

namespace RetryNames

/-- The names of an attempt that begins with this name in the relay info. -/
def named (modelName name : String) : RetryNames :=
  { start name name with modelName := modelName }

variable {names : RetryNames}

theorem initChannelMeta_eq_begun {info : MappedInfo} (hname : info.originModelName ≠ "") :
    info.initChannelMeta info.originModelName = begun info.originModelName := by
  unfold begun MappedInfo.initChannelMeta MappedInfo.setModelName MappedInfo.genRelayInfo
  rw [if_pos hname]
  dsimp only
  rw [if_pos hname]

/-- An attempt sets all but the name in the relay info anew. -/
theorem attempt_eq_named (mode : NamingMode) (mapping : ModelMapping)
    (hname : names.info.originModelName ≠ "") :
    names.attempt mode mapping =
      (named names.modelName names.info.originModelName).attempt mode mapping := by
  obtain ⟨info, originalModel, modelName⟩ := names
  unfold attempt
  dsimp only at hname ⊢
  rw [initChannelMeta_eq_begun hname]
  rfl

/-- What an attempt does with what the helper has returned. -/
theorem attempt_of_result {modelName : String} {result : Except String MappedInfo}
    (hresult : (begun name).modelMappedHelper mode.isCompaction mapping (mapping.size + 1) =
      some result) :
    (named modelName name).attempt mode mapping =
      some ((named modelName name).leave mode (begun name) result) := by
  show ((begun name).modelMappedHelper mode.isCompaction mapping (mapping.size + 1)).map _ = _
  rw [hresult]
  rfl

/-- The name that the handler leaves for a model that has been mapped. -/
theorem renames_of_mappedTo {modelMap : List (String × String)} {mapped : MappedInfo}
    (hmap : mapping.modelMap = some modelMap)
    (hmapped : (begun name).MappedTo mode.isCompaction modelMap last mapped) :
    Renames mode mapping name (mode.handle mapped).originModelName := by
  unfold Renames
  rw [hmap]
  have horigin := hmapped.origin
  cases mode with
  | normal => exact horigin
  | compaction =>
      refine .inl ⟨last, hmapped.ends, horigin.trans ?_⟩
      by_cases hmaps : MapsOrigin modelMap name last
      · rw [if_pos hmaps]
        exact if_neg fun hand => hand.2 hmaps
      · rw [if_neg hmaps]
        exact if_pos ⟨rfl, hmaps⟩
  | noThinking containPriceOrRatio =>
      have hname : mapped.originModelName = name := horigin
      refine .inl ⟨last, hmapped.ends, ?_⟩
      unfold NamingMode.handle
      dsimp only
      rw [hname]
      split
      · rfl
      · exact hname

/-- The attempt comes to its end, and leaves the name that the mapping says. -/
theorem attempt_named (mode : NamingMode) (modelName name : String) (mapping : ModelMapping) :
    ∃ result, (named modelName name).attempt mode mapping =
        some ((named modelName name).leave mode (begun name) result) ∧
      Renames mode mapping name
        ((named modelName name).leave mode (begun name) result).1.info.originModelName ∧
      match mapping.modelMap with
      | none => True
      | some modelMap => (begun name).Yields mode.isCompaction modelMap result := by
  cases hmap : mapping.modelMap with
  | none =>
      have hmalformed : mapping = .malformed := by
        cases mapping with
        | malformed => rfl
        | empty => cases hmap
        | table modelMap => cases hmap
      subst hmalformed
      exact ⟨_, attempt_of_result rfl, rfl, trivial⟩
  | some modelMap =>
      obtain ⟨result, hresult, hyields⟩ :=
        MappedInfo.modelMappedHelper_yields mode.isCompaction (fresh_begun name) hmap
      refine ⟨result, attempt_of_result (hresult _ (Nat.lt_succ_self _)), ?_, hyields⟩
      rcases hyields with ⟨mapped, last, rfl, hmapped⟩ | ⟨rfl, hcycle⟩
      · exact renames_of_mappedTo hmap hmapped
      · unfold Renames
        rw [hmap]
        cases mode with
        | normal => rfl
        | compaction => exact .inr ⟨hcycle, rfl⟩
        | noThinking containPriceOrRatio => exact .inr ⟨hcycle, rfl⟩

theorem attempt_spec (mode : NamingMode) (names : RetryNames) (mapping : ModelMapping)
    (hname : names.info.originModelName ≠ "") :
    ∃ names' outcome, names.attempt mode mapping = some (names', outcome) ∧
      names'.modelName = names.modelName ∧
      Renames mode mapping names.info.originModelName names'.info.originModelName := by
  obtain ⟨result, hattempt, hrenames, -⟩ :=
    attempt_named mode names.modelName names.info.originModelName mapping
  refine ⟨_, _, (attempt_eq_named mode mapping hname).trans hattempt, ?_, hrenames⟩
  cases result with
  | error err => rfl
  | ok mapped => rfl

/-- The name after a sequence of attempts. -/
theorem after_spec (mode : NamingMode) (earlier : List ModelMapping) (names : RetryNames)
    (hname : names.info.originModelName ≠ "") :
    ∃ names', names.after mode earlier = some names' ∧ names'.modelName = names.modelName ∧
      names'.info.originModelName ≠ "" ∧
      RenamedTo mode names.info.originModelName earlier names'.info.originModelName := by
  induction earlier generalizing names with
  | nil => exact ⟨names, rfl, rfl, hname, .nil _⟩
  | cons mapping earlier ih =>
      obtain ⟨names', outcome, hattempt, hmodel, hrenames⟩ := attempt_spec mode names mapping hname
      obtain ⟨last, hlast, hmodel', hne, hrest⟩ := ih names' (hrenames.ne_empty hname)
      refine ⟨last, ?_, hmodel'.trans hmodel, hne, .cons hrenames hrest⟩
      unfold after at hlast ⊢
      rw [List.foldlM_cons, hattempt]
      exact hlast

/-- What an attempt does when it begins with this name. -/
def outcome (mode : NamingMode) (modelName name : String) (mapping : ModelMapping) :
    Option (Except String AttemptNames) :=
  ((named modelName name).attempt mode mapping).map Prod.snd

/-- The attempt that follows others depends on the name that they have left. -/
theorem attemptAfter_eq_outcome (mode : NamingMode) (names : RetryNames)
    (hname : names.info.originModelName ≠ "") (earlier : List ModelMapping)
    (hrenamed : RenamedTo mode names.info.originModelName earlier last) (mapping : ModelMapping) :
    names.attemptAfter mode earlier mapping = outcome mode names.modelName last mapping := by
  obtain ⟨names', hafter, hmodel, hne, hlast⟩ := after_spec mode earlier names hname
  obtain rfl := hlast.unique hrenamed
  unfold attemptAfter outcome
  rw [hafter, ← hmodel, ← attempt_eq_named mode mapping hne]
  show (do let (_, result) ← names'.attempt mode mapping; return result) = _
  cases names'.attempt mode mapping with
  | none => rfl
  | some step => rfl

/-- What an attempt goes on with when the chain of its mapping ends. -/
theorem outcome_of_ends {modelMap : List (String × String)} (mode : NamingMode)
    (modelName : String)
    (hends : Chain.Ends (redirect modelMap) ((begun name).mappingModelName mode.isCompaction) last) :
    ∃ mapped, (begun name).MappedTo mode.isCompaction modelMap last mapped ∧
      outcome mode modelName name (.table modelMap) = some (.ok (handled mode modelName mapped)) := by
  obtain ⟨result, hattempt, -, hyields⟩ := attempt_named mode modelName name (.table modelMap)
  rcases hyields with ⟨mapped, last', rfl, hmapped⟩ | ⟨-, hcycle⟩
  · obtain rfl := hmapped.ends.unique hends
    refine ⟨mapped, hmapped, ?_⟩
    unfold outcome
    rw [hattempt]
    rfl
  · exact absurd hcycle hends.not_entersCycle

/-! ## Where two names can be told apart -/

theorem redirect_self {model target : String} (htarget : target ≠ "") :
    redirect [(model, target)] model = some target := by
  rw [redirect_eq_some]
  refine ⟨?_, htarget⟩
  unfold lookupModel
  simp

theorem redirect_other {model other target : String} (hne : model ≠ other) :
    redirect [(model, target)] other = none := by
  rw [redirect_eq_none]
  unfold lookupModel
  simp [hne]

theorem ends_self (model : String) (modelMap : List (String × String))
    (hnone : redirect modelMap model = none) : Chain.Ends (redirect modelMap) model model :=
  ⟨Relation.ReflTransGen.refl, .inl hnone⟩

/-- A compaction is upstream the model without the suffix, where nothing is mapped. -/
theorem trimSuffix_eq_of_outcome {modelName : String}
    (hsame : ∀ mapping, outcome .compaction modelName name mapping =
      outcome .compaction modelName name' mapping) :
    trimSuffix name CompactModelSuffix = trimSuffix name' CompactModelSuffix := by
  have hends : ∀ name : String, Chain.Ends (redirect [])
      ((begun name).mappingModelName NamingMode.compaction.isCompaction)
      (trimSuffix name CompactModelSuffix) := fun name => ends_self _ [] rfl
  obtain ⟨mapped, hmapped, houtcome⟩ := outcome_of_ends .compaction modelName (hends name)
  obtain ⟨mapped', hmapped', houtcome'⟩ := outcome_of_ends .compaction modelName (hends name')
  rw [hsame, houtcome'] at houtcome
  have hnames := Except.ok.inj (Option.some.inj houtcome)
  have hupstream : mapped'.upstreamModelName = mapped.upstreamModelName :=
    congrArg AttemptNames.upstream hnames
  rw [hmapped.upstream, hmapped'.upstream] at hupstream
  exact hupstream.symm

theorem trimSuffix_of_not {s ending : String} (hsuffix : hasSuffix s ending = false) :
    trimSuffix s ending = s := by
  unfold trimSuffix
  rw [hsuffix]
  rfl

theorem trimSuffix_append {s ending : String} (hsuffix : hasSuffix s ending = true) :
    trimSuffix s ending ++ ending = s := by
  obtain ⟨start, hstart⟩ := List.isSuffixOf_iff_suffix.1 hsuffix
  unfold trimSuffix
  rw [if_pos hsuffix]
  apply String.toList_injective
  rw [String.toList_append, String.toList_ofList, ← hstart, List.length_append,
    Nat.add_sub_cancel, List.take_left]

/-- Of the names with one stem, the one with the suffix is renamed where the stem is mapped to
itself, and the other is not. -/
theorem logged_stem (modelName : String) {stem : String} (hstem : stem ≠ "")
    (hsuffix : hasSuffix stem CompactModelSuffix = false)
    (htrim : trimSuffix name CompactModelSuffix = stem) :
    ∃ names, outcome .compaction modelName name (.table [(stem, stem)]) = some (.ok names) ∧
      names.logged = if stem = name then name else stem ++ CompactModelSuffix := by
  have hends : Chain.Ends (redirect [(stem, stem)])
      ((begun name).mappingModelName NamingMode.compaction.isCompaction) stem := by
    show Chain.Ends _ (trimSuffix name CompactModelSuffix) stem
    rw [htrim]
    exact ⟨Relation.ReflTransGen.refl, .inr (redirect_self hstem)⟩
  obtain ⟨mapped, hmapped, houtcome⟩ := outcome_of_ends .compaction modelName hends
  refine ⟨_, houtcome, ?_⟩
  show mapped.originModelName = _
  rw [hmapped.origin]
  by_cases heq : stem = name
  · rw [if_pos heq]
    exact if_neg fun hand => hand.2 ⟨redirect_self hstem, heq⟩
  · rw [if_neg heq, if_pos ⟨rfl, fun hmaps => heq hmaps.2⟩]
    unfold withCompactModelSuffix
    rw [hsuffix]
    rfl

theorem eq_stem_of_outcome {modelName stem : String} (hstem : stem ≠ "")
    (hsuffix : hasSuffix stem CompactModelSuffix = false)
    (htrim : trimSuffix name CompactModelSuffix = stem)
    (hsame : ∀ mapping, outcome .compaction modelName name mapping =
      outcome .compaction modelName stem mapping) : name = stem := by
  obtain ⟨names, hnames, hlogged⟩ := logged_stem modelName hstem hsuffix htrim
  obtain ⟨names', hnames', hlogged'⟩ :=
    logged_stem modelName hstem hsuffix (trimSuffix_of_not hsuffix)
  rw [hsame, hnames'] at hnames
  obtain rfl := Except.ok.inj (Option.some.inj hnames)
  rw [hlogged', if_pos rfl] at hlogged
  by_contra hdiffer
  rw [if_neg (Ne.symm hdiffer)] at hlogged
  exact absurd (String.append_eq_left_iff.1 hlogged.symm) (by decide)

/-- Two names of which every attempt of a compaction makes the same are one. -/
theorem compaction_name_eq {modelName : String} (hne : name ≠ "") (hne' : name' ≠ "")
    (hsame : ∀ mapping, outcome .compaction modelName name mapping =
      outcome .compaction modelName name' mapping) : name = name' := by
  have htrim := trimSuffix_eq_of_outcome hsame
  cases hsuffix : hasSuffix name CompactModelSuffix with
  | true =>
      cases hsuffix' : hasSuffix name' CompactModelSuffix with
      | true => rw [← trimSuffix_append hsuffix, htrim, trimSuffix_append hsuffix']
      | false =>
          rw [trimSuffix_of_not hsuffix'] at htrim
          exact eq_stem_of_outcome hne' hsuffix' htrim hsame
  | false =>
      rw [trimSuffix_of_not hsuffix] at htrim
      exact (eq_stem_of_outcome hne hsuffix htrim.symm fun mapping => (hsame mapping).symm).symm

/-- Without thinking a name is renamed once at most. -/
theorem renamedTo_noThinking {containPriceOrRatio : String → Bool}
    (hrenamed : RenamedTo (.noThinking containPriceOrRatio) name earlier last) :
    last = name ∨ (NamingMode.turnsThinkingOff containPriceOrRatio name = true ∧
      last = NamingMode.noThinkingModelName name) := by
  induction hrenamed with
  | nil name => exact .inl rfl
  | @cons mapping earlier name name' last hrenames _ ih =>
      have hname' : name' = name ∨ (NamingMode.turnsThinkingOff containPriceOrRatio name = true ∧
          name' = NamingMode.noThinkingModelName name) := by
        unfold Renames at hrenames
        split at hrenames
        · exact .inl hrenames
        · rcases hrenames with ⟨_, -, rfl⟩ | ⟨-, rfl⟩
          · split
            case isTrue hoff => exact .inr ⟨hoff, rfl⟩
            case isFalse => exact .inl rfl
          · exact .inl rfl
      rcases hname' with rfl | ⟨hoff, rfl⟩
      · exact ih
      · rcases ih with rfl | ⟨htwice, -⟩
        · exact .inr ⟨hoff, rfl⟩
        · rw [NamingMode.not_turnsThinkingOff] at htwice
          cases htwice

/-- Where the name without thinking is mapped, its chain is followed only by those who begin with
it. -/
theorem noThinking_name_eq {modelName : String} {containPriceOrRatio : String → Bool}
    (hoff : NamingMode.turnsThinkingOff containPriceOrRatio name = true)
    (hsame : ∀ mapping, outcome (.noThinking containPriceOrRatio) modelName
        (NamingMode.noThinkingModelName name) mapping =
      outcome (.noThinking containPriceOrRatio) modelName name mapping) : False := by
  let renamed := NamingMode.noThinkingModelName name
  have hne : renamed ++ "x" ≠ renamed := by
    rw [Ne, String.append_eq_left_iff]
    decide
  have hends : Chain.Ends (redirect [(renamed, renamed ++ "x")]) renamed (renamed ++ "x") :=
    ⟨Relation.ReflTransGen.single
        (redirect_self (by rw [Ne, String.append_eq_empty_iff]; exact fun h => absurd h.2 (by decide))),
      .inl (redirect_other hne.symm)⟩
  have hends' : Chain.Ends (redirect [(renamed, renamed ++ "x")]) name name :=
    ends_self _ _ (redirect_other (noThinkingModelName_ne name))
  obtain ⟨mapped, hmapped, houtcome⟩ : ∃ mapped, (begun renamed).MappedTo _ _ _ mapped ∧ _ :=
    outcome_of_ends (.noThinking containPriceOrRatio) modelName hends
  obtain ⟨mapped', hmapped', houtcome'⟩ : ∃ mapped, (begun name).MappedTo _ _ _ mapped ∧ _ :=
    outcome_of_ends (.noThinking containPriceOrRatio) modelName hends'
  rw [hsame, houtcome'] at houtcome
  have hupstream := congrArg AttemptNames.upstream (Except.ok.inj (Option.some.inj houtcome))
  have horigin : mapped.originModelName = renamed := hmapped.origin
  have horigin' : mapped'.originModelName = name := hmapped'.origin
  unfold handled NamingMode.handle at hupstream
  dsimp only at hupstream
  rw [horigin, horigin', NamingMode.not_turnsThinkingOff, if_pos hoff] at hupstream
  exact hne (hmapped.upstream.symm.trans hupstream.symm)

/-! ## Independence of the earlier attempts -/

/-- What an attempt does is what it would have done as the first one exactly where the attempts
before it have left the name of the client. -/
theorem attempts_independent_iff (mode : NamingMode) (modelName requestModel : String)
    (hname : modelName ≠ "") (earlier : List ModelMapping) :
    (∀ mapping, (start modelName requestModel).attemptAfter mode earlier mapping =
        (start modelName requestModel).attemptAfter mode [] mapping) ↔
      RenamedTo mode modelName earlier modelName := by
  obtain ⟨names', -, -, hlast, hrenamed⟩ :=
    after_spec mode earlier (start modelName requestModel) hname
  have houtcome := attemptAfter_eq_outcome mode (start modelName requestModel) hname earlier hrenamed
  have hfirst := attemptAfter_eq_outcome mode (start modelName requestModel) hname [] (.nil _)
  constructor
  · intro hindependent
    have hsame : ∀ mapping, outcome mode modelName names'.info.originModelName mapping =
        outcome mode modelName modelName mapping := fun mapping =>
      (houtcome mapping).symm.trans ((hindependent mapping).trans (hfirst mapping))
    have heq : names'.info.originModelName = modelName := by
      cases mode with
      | normal => exact renamedTo_normal hrenamed
      | compaction => exact compaction_name_eq hlast hname hsame
      | noThinking containPriceOrRatio =>
          rcases renamedTo_noThinking hrenamed with heq | ⟨hoff, heq⟩
          · exact heq
          · rw [heq] at hsame
            exact (noThinking_name_eq hoff hsame).elim
    rw [heq] at hrenamed
    exact hrenamed
  · intro hback mapping
    rw [← hback.unique hrenamed] at houtcome
    exact (houtcome mapping).trans (hfirst mapping).symm

/-- A compaction that has failed on a channel without a map. -/
theorem attempts_independent_iff_compact :
    "gpt-5-openai-compact" ≠ "" ∧
      ∀ mapping, (start "gpt-5-openai-compact" "gpt-5").attemptAfter .compaction [.empty] mapping =
        (start "gpt-5-openai-compact" "gpt-5").attemptAfter .compaction [] mapping := by
  refine ⟨by decide, ?_⟩
  rw [attempts_independent_iff .compaction "gpt-5-openai-compact" "gpt-5" (by decide) [.empty]]
  exact .cons (.inl ⟨"gpt-5", ends_self _ _ rfl, by decide⟩) (.nil _)

/-- A compaction goes to a channel without a map under the model of the channel before. -/
theorem attempts_independent_renamed :
    (start "gpt-5-openai-compact" "gpt-5").attemptAfter .compaction [.table [("gpt-5", "o3")]]
        .empty =
      some (.ok
        { selected := "gpt-5-openai-compact"
          upstream := "o3"
          request := "o3"
          priced := "o3-openai-compact"
          logged := "o3-openai-compact" }) ∧
    (start "gpt-5-openai-compact" "gpt-5").attemptAfter .compaction [] .empty =
      some (.ok
        { selected := "gpt-5-openai-compact"
          upstream := "gpt-5"
          request := "gpt-5"
          priced := "gpt-5-openai-compact"
          logged := "gpt-5-openai-compact" }) := by
  decide

end RetryNames

end

end NewApi.Model
