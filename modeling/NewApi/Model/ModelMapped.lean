import Mathlib.Data.List.Infix
import NewApi.Lib.Chain
import NewApi.Lib.Loop
import NewApi.Model.ModelNames

/-!
# Following the model mapping of a channel

`ModelMappedHelper` follows the `model_mapping` of the channel from the model of the request to the
end of the chain, with the models it has visited.  What it finds stands in the channel meta, which
`InitChannelMeta` makes anew for every attempt; a compaction also renames the model of the request.
-/

namespace NewApi.Model

open NewApi.Lib NewApi.Lib.Strings

/-- The decoded `model_mapping` of a channel. -/
inductive ModelMapping
  | empty
  | malformed
  | table (modelMap : List (String × String))

namespace ModelMapping

/-- The decoded map; the empty texts stand for the empty one. -/
def modelMap : ModelMapping → Option (List (String × String))
  | .empty => some []
  | .malformed => none
  | .table modelMap => some modelMap

/-- How many turns the loop may take. -/
def size (mapping : ModelMapping) : ℕ :=
  (mapping.modelMap.getD []).length

end ModelMapping

/-- `modelMap[model]`. -/
def lookupModel (modelMap : List (String × String)) (model : String) : Option String :=
  (modelMap.find? fun entry => entry.1 = model).map Prod.snd

/-- The model that a model is redirected to; an empty entry is none. -/
def redirect (modelMap : List (String × String)) (model : String) : Option String :=
  (lookupModel modelMap model).filter fun mappedModel => mappedModel ≠ ""

/-! ## The loop -/

/-- How the loop is left: by `return nil`, with the cycle error, or by `break`. -/
inductive MappingExit
  | unmapped
  | cycle
  | broken
deriving DecidableEq

/-- The variables of the loop. -/
structure MappingState where
  currentModel : String
  visitedModels : List String
  isModelMapped : Bool
  exit : MappingExit

/-- The loop of `ModelMappedHelper`. -/
def mappingLoop (modelMap : List (String × String)) (originModelName : String) :
    Loop MappingState Unit String where
  guard _ := true
  turn s _ :=
    match lookupModel modelMap s.currentModel with
    | none => .leave { s with exit := .broken } none
    | some mappedModel =>
        if mappedModel = "" then .leave { s with exit := .broken } none
        else if mappedModel ∈ s.visitedModels then
          if mappedModel = s.currentModel then
            if s.currentModel = originModelName then
              .leave { s with isModelMapped := false, exit := .unmapped } none
            else .leave { s with isModelMapped := true, exit := .broken } none
          else .leave { s with exit := .cycle } none
        else
          .again
            { s with
              currentModel := mappedModel
              visitedModels := mappedModel :: s.visitedModels
              isModelMapped := true } mappedModel

/-- What `ModelMappedHelper` reads and writes: names in the relay info and its channel meta, and the
model of the request that is sent. -/
structure MappedInfo where
  originModelName : String
  upstreamModelName : String
  isModelMapped : Bool
  requestModel : String
deriving DecidableEq

namespace MappedInfo

/-- `SetModelName` of a request. -/
def setModelName (model modelName : String) : String :=
  if modelName ≠ "" then modelName else model

/-- `GenRelayInfo` of a request, with the `original_model` of the context. -/
def genRelayInfo (originalModel requestModel : String) : MappedInfo where
  originModelName := originalModel
  upstreamModelName := ""
  isModelMapped := false
  requestModel := requestModel

/-- `InitChannelMeta`, with the `original_model` of the context. -/
def initChannelMeta (info : MappedInfo) (originalModel : String) : MappedInfo :=
  { info with
    upstreamModelName := originalModel
    isModelMapped := false
    requestModel := setModelName info.requestModel info.originModelName }

/-- The end of `ModelMappedHelper`: a compaction is named after its upstream model, and the request
gets that model. -/
def finish (info : MappedInfo) (compaction : Bool) (mappingModelName : String) : MappedInfo :=
  let info :=
    if compaction then
      let finalUpstreamModelName :=
        if info.isModelMapped ∧ info.upstreamModelName ≠ "" then info.upstreamModelName
        else mappingModelName
      { info with
        upstreamModelName := finalUpstreamModelName
        originModelName := withCompactModelSuffix finalUpstreamModelName }
    else info
  { info with requestModel := setModelName info.requestModel info.upstreamModelName }

/-- The model that the map is followed from. -/
def mappingModelName (info : MappedInfo) (compaction : Bool) : String :=
  if compaction then trimSuffix info.originModelName CompactModelSuffix else info.originModelName

/-- The upstream model is the one that the loop has come to, if it has mapped the model. -/
def redirected (info : MappedInfo) (s : MappingState) : MappedInfo :=
  { info with
    isModelMapped := s.isModelMapped
    upstreamModelName := if s.isModelMapped then s.currentModel else info.upstreamModelName }

/-- What follows the loop. -/
def leaveLoop (info : MappedInfo) (compaction : Bool) (s : MappingState) :
    Except String MappedInfo :=
  match s.exit with
  | .unmapped => .ok { info with isModelMapped := false }
  | .cycle => .error "model_mapping_contains_cycle"
  | .broken => .ok ((info.redirected s).finish compaction (info.mappingModelName compaction))

/-- The state before the first turn. -/
def enterLoop (info : MappedInfo) (compaction : Bool) : MappingState where
  currentModel := info.mappingModelName compaction
  visitedModels := [info.mappingModelName compaction]
  isModelMapped := info.isModelMapped
  exit := .broken

/-- `ModelMappedHelper`, if the fuel is enough for its loop. -/
def modelMappedHelper (info : MappedInfo) (compaction : Bool) (mapping : ModelMapping)
    (fuel : ℕ) : Option (Except String MappedInfo) :=
  match mapping with
  | .empty => some (.ok (info.finish compaction (info.mappingModelName compaction)))
  | .malformed => some (.error "unmarshal_model_mapping_failed")
  | .table modelMap =>
      ((mappingLoop modelMap info.originModelName).exec (fun _ => ()) fuel 0
        (info.enterLoop compaction)).map fun (_, s) => info.leaveLoop compaction s

end MappedInfo

/-! ## Where the loop ends -/

section

variable {modelMap : List (String × String)} {model target originModelName start : String}

theorem redirect_eq_some :
    redirect modelMap model = some target ↔ lookupModel modelMap model = some target ∧ target ≠ "" := by
  unfold redirect
  rw [Option.filter_eq_some_iff, decide_eq_true_iff]

theorem redirect_eq_none :
    redirect modelMap model = none ↔
      ∀ mappedModel, lookupModel modelMap model = some mappedModel → mappedModel = "" := by
  unfold redirect
  cases lookupModel modelMap model <;> simp

/-- The models that something is redirected to. -/
def targets (modelMap : List (String × String)) : Finset String :=
  (modelMap.map Prod.snd).toFinset

theorem card_targets_le (modelMap : List (String × String)) :
    (targets modelMap).card ≤ modelMap.length := by
  have hcard := List.toFinset_card_le (modelMap.map Prod.snd)
  rw [List.length_map] at hcard
  exact hcard

theorem mem_targets (hlookup : lookupModel modelMap model = some target) :
    target ∈ targets modelMap := by
  obtain ⟨entry, hentry, rfl⟩ := Option.map_eq_some_iff.1 hlookup
  rw [targets, List.mem_toFinset]
  exact List.mem_map_of_mem (List.mem_of_find?_eq_some hentry)

/-- What is known of the loop between two turns: the visited models make up the chain from the start
to the current model. -/
structure OnChain (modelMap : List (String × String)) (start : String) (s : MappingState) : Prop where
  reached : Chain.Leads (redirect modelMap) start s.currentModel
  visited : ∀ model ∈ s.visitedModels, Chain.Leads (redirect modelMap) model s.currentModel
  unmapped : s.isModelMapped = false → s.currentModel = start
  mapped : s.isModelMapped = true → s.currentModel ≠ ""

/-- The chain has come back to the model of the request at once. -/
def MapsOrigin (modelMap : List (String × String)) (originModelName model : String) : Prop :=
  redirect modelMap model = some model ∧ model = originModelName

instance : Decidable (MapsOrigin modelMap originModelName model) :=
  inferInstanceAs (Decidable (_ ∧ _))

/-- What is known once the loop has been left. -/
def LeftLoop (modelMap : List (String × String)) (originModelName start : String)
    (s : MappingState) : Prop :=
  match s.exit with
  | .unmapped =>
      Chain.Ends (redirect modelMap) start s.currentModel ∧
        MapsOrigin modelMap originModelName s.currentModel
  | .cycle => Chain.EntersCycle (redirect modelMap) start
  | .broken =>
      Chain.Ends (redirect modelMap) start s.currentModel ∧
        ¬ MapsOrigin modelMap originModelName s.currentModel ∧
        (s.isModelMapped = false → s.currentModel = start) ∧
        (s.isModelMapped = true → s.currentModel ≠ "")

theorem onChain_again {s s' : MappingState} {event : String} (hchain : OnChain modelMap start s)
    (hturn : (mappingLoop modelMap originModelName).turn s () = .again s' event) :
    OnChain modelMap start s' ∧
      Chain.unseen (targets modelMap) s'.visitedModels + 1 ≤
        Chain.unseen (targets modelMap) s.visitedModels := by
  unfold mappingLoop at hturn
  dsimp only at hturn
  split at hturn
  case h_1 => cases hturn
  case h_2 mappedModel hlookup =>
    by_cases hempty : mappedModel = ""
    · rw [if_pos hempty] at hturn
      cases hturn
    · rw [if_neg hempty] at hturn
      by_cases hvisited : mappedModel ∈ s.visitedModels
      · rw [if_pos hvisited] at hturn
        split at hturn
        · split at hturn <;> cases hturn
        · cases hturn
      · rw [if_neg hvisited] at hturn
        cases hturn
        have hlink := redirect_eq_some.2 ⟨hlookup, hempty⟩
        refine ⟨⟨hchain.reached.step hlink, ?_, (fun hmapped => nomatch hmapped), fun _ => hempty⟩,
          Chain.unseen_cons_lt (mem_targets hlookup) hvisited⟩
        intro model hmodel
        rcases List.mem_cons.1 hmodel with rfl | hmodel
        · exact Relation.ReflTransGen.refl
        · exact (hchain.visited model hmodel).step hlink

theorem leftLoop_leave {s s' : MappingState} {event : Option String}
    (hchain : OnChain modelMap start s)
    (hturn : (mappingLoop modelMap originModelName).turn s () = .leave s' event) :
    LeftLoop modelMap originModelName start s' ∧ event = none := by
  unfold mappingLoop at hturn
  dsimp only at hturn
  have hstops : redirect modelMap s.currentModel = none →
      LeftLoop modelMap originModelName start { s with exit := .broken } := fun hnone =>
    ⟨⟨hchain.reached, .inl hnone⟩, (fun horigin => nomatch hnone.symm.trans horigin.1),
      hchain.unmapped, hchain.mapped⟩
  split at hturn
  case h_1 hlookup =>
    cases hturn
    refine ⟨hstops ?_, rfl⟩
    rw [redirect_eq_none, hlookup]
    exact fun _ hsome => nomatch hsome
  case h_2 mappedModel hlookup =>
    by_cases hempty : mappedModel = ""
    · rw [if_pos hempty] at hturn
      cases hturn
      refine ⟨hstops ?_, rfl⟩
      rw [redirect_eq_none, hlookup]
      exact fun _ hsome => (Option.some.inj hsome).symm.trans hempty
    · have hlink := redirect_eq_some.2 ⟨hlookup, hempty⟩
      rw [if_neg hempty] at hturn
      by_cases hvisited : mappedModel ∈ s.visitedModels
      · rw [if_pos hvisited] at hturn
        by_cases hself : mappedModel = s.currentModel
        · subst hself
          have hends : Chain.Ends (redirect modelMap) start s.currentModel :=
            ⟨hchain.reached, .inr hlink⟩
          rw [if_pos rfl] at hturn
          by_cases horigin : s.currentModel = originModelName
          · rw [if_pos horigin] at hturn
            cases hturn
            exact ⟨⟨hends, hlink, horigin⟩, rfl⟩
          · rw [if_neg horigin] at hturn
            cases hturn
            exact ⟨⟨hends, fun hmaps => horigin hmaps.2, (fun hmapped => nomatch hmapped),
              fun _ => hempty⟩, rfl⟩
        · rw [if_neg hself] at hturn
          cases hturn
          exact ⟨⟨s.currentModel, mappedModel, hchain.reached, hlink, hself,
            hchain.visited mappedModel hvisited⟩, rfl⟩
      · rw [if_neg hvisited] at hturn
        cases hturn

namespace MappedInfo

variable {info : MappedInfo} {compaction : Bool}

theorem onChain_enterLoop (hunmapped : info.isModelMapped = false) :
    OnChain modelMap (info.mappingModelName compaction) (info.enterLoop compaction) := by
  refine ⟨Relation.ReflTransGen.refl, fun model hmodel => ?_, fun _ => rfl, fun hmapped => ?_⟩
  · obtain rfl := List.mem_singleton.1 hmodel
    exact Relation.ReflTransGen.refl
  · rw [enterLoop, hunmapped] at hmapped
    cases hmapped

theorem leftLoop_of_exec (hunmapped : info.isModelMapped = false) {fuel : ℕ} {events : List String}
    {s : MappingState}
    (hexec : (mappingLoop modelMap info.originModelName).exec (fun _ => ()) fuel 0
      (info.enterLoop compaction) = some (events, s)) :
    LeftLoop modelMap info.originModelName (info.mappingModelName compaction) s :=
  Loop.exec_last (I := OnChain modelMap (info.mappingModelName compaction))
    (fun hchain _ hturn => (onChain_again hchain hturn).1)
    (fun hchain _ hturn => (leftLoop_leave hchain hturn).1)
    (fun _ (hguard : true = false) => nomatch hguard) (onChain_enterLoop hunmapped) hexec

/-- The loop comes to its end, with a turn for every entry of the map and one more. -/
theorem exec_mappingLoop (compaction : Bool) (hunmapped : info.isModelMapped = false) {fuel : ℕ}
    (hfuel : modelMap.length < fuel) :
    ∃ s, info.modelMappedHelper compaction (.table modelMap) fuel =
        some (info.leaveLoop compaction s) ∧
      LeftLoop modelMap info.originModelName (info.mappingModelName compaction) s := by
  have hstart : OnChain modelMap (info.mappingModelName compaction) (info.enterLoop compaction) :=
    onChain_enterLoop hunmapped
  obtain ⟨events, s, hexec, -⟩ :=
    (mappingLoop modelMap info.originModelName).exec_of_variant
      (I := OnChain modelMap (info.mappingModelName compaction))
      (V := fun s => Chain.unseen (targets modelMap) s.visitedModels)
      (fun hchain _ hturn => onChain_again hchain hturn)
      (fun hchain _ hturn => by cases (leftLoop_leave hchain hturn).2) hstart
      (lt_of_le_of_lt ((Chain.unseen_le _ _).trans (card_targets_le modelMap)) hfuel)
  refine ⟨s, ?_, leftLoop_of_exec hunmapped hexec⟩
  unfold modelMappedHelper
  dsimp only
  rw [hexec]
  rfl

/-- The info as `InitChannelMeta` leaves it for the model of the request. -/
structure Fresh (info : MappedInfo) : Prop where
  upstream : info.upstreamModelName = info.originModelName
  unmapped : info.isModelMapped = false
  request : info.originModelName ≠ "" → info.requestModel = info.originModelName

theorem fresh_initChannelMeta (info : MappedInfo) :
    Fresh (info.initChannelMeta info.originModelName) :=
  ⟨rfl, rfl, fun hne => if_pos hne⟩

/-- The model has been mapped to the end of its chain. -/
structure MappedTo (info : MappedInfo) (compaction : Bool) (modelMap : List (String × String))
    (last : String) (info' : MappedInfo) : Prop where
  ends : Chain.Ends (redirect modelMap) (info.mappingModelName compaction) last
  upstream : info'.upstreamModelName = last
  request : info'.requestModel = setModelName info.requestModel last
  origin : info'.originModelName =
    if compaction = true ∧ ¬ MapsOrigin modelMap info.originModelName last then
      withCompactModelSuffix last
    else info.originModelName

/-- A loop that was left by `break` has found the end of the chain. -/
theorem mappedTo_broken (hfresh : Fresh info) {s : MappingState}
    (hends : Chain.Ends (redirect modelMap) (info.mappingModelName compaction) s.currentModel)
    (horigin : ¬ MapsOrigin modelMap info.originModelName s.currentModel)
    (hunmapped : s.isModelMapped = false → s.currentModel = info.mappingModelName compaction)
    (hmapped : s.isModelMapped = true → s.currentModel ≠ "") :
    MappedTo info compaction modelMap s.currentModel
      ((info.redirected s).finish compaction (info.mappingModelName compaction)) := by
  cases compaction with
  | false =>
      have hupstream : (info.redirected s).upstreamModelName = s.currentModel := by
        unfold redirected
        cases hs : s.isModelMapped with
        | true => rfl
        | false =>
            rw [hunmapped hs]
            exact hfresh.upstream
      refine ⟨hends, hupstream, ?_, (if_neg fun hand => Bool.noConfusion hand.1).symm⟩
      show setModelName info.requestModel (info.redirected s).upstreamModelName = _
      rw [hupstream]
  | true =>
      have hlast : (if (info.redirected s).isModelMapped ∧
          (info.redirected s).upstreamModelName ≠ "" then (info.redirected s).upstreamModelName
          else info.mappingModelName true) = s.currentModel := by
        unfold redirected
        cases hs : s.isModelMapped with
        | true => exact if_pos ⟨rfl, hmapped hs⟩
        | false => exact (hunmapped hs).symm
      have hfinish : (info.redirected s).finish true (info.mappingModelName true) =
          { info.redirected s with
            upstreamModelName := s.currentModel
            originModelName := withCompactModelSuffix s.currentModel
            requestModel := setModelName info.requestModel s.currentModel } := by
        rw [← hlast]
        rfl
      rw [hfinish]
      exact ⟨hends, rfl, rfl, (if_pos ⟨rfl, horigin⟩).symm⟩

/-- What the helper returns: the model at the end of the chain, or the error for a cycle. -/
def Yields (info : MappedInfo) (compaction : Bool) (modelMap : List (String × String))
    (result : Except String MappedInfo) : Prop :=
  (∃ info' last, result = .ok info' ∧ MappedTo info compaction modelMap last info') ∨
    (result = .error "model_mapping_contains_cycle" ∧
      Chain.EntersCycle (redirect modelMap) (info.mappingModelName compaction))

theorem leaveLoop_yields (hfresh : Fresh info) {s : MappingState}
    (hleft : LeftLoop modelMap info.originModelName (info.mappingModelName compaction) s) :
    Yields info compaction modelMap (info.leaveLoop compaction s) := by
  unfold LeftLoop at hleft
  unfold leaveLoop
  cases hexit : s.exit with
  | unmapped =>
      rw [hexit] at hleft
      obtain ⟨hends, hmaps⟩ := hleft
      have hne : info.originModelName ≠ "" := by
        rw [← hmaps.2]
        exact (redirect_eq_some.1 hmaps.1).2
      refine .inl ⟨_, s.currentModel, rfl, hends, ?_, ?_, ?_⟩
      · rw [hmaps.2]
        exact hfresh.upstream
      · rw [hmaps.2]
        exact (hfresh.request hne).trans (if_pos hne).symm
      · exact (if_neg fun hand => absurd hmaps hand.2).symm
  | cycle =>
      rw [hexit] at hleft
      exact .inr ⟨rfl, hleft⟩
  | broken =>
      rw [hexit] at hleft
      obtain ⟨hends, horigin, hunmapped, hmapped⟩ := hleft
      exact .inl ⟨_, s.currentModel, rfl, mappedTo_broken hfresh hends horigin hunmapped hmapped⟩

theorem finish_yields (hfresh : Fresh info) :
    Yields info compaction [] (.ok (info.finish compaction (info.mappingModelName compaction))) := by
  have hends : Chain.Ends (redirect []) (info.mappingModelName compaction)
      (info.mappingModelName compaction) := ⟨Relation.ReflTransGen.refl, .inl rfl⟩
  refine .inl ⟨_, info.mappingModelName compaction, rfl, ?_⟩
  have hmapped : (info.enterLoop compaction).isModelMapped = true →
      (info.enterLoop compaction).currentModel ≠ "" := by
    intro hmapped
    rw [enterLoop, hfresh.unmapped] at hmapped
    cases hmapped
  have hunmapped : ¬MapsOrigin [] info.originModelName (info.enterLoop compaction).currentModel :=
    fun hmaps => nomatch hmaps.1
  have hbroken := mappedTo_broken hfresh hends hunmapped (fun _ => rfl) hmapped
  have hself : info.redirected (info.enterLoop compaction) = info := by
    unfold redirected
    rw [enterLoop, hfresh.unmapped]
    cases info
    cases hfresh.unmapped
    rfl
  rw [hself] at hbroken
  exact hbroken

/-- The helper comes to its end, and yields what the chain says. -/
theorem modelMappedHelper_yields (compaction : Bool) (hfresh : Fresh info)
    {mapping : ModelMapping} (hmap : mapping.modelMap = some modelMap) :
    ∃ result, (∀ fuel > mapping.size, info.modelMappedHelper compaction mapping fuel =
        some result) ∧ Yields info compaction modelMap result := by
  cases mapping with
  | empty =>
      cases hmap
      exact ⟨_, fun _ _ => rfl, finish_yields hfresh⟩
  | malformed => cases hmap
  | table modelMap =>
      cases hmap
      obtain ⟨s, hs, hleft⟩ := exec_mappingLoop compaction hfresh.unmapped
        (Nat.lt_succ_self modelMap.length)
      refine ⟨info.leaveLoop compaction s, fun fuel hfuel => ?_, leaveLoop_yields hfresh hleft⟩
      obtain ⟨⟨events, s₀⟩, hexec, heq⟩ := Option.map_eq_some_iff.1 hs
      unfold modelMappedHelper
      dsimp only at heq ⊢
      rw [Loop.exec_le (Nat.succ_le_of_lt hfuel) hexec, Option.map_some]
      exact congrArg some heq

/-- The relay info when the helper begins, for an attempt on a model. -/
def begun (name : String) : MappedInfo :=
  (genRelayInfo name name).initChannelMeta name

theorem fresh_begun (name : String) : Fresh (begun name) :=
  fresh_initChannelMeta (genRelayInfo name name)

/-- With a turn for every entry of the map and one more the helper comes to its end. -/
theorem modelMappedHelper_isSome (name : String) (compaction : Bool) (mapping : ModelMapping) :
    ((begun name).modelMappedHelper compaction mapping (mapping.size + 1)).isSome = true := by
  cases hmap : mapping.modelMap with
  | none =>
      cases mapping with
      | malformed => rfl
      | empty => cases hmap
      | table modelMap => cases hmap
  | some modelMap =>
      obtain ⟨result, hresult, -⟩ := modelMappedHelper_yields compaction (fresh_begun name) hmap
      rw [hresult _ (Nat.lt_succ_self _)]
      rfl

/-- What `ModelMappedHelper` makes of the names of an attempt on a model. -/
def mapped (name : String) (compaction : Bool) (mapping : ModelMapping) :
    Except String MappedInfo :=
  ((begun name).modelMappedHelper compaction mapping (mapping.size + 1)).get
    (modelMappedHelper_isSome name compaction mapping)

/-- A helper that is not for a compaction keeps the name. -/
theorem mapped_origin {name : String} {mapping : ModelMapping} {info : MappedInfo}
    (hinfo : mapped name false mapping = .ok info) : info.originModelName = name := by
  unfold mapped at hinfo
  cases hmap : mapping.modelMap with
  | none =>
      cases mapping with
      | malformed => cases hinfo
      | empty => cases hmap
      | table modelMap => cases hmap
  | some modelMap =>
      obtain ⟨result, hresult, hyields⟩ :=
        modelMappedHelper_yields false (fresh_begun name) hmap
      rw [Option.get_of_eq_some _ (hresult _ (Nat.lt_succ_self _))] at hinfo
      rcases hyields with ⟨info', last, rfl, hmapped⟩ | ⟨rfl, -⟩
      · obtain rfl := Except.ok.inj hinfo
        exact hmapped.origin.trans (if_neg fun hcompaction => Bool.noConfusion hcompaction.1)
      · cases hinfo

/-! ### The names alone -/

/-- In the modes that are no compaction the model is mapped to the end of its chain, and the error
is returned exactly where the chain enters a cycle. -/
theorem model_mapping_resolves (mapping : ModelMapping) (modelMap : List (String × String))
    (hmap : mapping.modelMap = some modelMap) (originModelName requestModel : String) :
    ∃ result,
      (∀ fuel > mapping.size,
        ((genRelayInfo originModelName requestModel).initChannelMeta
          originModelName).modelMappedHelper false mapping fuel = some result) ∧
      (∀ last, Chain.Ends (redirect modelMap) originModelName last →
        ∃ info, result = .ok info ∧ info.upstreamModelName = last ∧
          (last ≠ "" → info.requestModel = last)) ∧
      (result = .error "model_mapping_contains_cycle" ↔
        Chain.EntersCycle (redirect modelMap) originModelName) := by
  have hfresh := fresh_initChannelMeta (genRelayInfo originModelName requestModel)
  obtain ⟨result, hresult, hyields⟩ := modelMappedHelper_yields false hfresh hmap
  refine ⟨result, hresult, ?_, ?_⟩
  · intro last hends
    rcases hyields with ⟨info, last', rfl, hmapped⟩ | ⟨-, hcycle⟩
    · obtain rfl := hends.unique hmapped.ends
      exact ⟨info, rfl, hmapped.upstream, fun hne => hmapped.request.trans (if_pos hne)⟩
    · exact absurd hcycle hends.not_entersCycle
  · rcases hyields with ⟨info, last, rfl, hmapped⟩ | ⟨herror, hcycle⟩
    · exact iff_of_false (fun herror => nomatch herror) hmapped.ends.not_entersCycle
    · exact ⟨fun _ => hcycle, fun _ => herror⟩

theorem model_mapping_resolves_chain :
    ∃ result,
      (∀ fuel > 3,
        ((genRelayInfo "gpt-4" "gpt-4").initChannelMeta "gpt-4").modelMappedHelper false
          (.table [("gpt-4", "gpt-4o"), ("gpt-4o", "o3"), ("o3", "o3")]) fuel = some result) ∧
      ∃ info, result = .ok info ∧ info.upstreamModelName = "o3" := by
  obtain ⟨result, hresult, hends, -⟩ := model_mapping_resolves
    (.table [("gpt-4", "gpt-4o"), ("gpt-4o", "o3"), ("o3", "o3")]) _ rfl "gpt-4" "gpt-4"
  have hfirst := (Relation.ReflTransGen.refl : Chain.Leads
    (redirect [("gpt-4", "gpt-4o"), ("gpt-4o", "o3"), ("o3", "o3")]) "gpt-4" "gpt-4")
  have hchain := (Chain.Leads.step hfirst (c := "gpt-4o") (by decide)).step (c := "o3") (by decide)
  obtain ⟨info, hok, hupstream, -⟩ := hends "o3" ⟨hchain, .inr (by decide)⟩
  exact ⟨result, hresult, info, hok, hupstream⟩

end MappedInfo

end

/-! ## The names of the handlers -/

theorem contains_append (s part : String) : contains (s ++ part) part = true := by
  unfold contains
  rw [String.toList_append, List.any_eq_true]
  exact ⟨part.toList, (List.mem_tails _ _).2 (List.suffix_append _ _), List.isPrefixOf_iff_prefix.2
    (List.prefix_refl _)⟩

/-- What the handler of the request does to the names besides mapping the model.  For a Gemini
request without thinking `GeminiHelper` asks `ContainPriceOrRatio`. -/
inductive NamingMode
  | normal
  | compaction
  | noThinking (containPriceOrRatio : String → Bool)

namespace NamingMode

def isCompaction : NamingMode → Bool
  | .compaction => true
  | _ => false

/-- The name of a model without thinking. -/
def noThinkingModelName (modelName : String) : String :=
  modelName ++ "-nothinking"

/-- `GeminiHelper` goes on under the name of the model without thinking. -/
def turnsThinkingOff (containPriceOrRatio : String → Bool) (modelName : String) : Bool :=
  !contains modelName "-nothinking" && containPriceOrRatio (noThinkingModelName modelName)

/-- The names once the handler has mapped the model. -/
def handle (mode : NamingMode) (info : MappedInfo) : MappedInfo :=
  match mode with
  | .noThinking containPriceOrRatio =>
      if turnsThinkingOff containPriceOrRatio info.originModelName then
        { info with
          originModelName := noThinkingModelName info.originModelName
          upstreamModelName := noThinkingModelName info.originModelName }
      else info
  | _ => info

/-- A name that says that thinking is off is kept. -/
theorem not_turnsThinkingOff (containPriceOrRatio : String → Bool) (modelName : String) :
    turnsThinkingOff containPriceOrRatio (noThinkingModelName modelName) =
      false := by
  unfold turnsThinkingOff noThinkingModelName
  rw [contains_append]
  rfl

/-- Names that begin alike are handled alike. -/
theorem handle_origin (mode : NamingMode) {info other : MappedInfo}
    (horigin : info.originModelName = other.originModelName) :
    (mode.handle info).originModelName = (mode.handle other).originModelName := by
  cases mode with
  | noThinking containPriceOrRatio =>
      unfold handle
      dsimp only
      rw [horigin]
      split
      case isTrue => rfl
      case isFalse => exact horigin
  | normal => exact horigin
  | compaction => exact horigin

/-- Handling names once more keeps them. -/
theorem handle_handle_origin (mode : NamingMode) (info : MappedInfo) :
    (mode.handle (mode.handle info)).originModelName = (mode.handle info).originModelName := by
  cases mode with
  | noThinking containPriceOrRatio =>
      unfold handle
      dsimp only
      split
      case isTrue =>
        dsimp only
        rw [not_turnsThinkingOff]
        rfl
      case isFalse => rfl
  | normal => rfl
  | compaction => rfl

end NamingMode

end NewApi.Model
