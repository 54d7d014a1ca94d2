import NewApi.Model.ExactQuota
import NewApi.Model.FailedAttempts

/-!
# What a free request is charged

A request is free when its model has no price or ratio, or its group has the ratio zero.  Nothing is
pre-consumed for it and no balance is checked.  Its settlement is that of any other request: a tool
is charged for, a Claude settlement has its minimum, and a retry may have moved to another group.
-/

namespace NewApi.Model

open NewApi.Lib
open FiniteFloat (val)

section

variable {F : Type} [Float64 F]

/-- The model itself costs nothing. -/
def ModelFree (price : PriceData F) : Prop :=
  if price.usePrice then value price.modelPrice = 0 else value price.modelRatio = 0

/-- A model with a price has no ratio. -/
def OnePrice (price : PriceData F) : Prop :=
  price.usePrice = true → value price.modelRatio = 0

theorem OnePrice.modelRatio {price : PriceData F} (hprice : OnePrice price) (hfree : ModelFree price) :
    value price.modelRatio = 0 := by
  unfold ModelFree at hfree
  split at hfree
  case isTrue huse => exact hprice huse
  case isFalse => exact hfree

/-- `ModelPriceHelper` finds a price or a ratio, and for a free model nothing to pre-consume. -/
theorem modelPriceHelper_onePrice [ExactZero F] {cfg : RealtimeSettings F} {req : RealtimeRequest}
    {promptTokens : ℤ} {tokenMeta : TokenCountMeta F} {price : PriceData F}
    (h : modelPriceHelper cfg req promptTokens tokenMeta = .ok price) :
    OnePrice price ∧ (price.freeModel = true → price.quotaToPreConsume = 0) := by
  unfold modelPriceHelper at h
  dsimp only at h
  split at h
  case h_1 hnone =>
    split at h
    case isTrue hunset => cases h
    case isFalse hset =>
      cases h
      refine ⟨fun huse => absurd huse Bool.false_ne_true, ?_⟩
      intro hfree
      exact if_pos hfree
  case h_2 modelPrice hsome =>
    cases h
    refine ⟨fun _ => ExactZero.toDecimal_zero, ?_⟩
    intro hfree
    exact if_pos hfree

variable {cfg : PriceSettings F} {price : PriceData F}

/-- The tokens cost nothing where the ratio is zero, and the call where its price is. -/
theorem toRat_tokenQuota_free (channelType : ℤ) (modelName : String) (usage : Usage F)
    (hfree : ModelFree price ∨ value price.groupRatio = 0) :
    (tokenQuota cfg price channelType modelName usage).toRat = 0 := by
  unfold tokenQuota
  unfold ModelFree at hfree
  split
  case isTrue huse =>
    rw [huse, if_pos rfl] at hfree
    rw [Decimal.toRat_mul, Decimal.toRat_mul]
    show value price.modelPrice * value cfg.quotaPerUnit * value price.groupRatio = 0
    rcases hfree with h | h
    · rw [h, zero_mul, zero_mul]
    · rw [h, mul_zero]
  case isFalse huse =>
    rw [if_neg huse] at hfree
    have hratio : (textRatio price).toRat = 0 := by
      rw [toRat_textRatio]
      rcases hfree with h | h
      · rw [h, zero_mul]
      · rw [h, mul_zero]
    dsimp only
    rw [(Decimal.isZero_iff _).2 hratio, Bool.not_true, Bool.false_and, if_neg Bool.false_ne_true,
      Decimal.toRat_mul, hratio, mul_zero]

/-- The tools cost nothing in a group of ratio zero. -/
theorem toolFees_free (modelName : String) (ctx : ToolContext) (usage : Usage F)
    (hfree : value price.groupRatio = 0) : toolFees cfg price modelName ctx usage = 0 := by
  have hgroup : (Float64.toDecimal price.groupRatio).toRat = 0 := hfree
  have hzero : Decimal.zero.toRat = 0 := (Decimal.isZero_iff _).1 rfl
  -- every fee has the group ratio as its last factor but one
  have hfee (fee : Decimal) : (fee * Float64.toDecimal price.groupRatio *
      Float64.toDecimal cfg.quotaPerUnit).toRat = 0 := by
    rw [Decimal.toRat_mul, Decimal.toRat_mul, hgroup, mul_zero, zero_mul]
  have hweb : (webSearchQuota cfg price modelName ctx).toRat = 0 := by
    unfold webSearchQuota
    dsimp only
    split
    · split
      · split
        · exact hfee _
        · exact hzero
      · exact hzero
    · split
      · exact hfee _
      · exact hzero
  have hfile : (fileSearchQuota cfg price ctx).toRat = 0 := by
    unfold fileSearchQuota
    split
    · split
      · exact hfee _
      · exact hzero
    · exact hzero
  have haudio : (audioInputQuota cfg price modelName usage).toRat = 0 := by
    unfold audioInputQuota
    split
    · exact hfee _
    · exact hzero
  have himage : (imageGenerationCallQuota cfg price ctx).toRat = 0 := by
    unfold imageGenerationCallQuota
    split
    · exact hfee _
    · exact hzero
  unfold toolFees
  rw [hweb, hfile, haudio, himage, add_zero, add_zero, add_zero]

/-- A text quota is zero when it counts no tokens, or when the ratio is zero and nothing is left of
the amount. -/
theorem roundQuota_eq_zero_iff (price : PriceData F) (usage : Usage F) (amount : ℚ) :
    roundQuota price usage amount = 0 ↔ usage.promptTokens + usage.completionTokens = 0 ∨
      value price.modelRatio * value price.groupRatio = 0 ∧ Decimal.Vanishes amount := by
  unfold roundQuota Decimal.atLeastOne
  rw [← toRat_textRatio, ← Decimal.roundInt64_eq_zero_iff]
  split
  case isTrue hnone => exact iff_of_true rfl (.inl hnone)
  case isFalse hsome =>
    rw [or_iff_right hsome]
    split
    case isTrue hleast => exact iff_of_false one_ne_zero fun h => hleast.1 h.1
    case isFalse hkept =>
      refine ⟨fun hzero => ⟨?_, hzero⟩, fun h => h.2⟩
      by_contra hratio
      exact hkept ⟨hratio, hzero⟩

variable [FiniteFloat F]

/-- The settlement of an attempt charges nothing: no tokens are counted; the model is free, and
nothing is left of the tools of a text settlement; or the model is not free and the ratio of the
group or the price makes the amount small, where a Claude settlement by tokens has no small amount
but a positive one. -/
def Attempt.Uncharged (cfg : PriceSettings F) (attempt : Attempt F) (estimatePromptTokens : ℤ) :
    Settlement F → Prop
  | .postConsumeQuota reported ctx =>
      let usage := reported.getD (promptUsage F estimatePromptTokens)
      usage.promptTokens + usage.completionTokens = 0 ∨
        ModelFree attempt.priceData ∧
          Decimal.Vanishes (toolFees cfg attempt.priceData attempt.originModelName ctx usage *
              otherProduct attempt.priceData.otherRatios) ∨
        ¬ModelFree attempt.priceData ∧
          (value attempt.priceData.groupRatio = 0 ∨
            attempt.priceData.usePrice = true ∧
              Decimal.Vanishes (attempt.textAmount cfg ctx usage))
  | .postClaudeConsumeQuota usage =>
      let amount :=
        claudeAmount cfg attempt.priceData attempt.channelType attempt.originModelName usage
      claudePromptTokens cfg attempt.priceData attempt.channelType attempt.originModelName usage +
          usage.completionTokens = 0 ∨
        ModelFree attempt.priceData ∨
          if attempt.priceData.usePrice then |amount| < 1 else 0 < amount ∧ amount < 1
  | .postAudioConsumeQuota usage =>
      let amount := audioAmount cfg attempt.priceData attempt.originModelName usage
      usage.totalTokens = 0 ∨ attempt.priceData.usePrice = true ∨ ModelFree attempt.priceData ∨
        value attempt.priceData.groupRatio = 0 ∨ 0 < amount ∧ Decimal.Vanishes amount

theorem textQuota_eq_zero_iff (attempt : Attempt F) (hprice : OnePrice attempt.priceData)
    (estimatePromptTokens : ℤ) (reported : Option (Usage F)) (ctx : ToolContext) :
    (Settlement.postConsumeQuota reported ctx).quota cfg attempt.priceData attempt.channelType
        estimatePromptTokens attempt.originModelName = 0 ↔
      attempt.Uncharged cfg estimatePromptTokens (.postConsumeQuota reported ctx) := by
  unfold Settlement.quota Attempt.Uncharged
  dsimp only
  rw [textQuota_eq, roundQuota_eq_zero_iff]
  refine or_congr Iff.rfl ?_
  generalize reported.getD (promptUsage F estimatePromptTokens) = usage
  have hamount : attempt.textAmount cfg ctx usage =
      textBase cfg attempt.priceData attempt.channelType attempt.originModelName ctx usage *
        otherProduct attempt.priceData.otherRatios := rfl
  rw [← hamount]
  by_cases hfree : ModelFree attempt.priceData
  · have hfees : attempt.textAmount cfg ctx usage =
        toolFees cfg attempt.priceData attempt.originModelName ctx usage *
          otherProduct attempt.priceData.otherRatios := by
      rw [hamount, textBase, toRat_tokenQuota_free _ _ _ (.inl hfree), zero_add]
    rw [hprice.modelRatio hfree, zero_mul, and_iff_right rfl, hfees, and_iff_right hfree,
      or_iff_left fun h => h.1 hfree]
  · rw [or_iff_right fun h => hfree h.1, and_iff_right hfree]
    by_cases hgroup : value attempt.priceData.groupRatio = 0
    · -- nothing costs anything in the group
      have hzero : attempt.textAmount cfg ctx usage = 0 := by
        rw [hamount, textBase, toRat_tokenQuota_free _ _ _ (.inr hgroup), toolFees_free _ _ _ hgroup,
          add_zero, zero_mul]
      rw [hgroup, mul_zero, hzero]
      exact iff_of_true ⟨rfl, Decimal.vanishes_of_lt (by norm_num)⟩ (.inl rfl)
    · rw [or_iff_right hgroup, mul_eq_zero, or_iff_left hgroup]
      refine and_congr_left fun _ => ⟨fun hratio => ?_, hprice⟩
      by_contra huse
      refine hfree ?_
      unfold ModelFree
      rw [if_neg huse]
      exact hratio

theorem claudeQuota_eq_zero_iff (attempt : Attempt F) (hprice : OnePrice attempt.priceData)
    (estimatePromptTokens : ℤ) (usage : Usage F) :
    (Settlement.postClaudeConsumeQuota usage).quota cfg attempt.priceData attempt.channelType
        estimatePromptTokens attempt.originModelName = 0 ↔
      attempt.Uncharged cfg estimatePromptTokens (.postClaudeConsumeQuota usage) := by
  unfold Settlement.quota Attempt.Uncharged
  dsimp only
  rw [claudeQuota_zero_iff, Decimal.truncate_eq_zero_iff]
  by_cases hnone : claudePromptTokens cfg attempt.priceData attempt.channelType
      attempt.originModelName usage + usage.completionTokens = 0
  · exact iff_of_true (.inl hnone) (.inl hnone)
  · rw [or_iff_right hnone, or_iff_right hnone]
    by_cases hfree : ModelFree attempt.priceData
    · have hratio : val attempt.priceData.modelRatio = 0 :=
        (FiniteFloat.value_eq_zero_iff _).1 (hprice.modelRatio hfree)
      have hzero : claudeAmount cfg attempt.priceData attempt.channelType attempt.originModelName
          usage = 0 := by
        unfold claudeAmount claudeCalculateQuota
        unfold ModelFree at hfree
        dsimp only
        split
        case isTrue huse =>
          rw [huse, if_pos rfl, FiniteFloat.value_eq_zero_iff] at hfree
          exact FiniteFloat.mul_eq_zero (.inl (FiniteFloat.mul_eq_zero (.inl hfree)))
        case isFalse => exact FiniteFloat.mul_eq_zero (.inr hratio)
      have hkept : claudeLeast attempt.priceData 0 = 0 := if_neg fun h => h.1 hratio
      rw [hzero, hkept, abs_zero]
      exact iff_of_true (by norm_num) (.inl hfree)
    · rw [or_iff_right hfree]
      cases huse : attempt.priceData.usePrice with
      | true =>
          have hkept (amount : ℚ) : claudeLeast attempt.priceData amount = amount :=
            if_neg fun h => h.1 ((FiniteFloat.value_eq_zero_iff _).1 (hprice huse))
          rw [hkept, if_pos rfl]
      | false =>
          have hratio : val attempt.priceData.modelRatio ≠ 0 := by
            intro hratio
            refine hfree ?_
            unfold ModelFree
            rw [huse, if_neg Bool.false_ne_true, FiniteFloat.value_eq_zero_iff]
            exact hratio
          rw [if_neg Bool.false_ne_true]
          unfold claudeLeast
          split
          case isTrue hleast =>
            rw [abs_one]
            exact iff_of_false (lt_irrefl 1) fun h => absurd h.1 (not_lt.2 hleast.2)
          case isFalse hkept =>
            rw [not_and, not_le] at hkept
            rw [abs_of_pos (hkept hratio), and_iff_right (hkept hratio)]

theorem audioQuota_eq_zero_iff (attempt : Attempt F) (hprice : OnePrice attempt.priceData)
    (estimatePromptTokens : ℤ) (usage : Usage F) :
    (Settlement.postAudioConsumeQuota usage).quota cfg attempt.priceData attempt.channelType
        estimatePromptTokens attempt.originModelName = 0 ↔
      attempt.Uncharged cfg estimatePromptTokens (.postAudioConsumeQuota usage) := by
  unfold Settlement.quota Attempt.Uncharged
  dsimp only
  rw [audioQuota_eq]
  by_cases hnone : usage.totalTokens = 0
  · rw [if_pos hnone]
    exact iff_of_true rfl (.inl hnone)
  · rw [if_neg hnone, or_iff_right hnone]
    cases huse : attempt.priceData.usePrice with
    | true => exact iff_of_true rfl (.inl rfl)
    | false =>
        rw [if_neg Bool.false_ne_true, Decimal.roundInt64_eq_zero_iff,
          or_iff_right Bool.false_ne_true]
        by_cases hratio : value attempt.priceData.groupRatio * value attempt.priceData.modelRatio = 0
        · have hzero : audioAmount cfg attempt.priceData attempt.originModelName usage = 0 := by
            unfold audioAmount
            rw [hratio, mul_zero]
          have hkept : audioLeast attempt.priceData 0 = 0 := if_neg fun h => h.1 hratio
          rw [hzero, hkept]
          refine iff_of_true (Decimal.vanishes_of_lt (by norm_num)) ?_
          rcases mul_eq_zero.1 hratio with h | h
          · exact .inr (.inl h)
          · refine .inl ?_
            unfold ModelFree
            rw [huse, if_neg Bool.false_ne_true]
            exact h
        · have hgroup : value attempt.priceData.groupRatio ≠ 0 := left_ne_zero_of_mul hratio
          have hfree : ¬ModelFree attempt.priceData := fun hfree =>
            right_ne_zero_of_mul hratio (hprice.modelRatio hfree)
          rw [or_iff_right hfree, or_iff_right hgroup]
          unfold audioLeast
          split
          case isTrue hleast =>
            refine iff_of_false ?_ fun h => absurd h.1 (not_lt.2 hleast.2)
            have hone : Decimal.roundInt64 1 = 1 :=
              (Decimal.roundInt64_eq_iff (by decide) 1).2 ⟨0, .inl (by norm_num)⟩
            rw [← Decimal.roundInt64_eq_zero_iff, hone]
            decide
          case isFalse hkept =>
            rw [not_and, not_le] at hkept
            rw [and_iff_right (hkept hratio)]

theorem settlement_eq_zero_iff (cfg : PriceSettings F) (attempt : Attempt F)
    (hprice : OnePrice attempt.priceData)
    (estimatePromptTokens : ℤ) (settlement : Settlement F) :
    settlement.quota cfg attempt.priceData attempt.channelType estimatePromptTokens
        attempt.originModelName = 0 ↔ attempt.Uncharged cfg estimatePromptTokens settlement := by
  cases settlement with
  | postConsumeQuota reported ctx =>
      exact textQuota_eq_zero_iff attempt hprice estimatePromptTokens reported ctx
  | postClaudeConsumeQuota usage =>
      exact claudeQuota_eq_zero_iff attempt hprice estimatePromptTokens usage
  | postAudioConsumeQuota usage =>
      exact audioQuota_eq_zero_iff attempt hprice estimatePromptTokens usage

/-! ## The run -/

variable {cfg : RealtimeSettings F} {request : RelayedRequest F}

/-- A successful attempt has one price, its own or that of the compaction it has been mapped to. -/
theorem attempts_onePrice (hprice : OnePrice request.priceData) (shared : SharedBilling F)
    (turns : List (HelperTurn F request.kind)) :
    ∀ attempt ∈ request.attempts cfg shared turns, attempt.Succeeds → OnePrice attempt.priceData := by
  induction turns generalizing shared with
  | nil =>
      intro attempt hattempt
      cases hattempt
  | cons turn turns ih =>
      have hfirst (hsucceeds : (request.attempt cfg turn shared).2.Succeeds) :
          OnePrice (request.attempt cfg turn shared).2.priceData := by
        cases hkind : request.kind.isCompaction with
        | true =>
            obtain ⟨names, served, price, -, -, hcompaction, heq⟩ :=
              compaction_succeeded hkind hsucceeds
            unfold RelayedRequest.compactionPrice at hcompaction
            cases hfound : modelPriceHelper cfg
                { request.req with originModelName := names.originModelName, autoGroup := turn.autoGroup }
                request.estimatePromptTokens ⟨0, Float64.ofInt 0⟩ with
            | error err =>
                rw [hfound] at hcompaction
                cases hcompaction
            | ok found =>
                rw [hfound] at hcompaction
                cases hcompaction
                rw [heq]
                exact (modelPriceHelper_onePrice hfound).1
        | false =>
            obtain ⟨names, served, -, -, heq⟩ := attempt_succeeded hkind hsucceeds
            rw [heq]
            exact hprice
      exact List.forall_mem_cons.2 ⟨hfirst, ih _⟩

/-- The attempt that ends the request is settled for nothing, if it is settled. -/
def RelayedRequest.StaysFree (cfg : RealtimeSettings F) (request : RelayedRequest F)
    (turns : List (HelperTurn F request.kind)) : Prop :=
  ∀ attempt, (request.attempts cfg request.start turns).getLast? = some attempt →
    ∀ settlement, attempt.outcome = .succeeded settlement →
      attempt.Uncharged cfg.toPriceSettings request.estimatePromptTokens settlement

end

def freeGroupSettings : RealtimeSettings Decimal :=
  { sampleRealtimeSettings with groupRatio := fun _ => Decimal.ofInt 0 }

/-- A request of a free group for a model with a ratio. -/
def freeGroupRequest : RelayedRequest Decimal where
  kind := .other
  req := sampleRealtimeRequest
  priceData :=
    { sampleRealtimePrice with
      freeModel := true
      quotaToPreConsume := 0
      groupRatio := Decimal.ofInt 0 }
  estimatePromptTokens := 4
  isStream := false
  syncImageModels := []

/-- A channel that serves four tokens. -/
def servingTurn (served : Usage Decimal → Served Decimal) :
    HelperTurn Decimal freeGroupRequest.kind where
  selection := .keep
  channelId := 3
  channelType := ChannelTypeAnthropic
  autoGroup := none
  modelMapping := .empty
  upstream _ := .answered (served (promptUsage Decimal 4))
  streams _ := false
  counts found := found.counts
  fits _ := trivial

end NewApi.Model
