import NewApi.Model.AttemptRecords
import NewApi.Model.ExactQuota

/-!
# What a failed attempt leaves in the bill

Of what the attempts share, a failed one leaves the ratios of an image adaptor, the model name of a
compaction, and what the handlers keep: that the response is a stream, and numbers in the context.
The quota of a later attempt is its own where the left ratios are lost in its rounding, and where
the other name or the other answer is charged alike.
-/

namespace NewApi.Model

open NewApi.Lib NewApi.Lib.Strings
section

variable {F : Type} [Float64 F] {cfg : RealtimeSettings F}

namespace RelayedKind

variable {kind : RelayedKind}

theorem noted_noted (kind : RelayedKind) (tools : ToolContext) :
    kind.noted (kind.noted tools) = kind.noted tools := by
  cases kind with
  | chat searchContextSize => cases searchContextSize <;> rfl
  | _ => rfl

/-- The name under which a helper prices the request. -/
def renamed (cfg : RealtimeSettings F) (kind : RelayedKind) (originModelName : String) : String :=
  ((kind.namingMode cfg).handle (MappedInfo.begun originModelName)).originModelName

omit [Float64 F] in
/-- A request without thinking is renamed once. -/
theorem renamed_renamed (kind : RelayedKind) (originModelName : String) :
    kind.renamed cfg (kind.renamed cfg originModelName) = kind.renamed cfg originModelName := by
  let info := (kind.namingMode cfg).handle (MappedInfo.begun originModelName)
  have hbegun : (MappedInfo.begun (kind.renamed cfg originModelName)).originModelName =
      info.originModelName := rfl
  exact (NamingMode.handle_origin _ hbegun).trans (NamingMode.handle_handle_origin _ _)

omit [Float64 F] in
theorem named_origin {mapping : ModelMapping} {originModelName : String} {names : MappedInfo}
    (hkind : kind.isCompaction = false)
    (h : kind.named cfg mapping originModelName = .ok names) :
    names.originModelName = kind.renamed cfg originModelName := by
  unfold named at h
  rw [hkind] at h
  split at h
  case h_1 => cases h
  case h_2 mapped hmapped =>
    cases h
    exact NamingMode.handle_origin _ (MappedInfo.mapped_origin hmapped)

end RelayedKind

/-! ## The records -/

namespace Upstream

/-- A handler that fails has counted no tool call. -/
theorem counted_of_error {upstream : Upstream F} {syncImageModels : List String} {names : MappedInfo}
    {error : NewAPIError} (h : upstream.served syncImageModels names = .error error)
    (tools : ToolContext) : upstream.counted tools = tools := by
  cases upstream with
  | failed error => rfl
  | aliImage call => rfl
  | answered served => cases h
  | responses imageGenerationCall tools usage => cases h
  | responsesStream events usage => cases h
  | claudeMessage webSearchRequests served => cases h

omit [Float64 F] in
/-- No tool calls are counted for a compaction. -/
theorem counted_of_compaction {kind : RelayedKind} {upstream : Upstream F}
    (hkind : kind.isCompaction = true) (hfits : upstream.Fits kind) (tools : ToolContext) :
    upstream.counted tools = tools := by
  cases upstream with
  | failed error => rfl
  | aliImage call => rfl
  | answered served => rfl
  | claudeMessage webSearchRequests served => rfl
  | responses imageGenerationCall tools usage =>
      obtain ⟨webSearchPreview, fileSearch, rfl⟩ := hfits
      cases hkind
  | responsesStream events usage =>
      obtain ⟨webSearchPreview, fileSearch, rfl⟩ := hfits
      cases hkind

end Upstream

/-! ## What failed attempts leave -/

variable {request : RelayedRequest F}

/-- The shared data as failed attempts leave it. -/
structure LeftBy (cfg : RealtimeSettings F) (request : RelayedRequest F)
    (shared : SharedBilling F) : Prop where
  name : request.kind.isCompaction = false →
    request.kind.renamed cfg shared.originModelName =
      request.kind.renamed cfg request.start.originModelName
  tools : request.kind.noted shared.tools = request.kind.noted request.start.tools

omit [Float64 F] in
theorem leftBy_start : LeftBy cfg request request.start :=
  ⟨fun _ => rfl, rfl⟩

/-- A failed attempt leaves a name and the search context size of the request. -/
theorem LeftBy.attempt {shared : SharedBilling F} (hleft : LeftBy cfg request shared)
    (turn : HelperTurn F request.kind)
    (hfailed : ∃ error, (request.attempt cfg turn shared).2.outcome = .failed error) :
    LeftBy cfg request (request.attempt cfg turn shared).1 := by
  have hnoted : request.kind.noted (request.kind.noted shared.tools) =
      request.kind.noted request.start.tools := (RelayedKind.noted_noted _ _).trans hleft.tools
  obtain ⟨error, hfailed⟩ := hfailed
  unfold RelayedRequest.attempt at hfailed ⊢
  dsimp only at hfailed ⊢
  cases hnames : request.kind.named cfg turn.modelMapping shared.originModelName with
  | error err => exact ⟨hleft.name, hnoted⟩
  | ok names =>
      rw [hnames] at hfailed
      have hname (hkind : request.kind.isCompaction = false) :
          request.kind.renamed cfg names.originModelName =
            request.kind.renamed cfg request.start.originModelName := by
        rw [RelayedKind.named_origin hkind hnames, RelayedKind.renamed_renamed]
        exact hleft.name hkind
      dsimp only at hfailed ⊢
      cases hserved : (turn.upstream shared.handlers).served request.syncImageModels names with
      | error err =>
          refine ⟨hname, ?_⟩
          show request.kind.noted ((turn.upstream shared.handlers).counted _) = _
          rw [Upstream.counted_of_error hserved]
          exact hnoted
      | ok served =>
          rw [hserved] at hfailed
          dsimp only at hfailed ⊢
          cases hkind : request.kind.isCompaction with
          | false =>
              rw [hkind] at hfailed
              cases hfailed
          | true =>
              have htools : request.kind.noted
                  ((turn.upstream shared.handlers).counted (request.kind.noted shared.tools)) =
                    request.kind.noted request.start.tools := by
                rw [Upstream.counted_of_compaction hkind (turn.fits shared.handlers)]
                exact hnoted
              rw [if_pos rfl]
              split
              case h_1 => exact ⟨hname, htools⟩
              case h_2 => exact ⟨hname, htools⟩

/-- So do any number of them. -/
theorem LeftBy.after {shared : SharedBilling F} (hleft : LeftBy cfg request shared)
    {turns : List (HelperTurn F request.kind)}
    (hfailed : ∀ attempt ∈ request.attempts cfg shared turns, ∃ error,
      attempt.outcome = .failed error) :
    LeftBy cfg request (request.after cfg shared turns) := by
  induction turns generalizing shared with
  | nil => exact hleft
  | cons turn turns ih =>
      obtain ⟨hturn, hturns⟩ := List.forall_mem_cons.1 hfailed
      exact ih (hleft.attempt turn hturn) hturns

theorem attempts_append (shared : SharedBilling F) (turns : List (HelperTurn F request.kind))
    (turn : HelperTurn F request.kind) :
    request.attempts cfg shared (turns ++ [turn]) = request.attempts cfg shared turns ++
      [(request.attempt cfg turn (request.after cfg shared turns)).2] := by
  induction turns generalizing shared with
  | nil => rfl
  | cons first turns ih => exact congrArg (_ :: ·) (ih _)

/-! ## The last attempt -/

/-- The ratios that an attempt records when it is the only one. -/
def RelayedRequest.ownRatios (cfg : RealtimeSettings F) (request : RelayedRequest F)
    (turn : HelperTurn F request.kind) : List (String × F) :=
  match request.kind.named cfg turn.modelMapping request.start.originModelName with
  | .ok names => (turn.upstream request.start.handlers).ratios request.syncImageModels names
  | .error _ => []

/-- What is served, and the ratios, do not depend on what failed attempts have left. -/
theorem Upstream.served_left {kind : RelayedKind} {upstream : Upstream F} {mapping : ModelMapping}
    {name left : String} {names leftNames : MappedInfo} (syncImageModels : List String)
    (hfits : upstream.Fits kind) (hkind : kind.isCompaction = false)
    (hleft : kind.renamed cfg left = kind.renamed cfg name)
    (hnames : kind.named cfg mapping name = .ok names)
    (hleftNames : kind.named cfg mapping left = .ok leftNames) :
    leftNames.originModelName = names.originModelName ∧
      upstream.served syncImageModels leftNames = upstream.served syncImageModels names ∧
        upstream.ratios syncImageModels leftNames = upstream.ratios syncImageModels names := by
  have hname : leftNames.originModelName = names.originModelName := by
    rw [RelayedKind.named_origin hkind hnames, RelayedKind.named_origin hkind hleftNames, hleft]
  refine ⟨hname, ?_⟩
  cases upstream with
  | failed error => exact ⟨rfl, rfl⟩
  | answered served => exact ⟨rfl, rfl⟩
  | claudeMessage webSearchRequests served => exact ⟨rfl, rfl⟩
  | responses imageGenerationCall tools usage =>
      refine ⟨?_, rfl⟩
      unfold Upstream.served
      rw [hname]
  | responsesStream events usage =>
      refine ⟨?_, rfl⟩
      unfold Upstream.served
      rw [hname]
  | aliImage call =>
      -- no helper of an image request renames the model
      obtain rfl : kind = .image := hfits
      obtain rfl : left = name := hleft
      obtain rfl : leftNames = names := Except.ok.inj (hleftNames.symm.trans hnames)
      exact ⟨rfl, rfl⟩

/-- A successful attempt has mapped its model and has been served. -/
theorem attempt_succeeded {shared : SharedBilling F} {turn : HelperTurn F request.kind}
    (hkind : request.kind.isCompaction = false)
    (hsucceeds : (request.attempt cfg turn shared).2.Succeeds) :
    ∃ names served, request.kind.named cfg turn.modelMapping shared.originModelName = .ok names ∧
      (turn.upstream shared.handlers).served request.syncImageModels names = .ok served ∧
        (request.attempt cfg turn shared).2 =
          { selection := turn.selection
            channelId := turn.channelId
            channelType := turn.channelType
            priceData := request.attemptPrice cfg turn
              (addOtherRatios shared.otherRatios
                ((turn.upstream shared.handlers).ratios request.syncImageModels names))
            originModelName := names.originModelName
            outcome := .succeeded
              (served.settlement
                ((turn.upstream shared.handlers).counted (request.kind.noted shared.tools))) } := by
  unfold RelayedRequest.attempt at hsucceeds ⊢
  dsimp only at hsucceeds ⊢
  rw [hkind] at hsucceeds ⊢
  cases hnames : request.kind.named cfg turn.modelMapping shared.originModelName with
  | error err =>
      rw [hnames] at hsucceeds
      exact hsucceeds.elim
  | ok names =>
      rw [hnames] at hsucceeds
      dsimp only at hsucceeds ⊢
      cases hserved : (turn.upstream shared.handlers).served request.syncImageModels names with
      | error err =>
          rw [hserved] at hsucceeds
          exact hsucceeds.elim
      | ok served => exact ⟨names, served, rfl, hserved, rfl⟩

/-- A successful compaction has been priced under the name that it has been mapped to. -/
theorem compaction_succeeded {shared : SharedBilling F} {turn : HelperTurn F request.kind}
    (hkind : request.kind.isCompaction = true)
    (hsucceeds : (request.attempt cfg turn shared).2.Succeeds) :
    ∃ names served price,
      request.kind.named cfg turn.modelMapping shared.originModelName = .ok names ∧
        (turn.upstream shared.handlers).served request.syncImageModels names = .ok served ∧
          request.compactionPrice cfg turn names.originModelName = .ok price ∧
            (request.attempt cfg turn shared).2 =
              { selection := turn.selection
                channelId := turn.channelId
                channelType := turn.channelType
                priceData := price
                originModelName := names.originModelName
                outcome := .succeeded
                  (.postConsumeQuota served.asText (request.kind.noted shared.tools)) } := by
  have hcounted := Upstream.counted_of_compaction hkind (turn.fits shared.handlers)
    (request.kind.noted shared.tools)
  unfold RelayedRequest.attempt at hsucceeds ⊢
  dsimp only at hsucceeds ⊢
  rw [hkind, hcounted] at hsucceeds
  rw [hkind, hcounted]
  cases hnames : request.kind.named cfg turn.modelMapping shared.originModelName with
  | error err =>
      rw [hnames] at hsucceeds
      exact hsucceeds.elim
  | ok names =>
      rw [hnames] at hsucceeds
      dsimp only at hsucceeds ⊢
      cases hserved : (turn.upstream shared.handlers).served request.syncImageModels names with
      | error err =>
          rw [hserved] at hsucceeds
          exact hsucceeds.elim
      | ok served =>
          rw [hserved] at hsucceeds
          dsimp only at hsucceeds ⊢
          rw [if_pos rfl] at hsucceeds ⊢
          cases hprice : request.compactionPrice cfg turn names.originModelName with
          | error err =>
              rw [hprice] at hsucceeds
              exact hsucceeds.elim
          | ok price => exact ⟨names, served, price, rfl, hserved, hprice, rfl⟩

/-! ## The bill of the last attempt -/

/-- What a text settlement rounds. -/
def Attempt.textAmount (cfg : PriceSettings F) (attempt : Attempt F) (ctx : ToolContext)
    (usage : Usage F) : ℚ :=
  textBase cfg attempt.priceData attempt.channelType attempt.originModelName ctx usage *
    otherProduct attempt.priceData.otherRatios

/-- The product of the ratios that failed attempts have left and the last one has not recorded. -/
def RelayedRequest.leftFactor (cfg : RealtimeSettings F) (request : RelayedRequest F)
    (failed : List (HelperTurn F request.kind)) (last : HelperTurn F request.kind) : ℚ :=
  otherProduct (leftOver (request.after cfg request.start failed).otherRatios
    (request.ownRatios cfg last))

variable [FiniteFloat F]

/-- A settlement charges an integer. -/
def Attempt.Charges (cfg : PriceSettings F) (attempt : Attempt F) (estimatePromptTokens n : ℤ) :
    Settlement F → Prop
  | .postConsumeQuota reported ctx =>
      let usage := reported.getD (promptUsage F estimatePromptTokens)
      if usage.promptTokens + usage.completionTokens = 0 then n = 0
      else
        InInt64 n ∧ Decimal.ChargedAs ((textRatio attempt.priceData).toRat ≠ 0) n
          (attempt.textAmount cfg ctx usage)
  | .postClaudeConsumeQuota usage =>
      claudeQuota cfg attempt.priceData attempt.channelType attempt.originModelName usage = n
  | .postAudioConsumeQuota usage =>
      if usage.totalTokens = 0 ∨ attempt.priceData.usePrice = true then n = 0
      else
        InInt64 n ∧ Decimal.ChargedAs False n (audioLeast attempt.priceData
          (audioAmount cfg attempt.priceData attempt.originModelName usage))

/-- Two successful attempts are charged the same. -/
def Attempt.ChargedAlike (cfg : PriceSettings F) (estimatePromptTokens : ℤ)
    (first second : Attempt F) : Prop :=
  ∃ n settlement other, first.outcome = .succeeded settlement ∧
    second.outcome = .succeeded other ∧ first.Charges cfg estimatePromptTokens n settlement ∧
      second.Charges cfg estimatePromptTokens n other

/-- The last attempt gets the answer that it would get alone. -/
def AnswersAlone (cfg : RealtimeSettings F) (request : RelayedRequest F)
    (failed : List (HelperTurn F request.kind)) (last : HelperTurn F request.kind) : Prop :=
  last.upstream (request.after cfg request.start failed).handlers =
    last.upstream request.start.handlers

/-- The quota of the last attempt is its own.  If its handlers answer as they do alone, it is settled
without ratios, no tokens are counted, or the rounding loses what the left factor adds.  Of a
compaction, and where the handlers answer otherwise, the two attempts are charged alike. -/
structure LeavesNothing (cfg : RealtimeSettings F) (request : RelayedRequest F)
    (failed : List (HelperTurn F request.kind)) (last : HelperTurn F request.kind) : Prop where
  factor : request.kind.isCompaction = false → AnswersAlone cfg request failed last →
    ∀ reported ctx, (request.attempt cfg last request.start).2.outcome =
        .succeeded (.postConsumeQuota reported ctx) →
      let alone := (request.attempt cfg last request.start).2
      let usage := reported.getD (promptUsage F request.estimatePromptTokens)
      let amount := alone.textAmount cfg.toPriceSettings ctx usage
      usage.promptTokens + usage.completionTokens = 0 ∨
        Decimal.SurplusLost ((textRatio alone.priceData).toRat ≠ 0) amount
          (amount * (request.leftFactor cfg failed last - 1))
  charge : request.kind.isCompaction = true ∨ ¬AnswersAlone cfg request failed last →
    Attempt.ChargedAlike cfg.toPriceSettings request.estimatePromptTokens
      (request.attempt cfg last request.start).2
      (request.attempt cfg last (request.after cfg request.start failed)).2

omit [FiniteFloat F] in
/-- The quota that an attempt settles, as the rounding of its amount. -/
theorem Attempt.settledQuota_text {cfg : PriceSettings F} {attempt : Attempt F}
    {estimatePromptTokens : ℤ} {reported : Option (Usage F)} {ctx : ToolContext}
    (houtcome : attempt.outcome = .succeeded (.postConsumeQuota reported ctx)) :
    attempt.settledQuota cfg estimatePromptTokens =
      some (roundQuota attempt.priceData (reported.getD (promptUsage F estimatePromptTokens))
        (attempt.textAmount cfg ctx (reported.getD (promptUsage F estimatePromptTokens)))) := by
  unfold Attempt.settledQuota
  rw [houtcome]
  exact congrArg some (textQuota_eq cfg _ _ _ _ _)

variable {failed : List (HelperTurn F request.kind)} {last : HelperTurn F request.kind}

theorem Attempt.charges_iff (cfg : PriceSettings F) (attempt : Attempt F)
    (estimatePromptTokens n : ℤ) (settlement : Settlement F) :
    settlement.quota cfg attempt.priceData attempt.channelType estimatePromptTokens
        attempt.originModelName = n ↔
      attempt.Charges cfg estimatePromptTokens n settlement := by
  cases settlement with
  | postConsumeQuota reported ctx =>
      unfold Settlement.quota Attempt.Charges Attempt.textAmount
      dsimp only
      rw [textQuota_eq, roundQuota_eq_iff]
  | postClaudeConsumeQuota usage => exact Iff.rfl
  | postAudioConsumeQuota usage =>
      unfold Settlement.quota Attempt.Charges
      dsimp only
      rw [audioQuota_eq, ← ite_or]
      split
      case isTrue => exact eq_comm
      case isFalse =>
        have hcharge (m : ℤ) : Decimal.atLeastOne False m = m := if_neg fun h => h.1
        rw [← Decimal.atLeastOne_roundInt64_eq_iff, hcharge]

theorem Attempt.chargedAlike_iff {cfg : PriceSettings F} {estimatePromptTokens : ℤ}
    {first second : Attempt F} (hfirst : first.Succeeds) (hsecond : second.Succeeds) :
    second.settledQuota cfg estimatePromptTokens = first.settledQuota cfg estimatePromptTokens ↔
      Attempt.ChargedAlike cfg estimatePromptTokens first second := by
  obtain ⟨settlement, houtcome⟩ := first.succeeds_iff.1 hfirst
  obtain ⟨other, hother⟩ := second.succeeds_iff.1 hsecond
  have hquota : first.settledQuota cfg estimatePromptTokens =
      some (settlement.quota cfg first.priceData first.channelType estimatePromptTokens
        first.originModelName) :=
    Attempt.settledQuota_eq_some_iff.2 ⟨settlement, houtcome, rfl⟩
  have hotherQuota : second.settledQuota cfg estimatePromptTokens =
      some (other.quota cfg second.priceData second.channelType estimatePromptTokens
        second.originModelName) :=
    Attempt.settledQuota_eq_some_iff.2 ⟨other, hother, rfl⟩
  rw [hquota, hotherQuota, Option.some.injEq]
  constructor
  · intro hsame
    exact ⟨_, settlement, other, houtcome, hother, (first.charges_iff cfg _ _ _).1 rfl,
      (second.charges_iff cfg _ _ _).1 hsame⟩
  · rintro ⟨n, settlement', other', houtcome', hother', hcharged, hotherCharged⟩
    obtain rfl : settlement' = settlement :=
      AttemptOutcome.succeeded.inj (houtcome'.symm.trans houtcome)
    obtain rfl : other' = other := AttemptOutcome.succeeded.inj (hother'.symm.trans hother)
    rw [(first.charges_iff cfg _ _ _).2 hcharged, (second.charges_iff cfg _ _ _).2 hotherCharged]

/-- Where the handlers answer as they do alone, the last attempt settles the quota of a lone one when
no ratio that counts is left. -/
theorem attempt_quota_iff (hkind : request.kind.isCompaction = false)
    (hleft : LeftBy cfg request (request.after cfg request.start failed))
    (hanswers : AnswersAlone cfg request failed last)
    (hlone : (request.attempt cfg last request.start).2.Succeeds)
    (hlater : (request.attempt cfg last (request.after cfg request.start failed)).2.Succeeds) :
    (request.attempt cfg last (request.after cfg request.start failed)).2.settledQuota
          cfg.toPriceSettings request.estimatePromptTokens =
        (request.attempt cfg last request.start).2.settledQuota cfg.toPriceSettings
          request.estimatePromptTokens ↔
      LeavesNothing cfg request failed last := by
  obtain ⟨names, served, hnames, hserved, halone⟩ := attempt_succeeded hkind hlone
  obtain ⟨laterNames, laterServed, hlaterNames, hlaterServed, hlast⟩ :=
    attempt_succeeded hkind hlater
  have hupstream : last.upstream (request.after cfg request.start failed).handlers =
      last.upstream request.start.handlers := hanswers
  rw [hupstream] at hlaterServed hlast
  obtain ⟨hname, hsame, hratios⟩ := Upstream.served_left request.syncImageModels
    (last.fits request.start.handlers) hkind (hleft.name hkind) hnames hlaterNames
  obtain rfl : laterServed = served := by
    rw [hserved, hlaterServed] at hsame
    exact Except.ok.inj hsame
  have hown : request.ownRatios cfg last =
      (last.upstream request.start.handlers).ratios request.syncImageModels names := by
    unfold RelayedRequest.ownRatios
    rw [hnames]
  rw [hleft.tools, hname, hratios, ← hown] at hlast
  rw [← hown] at halone
  have hiff : LeavesNothing cfg request failed last ↔ ∀ reported ctx,
      (request.attempt cfg last request.start).2.outcome =
          .succeeded (.postConsumeQuota reported ctx) →
        let alone := (request.attempt cfg last request.start).2
        let usage := reported.getD (promptUsage F request.estimatePromptTokens)
        let amount := alone.textAmount cfg.toPriceSettings ctx usage
        usage.promptTokens + usage.completionTokens = 0 ∨
          Decimal.SurplusLost ((textRatio alone.priceData).toRat ≠ 0) amount
            (amount * (request.leftFactor cfg failed last - 1)) := by
    refine ⟨fun h => h.factor hkind hanswers, fun h => ⟨fun _ _ => h, fun hother => ?_⟩⟩
    rcases hother with hcompaction | hdiffers
    · rw [hkind] at hcompaction
      cases hcompaction
    · exact absurd hanswers hdiffers
  rw [hiff, halone, hlast]
  cases laterServed with
  | claude usage =>
      refine iff_of_true rfl fun reported ctx houtcome => ?_
      cases houtcome
  | audio usage =>
      refine iff_of_true rfl fun reported ctx houtcome => ?_
      cases houtcome
  | text reported =>
      dsimp only [Served.settlement]
      rw [Attempt.settledQuota_text rfl, Attempt.settledQuota_text rfl, Option.some.injEq]
      -- the left ratios are a factor of the amount
      have hamount (base : ℚ) : base * otherProduct (addOtherRatios
            (request.after cfg request.start failed).otherRatios (request.ownRatios cfg last)) =
          base * otherProduct (addOtherRatios request.start.otherRatios
              (request.ownRatios cfg last)) +
            base * otherProduct (addOtherRatios request.start.otherRatios
              (request.ownRatios cfg last)) * (request.leftFactor cfg failed last - 1) := by
        rw [otherProduct_addOtherRatios, RelayedRequest.leftFactor]
        show _ = base * otherProduct (addOtherRatios [] (request.ownRatios cfg last)) +
          base * otherProduct (addOtherRatios [] (request.ownRatios cfg last)) * _
        ring
      refine (Eq.congr (congrArg (roundQuota _ _) (hamount _)) rfl).trans
        ((roundQuota_add_eq_iff _ _).trans ⟨fun h reported' ctx houtcome => ?_, fun h => ?_⟩)
      · cases houtcome
        exact h
      · exact h reported _ rfl

omit [FiniteFloat F] in
theorem Attempt.settledQuota_of_succeeds (cfg : PriceSettings F) {attempt : Attempt F}
    (estimatePromptTokens : ℤ) (hsucceeds : attempt.Succeeds) :
    ∃ quota, attempt.settledQuota cfg estimatePromptTokens = some quota := by
  obtain ⟨settlement, houtcome⟩ := attempt.succeeds_iff.1 hsucceeds
  exact ⟨_, Attempt.settledQuota_eq_some_iff.2 ⟨settlement, houtcome, rfl⟩⟩

omit [FiniteFloat F] in
/-- A request whose last attempt succeeds logs the quota of that attempt; the others have failed. -/
theorem relay_last {specificChannel refundFirst : Bool} {adm : Admission} {db : DB}
    {info : RelayInfo F} {s' : RelayState F}
    (hrun : request.relay cfg specificChannel refundFirst adm db info (failed ++ [last]) =
      some (.ok s'))
    (hsucceeds : (request.attempt cfg last (request.after cfg request.start failed)).2.Succeeds) :
    (∀ attempt ∈ request.attempts cfg request.start failed, ∃ error,
        attempt.outcome = .failed error) ∧
      ∃ quota, (request.attempt cfg last (request.after cfg request.start failed)).2.settledQuota
          cfg.toPriceSettings request.estimatePromptTokens = some quota ∧
        s'.trace = [.consumed quota] := by
  obtain ⟨quota, hquota⟩ :=
    Attempt.settledQuota_of_succeeds cfg.toPriceSettings request.estimatePromptTokens hsucceeds
  unfold RelayedRequest.relay at hrun
  rw [attempts_append] at hrun
  refine ⟨?_, quota, hquota, relay_settled hrun List.getLast?_concat hquota⟩
  obtain ⟨s, looped, err, -, hloop, -⟩ := relay_ended hrun
  exact (relayLoop_last hloop).1

end

/-- Two images at 5000 quota each. -/
def sampleImages : RelayedRequest Decimal where
  kind := .image
  req := sampleImageRequest
  priceData :=
    { samplePriceData with
      modelPrice := ⟨2, -2⟩
      modelRatio := Decimal.ofInt 0
      usePrice := true
      quotaToPreConsume := 10000 }
  estimatePromptTokens := 20
  isStream := false
  syncImageModels := sampleImageModels

/-- An Ali channel, with the error of its call. -/
def aliTurn (called : Option NewAPIError) : HelperTurn Decimal sampleImages.kind where
  selection := .keep
  channelId := 3
  channelType := ChannelTypeAli
  autoGroup := none
  modelMapping := .empty
  upstream _ := .aliImage { sampleImageCall with called := called }
  streams _ := false
  counts found := found.counts
  fits _ := rfl

def busyAliTurn : HelperTurn Decimal sampleImages.kind :=
  aliTurn (some (NewAPIError.newErrorWithStatusCode "busy" "bad_response_status_code" 500))

/-- A channel that records nothing and serves a usage of two tokens. -/
def answeringTurn : HelperTurn Decimal sampleImages.kind where
  selection := .keep
  channelId := 4
  channelType := 1
  autoGroup := none
  modelMapping := .empty
  upstream _ := .answered (.text (some (promptUsage Decimal 2)))
  streams _ := false
  counts found := found.counts
  fits _ := trivial

end NewApi.Model
