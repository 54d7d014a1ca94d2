import NewApi.Lib.RoundingStep
import NewApi.Model.Realtime
import NewApi.Model.RelayBalance

/-!
# What a realtime session costs its user

The debits of a session and the quota that is recorded for the summed usage are charges for the same
tokens at the same ratio.  They agree up to the rounding of each debit where nothing was
pre-consumed, and where a model with a price has no ratio: the pre-consumed quota is never settled,
and for a model with a price the debits follow its ratio while the record has no price.  Beyond an
`int64` nothing is said.
-/

namespace NewApi.Model

open NewApi.Lib

/-! ## The charge for some tokens -/

/-- The charge for tokens that are worth that much at a ratio. -/
def audioCharge (ratio worth : ℚ) : ℤ :=
  if ratio ≠ 0 ∧ worth ≤ 0 then 1 else Decimal.roundTenths worth

theorem rounds_audioCharge (ratio : ℚ) : Rounds (audioCharge ratio) where
  near worth hpos := by
    rw [audioCharge, if_neg fun h => hpos.not_ge h.2]
    exact Decimal.roundTenths_near hpos.le
  nothing := by
    have hzero : Decimal.roundTenths 0 = 0 := by
      rw [Decimal.roundTenths, zero_mul]
      decide
    rw [audioCharge, hzero]
    split <;> decide

/-- What an `int64` keeps of the charge. -/
def wrappedCharge (ratio worth : ℚ) : ℤ :=
  (audioCharge ratio worth).bmod (2 ^ 64)

/-- The rounded worth is in the range of an `int64`. -/
def WorthFits (worth : ℚ) : Prop :=
  worth + 1 / 2 < 2 ^ 63

theorem WorthFits.mono {worth total : ℚ} (hfits : WorthFits total) (hle : worth ≤ total) :
    WorthFits worth := by
  unfold WorthFits at hfits ⊢
  linarith

theorem wrappedCharge_eq (ratio : ℚ) {worth : ℚ} (hworth : 0 ≤ worth) (hfits : WorthFits worth) :
    wrappedCharge ratio worth = audioCharge ratio worth := by
  rw [wrappedCharge]
  refine Strings.bmod_of_inInt64 ?_
  rw [audioCharge]
  split
  case isTrue => decide
  case isFalse =>
    have hlow := Decimal.roundTenths_nonneg hworth
    have hhigh : Decimal.roundTenths worth < 2 ^ 63 := by
      rw [Decimal.roundTenths_eq_floor hworth, Int.floor_lt]
      exact_mod_cast hfits
    exact ⟨by omega, hhigh⟩

section

variable {F : Type} [Float64 F]

/-- The tokens of a usage in input text tokens. -/
def tokenWorth (cfg : PriceSettings F) (modelName : String) (u : RealtimeUsage) : ℚ :=
  let completionRatio := (Float64.toDecimal (cfg.completionRatio modelName)).toRat
  let audioRatio := (Float64.toDecimal (cfg.audioRatio modelName)).toRat
  let audioCompletionRatio := (Float64.toDecimal (cfg.audioCompletionRatio modelName)).toRat
  u.inputTextTokens + u.outputTextTokens * completionRatio + u.inputAudioTokens * audioRatio +
    u.outputAudioTokens * audioRatio * audioCompletionRatio

theorem calculateAudioQuota_ratio (cfg : PriceSettings F) (u : RealtimeUsage) (modelName : String)
    (modelRatio groupRatio : F) :
    calculateAudioQuota cfg (u.quotaInfo modelName false modelRatio groupRatio) =
      wrappedCharge ((Float64.toDecimal groupRatio).toRat * (Float64.toDecimal modelRatio).toRat)
        (tokenWorth cfg modelName u *
          ((Float64.toDecimal groupRatio).toRat * (Float64.toDecimal modelRatio).toRat)) := by
  let ratio := Float64.toDecimal groupRatio * Float64.toDecimal modelRatio
  have hratio : ratio.toRat =
      (Float64.toDecimal groupRatio).toRat * (Float64.toDecimal modelRatio).toRat :=
    Decimal.toRat_mul _ _
  let quota := (Decimal.ofInt u.inputTextTokens +
    Decimal.ofInt u.outputTextTokens * Float64.toDecimal (cfg.completionRatio modelName) +
    Decimal.ofInt u.inputAudioTokens * Float64.toDecimal (cfg.audioRatio modelName) +
    Decimal.ofInt u.outputAudioTokens * Float64.toDecimal (cfg.audioRatio modelName) *
      Float64.toDecimal (cfg.audioCompletionRatio modelName)) * ratio
  have hquota : quota.toRat = tokenWorth cfg modelName u * ratio.toRat := by
    simp only [quota, Decimal.toRat_mul, Decimal.toRat_add, Decimal.toRat_ofInt]
    rfl
  have hleast : (!ratio.isZero && quota.le Decimal.zero) = true ↔
      ratio.toRat ≠ 0 ∧ quota.toRat ≤ 0 := by
    rw [Bool.and_eq_true, Bool.not_eq_true', ← Bool.not_eq_true, Decimal.isZero_iff, Decimal.le_iff,
      Decimal.zero, Decimal.toRat_ofInt, Int.cast_zero]
  show (if (!ratio.isZero && quota.le Decimal.zero) = true then Decimal.ofInt 1
    else quota).round.intPart = _
  rw [← hratio, ← hquota, wrappedCharge, audioCharge]
  by_cases hone : ratio.toRat ≠ 0 ∧ quota.toRat ≤ 0
  · rw [if_pos (hleast.2 hone), if_pos hone]
    rfl
  · rw [if_neg (mt hleast.1 hone), if_neg hone, Decimal.round_intPart, Decimal.roundInt64]

/-- Neither billing function hands the price of a call on. -/
theorem calculateAudioQuota_price [ExactZero F] (cfg : PriceSettings F) (u : RealtimeUsage)
    (modelName : String) (modelRatio groupRatio : F) :
    calculateAudioQuota cfg (u.quotaInfo modelName true modelRatio groupRatio) = 0 := by
  have hprice : (Float64.toDecimal (Float64.ofInt 0 : F)).toRat = 0 := ExactZero.toDecimal_zero
  show (Float64.toDecimal (Float64.ofInt 0 : F) * Float64.toDecimal cfg.quotaPerUnit *
    Float64.toDecimal groupRatio).intPart = 0
  have hzero : Decimal.truncate 0 = 0 := Decimal.truncate_intCast 0
  rw [Decimal.intPart_eq, Decimal.toRat_mul, Decimal.toRat_mul, hprice, zero_mul, zero_mul, hzero]
  rfl

end

/-! ## Usages that count tokens -/

namespace RealtimeUsage

/-- No count is negative, and the total is zero only where nothing is counted. -/
structure Counts (u : RealtimeUsage) : Prop where
  total : 0 ≤ u.totalTokens
  inputText : 0 ≤ u.inputTextTokens
  inputAudio : 0 ≤ u.inputAudioTokens
  outputText : 0 ≤ u.outputTextTokens
  outputAudio : 0 ≤ u.outputAudioTokens
  nothing : u.totalTokens = 0 → u.inputTextTokens = 0 ∧ u.inputAudioTokens = 0 ∧
    u.outputTextTokens = 0 ∧ u.outputAudioTokens = 0

variable {u v : RealtimeUsage} {textToken audioToken : ℤ}

theorem counts_zero : Counts 0 :=
  ⟨le_rfl, le_rfl, le_rfl, le_rfl, le_rfl, fun _ => ⟨rfl, rfl, rfl, rfl⟩⟩

theorem zero_add (u : RealtimeUsage) : 0 + u = u := by
  ext <;> exact Int.zero_add _

theorem Counts.add (hu : u.Counts) (hv : v.Counts) : (u + v).Counts where
  total := add_nonneg hu.total hv.total
  inputText := add_nonneg hu.inputText hv.inputText
  inputAudio := add_nonneg hu.inputAudio hv.inputAudio
  outputText := add_nonneg hu.outputText hv.outputText
  outputAudio := add_nonneg hu.outputAudio hv.outputAudio
  nothing hsum := by
    obtain ⟨hleft, hright⟩ := (add_eq_zero_iff_of_nonneg hu.total hv.total).1 hsum
    obtain ⟨h1, h2, h3, h4⟩ := hu.nothing hleft
    obtain ⟨k1, k2, k3, k4⟩ := hv.nothing hright
    show u.inputTextTokens + v.inputTextTokens = 0 ∧ u.inputAudioTokens + v.inputAudioTokens = 0 ∧
      u.outputTextTokens + v.outputTextTokens = 0 ∧ u.outputAudioTokens + v.outputAudioTokens = 0
    omega

theorem Counts.addInput (hu : u.Counts) (htext : 0 ≤ textToken) (haudio : 0 ≤ audioToken) :
    (u.addInput textToken audioToken).Counts where
  total := add_nonneg hu.total (add_nonneg htext haudio)
  inputText := add_nonneg hu.inputText htext
  inputAudio := add_nonneg hu.inputAudio haudio
  outputText := hu.outputText
  outputAudio := hu.outputAudio
  nothing hsum := by
    have htotal := hu.total
    have hnothing := hu.nothing
    simp only [RealtimeUsage.addInput] at hsum ⊢
    omega

theorem Counts.addOutput (hu : u.Counts) (htext : 0 ≤ textToken) (haudio : 0 ≤ audioToken) :
    (u.addOutput textToken audioToken).Counts where
  total := add_nonneg hu.total (add_nonneg htext haudio)
  inputText := hu.inputText
  inputAudio := hu.inputAudio
  outputText := add_nonneg hu.outputText htext
  outputAudio := add_nonneg hu.outputAudio haudio
  nothing hsum := by
    have htotal := hu.total
    have hnothing := hu.nothing
    simp only [RealtimeUsage.addOutput] at hsum ⊢
    omega

/-- A usage several times over. -/
def times (u : RealtimeUsage) : ℕ → RealtimeUsage
  | 0 => 0
  | n + 1 => u.times n + u

theorem Counts.times (hu : u.Counts) (n : ℕ) : (u.times n).Counts := by
  induction n with
  | zero => exact counts_zero
  | succ n ih => exact ih.add hu

end RealtimeUsage

/-- The tokens of a message are counts. -/
def RealtimeEvent.Counts : RealtimeEvent → Prop
  | .client textToken audioToken => 0 ≤ textToken ∧ 0 ≤ audioToken
  | .server textToken audioToken => 0 ≤ textToken ∧ 0 ≤ audioToken
  | .responseDone (some realtimeUsage) _ _ _ => realtimeUsage.Counts
  | .responseDone none textToken audioToken _ => 0 ≤ textToken ∧ 0 ≤ audioToken

/-! ## The books -/

section

variable {F : Type} [Float64 F] (cfg : RealtimeSettings F)

/-- The ratio of the debits. -/
def debitRatio (req : RealtimeRequest) : ℚ :=
  (Float64.toDecimal (handleGroupRatio cfg req)).toRat *
    (Float64.toDecimal (cfg.modelRatio req.originModelName).1).toRat

/-- No ratio that a debit reads is negative. -/
structure RatiosNonneg (req : RealtimeRequest) : Prop where
  debit : 0 ≤ debitRatio cfg req
  completion : 0 ≤ (Float64.toDecimal (cfg.completionRatio req.originModelName)).toRat
  audio : 0 ≤ (Float64.toDecimal (cfg.audioRatio req.originModelName)).toRat
  audioCompletion : 0 ≤ (Float64.toDecimal (cfg.audioCompletionRatio req.originModelName)).toRat

/-- What a usage is worth at the ratio of the debits. -/
def usageWorth (req : RealtimeRequest) (u : RealtimeUsage) : ℚ :=
  tokenWorth cfg.toPriceSettings req.originModelName u * debitRatio cfg req

/-- The user's quota and the token's cover the charge for a usage. -/
def WssFunds.Cover (funds : WssFunds) (req : RealtimeRequest) (u : RealtimeUsage) : Prop :=
  ∃ userQuota unlimitedQuota remainQuota,
    funds.userQuota = .ok userQuota ∧ funds.token = .ok (unlimitedQuota, remainQuota) ∧
      wrappedCharge (debitRatio cfg req) (usageWorth cfg req u) ≤ userQuota ∧
      (unlimitedQuota = true ∨
        wrappedCharge (debitRatio cfg req) (usageWorth cfg req u) ≤ remainQuota)

/-- Admission takes no quota: the model is free, user and token are trusted, or the estimate is not
positive. -/
def TakesNothing (adm : Admission) (info : RelayInfo F) (price : PriceData F) : Prop :=
  price.freeModel = true ∨
    (∃ userQuota, adm.userQuota = .ok userQuota ∧
      trusts cfg.toRelaySettings info userQuota adm.contextTokenQuota = true) ∨
    price.quotaToPreConsume ≤ 0

omit [Float64 F] in
/-- What the session took from the user is what it recorded, up to one for each debit. -/
def AddsUp (userId : ℕ) (db : DB) (s' : RealtimeState F) : Prop :=
  ∃ recorded, s'.relay.trace = [.consumed recorded] ∧
    s'.relay.db.userUsedQuota userId - db.userUsedQuota userId = recorded ∧
    |db.userQuota userId - s'.relay.db.userQuota userId - recorded| ≤ s'.charges

end

section

variable {F : Type} [Float64 F] {cfg : RealtimeSettings F} {req : RealtimeRequest}
  {info : RelayInfo F} {db : DB} {relay relay' : RelayState F} {s s' : RealtimeState F}
  {u v : RealtimeUsage} {funds : WssFunds}

theorem usageWorth_add (cfg : RealtimeSettings F) (req : RealtimeRequest) (u v : RealtimeUsage) :
    usageWorth cfg req (u + v) = usageWorth cfg req u + usageWorth cfg req v := by
  have htokens : tokenWorth cfg.toPriceSettings req.originModelName (u + v) =
      tokenWorth cfg.toPriceSettings req.originModelName u +
        tokenWorth cfg.toPriceSettings req.originModelName v := by
    show ((u.inputTextTokens + v.inputTextTokens : ℤ) : ℚ) +
      ((u.outputTextTokens + v.outputTextTokens : ℤ) : ℚ) * _ +
      ((u.inputAudioTokens + v.inputAudioTokens : ℤ) : ℚ) * _ +
      ((u.outputAudioTokens + v.outputAudioTokens : ℤ) : ℚ) * _ * _ = _
    rw [tokenWorth, tokenWorth]
    push_cast
    ring
  rw [usageWorth, htokens, add_mul, usageWorth, usageWorth]

theorem usageWorth_nonneg (hratios : RatiosNonneg cfg req) (hcounts : u.Counts) :
    0 ≤ usageWorth cfg req u := by
  have hinputText : (0 : ℚ) ≤ u.inputTextTokens := Int.cast_nonneg hcounts.inputText
  have hinputAudio : (0 : ℚ) ≤ u.inputAudioTokens := Int.cast_nonneg hcounts.inputAudio
  have houtputText : (0 : ℚ) ≤ u.outputTextTokens := Int.cast_nonneg hcounts.outputText
  have houtputAudio : (0 : ℚ) ≤ u.outputAudioTokens := Int.cast_nonneg hcounts.outputAudio
  exact mul_nonneg
    (add_nonneg
      (add_nonneg (add_nonneg hinputText (mul_nonneg houtputText hratios.completion))
        (mul_nonneg hinputAudio hratios.audio))
      (mul_nonneg (mul_nonneg houtputAudio hratios.audio) hratios.audioCompletion))
    hratios.debit

/-- A usage of no tokens is worth nothing. -/
theorem usageWorth_nothing (hcounts : u.Counts) (htotal : u.totalTokens = 0) :
    usageWorth cfg req u = 0 := by
  obtain ⟨hinputText, hinputAudio, houtputText, houtputAudio⟩ := hcounts.nothing htotal
  rw [usageWorth, tokenWorth, hinputText, hinputAudio, houtputText, houtputAudio]
  simp

theorem usageWorth_times (cfg : RealtimeSettings F) (req : RealtimeRequest) (u : RealtimeUsage)
    (n : ℕ) : usageWorth cfg req (u.times n) = n * usageWorth cfg req u := by
  induction n with
  | zero =>
      rw [RealtimeUsage.times, Nat.cast_zero, zero_mul]
      exact usageWorth_nothing RealtimeUsage.counts_zero rfl
  | succ n ih =>
      rw [RealtimeUsage.times, usageWorth_add, ih, Nat.cast_succ]
      ring

omit [Float64 F] in
theorem DB.postConsumeQuota_userUsedQuota (db : DB) (payer : Payer) (quota : ℤ) :
    (db.postConsumeQuota payer quota).1.userUsedQuota = db.userUsedQuota := by
  rw [DB.postConsumeQuota]
  by_cases hpos : 0 < quota
  · have hguard : ¬quota < 0 := by omega
    rw [if_pos hpos, DB.debitUser, DB.guarded, if_neg hguard]
    dsimp only
    rw [if_pos hpos, DB.debitToken, DB.guarded, if_neg hguard]
    split <;> rfl
  · have hguard : ¬-quota < 0 := by omega
    rw [if_neg hpos, DB.creditUser, DB.guarded, if_neg hguard]
    dsimp only
    rw [if_neg hpos, DB.creditToken, DB.guarded, if_neg hguard]
    split <;> rfl

omit [Float64 F] in
theorem actualGroupRatio_eq (cfg : RealtimeSettings F) (req : RealtimeRequest) :
    actualGroupRatio cfg req = handleGroupRatio cfg req := by
  rw [actualGroupRatio, handleGroupRatio]
  cases req.autoGroup <;> rfl

/-- A debit charges the payer for the usage and leaves the rest. -/
theorem preWssConsumeQuota_ok (husePrice : req.usePrice = false)
    (hok : preWssConsumeQuota cfg req relay funds u = (relay', none)) :
    relay'.info = relay.info ∧ relay'.trace = relay.trace ∧
      relay'.db.userUsedQuota = relay.db.userUsedQuota ∧
      Charged relay.info.toPayer (wrappedCharge (debitRatio cfg req) (usageWorth cfg req u)) relay.db
        relay'.db := by
  rw [preWssConsumeQuota, husePrice, if_neg Bool.false_ne_true, actualGroupRatio_eq] at hok
  dsimp only at hok
  rw [calculateAudioQuota_ratio] at hok
  obtain ⟨-, hcharged⟩ := relay.db.postConsumeQuota_charged relay.info.toPayer
    (wrappedCharge (debitRatio cfg req) (usageWorth cfg req u))
  split at hok
  case h_1 err herr => cases hok
  case h_2 userQuota huser =>
  split at hok
  case h_1 err herr => cases hok
  case h_2 unlimitedQuota remainQuota htoken =>
  split at hok
  case isTrue hshort => cases hok
  case isFalse henough =>
  split at hok
  case isTrue hshort => cases hok
  case isFalse henough' =>
  obtain rfl := congrArg Prod.fst hok
  exact ⟨rfl, rfl, DB.postConsumeQuota_userUsedQuota _ _ _, hcharged⟩

/-- A covered debit succeeds. -/
theorem preWssConsumeQuota_covered (relay : RelayState F) (husePrice : req.usePrice = false)
    (hcover : funds.Cover cfg req u) : (preWssConsumeQuota cfg req relay funds u).2 = none := by
  obtain ⟨userQuota, unlimitedQuota, remainQuota, huser, htoken, henough, henough'⟩ := hcover
  have hlong : ¬(!unlimitedQuota &&
      remainQuota < wrappedCharge (debitRatio cfg req) (usageWorth cfg req u)) = true := by
    rw [Bool.and_eq_true, Bool.not_eq_true', decide_eq_true_eq]
    rintro ⟨hlimited, hshort⟩
    rcases henough' with hunlimited | hcovered
    · cases hlimited.symm.trans hunlimited
    · omega
  rw [preWssConsumeQuota, husePrice, if_neg Bool.false_ne_true, huser, htoken, actualGroupRatio_eq]
  dsimp only
  rw [calculateAudioQuota_ratio]
  refine (congrArg Prod.snd (if_neg (not_lt.2 henough))).trans ?_
  refine (congrArg Prod.snd (if_neg hlong)).trans ?_
  exact (relay.db.postConsumeQuota_charged relay.info.toPayer _).1

/-! ## A session from its first message to its last -/

/-- After some debits: nothing waits in `usage`, and the payer has been charged for usages that add
up to the summed one. -/
structure SessionInv (cfg : RealtimeSettings F) (req : RealtimeRequest) (relay : RelayState F)
    (s : RealtimeState F) : Prop where
  info : s.relay.info = relay.info
  trace : s.relay.trace = relay.trace
  used : s.relay.db.userUsedQuota = relay.db.userUsedQuota
  usage : s.usage = 0
  localUsage : s.localUsage.Counts
  sumUsage : s.sumUsage.Counts
  nothing : s.charges = 0 → s.sumUsage = 0
  debits : ∃ worths : List ℚ, (∀ worth ∈ worths, 0 ≤ worth) ∧ worths.length = s.charges ∧
    worths.sum = usageWorth cfg req s.sumUsage ∧
    Charged relay.info.toPayer (worths.map (wrappedCharge (debitRatio cfg req))).sum
      relay.db s.relay.db

theorem start_inv (cfg : RealtimeSettings F) (req : RealtimeRequest) (relay : RelayState F) :
    SessionInv cfg req relay (.start relay) where
  info := rfl
  trace := rfl
  used := rfl
  usage := rfl
  localUsage := RealtimeUsage.counts_zero
  sumUsage := RealtimeUsage.counts_zero
  nothing _ := rfl
  debits := by
    refine ⟨[], List.forall_mem_nil _, rfl, ?_, Charged.zero _ _⟩
    exact (usageWorth_nothing RealtimeUsage.counts_zero rfl).symm

/-- One more debit. -/
theorem preConsumeUsage_inv (husePrice : req.usePrice = false) (hratios : RatiosNonneg cfg req)
    (hcounts : u.Counts) (hok : preConsumeUsage cfg req s funds u = (s', none))
    (hinv : SessionInv cfg req relay s) : SessionInv cfg req relay s' := by
  have hpaid : (preConsumeUsage cfg req s funds u).2 = none := congrArg Prod.snd hok
  have hdebit : preWssConsumeQuota cfg req s.relay funds u = (s'.relay, none) :=
    Prod.ext (congrArg (fun r => r.1.relay) hok) hpaid
  obtain ⟨hinfo, htrace, hused, hcharged⟩ := preWssConsumeQuota_ok husePrice hdebit
  obtain ⟨worths, hworths, hlength, hsum, hbefore⟩ := hinv.debits
  obtain rfl := congrArg Prod.fst hok
  refine ⟨hinfo.trans hinv.info, htrace.trans hinv.trace, hused.trans hinv.used, hinv.usage,
    hinv.localUsage, hinv.sumUsage.add hcounts, nofun, worths ++
      [usageWorth cfg req u], ?_, ?_, ?_, ?_⟩
  · intro worth hworth
    rcases List.mem_append.1 hworth with hold | hnew
    · exact hworths worth hold
    · obtain rfl := List.mem_singleton.1 hnew
      exact usageWorth_nonneg hratios hcounts
  · rw [List.length_append, hlength]
    rfl
  · show _ = usageWorth cfg req (s.sumUsage + u)
    rw [List.sum_append, hsum, List.sum_singleton, usageWorth_add]
  · rw [hinv.info] at hcharged
    rw [List.map_append, List.sum_append, List.map_singleton, List.sum_singleton]
    exact hbefore.trans hcharged

/-- One message. -/
theorem step_session_inv {event : RealtimeEvent} (husePrice : req.usePrice = false)
    (hratios : RatiosNonneg cfg req) (hstep : s.step cfg req event = some s')
    (hcounts : event.Counts) (hinv : SessionInv cfg req relay s) : SessionInv cfg req relay s' := by
  cases event with
  | client textToken audioToken =>
      obtain rfl := Option.some.inj hstep
      exact { hinv with localUsage := hinv.localUsage.addInput hcounts.1 hcounts.2 }
  | server textToken audioToken =>
      obtain rfl := Option.some.inj hstep
      exact { hinv with localUsage := hinv.localUsage.addOutput hcounts.1 hcounts.2 }
  | responseDone realtimeUsage textToken audioToken funds =>
      cases realtimeUsage with
      | some realtimeUsage =>
          have hwaiting : (s.usage + realtimeUsage).Counts := by
            rw [hinv.usage, RealtimeUsage.zero_add]
            exact hcounts
          rw [RealtimeState.step] at hstep
          split at hstep
          case h_1 t err herr => cases hstep
          case h_2 t hok =>
            obtain rfl := Option.some.inj hstep
            have hinv' := preConsumeUsage_inv husePrice hratios hwaiting hok hinv
            exact { hinv' with usage := rfl, localUsage := RealtimeUsage.counts_zero }
      | none =>
          have hwaiting := hinv.localUsage.addInput hcounts.1 hcounts.2
          rw [RealtimeState.step] at hstep
          split at hstep
          case h_1 t err herr => cases hstep
          case h_2 t hok =>
            obtain rfl := Option.some.inj hstep
            have hinv' := preConsumeUsage_inv husePrice hratios hwaiting hok hinv
            exact { hinv' with localUsage := RealtimeUsage.counts_zero }

/-- All messages. -/
theorem run_session_inv {events : List RealtimeEvent} (husePrice : req.usePrice = false)
    (hratios : RatiosNonneg cfg req)
    (hrun : (realtimeSession cfg req).run (.start relay) events = some s)
    (hcounts : ∀ event ∈ events, event.Counts) : SessionInv cfg req relay s :=
  System.invariant_run (I := SessionInv cfg req relay)
    (fun hstep hcounts hinv => step_session_inv husePrice hratios hstep hcounts hinv)
    (start_inv cfg req relay) (System.along_of_forall_mem hcounts _) hrun

/-- The trailing usage is covered. -/
theorem close_inv (usageFunds : WssFunds) {localFunds : WssFunds} (husePrice : req.usePrice = false)
    (hratios : RatiosNonneg cfg req)
    (hpaid : s.localUsage.totalTokens ≠ 0 → localFunds.Cover cfg req s.localUsage)
    (hinv : SessionInv cfg req relay s) :
    SessionInv cfg req relay (s.close cfg req usageFunds localFunds) := by
  have husage : ¬s.usage.totalTokens ≠ 0 := by
    rw [hinv.usage]
    exact fun h => h rfl
  rw [RealtimeState.close, if_neg husage]
  split
  case isFalse hnothing => exact hinv
  case isTrue hlocal =>
    have hdebit := preWssConsumeQuota_covered s.relay husePrice (hpaid hlocal)
    exact preConsumeUsage_inv husePrice hratios hinv.localUsage (Prod.ext rfl hdebit) hinv

/-! ## Admission -/

theorem preConsumeQuota_userUsedQuota {cfg : RelaySettings F} {adm : Admission}
    {preConsumedQuota : ℤ} (hok : preConsumeQuota cfg relay adm preConsumedQuota = .ok relay') :
    relay'.db.userUsedQuota = relay.db.userUsedQuota := by
  rw [preConsumeQuota] at hok
  split at hok
  case h_1 err huser => cases hok
  case h_2 userQuota huser =>
  split at hok
  case isTrue hempty => cases hok
  case isFalse hsome =>
  split at hok
  case isTrue hshort => cases hok
  case isFalse henough =>
  generalize (if trusts cfg relay.info userQuota adm.contextTokenQuota = true then 0
    else preConsumedQuota) = quota at hok
  dsimp only at hok
  split at hok
  case isFalse hnothing =>
    cases hok
    rfl
  case isTrue hsomething =>
  split at hok
  case h_1 err htoken => cases hok
  case h_2 db htoken =>
    have hdb := preConsumeTokenQuota_ok htoken
    rw [DB.debitUser, DB.guarded, if_neg hsomething.le.not_gt] at hok
    cases hok
    show db.userUsedQuota = _
    rw [hdb]
    split <;> rfl

/-- Admission takes some quota from the payer, or nothing. -/
theorem admitRealtime_ok {adm : Admission} {price : PriceData F}
    (hok : admitRealtime cfg adm db info price = .ok relay) :
    relay.trace = [] ∧ relay.db.userUsedQuota = db.userUsedQuota ∧ relay.info.priceData = price ∧
      relay.info.toPayer = info.toPayer ∧
      ∃ taken, Charged info.toPayer taken db relay.db ∧
        (taken = 0 ↔ TakesNothing cfg adm info price) := by
  rw [admitRealtime] at hok
  split at hok
  case isTrue hfree =>
    cases hok
    exact ⟨rfl, rfl, rfl, rfl, 0, Charged.zero _ _, iff_of_true rfl (.inl hfree)⟩
  case isFalse hpriced =>
    have hused := preConsumeQuota_userUsedQuota hok
    obtain ⟨userQuota, huser, hrelay, hcharged⟩ := preConsumeQuota_ok hok
    have htaken : relay.info.finalPreConsumedQuota =
        if trusts cfg.toRelaySettings info userQuota adm.contextTokenQuota then 0
        else price.quotaToPreConsume :=
      congrArg (fun r => r.info.finalPreConsumedQuota) hrelay
    refine ⟨congrArg RelayState.trace hrelay, hused, congrArg (fun r => r.info.priceData) hrelay,
      congrArg (fun r => r.info.toPayer) hrelay, _, hcharged, ?_⟩
    rw [htaken]
    constructor
    · intro hzero
      split at hzero
      case isTrue htrusted => exact .inr (.inl ⟨userQuota, huser, htrusted⟩)
      case isFalse hdistrusted => exact .inr (.inr (max_eq_left_iff.1 hzero))
    · rintro (hfree | ⟨userQuota', huser', htrusted⟩ | hestimate)
      · exact absurd hfree hpriced
      · obtain rfl := Except.ok.inj (huser.symm.trans huser')
        rw [if_pos htrusted]
        rfl
      · split
        · rfl
        · exact max_eq_left hestimate

/-- The price of a request whose model has no price of its own. -/
theorem modelPriceHelper_ratio {promptTokens : ℤ} {tokenMeta : TokenCountMeta F}
    {price : PriceData F} (hok : modelPriceHelper cfg req promptTokens tokenMeta = .ok price)
    (husePrice : price.usePrice = false) :
    price.modelRatio = (cfg.modelRatio req.originModelName).1 := by
  rw [modelPriceHelper] at hok
  dsimp only at hok
  split at hok
  case h_1 hnone =>
    split at hok
    case isTrue hunset => cases hok
    case isFalse hset =>
      obtain rfl := Except.ok.inj hok
      rfl
  case h_2 modelPrice hsome =>
    obtain rfl := Except.ok.inj hok
    cases husePrice

/-! ## The balance -/

/-- The quota that `PostWssConsumeQuota` records. -/
def recordedQuota (cfg : RealtimeSettings F) (req : RealtimeRequest) (price : PriceData F)
    (u : RealtimeUsage) : ℤ :=
  if u.totalTokens = 0 then 0
  else
    calculateAudioQuota cfg.toPriceSettings
      (u.quotaInfo req.originModelName price.usePrice price.modelRatio price.groupRatio)

/-- The books of a session that has taken and debited some quota. -/
theorem addsUp_iff (relay : RelayState F) {payer : Payer} {taken debited : ℤ}
    (htrace : relay.trace = [])
    (hused : relay.db.userUsedQuota = db.userUsedQuota) (hpayer : relay.info.toPayer = payer)
    (htaken : Charged payer taken db relay.db) (hinv : SessionInv cfg req relay s)
    (hdebited : Charged payer debited relay.db s.relay.db) :
    AddsUp payer.userId db
        { s with relay := postWssConsumeQuota cfg s.relay req.originModelName s.sumUsage } ↔
      |taken + debited - recordedQuota cfg req relay.info.priceData s.sumUsage| ≤ s.charges := by
  have hprice : s.relay.info.priceData = relay.info.priceData :=
    congrArg RelayInfo.priceData hinv.info
  have huserId : s.relay.info.userId = payer.userId := by rw [hinv.info, ← hpayer]
  let recorded := recordedQuota cfg req relay.info.priceData s.sumUsage
  have hlog : (postWssConsumeQuota cfg s.relay req.originModelName s.sumUsage).trace =
      [.consumed recorded] := by
    show s.relay.trace ++ [.consumed (recordedQuota cfg req s.relay.info.priceData s.sumUsage)] = _
    rw [hinv.trace, htrace, hprice]
    rfl
  have hcounted : (postWssConsumeQuota cfg s.relay req.originModelName s.sumUsage).db.userUsedQuota
      payer.userId - db.userUsedQuota payer.userId = recorded := by
    have hbump : (postWssConsumeQuota cfg s.relay req.originModelName s.sumUsage).db.userUsedQuota
        payer.userId = s.relay.db.userUsedQuota payer.userId + recorded := by
      show (if s.sumUsage.totalTokens = 0 then s.relay.db
        else (s.relay.db.updateUserUsedQuotaAndRequestCount s.relay.info.userId
          (recordedQuota cfg req s.relay.info.priceData s.sumUsage) 1).updateChannelUsedQuota
            s.relay.info.channelId (recordedQuota cfg req s.relay.info.priceData s.sumUsage)
          ).userUsedQuota payer.userId = _
      split
      case isTrue hnothing =>
        have hzero : recorded = 0 := if_pos hnothing
        rw [hzero, add_zero]
      case isFalse hsomething =>
        rw [hprice, huserId]
        exact bump_self _ _ _
    rw [hbump, hinv.used, hused, add_sub_cancel_left]
  have hquota : (postWssConsumeQuota cfg s.relay req.originModelName s.sumUsage).db.userQuota
      payer.userId = db.userQuota payer.userId - (taken + debited) := by
    have hcharged := (htaken.trans hdebited).user
    have hkept : (postWssConsumeQuota cfg s.relay req.originModelName s.sumUsage).db.userQuota =
        s.relay.db.userQuota := by
      rw [postWssConsumeQuota]
      dsimp only
      split <;> rfl
    rw [hkept, hcharged, bump_self]
    omega
  constructor
  · rintro ⟨recorded', hlog', -, hnear⟩
    obtain rfl : recorded = recorded' := by
      cases hlog.symm.trans hlog'
      rfl
    rw [hquota, sub_sub_cancel] at hnear
    exact hnear
  · intro hnear
    refine ⟨recorded, hlog, hcounted, ?_⟩
    rw [hquota, sub_sub_cancel]
    exact hnear

/-- The debits are what is recorded but for the rounding of each. -/
theorem debits_near_recorded [ExactZero F] {price : PriceData F} {worths : List ℚ}
    (hgroup : price.groupRatio = handleGroupRatio cfg req)
    (hmodel : price.usePrice = false → price.modelRatio = (cfg.modelRatio req.originModelName).1)
    (hfree : price.usePrice = true → usageWorth cfg req u = 0) (hcounts : u.Counts)
    (hfits : WorthFits (usageWorth cfg req u))
    (hnothing : worths = [] → u = 0) (hworths : ∀ worth ∈ worths, 0 ≤ worth)
    (hsum : worths.sum = usageWorth cfg req u) :
    |(worths.map (wrappedCharge (debitRatio cfg req))).sum - recordedQuota cfg req price u| ≤
      worths.length := by
  have hrounds := rounds_audioCharge (debitRatio cfg req)
  -- no part of what fits is beyond an `int64`
  have hkept : worths.map (wrappedCharge (debitRatio cfg req)) =
      worths.map (audioCharge (debitRatio cfg req)) := by
    refine List.map_congr_left fun worth hworth => wrappedCharge_eq _ (hworths worth hworth) ?_
    exact hfits.mono (hsum ▸ List.single_le_sum hworths worth hworth)
  rw [hkept]
  -- what is worth nothing is recorded as nothing, or as one where it was debited at least once
  have hempty : worths.sum = 0 → ∀ recorded : ℤ, 0 ≤ recorded → recorded ≤ 1 →
      (worths = [] → recorded = 0) →
      |(worths.map (audioCharge (debitRatio cfg req))).sum - recorded| ≤ worths.length := by
    intro hzero recorded hlow hhigh hnone
    rw [Rounds.sum_of_nothing hworths hzero, abs_le]
    have hlength : worths = [] ∨ 1 ≤ (worths.length : ℤ) := by
      cases worths with
      | nil => exact .inl rfl
      | cons worth worths => exact .inr (by rw [List.length_cons]; omega)
    obtain ⟨hleast, hmost⟩ := hrounds.nothing
    rcases hlength with rfl | hone
    · rw [hnone rfl]
      simp
    · constructor <;> nlinarith
  rw [recordedQuota]
  split
  case isTrue htotal =>
    exact hempty (hsum.trans (usageWorth_nothing hcounts htotal)) 0 le_rfl
      zero_le_one fun _ => rfl
  case isFalse htotal =>
    have hsome : worths ≠ [] := by
      intro hnone
      exact htotal (congrArg RealtimeUsage.totalTokens (hnothing hnone))
    cases husePrice : price.usePrice with
    | true =>
        have hzero : worths.sum = 0 := by
          rw [hsum, hfree husePrice]
        rw [calculateAudioQuota_price]
        exact hempty hzero 0 le_rfl zero_le_one fun _ => rfl
    | false =>
        rw [hgroup, hmodel husePrice, calculateAudioQuota_ratio]
        show |_ - wrappedCharge (debitRatio cfg req) (usageWorth cfg req u)| ≤ _
        rw [wrappedCharge_eq _ (hsum ▸ List.sum_nonneg hworths) hfits, ← hsum]
        rcases (List.sum_nonneg hworths).eq_or_lt with hzero | hpos
        · rw [← hzero]
          exact hempty hzero.symm _ hrounds.nothing.1 hrounds.nothing.2 fun h => absurd h hsome
        · exact hrounds.sum_near_total hworths hpos

/-- A session of one response that the user can pay for. -/
theorem run_one_response (relay : RelayState F) (textToken audioToken : ℤ)
    (husePrice : req.usePrice = false)
    (hcover : funds.Cover cfg req u) :
    ∃ s, (realtimeSession cfg req).run (.start relay)
        [.responseDone (some u) textToken audioToken funds] = some s ∧
      s.usage = 0 ∧ s.localUsage = 0 ∧ s.sumUsage = u ∧ s.charges = 1 := by
  have hwaiting : (RealtimeState.start relay).usage + u = u := RealtimeUsage.zero_add u
  have hpaid := preWssConsumeQuota_covered relay husePrice hcover
  have hdebit : preConsumeUsage cfg req (.start relay) funds u =
      ((preConsumeUsage cfg req (.start relay) funds u).1, none) := Prod.ext rfl hpaid
  let s : RealtimeState F :=
    { (preConsumeUsage cfg req (.start relay) funds u).1 with usage := 0, localUsage := 0 }
  have hstep : (realtimeSession cfg req).step (.start relay)
      (.responseDone (some u) textToken audioToken funds) = some s := by
    show (RealtimeState.start relay).step cfg req
      (.responseDone (some u) textToken audioToken funds) = some s
    rw [RealtimeState.step, hwaiting, hdebit]
  refine ⟨s, ?_, rfl, rfl, RealtimeUsage.zero_add u, rfl⟩
  rw [System.run, hstep]
  rfl

/-- A reported usage supersedes what the gateway counted. -/
theorem localUsage_of_one_response {textToken audioToken : ℤ}
    (hrun : (realtimeSession cfg req).run (.start relay)
      [.responseDone (some u) textToken audioToken funds] = some s) : s.localUsage = 0 := by
  obtain ⟨t, hstep, hrest⟩ := System.run_cons hrun
  obtain rfl := Option.some.inj hrest
  have hdone : (RealtimeState.start relay).step cfg req
      (.responseDone (some u) textToken audioToken funds) = some t := hstep
  rw [RealtimeState.step] at hdone
  split at hdone
  case h_1 t' err herr => cases hdone
  case h_2 t' hok =>
    obtain rfl := Option.some.inj hdone
    rfl

/-- A usage of text tokens. -/
def textUsage (tokens : ℤ) : RealtimeUsage :=
  { RealtimeUsage.zero with
    totalTokens := tokens, inputTokens := tokens, inputTextTokens := tokens }

theorem textUsage_counts (n : ℕ) : (textUsage n).Counts :=
  ⟨Int.natCast_nonneg n, Int.natCast_nonneg n, le_rfl, le_rfl, le_rfl, fun h => ⟨h, rfl, rfl, rfl⟩⟩

theorem worthFits_nothing (hcounts : u.Counts) (htotal : u.totalTokens = 0) :
    WorthFits (usageWorth cfg req u) := by
  rw [usageWorth_nothing hcounts htotal, WorthFits]
  norm_num

/-- Where something was pre-consumed a session without messages does not add up. -/
theorem taken_eq_zero (relay : RelayState F) (payer : Payer) {taken : ℤ} (htrace : relay.trace = [])
    (hused : relay.db.userUsedQuota = db.userUsedQuota) (hpayer : relay.info.toPayer = payer)
    (htaken : Charged payer taken db relay.db)
    (hbalance : ∀ usageFunds localFunds s', wssHelper cfg req relay [] usageFunds localFunds = some s' →
      AddsUp payer.userId db s') : taken = 0 := by
  have hfunds : WssFunds := ⟨.error "", .error ""⟩
  have hbooks := hbalance hfunds hfunds _ rfl
  have hdebited : Charged payer 0 relay.db (RealtimeState.start relay).relay.db := Charged.zero _ _
  have hnear := (addsUp_iff relay htrace hused hpayer htaken (start_inv cfg req relay) hdebited).1
    hbooks
  have hrecorded : recordedQuota cfg req relay.info.priceData (RealtimeState.start relay).sumUsage =
    0 := if_pos rfl
  rw [hrecorded, add_zero, sub_zero] at hnear
  exact abs_nonpos_iff.1 hnear

/-- For a model with a price no session of one response adds up that is worth more than one. -/
theorem usageWorth_eq_zero [ExactZero F] (relay : RelayState F) {payer : Payer}
    (husePrice : req.usePrice = false)
    (hratios : RatiosNonneg cfg req) (htrace : relay.trace = [])
    (hused : relay.db.userUsedQuota = db.userUsedQuota) (hpayer : relay.info.toPayer = payer)
    (htaken : Charged payer 0 db relay.db) (hprice : relay.info.priceData.usePrice = true)
    (hbalance : ∀ (u : RealtimeUsage) funds usageFunds localFunds s', u.Counts →
      wssHelper cfg req relay [.responseDone (some u) 0 0 funds] usageFunds localFunds = some s' →
      WorthFits (usageWorth cfg req s'.sumUsage) → AddsUp payer.userId db s')
    (hcounts : u.Counts) (hfits : WorthFits (usageWorth cfg req u)) :
    usageWorth cfg req u = 0 := by
  refine (rounds_audioCharge (debitRatio cfg req)).eq_zero_of_le_one
    (usageWorth_nonneg hratios hcounts) (lt_sub_iff_add_lt.2 hfits) (by norm_num) fun n hbelow => ?_
  have hworth : usageWorth cfg req (u.times n) = n * usageWorth cfg req u :=
    usageWorth_times cfg req u n
  have hcountsTimes := hcounts.times n
  have hfitsTimes : WorthFits (usageWorth cfg req (u.times n)) := by
    rw [hworth]
    exact lt_sub_iff_add_lt.1 hbelow
  rw [← hworth, ← wrappedCharge_eq _ (usageWorth_nonneg hratios hcountsTimes) hfitsTimes]
  let charge := wrappedCharge (debitRatio cfg req) (usageWorth cfg req (u.times n))
  let funds : WssFunds := ⟨.ok charge, .ok (true, 0)⟩
  have hcover : funds.Cover cfg req (u.times n) := ⟨charge, true, 0, rfl, rfl, le_rfl, .inl rfl⟩
  obtain ⟨s, hrun, husage, hlocal, hsum, hcharges⟩ :=
    run_one_response relay 0 0 husePrice hcover
  have hinv : SessionInv cfg req relay s :=
    run_session_inv husePrice hratios hrun fun event hevent => by
      rw [List.mem_singleton.1 hevent]
      exact hcountsTimes
  have hclose : s.close cfg req funds funds = s := by
    have hidle : ¬(0 : RealtimeUsage).totalTokens ≠ 0 := fun h => h rfl
    rw [RealtimeState.close, husage, if_neg hidle, hlocal, if_neg hidle]
  obtain ⟨worths, -, hlength, hdebits, hdebited⟩ := hinv.debits
  obtain ⟨worth, rfl⟩ := List.length_eq_one_iff.1 (hlength.trans hcharges)
  have hbooks := hbalance (u.times n) funds funds funds _ hcountsTimes (by rw [wssHelper, hrun]; rfl)
    (by rw [hclose]; exact hsum ▸ hfitsTimes)
  rw [hclose] at hbooks
  rw [hpayer] at hdebited
  have hnear := (addsUp_iff relay htrace hused hpayer htaken hinv hdebited).1 hbooks
  have hrecorded : recordedQuota cfg req relay.info.priceData s.sumUsage = 0 := by
    rw [recordedQuota, hprice, calculateAudioQuota_price, ite_self]
  rw [hrecorded, hcharges, zero_add, sub_zero, List.map_singleton, List.sum_singleton] at hnear
  rw [List.sum_singleton, hsum] at hdebits
  rw [← hdebits]
  exact (le_abs_self _).trans (by exact_mod_cast hnear)

/-- The books of every session that ends normally add up, where all its tokens are counts that are
worth an `int64` and the trailing usage is covered, exactly where admission took nothing and no such
usage of a model with a price is worth anything. -/
theorem realtime_adds_up_iff [ExactZero F] {adm : Admission}
    {originModelName userGroup usingGroup : String}
    {autoGroup : Option String} {acceptUnsetRatioModel : Bool} {promptTokens : ℤ}
    {tokenMeta : TokenCountMeta F} {price : PriceData F} (selectedGroup : Option String)
    (hprice : modelPriceHelper cfg
      (genRelayInfoWs originModelName userGroup usingGroup autoGroup acceptUnsetRatioModel)
      promptTokens tokenMeta = .ok price)
    (hadmitted : admitRealtime cfg adm db info price = .ok relay)
    (hreq : req =
      genRelayInfoWs originModelName userGroup usingGroup selectedGroup acceptUnsetRatioModel)
    (hratios : RatiosNonneg cfg req) :
    (∀ events usageFunds localFunds s',
        wssHelper cfg req (selectGroup cfg req relay) events usageFunds localFunds = some s' →
        (∀ event ∈ events, event.Counts) →
        (∀ s, (realtimeSession cfg req).run (.start (selectGroup cfg req relay)) events = some s →
          s.localUsage.totalTokens ≠ 0 → localFunds.Cover cfg req s.localUsage) →
        WorthFits (usageWorth cfg req s'.sumUsage) → AddsUp info.userId db s') ↔
      TakesNothing cfg adm info price ∧ (price.usePrice = true → ∀ u : RealtimeUsage, u.Counts →
        WorthFits (usageWorth cfg req u) → usageWorth cfg req u = 0) := by
  have husePrice : req.usePrice = false := by rw [hreq]; rfl
  obtain ⟨htrace, hused, hpriceData, hpayer, taken, htaken, hnothing⟩ := admitRealtime_ok hadmitted
  let opened := selectGroup cfg req relay
  have hmodel : price.usePrice = false →
      price.modelRatio = (cfg.modelRatio req.originModelName).1 := by
    have hratio := modelPriceHelper_ratio hprice
    rw [hreq]
    exact hratio
  have hopened : opened.info.priceData.usePrice = price.usePrice := by
    rw [← hpriceData]
    rfl
  constructor
  · intro hbalance
    have hzero : taken = 0 :=
      taken_eq_zero opened info.toPayer htrace hused hpayer htaken
        fun usageFunds localFunds s' hrun => hbalance [] usageFunds localFunds s' hrun
          (List.forall_mem_nil _)
          (fun s hs hlocal => by
            obtain rfl := Option.some.inj hs
            exact absurd rfl hlocal)
          (by
            obtain rfl := Option.some.inj hrun
            exact worthFits_nothing RealtimeUsage.counts_zero rfl)
    refine ⟨hnothing.1 hzero, fun hcall u hcounts hfits => ?_⟩
    rw [hzero] at htaken
    refine usageWorth_eq_zero opened husePrice hratios htrace hused hpayer htaken
      (hopened.trans hcall) (fun v funds usageFunds localFunds s' hcounts' hrun hfits' =>
        hbalance _ _ _ s' hrun ?_ ?_ hfits') hcounts hfits
    · intro event hevent
      rw [List.mem_singleton.1 hevent]
      exact hcounts'
    · intro s hs hlocal
      rw [localUsage_of_one_response hs] at hlocal
      exact absurd rfl hlocal
  · rintro ⟨htakes, hfree⟩ events usageFunds localFunds s' hrun hcounts hpaid hfits
    obtain ⟨s, hs, hs'⟩ := Option.bind_eq_some_iff.1 hrun
    obtain rfl := Option.some.inj hs'
    have hinv := close_inv usageFunds husePrice hratios (hpaid s hs)
      (run_session_inv husePrice hratios hs hcounts)
    obtain ⟨worths, hworths, hlength, hsum, hdebited⟩ := hinv.debits
    rw [hnothing.2 htakes] at htaken
    have hdebited' : Charged info.toPayer (worths.map (wrappedCharge (debitRatio cfg req))).sum
      opened.db
        (s.close cfg req usageFunds localFunds).relay.db := hpayer ▸ hdebited
    refine (addsUp_iff opened htrace hused hpayer htaken hinv hdebited').2 ?_
    rw [zero_add, ← hlength]
    refine debits_near_recorded rfl (fun h => ?_)
      (fun h => hfree (hopened.symm.trans h) _ hinv.sumUsage hfits) hinv.sumUsage hfits
      (fun hnone => hinv.nothing ?_) hworths hsum
    · rw [← hmodel (hopened.symm.trans h), ← hpriceData]
      rfl
    · rw [← hlength, hnone]
      rfl

end

/-! ## Two sessions -/

/-- One quota for each token. -/
def sampleRealtimeSettings : RealtimeSettings Decimal where
  toRelaySettings := sampleRelaySettings
  preConsumedQuota := 5
  enableFreeModelPreConsume := false
  modelPrice _ := none
  modelRatio name := (Decimal.ofInt 1, true, name)
  cacheRatio _ := Decimal.ofInt 1
  createCacheRatio _ := Decimal.ofInt 1
  imageRatio _ := Decimal.ofInt 1
  groupRatio _ := Decimal.ofInt 1
  groupGroupRatio _ _ := none

def sampleRealtimeRequest : RealtimeRequest :=
  genRelayInfoWs "gpt-4o-realtime-preview" "default" "default" none false

def sampleTokenCountMeta : TokenCountMeta Decimal where
  maxTokens := 0
  imagePriceRatio := Decimal.ofInt 0

theorem sampleRatios_nonneg : RatiosNonneg sampleRealtimeSettings sampleRealtimeRequest := by
  have hone : (0 : ℚ) ≤ (Decimal.ofInt 1).toRat := by
    rw [Decimal.toRat_ofInt]
    exact zero_le_one
  exact ⟨mul_nonneg hone hone, hone, hone, hone⟩

theorem sampleUsage_fits :
    WorthFits (usageWorth sampleRealtimeSettings sampleRealtimeRequest (textUsage 10)) := by
  have hratio : debitRatio sampleRealtimeSettings sampleRealtimeRequest = 1 := by
    show (Decimal.ofInt 1).toRat * (Decimal.ofInt 1).toRat = 1
    rw [Decimal.toRat_ofInt, Int.cast_one, mul_one]
  rw [usageWorth, hratio, tokenWorth, WorthFits]
  simp [textUsage, RealtimeUsage.zero]
  norm_num

/-- One response of ten tokens. -/
def sampleRealtimeEvents : List RealtimeEvent :=
  [.responseDone (some (textUsage 10)) 0 0 ⟨.ok 20000000, .ok (true, 0)⟩]

/-- A user and a token that are trusted. -/
def trustedAdmission : Admission where
  userQuota := .ok 20000000
  contextTokenQuota := 20000000
  tokenRemainQuota := .ok 20000000

def sampleRealtimePrice : PriceData Decimal where
  freeModel := false
  modelPrice := Decimal.ofInt (-1)
  modelRatio := Decimal.ofInt 1
  completionRatio := Decimal.ofInt 1
  cacheRatio := Decimal.ofInt 1
  cacheCreationRatio := Decimal.ofInt 1
  cacheCreation5mRatio := Decimal.ofInt 1
  cacheCreation1hRatio := Decimal.ofInt 1 * (Decimal.ofInt 8 / Decimal.ofInt 5)
  imageRatio := Decimal.ofInt 1
  otherRatios := []
  usePrice := false
  quotaToPreConsume := 5
  groupRatio := Decimal.ofInt 1

/-- The state in which the trusted user's session is opened. -/
def trustedRelay : RelayState Decimal where
  db := sampleDB
  info := { sampleRelayInfo with priceData := sampleRealtimePrice, finalPreConsumedQuota := 0 }
  trace := []
  refunds := []

theorem realtime_adds_up_trusted : ∃ s',
    wssHelper sampleRealtimeSettings sampleRealtimeRequest
      (selectGroup sampleRealtimeSettings sampleRealtimeRequest trustedRelay) sampleRealtimeEvents
      ⟨.error "", .error ""⟩ ⟨.error "", .error ""⟩ = some s' ∧ AddsUp 1 sampleDB s' := by
  have hprice : modelPriceHelper sampleRealtimeSettings sampleRealtimeRequest
    0 sampleTokenCountMeta =
      .ok sampleRealtimePrice := rfl
  have hadmitted : admitRealtime sampleRealtimeSettings trustedAdmission sampleDB sampleRelayInfo
      sampleRealtimePrice = .ok trustedRelay := rfl
  have htakes : TakesNothing sampleRealtimeSettings trustedAdmission sampleRelayInfo
      sampleRealtimePrice := .inr (.inl ⟨20000000, rfl, by decide⟩)
  have hcounts : ∀ event ∈ sampleRealtimeEvents, event.Counts := by
    intro event hevent
    rw [List.mem_singleton.1 hevent]
    exact textUsage_counts 10
  obtain ⟨s', hrun⟩ : ∃ s', wssHelper sampleRealtimeSettings sampleRealtimeRequest
      (selectGroup sampleRealtimeSettings sampleRealtimeRequest trustedRelay) sampleRealtimeEvents
      ⟨.error "", .error ""⟩ ⟨.error "", .error ""⟩ = some s' := ⟨_, rfl⟩
  refine ⟨s', hrun, ?_⟩
  have hfits : WorthFits (usageWorth sampleRealtimeSettings sampleRealtimeRequest s'.sumUsage) := by
    obtain rfl := Option.some.inj hrun
    exact sampleUsage_fits
  refine (realtime_adds_up_iff none hprice hadmitted rfl sampleRatios_nonneg).2 ⟨htakes, nofun⟩
    sampleRealtimeEvents _ _ s' hrun hcounts ?_ hfits
  intro s hs hlocal
  rw [localUsage_of_one_response hs] at hlocal
  exact absurd rfl hlocal

/-- What was pre-consumed is not settled. -/
theorem pre_consumed_session_is_charged_twice :
    ¬ ∀ (cfg : RealtimeSettings Decimal) (req : RealtimeRequest) (adm : Admission) (db : DB)
      (info : RelayInfo Decimal) (promptTokens : ℤ) (tokenMeta : TokenCountMeta Decimal)
      (price : PriceData Decimal) (relay : RelayState Decimal) (events : List RealtimeEvent)
      (usageFunds localFunds : WssFunds) (s' : RealtimeState Decimal),
      modelPriceHelper cfg req promptTokens tokenMeta = .ok price →
      admitRealtime cfg adm db info price = .ok relay →
      wssHelper cfg req (selectGroup cfg req relay) events usageFunds localFunds = some s' →
      AddsUp info.userId db s' := by
  intro hclaim
  obtain ⟨recorded, hlog, -, hnear⟩ := hclaim sampleRealtimeSettings sampleRealtimeRequest
    sampleAdmission sampleDB sampleRelayInfo 0 sampleTokenCountMeta _ _ sampleRealtimeEvents
    ⟨.error "", .error ""⟩ ⟨.error "", .error ""⟩ _ rfl rfl rfl
  cases hlog
  exact absurd hnear (by decide)

end NewApi.Model
