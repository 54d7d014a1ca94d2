import NewApi.Model.PreConsume

/-!
# What an admitted request has been checked for

`PreConsumeQuota` compares the estimate with the quota of the user in any case, and with that of the
token only when it takes a deposit.  The quota of a trusted token is compared with the trust quota
in the place of the estimate.
-/

namespace NewApi.Model

open NewApi.Lib

variable {F : Type} [Float64 F] (cfg : RelaySettings F) (batchUpdateEnabled : Bool)
  (writes : WriteOutcomes)

namespace PreConsumeState

/-- The quota of the token is compared with the estimate: a deposit is taken, not of the playground,
for a user or a token that is not above the trust quota. -/
structure ComparesToken (s : PreConsumeState F) (adm : Admission)
    (userQuota preConsumedQuota : ℤ) : Prop where
  untrusted : getTrustQuota cfg < userQuota →
    s.info.tokenUnlimited = false ∧ adm.contextTokenQuota ≤ getTrustQuota cfg
  deposit : 0 < preConsumedQuota
  token : s.info.isPlayground = false

/-- What is known of an admitted request. -/
structure Checked (s : PreConsumeState F) (adm : Admission) (userQuota preConsumedQuota : ℤ) :
    Prop where
  read : adm.userQuota = .ok userQuota
  positive : 0 < userQuota
  enough : preConsumedQuota ≤ userQuota
  token : s.ComparesToken cfg adm userQuota preConsumedQuota → s.TokenHas adm preConsumedQuota

variable {s s' : PreConsumeState F} {adm : Admission} {preConsumedQuota : ℤ}

/-- A user is not trusted that is not above the trust quota, or whose token is not. -/
theorem trusts_eq_false_iff (info : RelayInfo F) (userQuota tokenQuota : ℤ) :
    trusts cfg info userQuota tokenQuota = false ↔
      (getTrustQuota cfg < userQuota →
        info.tokenUnlimited = false ∧ tokenQuota ≤ getTrustQuota cfg) := by
  unfold trusts
  rw [Bool.and_eq_false_iff, Bool.or_eq_false_iff, decide_eq_false_iff_not,
    decide_eq_false_iff_not, imp_iff_not_or, Int.not_lt (b := tokenQuota)]

omit [Float64 F] in
/-- A deposit is taken only from a token that has it. -/
theorem tokenHas_of_taken {quota : ℤ} {after : PreConsumeState F} (hpos : 0 < quota)
    (htoken : s.info.isPlayground = false)
    (h : s.preConsumeTokenQuota cfg batchUpdateEnabled writes adm quota = (after, none)) :
    s.TokenHas adm quota := by
  have hpart : TokenPart batchUpdateEnabled writes s adm quota
      (s.preConsumeTokenQuota cfg batchUpdateEnabled writes adm quota) :=
    tokenPart cfg batchUpdateEnabled writes hpos
  rw [h] at hpart
  cases hpart with
  | playground hplayground =>
      rw [htoken] at hplayground
      cases hplayground
  | recorded hhas => exact hhas
  | written hhas => exact hhas

theorem checked_of_admitted
    (h : s.preConsumeQuota cfg batchUpdateEnabled writes adm preConsumedQuota = (s', none)) :
    ∃ userQuota, s.Checked cfg adm userQuota preConsumedQuota := by
  unfold preConsumeQuota at h
  cases huser : adm.userQuota with
  | error err =>
      rw [huser] at h
      cases h
  | ok userQuota =>
      rw [huser] at h
      dsimp only at h
      split at h
      case isTrue hempty => cases h
      case isFalse hsome =>
      split at h
      case isTrue hshort => cases h
      case isFalse henough =>
      refine ⟨userQuota, huser, by omega, by omega, fun hcompares => ?_⟩
      rw [(trusts_eq_false_iff cfg _ _ _).2 hcompares.untrusted, if_neg Bool.false_ne_true,
        if_pos hcompares.deposit] at h
      cases htaken : s.preConsumeTokenQuota cfg batchUpdateEnabled writes adm
        preConsumedQuota with
      | mk after failure =>
          cases failure with
          | none =>
              exact tokenHas_of_taken cfg batchUpdateEnabled writes hcompares.deposit
                hcompares.token htaken
          | some err =>
              rw [htaken] at h
              cases h

/-- A user who has the estimate is admitted where the token is not compared with it, if the
statements succeed. -/
theorem admitted_of_not_compared {userQuota : ℤ} (huser : adm.userQuota = .ok userQuota)
    (hpos : 0 < userQuota) (henough : preConsumedQuota ≤ userQuota)
    (hnot : ¬ s.ComparesToken cfg adm userQuota preConsumedQuota) :
    ∃ s', s.preConsumeQuota cfg batchUpdateEnabled ⟨none, none⟩ adm preConsumedQuota =
      (s', none) := by
  unfold preConsumeQuota
  rw [huser]
  dsimp only
  rw [if_neg (show ¬ userQuota ≤ 0 by omega),
    if_neg (show ¬ userQuota - preConsumedQuota < 0 by omega)]
  cases htrusts : trusts cfg s.info userQuota adm.contextTokenQuota with
  | true =>
      rw [if_pos rfl, if_neg (show ¬ (0 : ℤ) < 0 by omega)]
      exact ⟨_, rfl⟩
  | false =>
      rw [if_neg Bool.false_ne_true]
      by_cases hquota : 0 < preConsumedQuota
      · rw [if_pos hquota]
        -- what is left is the playground, whose token is not charged
        have hplayground : s.info.isPlayground = true := by
          by_contra htoken
          exact hnot ⟨(trusts_eq_false_iff cfg _ _ _).1 htrusts, hquota,
            Bool.eq_false_iff.2 htoken⟩
        have htoken : s.preConsumeTokenQuota cfg batchUpdateEnabled ⟨none, none⟩ adm
            preConsumedQuota = (s, none) := by
          rw [preConsumeTokenQuota, if_neg (show ¬ preConsumedQuota < 0 by omega),
            if_pos hplayground]
        rw [htoken]
        obtain ⟨err, -, hfailed, -⟩ | ⟨-, batch, hbatch⟩ :=
          BatchState.decreaseUserQuota_cases batchUpdateEnabled ⟨none, none⟩ s.batch
            s.info.userId hquota
        · cases hfailed
        · dsimp only
          rw [hbatch]
          exact ⟨_, rfl⟩
      · rw [if_neg hquota]
        exact ⟨_, rfl⟩

end PreConsumeState

/-- An admitted request has the estimate, its user and its limited token, exactly if every limited
token that is short of the estimate is compared with it. -/
theorem preConsumeQuota_admits_iff (s : PreConsumeState F) (adm : Admission)
    (preConsumedQuota : ℤ) :
    (∀ (writes : WriteOutcomes) (s' : PreConsumeState F),
        s.preConsumeQuota cfg batchUpdateEnabled writes adm preConsumedQuota = (s', none) →
          (∃ userQuota, adm.userQuota = .ok userQuota ∧ preConsumedQuota ≤ userQuota) ∧
            (s.info.tokenUnlimited = false →
              ∀ remainQuota, adm.tokenRemainQuota = .ok remainQuota →
                preConsumedQuota ≤ remainQuota)) ↔
      (s.info.tokenUnlimited = false →
        ∀ userQuota remainQuota, adm.userQuota = .ok userQuota →
          adm.tokenRemainQuota = .ok remainQuota → 0 < userQuota →
            preConsumedQuota ≤ userQuota →
              preConsumedQuota ≤ remainQuota ∨
                s.ComparesToken cfg adm userQuota preConsumedQuota) := by
  constructor
  · intro hclaim hlimited userQuota remainQuota huser hremain hpos henough
    by_cases hcompares : s.ComparesToken cfg adm userQuota preConsumedQuota
    · exact .inr hcompares
    · obtain ⟨s', hadmitted⟩ := PreConsumeState.admitted_of_not_compared cfg batchUpdateEnabled
        huser hpos henough hcompares
      exact .inl ((hclaim _ s' hadmitted).2 hlimited remainQuota hremain)
  · intro hcondition writes s' hadmitted
    obtain ⟨userQuota, hchecked⟩ :=
      PreConsumeState.checked_of_admitted cfg batchUpdateEnabled writes hadmitted
    refine ⟨⟨userQuota, hchecked.read, hchecked.enough⟩, fun hlimited remainQuota hremain => ?_⟩
    obtain hhas | hcompares := hcondition hlimited userQuota remainQuota
      hchecked.read hremain hchecked.positive hchecked.enough
    · exact hhas
    · obtain ⟨quota, hread, hhas⟩ := hchecked.token hcompares
      obtain rfl := Except.ok.inj (hread.symm.trans hremain)
      refine hhas.resolve_left fun hunlimited => ?_
      rw [hlimited] at hunlimited
      cases hunlimited

/-- A user of 10000000 quota whose token has one above the trust quota of 5000000. -/
def shortTokenAdmission : Admission where
  userQuota := .ok 10000000
  contextTokenQuota := 5000001
  tokenRemainQuota := .ok 5000001

/-- A request estimated at 6000000 is admitted on a limited token of 5000001. -/
theorem trusted_token_short :
    ¬ ∀ (cfg : RelaySettings Decimal) (batchUpdateEnabled : Bool) (writes : WriteOutcomes)
      (s s' : PreConsumeState Decimal) (adm : Admission) (preConsumedQuota : ℤ),
        s.preConsumeQuota cfg batchUpdateEnabled writes adm preConsumedQuota = (s', none) →
          (∃ userQuota, adm.userQuota = .ok userQuota ∧ preConsumedQuota ≤ userQuota) ∧
            (s.info.tokenUnlimited = false →
              ∀ remainQuota, adm.tokenRemainQuota = .ok remainQuota →
                preConsumedQuota ≤ remainQuota) := by
  intro hclaim
  obtain ⟨-, htoken⟩ := hclaim sampleRelaySettings false ⟨none, none⟩
    ⟨.start sampleDB, sampleRelayInfo⟩ _ shortTokenAdmission 6000000 rfl
  have hshort := htoken rfl 5000001 rfl
  omega

end NewApi.Model
