import NewApi.Model.Midjourney

/-!
# The ledger of Midjourney tasks

Whatever the order of submissions, notifications and polls, every quota movement of the
Midjourney system goes to the owner of a submission and is on its bill.
-/

namespace NewApi.Model

open NewApi.Lib

section

variable {F : Type} [Float64 F] (cfg : MidjourneySettings F)

omit [Float64 F] in
theorem updateMidjourneyTask_keeps (task : Midjourney) (item : MidjourneyDto)
    (now : ℤ) (ok : Bool) :
    Table.KeepsOwner Midjourney.userId task (updateMidjourneyTask cfg task item now ok) := by
  rw [updateMidjourneyTask]
  split
  case isTrue hskip => exact ⟨rfl, by simp [PollResult.skip]⟩
  case isFalse hupdate =>
    refine ⟨rfl, ?_⟩
    dsimp only
    split
    case isTrue hrefund => simp [Movement.userId]
    case isFalse hkept => simp

omit [Float64 F] in
theorem fillPresent_userId (task : Midjourney) (resp : MidjourneyResponse) (now : ℤ) :
    (task.fillPresent resp now).userId = task.userId := by
  rw [Midjourney.fillPresent]
  cases resp.present with
  | none => rfl
  | some properties =>
      dsimp only
      split <;> rfl

end

namespace MidjourneyState

/-- Rows and copies name the payer of the bill as their user. -/
structure Owned (s : MidjourneyState) : Prop where
  midjourneys : Table.Owned Midjourney.userId s.midjourneys

theorem owned_start (db : DB) : Owned (start db) :=
  ⟨Table.Sound.empty⟩

theorem lookup_some {s : MidjourneyState} {mjId : String} {i : ℕ} {copy : Copy Midjourney}
    (hlookup : s.lookup mjId = some (i, copy)) :
    s.midjourneys.copies[i]? = some copy ∧ copy.row.mjId ≠ "" := by
  obtain ⟨hcopy, hmatch⟩ := Pool.lastMatch_some hlookup
  simp only [Bool.and_eq_true, decide_eq_true_eq] at hmatch
  refine ⟨hcopy, ?_⟩
  rw [hmatch.1]
  exact hmatch.2

/-- The end of a submission charges what is on its bill. -/
theorem record_booked (s : MidjourneyState) (req : MidjourneySubmit) (row : Option Midjourney)
    (quota : ℤ) (charged : Bool) :
    Booked s.db (s.record req row quota charged).db s.bills
      (s.record req row quota charged).bills := by
  have hcharged : Charged req.payer (if charged then quota else 0) s.db
      (s.record req row quota charged).db := by
    cases charged with
    | true =>
        have hpaid := (s.db.postConsumeQuota_charged req.payer quota).2.counted req.payer.userId
          req.infoChannelId quota
        cases row <;> exact hpaid
    | false => cases row <;> exact Charged.zero _ _
  cases row with
  | none =>
      have hbills : (s.record req none quota charged).bills =
          s.bills ++ [.submitted req.payer (if charged then quota else 0)] := by
        cases charged <;> exact (List.append_assoc _ _ _).symm
      rw [hbills]
      exact Booked.charge hcharged _
  | some row =>
      have hbills : (s.record req (some row) quota charged).bills =
          [] ++ (s.midjourneys.bills ++ [.submitted req.payer (if charged then quota else 0)]) ++
            s.rowless := by
        cases charged <;> exact congrArg (· ++ s.rowless) (s.midjourneys.insert_bills _ _)
      rw [hbills]
      exact (Booked.charge hcharged s.midjourneys.bills).frame [] s.rowless

theorem Owned.record {s : MidjourneyState} (howned : Owned s) {req : MidjourneySubmit}
    {row : Option Midjourney} (hrow : ∀ task ∈ row, task.userId = req.payer.userId) (quota : ℤ)
    (charged : Bool) : Owned (s.record req row quota charged) := by
  cases row with
  | none => cases charged <;> exact ⟨howned.midjourneys⟩
  | some task =>
      have howner : task.userId = req.payer.userId := hrow task rfl
      cases charged <;> exact ⟨howned.midjourneys.insert howner⟩

theorem Owned.updateWhere {s : MidjourneyState} {p : ℕ → Midjourney → Bool}
    {f : Midjourney → Midjourney} (howned : Owned s)
    (hf : ∀ id e, s.midjourneys.entries[id]? = some e → p id e.row = true →
      (f e.row).userId = e.row.userId) :
    Owned { s with midjourneys := s.midjourneys.updateWhere p f } :=
  ⟨howned.midjourneys.updateWhere hf⟩

theorem Owned.poll {s : MidjourneyState} {i : ℕ} {copy : Copy Midjourney}
    {result : PollResult Midjourney} (howned : Owned s)
    (hcopy : s.midjourneys.copies[i]? = some copy)
    (hresult : Table.KeepsOwner Midjourney.userId copy.row result) :
    Owned (s.poll i copy result) ∧
      Booked s.db (s.poll i copy result).db s.bills (s.poll i copy result).bills := by
  obtain ⟨hpolled, hbooked⟩ := howned.midjourneys.poll s.db hcopy hresult
  exact ⟨⟨hpolled⟩, hbooked.frame [] s.rowless⟩

section

variable {F : Type} [Float64 F] {cfg : MidjourneySettings F} {s s' : MidjourneyState}

theorem submittedMidjourney_userId (req : MidjourneySubmit) (resp : MidjourneyResponse)
    (quota : ℤ) : (submittedMidjourney req resp quota).userId = req.payer.userId := by
  rw [submittedMidjourney]
  split_ifs <;> exact fillPresent_userId _ _ _

/-- Rows rewritten in place leave the bills alone. -/
theorem updateWhere_booked (s : MidjourneyState) (p : ℕ → Midjourney → Bool)
    (f : Midjourney → Midjourney) :
    Booked s.db s.db s.bills
      { s with midjourneys := s.midjourneys.updateWhere p f : MidjourneyState }.bills := by
  rw [bills, bills, Table.updateWhere_bills]
  exact .refl _ _

/-- What a step does. -/
inductive Effect (cfg : MidjourneySettings F) (s : MidjourneyState) :
    MidjourneyAction → MidjourneyState → Prop
  | submit (req : MidjourneySubmit) : Effect cfg s (.submit req) (s.submit cfg req)
  | swapFace (req : MidjourneySubmit) : Effect cfg s (.swapFace req) (s.swapFace cfg req)
  | notify (item : MidjourneyDto) : Effect cfg s (.notify item true) (s.notify cfg item)
  | selectMidjourneys : Effect cfg s .selectMidjourneys
      { s with
        midjourneys :=
          { s.midjourneys with copies := s.midjourneys.selectWhere Midjourney.unfinished } }
  | failNullMidjourneys : Effect cfg s (.failNullMidjourneys true) s.failNullMidjourneys
  | failChannelMidjourneys (channelId : ℕ) :
      Effect cfg s (.failChannelMidjourneys channelId true) (s.failChannelMidjourneys channelId)
  | idle (a : MidjourneyAction) : Effect cfg s a s
  | pollItem (item : MidjourneyDto) (now : ℤ) (ok : Bool) :
      Effect cfg s (.pollItem item now ok) (s.pollItem cfg item now ok)

theorem step_effect {a : MidjourneyAction} (hstep : step cfg s a = some s') : Effect cfg s a s' := by
  cases a with
  | submit req =>
      obtain rfl := Option.some.inj hstep
      exact .submit req
  | swapFace req =>
      obtain rfl := Option.some.inj hstep
      exact .swapFace req
  | notify item ok =>
      simp only [step] at hstep
      split at hstep
      case isTrue hok =>
        subst hok
        obtain rfl := Option.some.inj hstep
        exact .notify item
      case isFalse hfailed =>
        obtain rfl := Option.some.inj hstep
        exact .idle _
  | selectMidjourneys =>
      simp only [step, Option.ite_none_right_eq_some, Option.some.injEq] at hstep
      obtain ⟨-, rfl⟩ := hstep
      exact .selectMidjourneys
  | failNullMidjourneys ok =>
      simp only [step] at hstep
      split at hstep
      case isTrue hok =>
        subst hok
        obtain rfl := Option.some.inj hstep
        exact .failNullMidjourneys
      case isFalse hfailed =>
        obtain rfl := Option.some.inj hstep
        exact .idle _
  | failChannelMidjourneys channelId ok =>
      simp only [step] at hstep
      split at hstep
      case isTrue hok =>
        subst hok
        obtain rfl := Option.some.inj hstep
        exact .failChannelMidjourneys channelId
      case isFalse hfailed =>
        obtain rfl := Option.some.inj hstep
        exact .idle _
  | pollItem item now ok =>
      simp only [step, Option.ite_none_right_eq_some, Option.some.injEq] at hstep
      obtain ⟨-, rfl⟩ := hstep
      exact .pollItem item now ok

/-- Every step keeps the owners and books what it moves. -/
theorem step_booked {a : MidjourneyAction} (hstep : step cfg s a = some s') (howned : Owned s) :
    Owned s' ∧ Booked s.db s'.db s.bills s'.bills := by
  cases step_effect hstep with
  | submit req =>
      rw [submit]
      dsimp only
      split
      case h_1 hresponse => exact ⟨howned, .refl _ _⟩
      case h_2 resp hresponse =>
        split_ifs with hafford hpanic hinserted
        · exact ⟨howned, .refl _ _⟩
        · exact ⟨howned.record (by simp) _ _, record_booked ..⟩
        · refine ⟨howned.record ?_ _ _, record_booked ..⟩
          rintro task ⟨⟩
          exact submittedMidjourney_userId req resp _
        · exact ⟨howned.record (by simp) _ _, record_booked ..⟩
  | swapFace req =>
      rw [swapFace]
      dsimp only
      split
      case h_1 hresponse => exact ⟨howned, .refl _ _⟩
      case h_2 resp hresponse =>
        split_ifs with hafford hinserted
        · exact ⟨howned, .refl _ _⟩
        · refine ⟨howned.record ?_ _ _, record_booked ..⟩
          rintro task ⟨⟩
          rfl
        · exact ⟨howned.record (by simp) _ _, record_booked ..⟩
  | notify item =>
      rw [notify]
      split
      case h_1 hnone => exact ⟨howned, .refl _ _⟩
      case h_2 copy hcopy =>
        obtain ⟨e, hentry, hrow, -⟩ := Table.mem_selectWhere (List.mem_of_mem_head? hcopy)
        refine ⟨howned.updateWhere fun id e' hentry' hid => ?_,
          updateWhere_booked s _ _⟩
        obtain rfl : id = copy.id := by simpa using hid
        obtain rfl : e = e' := Option.some.inj (hentry.symm.trans hentry')
        show copy.row.userId = e.row.userId
        rw [hrow]
  | selectMidjourneys =>
      exact ⟨⟨howned.midjourneys.select (List.Sublist.refl _)⟩, .refl _ _⟩
  | failNullMidjourneys =>
      exact ⟨howned.updateWhere fun _ _ _ _ => rfl, updateWhere_booked s _ _⟩
  | failChannelMidjourneys channelId =>
      exact ⟨howned.updateWhere fun _ _ _ _ => rfl, updateWhere_booked s _ _⟩
  | idle a => exact ⟨howned, .refl _ _⟩
  | pollItem item now ok =>
      rw [pollItem]
      split
      case h_1 hlookup => exact ⟨⟨howned.midjourneys.drop⟩, .refl _ _⟩
      case h_2 i copy hlookup =>
        exact howned.poll (lookup_some hlookup).1
          (updateMidjourneyTask_keeps cfg copy.row item now ok)

/-- Every run books all that it moves on the bills of its submissions. -/
theorem midjourneys_booked {db : DB} {as : List MidjourneyAction}
    (hrun : (midjourneySystem cfg).run (start db) as = some s') :
    Owned s' ∧ Booked db s'.db [] s'.bills := by
  refine System.kept_run (I := fun t => Owned t ∧ Booked db t.db [] t.bills) ?_
    ⟨owned_start db, .refl _ _⟩ hrun
  rintro s a s' hstep ⟨howned, hbooked⟩
  obtain ⟨howned', hstepBooked⟩ := step_booked hstep howned
  exact ⟨howned', hbooked.trans hstepBooked⟩

end

end MidjourneyState

end NewApi.Model
