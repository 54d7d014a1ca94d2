import NewApi.Model.MidjourneyBilling
import NewApi.Model.RelayBalance
import NewApi.Model.TaskBilling

/-!
# The gateway

The gateway runs synchronous relay requests, tasks and Midjourney submissions over one
database.  Whatever the order of their steps, every movement of a quota column is on the bill
of a request.
-/

namespace NewApi.Model

open NewApi.Lib

structure GatewaySettings (F : Type) where
  relay : RelaySettings F
  task : TaskSettings F
  midjourney : MidjourneySettings F

/-- One database under the task system, the Midjourney system and the synchronous requests,
which leave a bill each. -/
structure Gateway extends TaskState, MidjourneyState where
  requests : List Bill

/-- A relay request from its priced start to its end, the charge for one response of a
realtime session, or a step of one of the asynchronous systems. -/
inductive GatewayAction (F : Type) where
  | relay (specificChannel refundFirst : Bool) (adm : Admission) (info : RelayInfo F)
      (attempts : List (Attempt F))
  | preWssConsumeQuota (payer : Payer) (quota : ℤ)
  | task (a : TaskAction F)
  | midjourney (a : MidjourneyAction)

namespace Gateway

def bills (s : Gateway) : List Bill :=
  s.requests ++ s.tasks.bills ++ s.toMidjourneyState.bills

section

variable {F : Type} [Float64 F] (cfg : GatewaySettings F)

/-- A request has ended; its bill is what the user's quota has lost. -/
def endRequest (s : Gateway) (payer : Payer) (db : DB) : Gateway :=
  { s with
    db := db
    requests :=
      s.requests ++ [.submitted payer (s.db.userQuota payer.userId - db.userQuota payer.userId)] }

def step (s : Gateway) : GatewayAction F → Option Gateway
  | .relay specificChannel refundFirst adm info attempts =>
      match relay cfg.relay specificChannel refundFirst adm s.db info attempts with
      | none => none
      | some (.error _) => some s
      | some (.ok r) => some (s.endRequest info.toPayer r.db)
  | .preWssConsumeQuota payer quota =>
      some (s.endRequest payer (s.db.postConsumeQuota payer quota).1)
  | .task a => (s.toTaskState.step cfg.task a).map fun t => { s with toTaskState := t }
  | .midjourney a =>
      (s.toMidjourneyState.step cfg.midjourney a).map fun m =>
        { s with
          db := m.db
          midjourneys := m.midjourneys
          mjPolling := m.mjPolling
          rowless := m.rowless }

end

def start (db : DB) : Gateway where
  toTaskState := TaskState.start db
  midjourneys := .empty
  mjPolling := true
  rowless := []
  requests := []

end Gateway

def gateway {F : Type} [Float64 F] (cfg : GatewaySettings F) :
    System Gateway (GatewayAction F) where
  step := Gateway.step cfg

namespace Gateway

section

variable {F : Type} [Float64 F] {cfg : GatewaySettings F} {s s' : Gateway}

/-- Rows and copies of both tables name the payers of their bills. -/
structure Owned (s : Gateway) : Prop where
  task : s.toTaskState.Owned
  midjourney : s.toMidjourneyState.Owned

/-- The bill of a request is what user and token were charged. -/
theorem endRequest_booked {payer : Payer} {amount : ℤ} {db : DB}
    (hcharged : Charged payer amount s.db db) :
    Booked s.db db s.bills (s.endRequest payer db).bills := by
  have hamount : s.db.userQuota payer.userId - db.userQuota payer.userId = amount := by
    rw [hcharged.user, bump_self]
    omega
  have hbooked := (Booked.charge hcharged s.requests).frame [] (s.tasks.bills ++
    s.toMidjourneyState.bills)
  rw [← hamount] at hbooked
  simp only [List.nil_append, ← List.append_assoc] at hbooked
  exact hbooked

/-- Every step books what it moves. -/
theorem step_booked {a : GatewayAction F} (hstep : step cfg s a = some s') (howned : Owned s) :
    Owned s' ∧ Booked s.db s'.db s.bills s'.bills := by
  cases a with
  | relay specificChannel refundFirst adm info attempts =>
      simp only [step] at hstep
      split at hstep
      case h_1 hpending => cases hstep
      case h_2 error hrefused =>
        obtain rfl := Option.some.inj hstep
        exact ⟨howned, .refl _ _⟩
      case h_3 r hended =>
        obtain rfl := Option.some.inj hstep
        obtain ⟨amount, hcharged⟩ := relay_charged hended
        exact ⟨⟨⟨howned.task.tasks, howned.task.fetches⟩, ⟨howned.midjourney.midjourneys⟩⟩,
          endRequest_booked hcharged⟩
  | preWssConsumeQuota payer quota =>
      obtain rfl := Option.some.inj hstep
      exact ⟨⟨⟨howned.task.tasks, howned.task.fetches⟩, ⟨howned.midjourney.midjourneys⟩⟩,
        endRequest_booked (s.db.postConsumeQuota_charged payer quota).2⟩
  | task a =>
      obtain ⟨t, htask, rfl⟩ := Option.map_eq_some_iff.mp hstep
      obtain ⟨howned', hbooked⟩ := TaskState.step_booked htask howned.task
      exact ⟨⟨howned', ⟨howned.midjourney.midjourneys⟩⟩,
        hbooked.frame s.requests s.toMidjourneyState.bills⟩
  | midjourney a =>
      obtain ⟨m, hmidjourney, rfl⟩ := Option.map_eq_some_iff.mp hstep
      obtain ⟨howned', hbooked⟩ := MidjourneyState.step_booked hmidjourney howned.midjourney
      have hframed := hbooked.frame (s.requests ++ s.tasks.bills) []
      rw [List.append_nil, List.append_nil] at hframed
      exact ⟨⟨⟨howned.task.tasks, howned.task.fetches⟩, ⟨howned'.midjourneys⟩⟩, hframed⟩

theorem owned_start (db : DB) : Owned (start db) :=
  ⟨TaskState.owned_start db, MidjourneyState.owned_start db⟩

/-- Every run books all that it moves on the bills of its requests. -/
theorem gateway_booked {db : DB} {as : List (GatewayAction F)}
    (hrun : (gateway cfg).run (start db) as = some s') :
    Owned s' ∧ Booked db s'.db [] s'.bills := by
  refine System.kept_run (I := fun t => Owned t ∧ Booked db t.db [] t.bills) ?_
    ⟨owned_start db, .refl _ _⟩ hrun
  rintro s a s' hstep ⟨howned, hbooked⟩
  obtain ⟨howned', hstepBooked⟩ := step_booked hstep howned
  exact ⟨howned', hbooked.trans hstepBooked⟩

end

end Gateway

end NewApi.Model
