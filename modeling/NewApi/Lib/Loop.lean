import Mathlib.Data.List.Basic

/-!
# Loops over an environment

A loop tests its guard, runs its body on what the environment answers in that turn, and either
goes on or leaves early.  Nothing bounds it beforehand: `exec` has fuel, and `Ends` says that
some fuel is enough.  `exec_of_variant` is the rule for termination, and `exec_induction` goes along
the turns of a loop that has ended; from it come `exec_last`, the rule for the state that is reached
in the end, `exec_simulates`, the one for a loop that does what another one does, `exec_events`, the
one for single events, and `exec_pairwise`, the one for what the events of the turns have to do with
each other.
-/

namespace NewApi.Lib

universe u v w

/-- How a turn of a loop ends.  A turn that goes on leaves an event behind, one that breaks
out of the loop may leave one. -/
inductive Turn (σ : Type u) (α : Type v)
  | again (s : σ) (event : α)
  | leave (s : σ) (event : Option α)

structure Loop (σ : Type u) (ε : Type w) (α : Type v) where
  guard : σ → Bool
  turn : σ → ε → Turn σ α

namespace Loop

variable {σ : Type u} {ε : Type w} {α : Type v}

/-- The events and the last state of the loop, if the fuel is enough; `env n` is what the
environment answers from the next turn on. -/
def exec (L : Loop σ ε α) (env : ℕ → ε) : ℕ → ℕ → σ → Option (List α × σ)
  | 0, _, _ => none
  | fuel + 1, n, s =>
      if L.guard s then
        match L.turn s (env n) with
        | .again s' event => (L.exec env fuel (n + 1) s').map fun (events, last) =>
            (event :: events, last)
        | .leave s' event => some (event.toList, s')
      else some ([], s)

/-- The loop ends with these events and in this state. -/
def Ends (L : Loop σ ε α) (env : ℕ → ε) (n : ℕ) (s : σ) (events : List α) (last : σ) : Prop :=
  ∃ fuel, L.exec env fuel n s = some (events, last)

variable {L : Loop σ ε α} {env : ℕ → ε} {n : ℕ} {s s' last : σ} {events : List α}

theorem exec_done (hguard : L.guard s = false) (fuel : ℕ) :
    L.exec env (fuel + 1) n s = some ([], s) := by
  rw [exec, hguard]
  rfl

theorem exec_leave {event : Option α} (hguard : L.guard s = true)
    (hturn : L.turn s (env n) = .leave s' event) (fuel : ℕ) :
    L.exec env (fuel + 1) n s = some (event.toList, s') := by
  rw [exec, if_pos hguard, hturn]

theorem exec_again {event : α} (hguard : L.guard s = true)
    (hturn : L.turn s (env n) = .again s' event) (fuel : ℕ) :
    L.exec env (fuel + 1) n s = (L.exec env fuel (n + 1) s').map fun (events, last) =>
      (event :: events, last) := by
  rw [exec, if_pos hguard, hturn]

/-- Induction on the turns of a loop that has ended. -/
theorem exec_induction {motive : ℕ → ℕ → σ → List α → σ → Prop}
    (done : ∀ {fuel n s}, L.guard s = false → motive (fuel + 1) n s [] s)
    (leave : ∀ {fuel n s s' event}, L.guard s = true → L.turn s (env n) = .leave s' event →
      motive (fuel + 1) n s event.toList s')
    (again : ∀ {fuel n s s' event events last}, L.guard s = true →
      L.turn s (env n) = .again s' event → motive fuel (n + 1) s' events last →
      motive (fuel + 1) n s (event :: events) last)
    {fuel : ℕ} (hexec : L.exec env fuel n s = some (events, last)) :
    motive fuel n s events last := by
  induction fuel generalizing n s events last with
  | zero => cases hexec
  | succ fuel ih =>
      cases hguard : L.guard s with
      | false =>
          rw [exec_done hguard] at hexec
          cases hexec
          exact done hguard
      | true =>
          cases hturn : L.turn s (env n) with
          | leave s' event =>
              rw [exec_leave hguard hturn] at hexec
              cases hexec
              exact leave hguard hturn
          | again s' event =>
              rw [exec_again hguard hturn] at hexec
              obtain ⟨⟨rest, final⟩, hrest, heq⟩ := Option.map_eq_some_iff.1 hexec
              cases heq
              exact again hguard hturn (ih hrest)

/-- More fuel changes nothing. -/
theorem exec_succ {fuel : ℕ} (hexec : L.exec env fuel n s = some (events, last)) :
    L.exec env (fuel + 1) n s = some (events, last) := by
  refine exec_induction (motive := fun fuel n s events last =>
    L.exec env (fuel + 1) n s = some (events, last)) ?done ?leave ?again hexec
  case done =>
    intro fuel n s hguard
    exact exec_done hguard _
  case leave =>
    intro fuel n s s' event hguard hturn
    exact exec_leave hguard hturn _
  case again =>
    intro fuel n s s' event events last hguard hturn ih
    rw [exec_again hguard hturn, ih]
    rfl

theorem exec_le {fuel more : ℕ} (hle : fuel ≤ more)
    (hexec : L.exec env fuel n s = some (events, last)) :
    L.exec env more n s = some (events, last) := by
  induction hle with
  | refl => exact hexec
  | step hle ih => exact exec_succ ih

namespace Ends

theorem done (hguard : L.guard s = false) : L.Ends env n s [] s :=
  ⟨1, exec_done hguard 0⟩

theorem leave {event : Option α} (hguard : L.guard s = true)
    (hturn : L.turn s (env n) = .leave s' event) : L.Ends env n s event.toList s' :=
  ⟨1, exec_leave hguard hturn 0⟩

theorem leave_none (hguard : L.guard s = true) (hturn : L.turn s (env n) = .leave s' none) :
    L.Ends env n s [] s' :=
  leave hguard hturn

theorem leave_some {event : α} (hguard : L.guard s = true)
    (hturn : L.turn s (env n) = .leave s' (some event)) : L.Ends env n s [event] s' :=
  leave hguard hturn

theorem again {event : α} (hguard : L.guard s = true)
    (hturn : L.turn s (env n) = .again s' event) (hends : L.Ends env (n + 1) s' events last) :
    L.Ends env n s (event :: events) last := by
  obtain ⟨fuel, hexec⟩ := hends
  refine ⟨fuel + 1, ?_⟩
  rw [exec_again hguard hturn, hexec]
  rfl

end Ends

/-- Termination rule: when every turn that leaves an event takes at least one off the variant,
the loop ends, with at most as many events as the variant says. -/
theorem exec_of_variant {I : σ → Prop} {V : σ → ℕ}
    (hagain : ∀ {s s' e event}, I s → L.guard s = true → L.turn s e = .again s' event →
      I s' ∧ V s' + 1 ≤ V s)
    (hleave : ∀ {s s' e event}, I s → L.guard s = true → L.turn s e = .leave s' (some event) →
      1 ≤ V s)
    {fuel : ℕ} (hI : I s) (hfuel : V s < fuel) :
    ∃ events last, L.exec env fuel n s = some (events, last) ∧ events.length ≤ V s := by
  induction fuel generalizing n s with
  | zero => exact absurd hfuel (Nat.not_lt_zero _)
  | succ fuel ih =>
      cases hguard : L.guard s with
      | false => exact ⟨[], s, exec_done hguard fuel, Nat.zero_le _⟩
      | true =>
          cases hturn : L.turn s (env n) with
          | leave s' event =>
              refine ⟨_, s', exec_leave hguard hturn fuel, ?_⟩
              cases event with
              | none => exact Nat.zero_le _
              | some event => exact hleave hI hguard hturn
          | again s' event =>
              obtain ⟨hI', hless⟩ := hagain hI hguard hturn
              obtain ⟨events, last, hexec, hlength⟩ := ih hI' (by omega : V s' < fuel)
              refine ⟨event :: events, last, ?_, ?_⟩
              · rw [exec_again hguard hturn, hexec]
                rfl
              · rw [List.length_cons]
                omega

/-- Rule for the last state: what holds where the guard fails or a turn leaves, as long as every
turn that goes on keeps the invariant. -/
theorem exec_last {I Q : σ → Prop}
    (hagain : ∀ {s s' e event}, I s → L.guard s = true → L.turn s e = .again s' event → I s')
    (hleave : ∀ {s s' e event}, I s → L.guard s = true → L.turn s e = .leave s' event → Q s')
    (hdone : ∀ {s}, I s → L.guard s = false → Q s)
    {fuel : ℕ} (hI : I s) (hexec : L.exec env fuel n s = some (events, last)) : Q last := by
  refine exec_induction (motive := fun _ _ s _ last => I s → Q last) ?done ?leave ?again hexec hI
  case done =>
    intro fuel n s hguard hI
    exact hdone hI hguard
  case leave =>
    intro fuel n s s' event hguard hturn hI
    exact hleave hI hguard hturn
  case again =>
    intro fuel n s s' event events last hguard hturn ih hI
    exact ih (hagain hI hguard hturn)

/-- Simulation rule: a loop whose turns do what the turns of another one do, and more,
runs like it. -/
theorem exec_simulates {σ' : Type u} {α' : Type v} {L' : Loop σ' ε α'}
    {f : σ' → σ} {g : α' → α → Prop}
    (hguard : ∀ s', L'.guard s' = L.guard (f s'))
    (hagain : ∀ {s' e t' event'}, L'.turn s' e = .again t' event' →
      ∃ event, L.turn (f s') e = .again (f t') event ∧ g event' event)
    (hleave : ∀ {s' e t' event'}, L'.turn s' e = .leave t' event' →
      ∃ event, L.turn (f s') e = .leave (f t') event ∧ List.Forall₂ g event'.toList event.toList)
    {fuel : ℕ} {s' last' : σ'} {events' : List α'}
    (hexec : L'.exec env fuel n s' = some (events', last')) :
    ∃ events, L.exec env fuel n (f s') = some (events, f last') ∧
      List.Forall₂ g events' events := by
  refine exec_induction (motive := fun fuel n s' events' last' =>
    ∃ events, L.exec env fuel n (f s') = some (events, f last') ∧ List.Forall₂ g events' events)
    ?done ?leave ?again hexec
  case done =>
    intro fuel n s' hopen
    exact ⟨[], exec_done ((hguard s').symm.trans hopen) fuel, .nil⟩
  case leave =>
    intro fuel n s' t' event' hopen hturn
    obtain ⟨event, hevent, hrelated⟩ := hleave hturn
    exact ⟨_, exec_leave ((hguard s').symm.trans hopen) hevent fuel, hrelated⟩
  case again =>
    intro fuel n s' t' event' events' last' hopen hturn ih
    obtain ⟨event, hevent, hrelated⟩ := hagain hturn
    obtain ⟨rest, hrest, hlater⟩ := ih
    refine ⟨event :: rest, ?_, .cons hrelated hlater⟩
    rw [exec_again ((hguard s').symm.trans hopen) hevent, hrest]
    rfl

/-- Event rule: what each turn ensures of its event, in a state of the invariant, holds of all
events, each with the place of its turn. -/
theorem exec_events {I : ℕ → σ → Prop} {Q : ℕ → α → Prop}
    (hagain : ∀ {n s s' event}, I n s → L.guard s = true → L.turn s (env n) = .again s' event →
      I (n + 1) s' ∧ Q n event)
    (hleave : ∀ {n s s' event}, I n s → L.guard s = true →
      L.turn s (env n) = .leave s' (some event) → Q n event)
    {fuel : ℕ} (hI : I n s) (hexec : L.exec env fuel n s = some (events, last)) :
    ∀ i event, events[i]? = some event → Q (n + i) event := by
  refine exec_induction (motive := fun _ n s events _ =>
    I n s → ∀ i event, events[i]? = some event → Q (n + i) event) ?done ?leave ?again hexec hI
  case done =>
    intro fuel n s hguard hI i event hevent
    cases hevent
  case leave =>
    intro fuel n s s' left hguard hturn hI i event hevent
    cases left with
    | none => cases hevent
    | some left =>
        cases i with
        | zero =>
            obtain rfl := Option.some.inj hevent
            exact hleave hI hguard hturn
        | succ i => cases hevent
  case again =>
    intro fuel n s s' first events last hguard hturn ih hI i event hevent
    obtain ⟨hI', hfirst⟩ := hagain hI hguard hturn
    cases i with
    | zero =>
        obtain rfl := Option.some.inj hevent
        exact hfirst
    | succ i =>
        have hlater := ih hI' i event hevent
        rw [Nat.add_assoc, Nat.add_comm 1 i] at hlater
        exact hlater

/-- Order rule: the states bound the events that are still to come, and a turn that goes on
raises the bound above its event. -/
theorem exec_pairwise {I : σ → Prop} {R : α → α → Prop} {B : σ → α → Prop}
    (hagain : ∀ {s s' e event}, I s → L.guard s = true → L.turn s e = .again s' event →
      I s' ∧ B s event ∧ ∀ later, B s' later → R event later ∧ B s later)
    (hleave : ∀ {s s' e event}, I s → L.guard s = true → L.turn s e = .leave s' (some event) →
      B s event)
    {fuel : ℕ} (hI : I s) (hexec : L.exec env fuel n s = some (events, last)) :
    events.Pairwise R ∧ ∀ event ∈ events, B s event := by
  refine exec_induction (motive := fun _ _ s events _ =>
    I s → events.Pairwise R ∧ ∀ event ∈ events, B s event) ?done ?leave ?again hexec hI
  case done =>
    intro fuel n s hguard hI
    exact ⟨.nil, List.forall_mem_nil _⟩
  case leave =>
    intro fuel n s s' event hguard hturn hI
    cases event with
    | none => exact ⟨.nil, List.forall_mem_nil _⟩
    | some event =>
        exact ⟨List.pairwise_singleton R event,
          List.forall_mem_singleton.2 (hleave hI hguard hturn)⟩
  case again =>
    intro fuel n s s' event events last hguard hturn ih hI
    obtain ⟨hI', hevent, hlater⟩ := hagain hI hguard hturn
    obtain ⟨hpairwise, hbounds⟩ := ih hI'
    exact ⟨hpairwise.cons fun later hmem => (hlater later (hbounds later hmem)).1,
      List.forall_mem_cons.2 ⟨hevent, fun later hmem => (hlater later (hbounds later hmem)).2⟩⟩

end Loop

end NewApi.Lib
