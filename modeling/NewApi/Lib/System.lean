import Mathlib.Algebra.Group.Basic
import Mathlib.Data.Option.Basic

/-!
# Guarded step systems

A program that runs concurrently with others is described by the atomic actions its
participants can take.  A `System` gives the effect of one action, or `none` when the
action is disabled.  Runs are lists of actions, and the rules of this file are the only
inductions over runs: `invariant_run` for predicates, `history_run` for what relates a state to the
actions that have led to it, `drain_run` for work that some run can finish, `run_iff_along`,
`reached_iff_along` and `states_iff_along` for properties that a step keeps exactly under a
condition, `run_iff_forall` for runs that complete and keep a property exactly when every action
meets a condition of its own, and `tally_run` for quantities that every action moves by a known
amount.
-/

namespace NewApi.Lib

universe u v w

/-- A system is a partial step function on states. -/
structure System (σ : Type u) (α : Type v) where
  step : σ → α → Option σ

namespace System

variable {σ : Type u} {α : Type v} {β : Type w}

/-- Take the listed actions in order; a disabled action stops the run with `none`. -/
def run (M : System σ α) : σ → List α → Option σ
  | s, [] => some s
  | s, a :: as =>
      match M.step s a with
      | none => none
      | some s' => M.run s' as

/-- Every action the run takes meets the condition in the state it is taken from. -/
def Along (M : System σ α) (C : σ → α → Prop) : σ → List α → Prop
  | _, [] => True
  | s, a :: as =>
      C s a ∧
        match M.step s a with
        | none => True
        | some s' => M.Along C s' as

/-- Sum of the amounts that the actions of the run are worth. -/
def tally [AddMonoid β] (M : System σ α) (w : σ → α → β) : σ → List α → β
  | _, [] => 0
  | s, a :: as =>
      match M.step s a with
      | none => 0
      | some s' => w s a + M.tally w s' as

variable (M : System σ α)

/-- A conditioned run can be checked action by action. -/
instance decidableAlong (C : σ → α → Prop) [∀ s a, Decidable (C s a)] :
    ∀ s as, Decidable (M.Along C s as)
  | _, [] => inferInstanceAs (Decidable True)
  | s, a :: as =>
      match h : M.step s a with
      | none => decidable_of_iff (C s a) (by simp [Along, h])
      | some s' =>
          have := decidableAlong C s' as
          decidable_of_iff (C s a ∧ M.Along C s' as) (by simp [Along, h])

@[simp] theorem run_nil (s : σ) : M.run s [] = some s := rfl

@[simp] theorem tally_nil [AddMonoid β] (w : σ → α → β) (s : σ) : M.tally w s [] = 0 := rfl

@[simp] theorem along_nil (C : σ → α → Prop) (s : σ) : M.Along C s [] := trivial

variable {M}

/-- A completed nonempty run starts with an enabled action. -/
theorem run_cons {s s' : σ} {a : α} {as : List α} (hrun : M.run s (a :: as) = some s') :
    ∃ t, M.step s a = some t ∧ M.run t as = some s' := by
  cases hstep : M.step s a with
  | none => simp [run, hstep] at hrun
  | some t => exact ⟨t, rfl, by simpa [run, hstep] using hrun⟩

theorem run_of_step {s t : σ} {a : α} (hstep : M.step s a = some t) (as : List α) :
    M.run s (a :: as) = M.run t as := by
  rw [run, hstep]

theorem along_cons {C : σ → α → Prop} {s t : σ} {a : α} {as : List α}
    (hstep : M.step s a = some t) (halong : M.Along C s (a :: as)) :
    C s a ∧ M.Along C t as := by
  simpa [Along, hstep] using halong

theorem tally_cons [AddMonoid β] {w : σ → α → β} {s t : σ} {a : α} {as : List α}
    (hstep : M.step s a = some t) : M.tally w s (a :: as) = w s a + M.tally w t as := by
  simp [tally, hstep]

theorem tally_add [AddCommMonoid β] (v w : σ → α → β) (s : σ) (as : List α) :
    M.tally (fun s a => v s a + w s a) s as = M.tally v s as + M.tally w s as := by
  induction as generalizing s with
  | nil => simp
  | cons a as ih =>
      cases hstep : M.step s a with
      | none => simp [tally, hstep]
      | some t => rw [tally_cons hstep, tally_cons hstep, tally_cons hstep, ih, add_add_add_comm]

theorem tally_sub [AddCommGroup β] (v w : σ → α → β) (s : σ) (as : List α) :
    M.tally (fun s a => v s a - w s a) s as = M.tally v s as - M.tally w s as := by
  induction as generalizing s with
  | nil => simp
  | cons a as ih =>
      cases hstep : M.step s a with
      | none => simp [tally, hstep]
      | some t => rw [tally_cons hstep, tally_cons hstep, tally_cons hstep, ih, add_sub_add_comm]

/-- A condition that holds of every action holds along every run. -/
theorem along_of_forall {C : σ → α → Prop} (hC : ∀ s a, C s a) (s : σ) (as : List α) :
    M.Along C s as := by
  induction as generalizing s with
  | nil => trivial
  | cons a as ih =>
      refine ⟨hC s a, ?_⟩
      cases M.step s a with
      | none => trivial
      | some t => exact ih t

/-- A condition on the actions alone holds along every run that takes such actions. -/
theorem along_of_forall_mem {C : α → Prop} {as : List α} (hC : ∀ a ∈ as, C a) (s : σ) :
    M.Along (fun _ a => C a) s as := by
  induction as generalizing s with
  | nil => trivial
  | cons a as ih =>
      obtain ⟨ha, has⟩ := List.forall_mem_cons.1 hC
      refine ⟨ha, ?_⟩
      cases M.step s a with
      | none => trivial
      | some t => exact ih has t

/-- A conditioned run can be cut anywhere. -/
theorem along_append {C : σ → α → Prop} {s t : σ} {as bs : List α} (hrun : M.run s as = some t)
    (halong : M.Along C s (as ++ bs)) : M.Along C s as ∧ M.Along C t bs := by
  induction as generalizing s with
  | nil =>
      obtain rfl : s = t := by simpa using hrun
      exact ⟨trivial, halong⟩
  | cons a as ih =>
      obtain ⟨u, hstep, hrest⟩ := run_cons hrun
      rw [List.cons_append] at halong
      obtain ⟨hC, halong'⟩ := along_cons hstep halong
      obtain ⟨hleft, hright⟩ := ih hrest halong'
      refine ⟨⟨hC, ?_⟩, hright⟩
      rw [hstep]
      exact hleft

theorem run_append {s t : σ} {as : List α} (hrun : M.run s as = some t) (bs : List α) :
    M.run s (as ++ bs) = M.run t bs := by
  induction as generalizing s with
  | nil =>
      obtain rfl := Option.some.inj hrun
      rfl
  | cons a as ih =>
      obtain ⟨u, hstep, hrest⟩ := run_cons hrun
      rw [List.cons_append, run, hstep]
      exact ih hrest

/-- Two conditioned runs are one where the first one ends. -/
theorem along_of_append {C : σ → α → Prop} {s t : σ} {as bs : List α}
    (hrun : M.run s as = some t) (hleft : M.Along C s as) (hright : M.Along C t bs) :
    M.Along C s (as ++ bs) := by
  induction as generalizing s with
  | nil =>
      obtain rfl := Option.some.inj hrun
      exact hright
  | cons a as ih =>
      obtain ⟨u, hstep, hrest⟩ := run_cons hrun
      obtain ⟨hC, hlater⟩ := along_cons hstep hleft
      refine ⟨hC, ?_⟩
      rw [hstep]
      exact ih hrest hlater

/-- Repeating one action until it is disabled has one result. -/
theorem run_replicate_unique {s t u : σ} {a : α} {n m : ℕ}
    (ht : M.run s (List.replicate n a) = some t) (hstuck : M.step t a = none)
    (hu : M.run s (List.replicate m a) = some u) (hstuck' : M.step u a = none) : t = u := by
  induction n generalizing s m with
  | zero =>
      obtain rfl := Option.some.inj ht
      cases m with
      | zero => exact Option.some.inj hu
      | succ m =>
          obtain ⟨v, hstep, -⟩ := run_cons hu
          cases hstuck.symm.trans hstep
  | succ n ih =>
      obtain ⟨v, hstep, hrest⟩ := run_cons ht
      cases m with
      | zero =>
          obtain rfl := Option.some.inj hu
          cases hstuck'.symm.trans hstep
      | succ m =>
          obtain ⟨w, hstep', hrest'⟩ := run_cons hu
          obtain rfl := Option.some.inj (hstep.symm.trans hstep')
          exact ih hrest hrest'

/-- Draining rule: when every item of a list in the state can be brought to a done one by some
actions that keep a reflexive and transitive relation, all items can. -/
theorem drain_run {ι : Type*} (items : σ → List ι) (Done : ι → Prop) {I : σ → Prop}
    (R : σ → σ → Prop) (hrefl : ∀ s, R s s) (htrans : ∀ {s t u}, R s t → R t u → R s u)
    (hone : ∀ {s i x}, I s → (items s)[i]? = some x → ∃ as t y, M.run s as = some t ∧
      items t = (items s).set i y ∧ Done y ∧ I t ∧ R s t) {s : σ} (hI : I s) :
    ∃ as t, M.run s as = some t ∧ (∀ x ∈ items t, Done x) ∧ I t ∧ R s t := by
  suffices hrest : ∀ rest done : List ι, ∀ {s}, items s = done ++ rest → (∀ x ∈ done, Done x) →
      I s → ∃ as t, M.run s as = some t ∧ (∀ x ∈ items t, Done x) ∧ I t ∧ R s t from
    hrest (items s) [] rfl nofun hI
  intro rest
  induction rest with
  | nil =>
      intro done s hitems hdone hI
      rw [List.append_nil] at hitems
      exact ⟨[], s, rfl, by rwa [hitems], hI, hrefl s⟩
  | cons x rest ih =>
      intro done s hitems hdone hI
      have hx : (items s)[done.length]? = some x := by
        rw [hitems, List.getElem?_append_right (Nat.le_refl _), Nat.sub_self, List.getElem?_cons_zero]
      obtain ⟨as, t, y, hrun, hset, hy, ht, hR⟩ := hone hI hx
      have hitems' : items t = (done ++ [y]) ++ rest := by
        rw [hset, hitems, List.set_append_right _ _ (Nat.le_refl _), Nat.sub_self, List.set_cons_zero,
          List.append_assoc, List.singleton_append]
      have hdone' : ∀ z ∈ done ++ [y], Done z :=
        List.forall_mem_append.2 ⟨hdone, List.forall_mem_singleton.2 hy⟩
      obtain ⟨bs, u, hrun', hall, hu, hR'⟩ := ih (done ++ [y]) hitems' hdone' ht
      exact ⟨as ++ bs, u, by rw [run_append hrun, hrun'], hall, hu, htrans hR hR'⟩

/-- Invariant rule: a predicate that conditioned steps preserve holds after a conditioned
run. -/
theorem invariant_run {C : σ → α → Prop} {I : σ → Prop}
    (hpres : ∀ {s a s'}, M.step s a = some s' → C s a → I s → I s')
    {s s' : σ} {as : List α} (hI : I s) (halong : M.Along C s as)
    (hrun : M.run s as = some s') : I s' := by
  induction as generalizing s with
  | nil =>
      obtain rfl : s = s' := by simpa using hrun
      exact hI
  | cons a as ih =>
      obtain ⟨t, hstep, hrest⟩ := run_cons hrun
      obtain ⟨hC, halong'⟩ := along_cons hstep halong
      exact ih (hpres hstep hC hI) halong' hrest

/-- Invariant rule: a predicate that every step preserves holds after every run. -/
theorem kept_run {I : σ → Prop} (hpres : ∀ {s a s'}, M.step s a = some s' → I s → I s')
    {s s' : σ} {as : List α} (hI : I s) (hrun : M.run s as = some s') : I s' :=
  invariant_run (C := fun _ _ => True) (fun hstep _ => hpres hstep) hI
    (along_of_forall (fun _ _ => trivial) s as) hrun

/-- History rule: a relation between the past actions and the state that every step keeps relates
the actions of a run to its end. -/
theorem history_run {I : List α → σ → Prop}
    (hpres : ∀ {past s a s'}, M.step s a = some s' → I past s → I (past ++ [a]) s')
    {past : List α} {s s' : σ} {as : List α} (hI : I past s) (hrun : M.run s as = some s') :
    I (past ++ as) s' := by
  induction as generalizing past s with
  | nil =>
      obtain rfl : s = s' := by simpa using hrun
      rw [List.append_nil]
      exact hI
  | cons a as ih =>
      obtain ⟨t, hstep, hrest⟩ := run_cons hrun
      have hlater := ih (hpres hstep hI) hrest
      rw [List.append_assoc] at hlater
      exact hlater

/-- Exactness rule: when every step keeps a property exactly under its condition, a run keeps it
exactly when all its steps meet the condition. -/
theorem run_iff_along {C : σ → α → Prop} {I P : σ → Prop}
    (hpres : ∀ {s a s'}, M.step s a = some s' → I s → I s')
    (hiff : ∀ {s a s'}, M.step s a = some s' → I s → (P s' ↔ P s ∧ C s a))
    {s s' : σ} {as : List α} (hI : I s) (hrun : M.run s as = some s') :
    P s' ↔ P s ∧ M.Along C s as := by
  induction as generalizing s with
  | nil =>
      obtain rfl : s = s' := by simpa using hrun
      exact ⟨fun hP => ⟨hP, trivial⟩, And.left⟩
  | cons a as ih =>
      obtain ⟨t, hstep, hrest⟩ := run_cons hrun
      rw [ih (hpres hstep hI) hrest, hiff hstep hI, and_assoc, Along, hstep]

/-- Reach rule: an inductive property that steps keep under a condition, and that implies another
property, which a step establishes only under the condition: all states of a completed run have the
other property exactly when all its steps meet the condition. -/
theorem reached_iff_along {C : σ → α → Prop} {P Q : σ → Prop} (himp : ∀ {s}, P s → Q s)
    (hkeep : ∀ {s a s'}, M.step s a = some s' → P s → C s a → P s')
    (hneed : ∀ {s a s'}, M.step s a = some s' → P s → Q s' → C s a)
    {s s' : σ} {as : List α} (hP : P s) (hrun : M.run s as = some s') :
    (∀ before later t, as = before ++ later → M.run s before = some t → Q t) ↔
      M.Along C s as := by
  induction as generalizing s with
  | nil =>
      refine iff_of_true (fun before later t hsplit hreached => ?_) trivial
      obtain ⟨rfl, -⟩ := List.append_eq_nil_iff.1 hsplit.symm
      obtain rfl : s = t := by simpa using hreached
      exact himp hP
  | cons a as ih =>
      obtain ⟨t, hstep, hrest⟩ := run_cons hrun
      rw [Along, hstep]
      constructor
      · intro hstates
        have ht : Q t := hstates [a] as t rfl (run_of_step hstep [])
        have hC : C s a := hneed hstep hP ht
        refine ⟨hC, (ih (hkeep hstep hP hC) hrest).1 fun before later u hsplit hu => ?_⟩
        exact hstates (a :: before) later u (by rw [hsplit, List.cons_append])
          (by rw [run_of_step hstep, hu])
      · intro halong before later u hsplit hu
        obtain ⟨hC, hlater⟩ := halong
        cases before with
        | nil =>
            obtain rfl : s = u := by simpa using hu
            exact himp hP
        | cons b before =>
            rw [List.cons_append, List.cons.injEq] at hsplit
            rw [← hsplit.1, run_of_step hstep] at hu
            exact (ih (hkeep hstep hP hC) hrest).2 hlater before later u hsplit.2 hu

/-- States rule: when a step from a state with a property keeps it exactly under its condition, all
states of a completed run have it exactly when all its steps meet the condition. -/
theorem states_iff_along {C : σ → α → Prop} {I P : σ → Prop}
    (hpres : ∀ {s a s'}, M.step s a = some s' → I s → I s')
    (hiff : ∀ {s a s'}, M.step s a = some s' → I s → P s → (P s' ↔ C s a))
    {s s' : σ} {as : List α} (hI : I s) (hP : P s) (hrun : M.run s as = some s') :
    (∀ before later t, as = before ++ later → M.run s before = some t → P t) ↔
      M.Along C s as :=
  reached_iff_along (P := fun s => I s ∧ P s) And.right
    (fun hstep hs hC => ⟨hpres hstep hs.1, (hiff hstep hs.1 hs.2).2 hC⟩)
    (fun hstep hs hP => (hiff hstep hs.1 hs.2).1 hP) ⟨hI, hP⟩ hrun

/-- Completion rule: when a step from an invariant state is taken and keeps a property
exactly if its action meets a condition, a run completes and keeps the property exactly if
all its actions do. -/
theorem run_iff_forall {C : α → Prop} {I P : σ → Prop}
    (hpres : ∀ {s a s'}, M.step s a = some s' → I s → I s')
    (hiff : ∀ {s a}, I s → ((∃ s', M.step s a = some s' ∧ P s') ↔ P s ∧ C a))
    {s : σ} {as : List α} (hI : I s) :
    (∃ s', M.run s as = some s' ∧ P s') ↔ P s ∧ ∀ a ∈ as, C a := by
  induction as generalizing s with
  | nil => simp
  | cons a as ih =>
      rw [List.forall_mem_cons, ← and_assoc, ← hiff hI, run]
      cases hstep : M.step s a with
      | none =>
          constructor
          · rintro ⟨s', hrun, -⟩
            cases hrun
          · rintro ⟨⟨s', hnone, -⟩, -⟩
            cases hnone
      | some t =>
          dsimp only
          rw [ih (hpres hstep hI)]
          refine and_congr_left fun _ => ?_
          constructor
          · intro hP
            exact ⟨t, rfl, hP⟩
          · rintro ⟨s', hsame, hP⟩
            obtain rfl := Option.some.inj hsame
            exact hP

/-- In a completed run, conditions that agree on every conditioned step from an invariant state hold
along the same runs. -/
theorem along_congr {C D E : σ → α → Prop} {I : σ → Prop}
    (hpres : ∀ {s a s'}, M.step s a = some s' → C s a → I s → I s')
    (hiff : ∀ {s a s'}, M.step s a = some s' → C s a → I s → (D s a ↔ E s a))
    {s s' : σ} {as : List α} (hI : I s) (halong : M.Along C s as) (hrun : M.run s as = some s') :
    M.Along D s as ↔ M.Along E s as := by
  induction as generalizing s with
  | nil => exact Iff.rfl
  | cons a as ih =>
      obtain ⟨t, hstep, hrest⟩ := run_cons hrun
      obtain ⟨hC, halong'⟩ := along_cons hstep halong
      rw [Along, Along, hstep, hiff hstep hC hI]
      exact and_congr_right' (ih (hpres hstep hC hI) halong' hrest)

/-- Tally rule: when every conditioned step from an invariant state moves a quantity by
its worth, a run moves it by the sum of the worths. -/
theorem tally_run [AddMonoid β] {C : σ → α → Prop} {I : σ → Prop} {f : σ → β}
    {w : σ → α → β} (hpres : ∀ {s a s'}, M.step s a = some s' → C s a → I s → I s')
    (hmove : ∀ {s a s'}, M.step s a = some s' → C s a → I s → f s' = f s + w s a)
    {s s' : σ} {as : List α} (hI : I s) (halong : M.Along C s as)
    (hrun : M.run s as = some s') : f s' = f s + M.tally w s as := by
  induction as generalizing s with
  | nil =>
      obtain rfl : s = s' := by simpa using hrun
      simp
  | cons a as ih =>
      obtain ⟨t, hstep, hrest⟩ := run_cons hrun
      obtain ⟨hC, halong'⟩ := along_cons hstep halong
      rw [ih (hpres hstep hC hI) halong' hrest, hmove hstep hC hI, tally_cons hstep, add_assoc]

end System

end NewApi.Lib
