import Mathlib.Data.List.Forall2

/-!
# Code that returns, fails or panics

A function that has a result and an error may also panic.  The three are an outcome, and a loop over
a list is a `foldlM` or a `mapM`.  A loop whose turns go well, fail or panic by their element alone
ends as the first element does that does not go well.
-/

namespace NewApi.Lib

universe u

inductive Outcome (α : Type u) : Type u
  | ok (a : α)
  | error (err : String)
  | panicked

namespace Outcome

variable {α β σ : Type u}

instance : Monad Outcome where
  pure := ok
  bind x f :=
    match x with
    | ok a => f a
    | error err => error err
    | panicked => panicked

@[simp] theorem pure_eq (a : α) : (pure a : Outcome α) = ok a := rfl

@[simp] theorem ok_bind (a : α) (f : α → Outcome β) : (ok a >>= f) = f a := rfl

@[simp] theorem error_bind (err : String) (f : α → Outcome β) :
    (error err >>= f) = error err := rfl

@[simp] theorem panicked_bind (f : α → Outcome β) : (panicked >>= f) = panicked := rfl

instance : LawfulMonad Outcome :=
  LawfulMonad.mk' Outcome (fun x => by cases x <;> rfl) (fun _ _ => rfl)
    (fun x _ _ => by cases x <;> rfl)

/-- A value is returned. -/
def isOk : Outcome α → Bool
  | ok _ => true
  | _ => false

variable {x : Outcome α} {f : α → Outcome β} {l : List α}

theorem bind_eq_ok {b : β} : (x >>= f) = ok b ↔ ∃ a, x = ok a ∧ f a = ok b := by
  cases x <;> simp

theorem bind_eq_panicked : (x >>= f) = panicked ↔
    x = panicked ∨ ∃ a, x = ok a ∧ f a = panicked := by
  cases x <;> simp

theorem isOk_iff : x.isOk = true ↔ ∃ a, x = ok a := by
  cases x <;> simp [isOk]

theorem bind_isOk : (x >>= f).isOk = true ↔ ∃ a, x = ok a ∧ (f a).isOk = true := by
  cases x <;> simp [isOk]

/-! ## Loops -/

/-- A loop whose turns all go well. -/
theorem mapM_ok {g : α → β} (hturn : ∀ a ∈ l, f a = ok (g a)) : l.mapM f = ok (l.map g) := by
  induction l with
  | nil => rfl
  | cons a l ih =>
      rw [List.forall_mem_cons] at hturn
      rw [List.mapM_cons, hturn.1, ih hturn.2]
      rfl

theorem mapM_isOk : (l.mapM f).isOk = true ↔ ∀ a ∈ l, (f a).isOk = true := by
  induction l with
  | nil => exact iff_of_true rfl fun _ ha => nomatch ha
  | cons a l ih =>
      rw [List.mapM_cons, bind_isOk, List.forall_mem_cons, ← ih, isOk_iff]
      constructor
      · intro hok
        obtain ⟨b, hb, hrest⟩ := hok
        obtain ⟨bs, hbs, -⟩ := bind_isOk.1 hrest
        exact ⟨⟨b, hb⟩, isOk_iff.2 ⟨bs, hbs⟩⟩
      · intro hok
        obtain ⟨⟨b, hb⟩, hrest⟩ := hok
        obtain ⟨bs, hbs⟩ := isOk_iff.1 hrest
        exact ⟨b, hb, bind_isOk.2 ⟨bs, hbs, rfl⟩⟩

/-- The first element that does not go well decides how the loop ends. -/
theorem mapM_panicked_iff : l.mapM f = panicked ↔
    ∃ a, l.find? (fun a => !(f a).isOk) = some a ∧ f a = panicked := by
  induction l with
  | nil => simp
  | cons a l ih =>
      rw [List.mapM_cons, bind_eq_panicked]
      cases ha : f a with
      | ok b =>
          have hrest : (a :: l).find? (fun a => !(f a).isOk) = l.find? fun a => !(f a).isOk :=
            List.find?_cons_of_neg (by rw [ha]; exact Bool.false_ne_true)
          rw [hrest, ← ih]
          simp [bind_eq_panicked]
      | error err =>
          have hfirst : (a :: l).find? (fun a => !(f a).isOk) = some a :=
            List.find?_cons_of_pos (by rw [ha]; rfl)
          rw [hfirst]
          simp [ha]
      | panicked =>
          have hfirst : (a :: l).find? (fun a => !(f a).isOk) = some a :=
            List.find?_cons_of_pos (by rw [ha]; rfl)
          rw [hfirst]
          simp [ha]

/-- A loop without errors panics if a turn does. -/
theorem mapM_panicked_of_mem (hturn : ∀ a ∈ l, (f a).isOk = true ∨ f a = panicked) {a : α}
    (ha : a ∈ l) (hpanic : f a = panicked) : l.mapM f = panicked := by
  have hsome : (l.find? fun a => !(f a).isOk).isSome = true := by
    rw [List.find?_isSome]
    exact ⟨a, ha, by rw [hpanic]; rfl⟩
  obtain ⟨first, hfirst⟩ := Option.isSome_iff_exists.1 hsome
  refine mapM_panicked_iff.2 ⟨first, hfirst, ?_⟩
  rcases hturn first (List.mem_of_find?_eq_some hfirst) with hok | hpanicked
  · have hfails := List.find?_some hfirst
    rw [hok] at hfails
    cases hfails
  · exact hpanicked

variable {step : σ → α → Outcome σ} {s : σ}

/-- The rule for a loop that keeps an invariant of what it has gone through. -/
theorem foldlM_ok {I : List α → σ → Prop} {done : List α}
    (hstep : ∀ done s, ∀ a ∈ l, I done s → ∃ s', step s a = ok s' ∧ I (done ++ [a]) s')
    (hI : I done s) : ∃ s', l.foldlM step s = ok s' ∧ I (done ++ l) s' := by
  induction l generalizing done s with
  | nil => exact ⟨s, rfl, by rw [List.append_nil]; exact hI⟩
  | cons a l ih =>
      obtain ⟨s', hs', hI'⟩ := hstep done s a List.mem_cons_self hI
      obtain ⟨s'', hs'', hI''⟩ := ih (fun done s a ha => hstep done s a (List.mem_cons_of_mem _ ha)) hI'
      refine ⟨s'', ?_, ?_⟩
      · rw [List.foldlM_cons, hs', ok_bind, hs'']
      · rw [List.append_cons]
        exact hI''

/-- A loop whose turns go well by their element alone, and what it ends with. -/
theorem foldlM_eq_ok_iff {good : α → Prop} {turn : σ → α → σ}
    (hgood : ∀ s a, good a → step s a = ok (turn s a))
    (hbad : ∀ s a, ¬ good a → (step s a).isOk = false) {s' : σ} :
    l.foldlM step s = ok s' ↔ (∀ a ∈ l, good a) ∧ s' = l.foldl turn s := by
  induction l generalizing s with
  | nil =>
      rw [List.foldlM_nil, pure_eq, ok.injEq, List.foldl_nil, eq_comm]
      exact (and_iff_right fun _ ha => nomatch ha).symm
  | cons a l ih =>
      rw [List.foldlM_cons, List.forall_mem_cons, List.foldl_cons]
      by_cases ha : good a
      · rw [hgood s a ha, ok_bind, ih, and_iff_right ha]
      · refine iff_of_false (fun hok => ?_) fun hall => ha hall.1.1
        obtain ⟨b, hb, -⟩ := bind_eq_ok.1 hok
        have hnot := hbad s a ha
        rw [hb] at hnot
        cases hnot

/-- A loop panics if the first element that does not go well does, where the state has no part in
that. -/
theorem foldlM_panicked_iff {goesWell : α → Bool} {panics : α → Prop}
    (hwell : ∀ s a, (step s a).isOk = goesWell a)
    (hpanics : ∀ s a, step s a = panicked ↔ panics a) :
    l.foldlM step s = panicked ↔ ∃ a, l.find? (fun a => !goesWell a) = some a ∧ panics a := by
  induction l generalizing s with
  | nil => simp
  | cons a l ih =>
      rw [List.foldlM_cons, bind_eq_panicked, hpanics]
      cases hgoes : goesWell a with
      | true =>
          obtain ⟨s', hs'⟩ := isOk_iff.1 ((hwell s a).trans hgoes)
          have hnot : ¬panics a := by
            rw [← hpanics s, hs']
            exact fun h => nomatch h
          rw [List.find?_cons_of_neg (by rw [hgoes]; exact Bool.false_ne_true), or_iff_right hnot]
          constructor
          · intro hrest
            obtain ⟨s'', -, hpanicked⟩ := hrest
            exact ih.1 hpanicked
          · intro hrest
            exact ⟨s', hs', ih.2 hrest⟩
      | false =>
          have hfails : ∀ s', step s a ≠ ok s' := by
            intro s' hs'
            have hok := hwell s a
            rw [hs', hgoes] at hok
            cases hok
          rw [List.find?_cons_of_pos (by rw [hgoes]; rfl)]
          constructor
          · intro hend
            rcases hend with ha | ⟨s', hs', -⟩
            · exact ⟨a, rfl, ha⟩
            · exact absurd hs' (hfails s')
          · intro hfirst
            obtain ⟨b, hb, hpanic⟩ := hfirst
            cases hb
            exact .inl hpanic

end Outcome

/-- A loop that gives a value or an error gives its values turn by turn. -/
theorem mapM_eq_ok_iff {α β : Type*} {ε : Type*} {f : α → Except ε β} {l : List α} {values : List β} :
    l.mapM f = .ok values ↔ List.Forall₂ (fun a b => f a = .ok b) l values := by
  induction l generalizing values with
  | nil =>
      rw [List.mapM_nil, List.forall₂_nil_left_iff]
      exact ⟨fun h => (Except.ok.inj h).symm, fun h => by rw [h]; rfl⟩
  | cons a l ih =>
      rw [List.mapM_cons, List.forall₂_cons_left_iff]
      cases hfirst : f a with
      | error err => exact iff_of_false nofun fun ⟨_, _, hok, _⟩ => nomatch hok
      | ok b =>
          cases hrest : l.mapM f with
          | error err =>
              refine iff_of_false nofun fun ⟨_, rest, _, hlater, _⟩ => ?_
              rw [← ih, hrest] at hlater
              cases hlater
          | ok rest =>
              constructor
              · intro hvalues
                obtain rfl := Except.ok.inj hvalues
                exact ⟨b, rest, rfl, ih.1 hrest, rfl⟩
              · rintro ⟨b', rest', hok, hlater, rfl⟩
                obtain rfl := Except.ok.inj hok
                rw [← ih, hrest] at hlater
                obtain rfl := Except.ok.inj hlater
                rfl

/-- Each value is given by a turn. -/
theorem exists_of_mem_mapM {α β : Type*} {ε : Type*} {f : α → Except ε β} {l : List α}
    {values : List β} (hmapM : l.mapM f = .ok values) {b : β} (hmem : b ∈ values) :
    ∃ a ∈ l, f a = .ok b := by
  have hturns := mapM_eq_ok_iff.1 hmapM
  clear hmapM
  induction hturns with
  | nil => cases hmem
  | cons hfirst _ ih =>
      rcases List.mem_cons.1 hmem with rfl | hlater
      · exact ⟨_, List.mem_cons_self, hfirst⟩
      · obtain ⟨a, ha, hturn⟩ := ih hlater
        exact ⟨a, List.mem_cons_of_mem _ ha, hturn⟩

end NewApi.Lib
