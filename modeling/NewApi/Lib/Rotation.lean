import Mathlib.Data.List.Range

/-!
# Taking turns around a ring

The places of a ring of `n` are served in turn: the first place from a cursor on that takes part is
served, and the cursor is set behind it.  A cursor that always stands behind the place served last
keeps the numbers of services of any two places that take part within one of each other.
-/

namespace NewApi.Lib.Rotation

/-- The places of the ring from a place on. -/
def around (n start : ℕ) : List ℕ :=
  (List.range n).map fun i => (start + i) % n

/-- How far a place is ahead of the cursor. -/
def ahead (n cursor place : ℕ) : ℕ :=
  if cursor ≤ place then place - cursor else place + n - cursor

section

variable {n cursor place other : ℕ}

theorem ahead_lt (hcursor : cursor < n) (hplace : place < n) : ahead n cursor place < n := by
  unfold ahead
  split_ifs with hle
  · omega
  · omega

/-- Going ahead leads to the place. -/
theorem add_ahead_mod (hcursor : cursor < n) (hplace : place < n) :
    (cursor + ahead n cursor place) % n = place := by
  unfold ahead
  split_ifs with hle
  · rw [Nat.add_sub_cancel' hle, Nat.mod_eq_of_lt hplace]
  · have hround : cursor + (place + n - cursor) = place + n := by omega
    rw [hround, Nat.add_mod_right, Nat.mod_eq_of_lt hplace]

/-- A place that is reached by fewer steps than the ring has is that many steps ahead. -/
theorem ahead_add_mod {i : ℕ} (hcursor : cursor < n) (hi : i < n) :
    ahead n cursor ((cursor + i) % n) = i := by
  unfold ahead
  by_cases hround : cursor + i < n
  · rw [Nat.mod_eq_of_lt hround, if_pos (by omega)]
    omega
  · rw [Nat.mod_eq_sub_mod (by omega), Nat.mod_eq_of_lt (by omega), if_neg (by omega)]
    omega

/-- Behind a served place the cursor is as far from the others as it was, less the steps to the
place; the place itself is last. -/
theorem ahead_behind (hcursor : cursor < n) (hplace : place < n) (hother : other < n)
    (hfirst : ahead n cursor place ≤ ahead n cursor other) :
    ahead n ((place + 1) % n) other =
      if other = place then n - 1 else ahead n cursor other - ahead n cursor place - 1 := by
  have hbehind : (place + 1) % n = if place + 1 = n then 0 else place + 1 := by
    split_ifs with hend
    · rw [hend, Nat.mod_self]
    · exact Nat.mod_eq_of_lt (by omega)
  rw [hbehind]
  unfold ahead at hfirst ⊢
  split_ifs at hfirst ⊢ <;> omega

end

/-- The place that is served: the first around the ring that takes part. -/
def serve (n start : ℕ) (takesPart : ℕ → Bool) : Option ℕ :=
  (around n start).find? takesPart

section

variable {n cursor place : ℕ} {takesPart : ℕ → Bool}

/-- The place that is served takes part, and no such place is nearer. -/
theorem serve_spec (hcursor : cursor < n) (hserve : serve n cursor takesPart = some place) :
    place < n ∧ takesPart place = true ∧
      ∀ other < n, takesPart other = true → ahead n cursor place ≤ ahead n cursor other := by
  unfold serve around at hserve
  rw [List.find?_map, Option.map_eq_some_iff] at hserve
  obtain ⟨i, hfind, rfl⟩ := hserve
  obtain ⟨htakes, before, after, hrange, hbefore⟩ := List.find?_eq_some_iff_append.1 hfind
  have hi : i < n := by
    rw [← List.mem_range, hrange]
    exact List.mem_append_right _ List.mem_cons_self
  refine ⟨Nat.mod_lt _ (by omega), htakes, fun other hother htakesPart => ?_⟩
  rw [ahead_add_mod hcursor hi]
  by_contra hnearer
  -- a nearer place stands before the one that was found
  have hlength : before.length = i := by
    have hat : (List.range n)[before.length]? = some i := by
      rw [hrange, List.getElem?_append_right le_rfl, Nat.sub_self]
      rfl
    obtain ⟨hlt, helem⟩ := List.getElem?_eq_some_iff.1 hat
    rwa [List.getElem_range] at helem
  have hmem : ahead n cursor other ∈ before := by
    have hat : (List.range n)[ahead n cursor other]? = some (ahead n cursor other) :=
      List.getElem?_range (ahead_lt hcursor hother)
    rw [hrange, List.getElem?_append_left (by omega)] at hat
    exact List.mem_of_getElem? hat
  have hnot := hbefore _ hmem
  rw [Function.comp_apply, add_ahead_mod hcursor hother, htakesPart] at hnot
  cases hnot

/-- If a place takes part, one is served. -/
theorem serve_isSome (hcursor : cursor < n) (hplace : place < n) (htakes : takesPart place = true) :
    ∃ served, serve n cursor takesPart = some served := by
  refine Option.isSome_iff_exists.1 (List.find?_isSome.2 ⟨place, ?_, htakes⟩)
  exact List.mem_map.2 ⟨ahead n cursor place, List.mem_range.2 (ahead_lt hcursor hplace),
    add_ahead_mod hcursor hplace⟩

end

/-- The places that take part were served equally often, and those that the cursor has passed in
this round once more. -/
def Balanced (n : ℕ) (takesPart : ℕ → Bool) (cursor : ℕ) (count : ℕ → ℕ) : Prop :=
  ∀ near < n, ∀ far < n, takesPart near = true → takesPart far = true →
    ahead n cursor near ≤ ahead n cursor far → count near ≤ count far ∧ count far ≤ count near + 1

section

variable {n cursor place : ℕ} {takesPart : ℕ → Bool} {count count' : ℕ → ℕ}

theorem balanced_zero (n : ℕ) (takesPart : ℕ → Bool) (cursor : ℕ) :
    Balanced n takesPart cursor fun _ => 0 :=
  fun _ _ _ _ _ _ _ => ⟨le_rfl, Nat.zero_le _⟩

theorem Balanced.fair (hbalanced : Balanced n takesPart cursor count) {i j : ℕ} (hi : i < n)
    (hj : j < n) (hitakes : takesPart i = true) (hjtakes : takesPart j = true) :
    count i ≤ count j + 1 := by
  rcases le_total (ahead n cursor i) (ahead n cursor j) with hle | hle
  · have hcount := hbalanced i hi j hj hitakes hjtakes hle
    omega
  · exact (hbalanced j hj i hi hjtakes hitakes hle).2

/-- Serving a place and setting the cursor behind it keeps the balance. -/
theorem Balanced.served (hbalanced : Balanced n takesPart cursor count) (hcursor : cursor < n)
    (hserve : serve n cursor takesPart = some place) (hplace : count' place = count place + 1)
    (hothers : ∀ other, other ≠ place → count' other = count other) :
    Balanced n takesPart ((place + 1) % n) count' := by
  obtain ⟨hlt, htakes, hfirst⟩ := serve_spec hcursor hserve
  intro near hnear far hfar hneartakes hfartakes hle
  have hnearfirst := hfirst near hnear hneartakes
  have hfarfirst := hfirst far hfar hfartakes
  rw [ahead_behind hcursor hlt hnear hnearfirst, ahead_behind hcursor hlt hfar hfarfirst] at hle
  have hnearlt := ahead_lt hcursor hnear
  have hfarlt := ahead_lt hcursor hfar
  by_cases hnearplace : near = place
  · subst hnearplace
    by_cases hfarplace : far = near
    · subst hfarplace
      exact ⟨le_rfl, Nat.le_succ _⟩
    · -- the served place is the last one now
      rw [if_pos rfl, if_neg hfarplace] at hle
      omega
  · by_cases hfarplace : far = place
    · subst hfarplace
      have hcount := hbalanced far hfar near hnear hfartakes hneartakes hnearfirst
      rw [hplace, hothers near hnearplace]
      omega
    · rw [if_neg hnearplace, if_neg hfarplace] at hle
      rw [hothers near hnearplace, hothers far hfarplace]
      refine hbalanced near hnear far hfar hneartakes hfartakes ?_
      by_contra hgt
      have hbetween : ahead n cursor far = ahead n cursor place := by omega
      have hsame := congrArg (fun steps => (cursor + steps) % n) hbetween
      rw [add_ahead_mod hcursor hfar, add_ahead_mod hcursor hlt] at hsame
      exact hfarplace hsame

end

end NewApi.Lib.Rotation
