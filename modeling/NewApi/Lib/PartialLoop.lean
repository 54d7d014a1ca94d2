import Mathlib.Data.List.Basic

/-!
# Loops that may panic

A loop whose body may panic is a `foldlM` in `Option`.  `DefinedIff` says when a result is there and
what holds of it, and is kept by the loop: if every turn is defined exactly under a condition on its
element, and does to a state what a total step does to an abstract one, then the loop is defined
exactly if all elements meet the condition, and does what the total loop does.
-/

namespace NewApi.Lib

universe u v w

/-- The result is there exactly under the condition, and then it is as described. -/
def DefinedIff {σ : Type u} (C : Prop) (result : Option σ) (R : σ → Prop) : Prop :=
  (C → ∃ s, result = some s ∧ R s) ∧ (¬ C → result = none)

namespace DefinedIff

variable {σ : Type u} {τ : Type w} {α : Type v} {C D : Prop} {result : Option σ} {R Q : σ → Prop}

theorem congr (hdefined : DefinedIff C result R) (hiff : C ↔ D) (himp : ∀ s, R s → Q s) :
    DefinedIff D result Q := by
  refine ⟨fun hD => ?_, fun hD => hdefined.2 fun hC => hD (hiff.1 hC)⟩
  obtain ⟨s, hs, hR⟩ := hdefined.1 (hiff.2 hD)
  exact ⟨s, hs, himp s hR⟩

theorem exists_iff (hdefined : DefinedIff C result R) : (∃ s, result = some s) ↔ C := by
  constructor
  · intro hsome
    by_contra hC
    obtain ⟨s, hs⟩ := hsome
    cases hs.symm.trans (hdefined.2 hC)
  · intro hC
    obtain ⟨s, hs, -⟩ := hdefined.1 hC
    exact ⟨s, hs⟩

theorem pure {s : σ} (hR : R s) : DefinedIff True (some s) R :=
  ⟨fun _ => ⟨s, rfl, hR⟩, fun hnot => (hnot trivial).elim⟩

variable {f : σ → α → Option σ} {g : τ → α → τ} {I : σ → τ → Prop} {P : α → Prop}

/-- The rule for the loop. -/
theorem foldlM {l : List α}
    (hturn : ∀ a ∈ l, ∀ s t, I s t → DefinedIff (P a) (f s a) fun s' => I s' (g t a))
    {s : σ} {t : τ} (hI : I s t) :
    DefinedIff (∀ a ∈ l, P a) (l.foldlM f s) fun s' => I s' (l.foldl g t) := by
  induction l generalizing s t with
  | nil => exact ⟨fun _ => ⟨s, rfl, hI⟩, fun hnot => (hnot fun _ ha => (nomatch ha)).elim⟩
  | cons a l ih =>
      have hfirst := hturn a List.mem_cons_self s t hI
      have hrest : ∀ {s t}, I s t → _ := ih fun a ha => hturn a (List.mem_cons_of_mem _ ha)
      rw [List.forall_mem_cons, List.foldlM_cons, List.foldl_cons]
      constructor
      · intro hall
        obtain ⟨s', hs', hI'⟩ := hfirst.1 hall.1
        rw [hs']
        exact (hrest hI').1 hall.2
      · intro hnot
        by_cases ha : P a
        · obtain ⟨s', hs', hI'⟩ := hfirst.1 ha
          rw [hs']
          exact (hrest hI').2 fun hl => hnot ⟨ha, hl⟩
        · rw [hfirst.2 ha]
          rfl

end DefinedIff

end NewApi.Lib
