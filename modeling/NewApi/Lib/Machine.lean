/-!
# Machines that answer

A component that is called again and again answers each input from its state. Two machines whose
answers are to be compared are related by a relation on their states that every input keeps:
`answers_eq_of_simulates` is the induction over the inputs, and `answers_eq` compares two machines
that simulate the same one.
-/

namespace NewApi.Lib

universe u v w x

/-- A machine gives an answer and a next state for each input. -/
structure Machine (σ : Type u) (ι : Type v) (ο : Type w) where
  respond : σ → ι → ο × σ

namespace Machine

variable {σ : Type u} {τ : Type u} {υ : Type u} {ι : Type v} {ο : Type w} {κ : Type w} {ρ : Type x}

/-- The answers to the inputs in order. -/
def answers (M : Machine σ ι ο) : σ → List ι → List ο
  | _, [] => []
  | s, input :: inputs => (M.respond s input).1 :: M.answers (M.respond s input).2 inputs

@[simp] theorem answers_nil (M : Machine σ ι ο) (s : σ) : M.answers s [] = [] := rfl

theorem answers_cons (M : Machine σ ι ο) (s : σ) (input : ι) (inputs : List ι) :
    M.answers s (input :: inputs) =
      (M.respond s input).1 :: M.answers (M.respond s input).2 inputs := rfl

/-- Related states give answers that look alike to proper inputs, and remain related. -/
def Simulates (M : Machine σ ι ο) (A : Machine τ ι κ) (see : ο → ρ) (seeAbstract : κ → ρ)
    (Proper : ι → Prop) (R : σ → τ → Prop) : Prop :=
  ∀ s t input, R s t → Proper input →
    see (M.respond s input).1 = seeAbstract (A.respond t input).1 ∧
      R (M.respond s input).2 (A.respond t input).2

section

variable {M : Machine σ ι ο} {A : Machine τ ι κ} {see : ο → ρ} {seeAbstract : κ → ρ}
  {Proper : ι → Prop} {R : σ → τ → Prop}

/-- Simulation rule: from related states, the answers to proper inputs look alike. -/
theorem answers_eq_of_simulates (hsim : M.Simulates A see seeAbstract Proper R) {s : σ} {t : τ}
    (hR : R s t) {inputs : List ι} (hproper : ∀ input ∈ inputs, Proper input) :
    (M.answers s inputs).map see = (A.answers t inputs).map seeAbstract := by
  induction inputs generalizing s t with
  | nil => rfl
  | cons input inputs ih =>
      obtain ⟨hinput, hinputs⟩ := List.forall_mem_cons.1 hproper
      obtain ⟨hanswer, hnext⟩ := hsim s t input hR hinput
      rw [answers_cons, answers_cons, List.map_cons, List.map_cons, hanswer, ih hnext hinputs]

end

/-- Two machines that simulate a third one cannot be told apart. -/
theorem answers_eq {M : Machine σ ι ο} {N : Machine υ ι ο} {A : Machine τ ι κ} {see : ο → ρ}
    {seeAbstract : κ → ρ} {Proper : ι → Prop} {R : σ → τ → Prop} {S : υ → τ → Prop}
    (hM : M.Simulates A see seeAbstract Proper R) (hN : N.Simulates A see seeAbstract Proper S)
    {s : σ} {s' : υ} {t : τ} (hR : R s t) (hS : S s' t) {inputs : List ι}
    (hproper : ∀ input ∈ inputs, Proper input) :
    (M.answers s inputs).map see = (N.answers s' inputs).map see :=
  (answers_eq_of_simulates hM hR hproper).trans (answers_eq_of_simulates hN hS hproper).symm

end Machine

end NewApi.Lib
