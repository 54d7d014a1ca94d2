import Mathlib.Data.Finset.Card

/-!
# Chains of links

A partial function links an item to at most one other item.  The chain from an item ends where an
item has no link, or one to itself; or it enters a cycle of two items at least.  It does one of the
two at most, and whoever remembers the items it has seen finds out which when there are finitely
many links.
-/

namespace NewApi.Lib.Chain

variable {α : Type*} (next : α → Option α)

/-- The links lead from the one item to the other. -/
def Leads : α → α → Prop :=
  Relation.ReflTransGen fun a b => next a = some b

/-- A chain that comes to this item does not leave it. -/
def Stops (a : α) : Prop :=
  next a = none ∨ next a = some a

/-- The chain from the first item ends at the last one. -/
def Ends (a last : α) : Prop :=
  Leads next a last ∧ Stops next last

/-- The chain comes to an item on a cycle of two items at least. -/
def EntersCycle (a : α) : Prop :=
  ∃ x y, Leads next a x ∧ next x = some y ∧ y ≠ x ∧ Leads next y x

section

variable {next} {a b c last : α}

theorem Leads.step (hleads : Leads next a b) (hnext : next b = some c) : Leads next a c :=
  Relation.ReflTransGen.tail hleads hnext

/-- From a place where chains stop nothing else is reached. -/
theorem Stops.eq_of_leads (hstops : Stops next a) (hleads : Leads next a b) : b = a := by
  induction hleads with
  | refl => rfl
  | tail _ hlink ih =>
      subst ih
      rcases hstops with hnone | hself
      · rw [hnone] at hlink
        cases hlink
      · rw [hself] at hlink
        exact (Option.some.inj hlink).symm

/-- Of two items that are reached from one, the one is reached from the other. -/
theorem Leads.total (hb : Leads next a b) (hc : Leads next a c) :
    Leads next b c ∨ Leads next c b :=
  Relation.ReflTransGen.total_of_right_unique
    (fun _ _ _ hx hy => Option.some.inj (hx.symm.trans hy)) hb hc

theorem Ends.unique (hb : Ends next a b) (hc : Ends next a c) : b = c := by
  rcases hb.1.total hc.1 with hbc | hcb
  · exact (hb.2.eq_of_leads hbc).symm
  · exact hc.2.eq_of_leads hcb

/-- What is reached from an item on a cycle leads back to it. -/
theorem leads_back {x y : α} (hlink : next x = some y) (hback : Leads next y x)
    (hleads : Leads next x a) : Leads next a x := by
  induction hleads with
  | refl => exact Relation.ReflTransGen.refl
  | @tail b c _ hbc ih =>
      rcases Relation.ReflTransGen.cases_head ih with rfl | ⟨d, hbd, hd⟩
      · rw [hbc] at hlink
        cases hlink
        exact hback
      · cases hbc.symm.trans hbd
        exact hd

/-- A chain that ends does not enter a cycle. -/
theorem Ends.not_entersCycle (hends : Ends next a last) : ¬ EntersCycle next a := by
  rintro ⟨x, y, hx, hlink, hne, hback⟩
  have hlast : last = x := by
    rcases hends.1.total hx with hleads | hleads
    · exact (hends.2.eq_of_leads hleads).symm
    · exact (hends.2.eq_of_leads (leads_back hlink hback hleads)).symm
  subst hlast
  rcases hends.2 with hnone | hself
  · rw [hnone] at hlink
    cases hlink
  · rw [hself] at hlink
    exact hne (Option.some.inj hlink).symm

end

/-! ## Items that have been seen -/

section Seen

variable [DecidableEq α]

/-- The targets of links that have not been seen yet. -/
def unseen (targets : Finset α) (visited : List α) : ℕ :=
  (targets \ visited.toFinset).card

/-- A target that is seen for the first time is one less to come. -/
theorem unseen_cons_lt {targets : Finset α} {visited : List α} {b : α} (hb : b ∈ targets)
    (hnew : b ∉ visited) : unseen targets (b :: visited) < unseen targets visited := by
  refine Finset.card_lt_card (Finset.ssubset_iff_of_subset ?_ |>.2 ⟨b, ?_, ?_⟩)
  · refine Finset.sdiff_subset_sdiff (Finset.Subset.refl _) ?_
    intro a ha
    rw [List.mem_toFinset] at ha ⊢
    exact List.mem_cons_of_mem b ha
  · rw [Finset.mem_sdiff, List.mem_toFinset]
    exact ⟨hb, hnew⟩
  · rw [Finset.mem_sdiff, List.mem_toFinset]
    exact fun hmem => hmem.2 List.mem_cons_self

theorem unseen_le (targets : Finset α) (visited : List α) : unseen targets visited ≤ targets.card :=
  Finset.card_le_card Finset.sdiff_subset

end Seen

end NewApi.Lib.Chain
