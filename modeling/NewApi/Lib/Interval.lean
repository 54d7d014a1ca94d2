import Mathlib.Data.List.Sort

/-!
# Lists of integer intervals

Sorting a list of intervals and merging those that overlap or touch leaves the integers that are
covered as they are, and it leaves a list alone whose intervals are sorted and apart.
-/

namespace NewApi.Lib

/-- The integers from `start` to `stop`. -/
structure Interval where
  start : ℤ
  stop : ℤ
deriving DecidableEq, Repr

namespace Interval

/-- Order by the start, then by the end. -/
def before (r s : Interval) : Bool :=
  if r.start = s.start then decide (r.stop < s.stop) else decide (r.start < s.start)

def Le (r s : Interval) : Prop :=
  before s r = false

instance : DecidableRel Le := fun r s => inferInstanceAs (Decidable (before s r = false))

def sort (ranges : List Interval) : List Interval :=
  ranges.insertionSort Le

/-- Merge into the last interval what overlaps or touches it. -/
def mergeFrom (last : Interval) : List Interval → List Interval
  | [] => [last]
  | r :: rest =>
      if r.start ≤ last.stop + 1 then
        mergeFrom { last with stop := if r.stop > last.stop then r.stop else last.stop } rest
      else last :: mergeFrom r rest

def merge : List Interval → List Interval
  | [] => []
  | first :: rest => mergeFrom first rest

/-- One of the intervals has the integer. -/
def Covers (ranges : List Interval) (n : ℤ) : Prop :=
  ∃ r ∈ ranges, r.start ≤ n ∧ n ≤ r.stop

/-- Every interval has an integer, and between an interval and the later ones there is an integer
that neither has. -/
structure Apart (ranges : List Interval) : Prop where
  nonempty : ∀ r ∈ ranges, r.start ≤ r.stop
  gaps : ranges.Pairwise fun r s => r.stop + 1 < s.start

/-- Every interval has an integer, and the later ones are behind it. -/
structure Ordered (ranges : List Interval) : Prop where
  nonempty : ∀ r ∈ ranges, r.start ≤ r.stop
  later : ranges.Pairwise fun r s => r.stop < s.start

section

variable {ranges rest : List Interval} {r s last : Interval} {n : ℤ}

/-! ## Sorting -/

theorem le_iff : Le r s ↔ r.start < s.start ∨ r.start = s.start ∧ r.stop ≤ s.stop := by
  unfold Le before
  split <;> simp only [decide_eq_false_iff_not] <;> omega

instance : Std.Total Le where
  total r s := by
    rw [le_iff, le_iff]
    omega

instance : IsTrans Interval Le where
  trans r s t := by
    rw [le_iff, le_iff, le_iff]
    omega

instance : Std.Antisymm Le where
  antisymm r s hrs hsr := by
    rw [le_iff] at hrs hsr
    have hstart : r.start = s.start := by omega
    have hstop : r.stop = s.stop := by omega
    cases r
    cases s
    simp_all

theorem sort_perm (ranges : List Interval) : (sort ranges).Perm ranges :=
  List.perm_insertionSort Le ranges

theorem pairwise_sort (ranges : List Interval) : (sort ranges).Pairwise Le :=
  List.pairwise_insertionSort Le ranges

/-- However the sorting is done, there is one result. -/
theorem eq_sort_of_perm {sorted : List Interval} (hperm : sorted.Perm ranges)
    (hsorted : sorted.Pairwise Le) : sorted = sort ranges :=
  (hperm.trans (sort_perm ranges).symm).eq_of_pairwise' hsorted (pairwise_sort ranges)

theorem covers_of_perm {others : List Interval} (hperm : ranges.Perm others) :
    Covers ranges n ↔ Covers others n := by
  simp only [Covers, hperm.mem_iff]

/-! ## Merging -/

theorem not_covers_nil (n : ℤ) : ¬ Covers [] n := by
  simp [Covers]

theorem covers_cons : Covers (r :: rest) n ↔ (r.start ≤ n ∧ n ≤ r.stop) ∨ Covers rest n := by
  simp [Covers]

theorem mergeFrom_join (hjoin : r.start ≤ last.stop + 1) : mergeFrom last (r :: rest) =
    mergeFrom { last with stop := if r.stop > last.stop then r.stop else last.stop } rest :=
  if_pos hjoin

theorem mergeFrom_next (hnext : ¬ r.start ≤ last.stop + 1) :
    mergeFrom last (r :: rest) = last :: mergeFrom r rest :=
  if_neg hnext

theorem pairwise_start_join (stop : ℤ)
    (hsorted : (last :: r :: rest).Pairwise fun r s => r.start ≤ s.start) :
    ({ last with stop := stop } :: rest).Pairwise fun r s => r.start ≤ s.start := by
  obtain ⟨hlast, -, hrest⟩ := by simpa only [List.pairwise_cons] using hsorted
  exact List.pairwise_cons.2 ⟨fun s hs => hlast s (List.mem_cons_of_mem r hs), hrest⟩

theorem covers_mergeFrom (hsorted : (last :: rest).Pairwise fun r s => r.start ≤ s.start) :
    Covers (mergeFrom last rest) n ↔ Covers (last :: rest) n := by
  induction rest generalizing last with
  | nil => rfl
  | cons r rest ih =>
      obtain ⟨hlast, hrest⟩ := List.pairwise_cons.1 hsorted
      have hstart := hlast r List.mem_cons_self
      by_cases hjoin : r.start ≤ last.stop + 1
      · rw [mergeFrom_join hjoin, ih (pairwise_start_join _ hsorted), covers_cons, covers_cons,
          covers_cons, ← or_assoc]
        refine or_congr_left ?_
        show (last.start ≤ n ∧ n ≤ if r.stop > last.stop then r.stop else last.stop) ↔ _
        split <;> omega
      · rw [mergeFrom_next hjoin, covers_cons, ih hrest, covers_cons (r := last)]

/-- What is merged begins no earlier than what was there. -/
theorem start_le_of_mem_mergeFrom
    (hsorted : (last :: rest).Pairwise fun r s => r.start ≤ s.start)
    (hr : r ∈ mergeFrom last rest) : last.start ≤ r.start := by
  induction rest generalizing last with
  | nil =>
      rw [mergeFrom, List.mem_singleton] at hr
      rw [hr]
  | cons s rest ih =>
      obtain ⟨hlast, hrest⟩ := List.pairwise_cons.1 hsorted
      by_cases hjoin : s.start ≤ last.stop + 1
      · rw [mergeFrom_join hjoin] at hr
        have hstart := ih (pairwise_start_join _ hsorted) hr
        exact hstart
      · rw [mergeFrom_next hjoin] at hr
        rcases List.mem_cons.1 hr with rfl | hr
        · exact le_refl _
        · have hfirst := hlast s List.mem_cons_self
          have hstart := ih hrest hr
          omega

theorem apart_mergeFrom (hsorted : (last :: rest).Pairwise fun r s => r.start ≤ s.start)
    (hnonempty : ∀ r ∈ last :: rest, r.start ≤ r.stop) : Apart (mergeFrom last rest) := by
  induction rest generalizing last with
  | nil => exact ⟨hnonempty, List.pairwise_singleton _ _⟩
  | cons r rest ih =>
      obtain ⟨-, hrest⟩ := List.pairwise_cons.1 hsorted
      obtain ⟨hfirst, hnonempty'⟩ := List.forall_mem_cons.1 hnonempty
      by_cases hjoin : r.start ≤ last.stop + 1
      · rw [mergeFrom_join hjoin]
        refine ih (pairwise_start_join _ hsorted)
          (List.forall_mem_cons.2 ⟨?_, (List.forall_mem_cons.1 hnonempty').2⟩)
        show last.start ≤ if r.stop > last.stop then r.stop else last.stop
        split <;> omega
      · have hapart := ih hrest hnonempty'
        rw [mergeFrom_next hjoin]
        refine ⟨List.forall_mem_cons.2 ⟨hfirst, hapart.nonempty⟩,
          List.pairwise_cons.2 ⟨fun t ht => ?_, hapart.gaps⟩⟩
        have hstart := start_le_of_mem_mergeFrom hrest ht
        omega

theorem mergeFrom_of_apart (hapart : Apart (last :: rest)) :
    mergeFrom last rest = last :: rest := by
  induction rest generalizing last with
  | nil => rfl
  | cons r rest ih =>
      obtain ⟨hnonempty, hgaps⟩ := hapart
      obtain ⟨hlast, hrest⟩ := List.pairwise_cons.1 hgaps
      have hgap := hlast r List.mem_cons_self
      rw [mergeFrom_next (by omega), ih ⟨(List.forall_mem_cons.1 hnonempty).2, hrest⟩]

/-! ## Sorting and merging -/

theorem pairwise_start_sort (ranges : List Interval) :
    (sort ranges).Pairwise fun r s => r.start ≤ s.start :=
  (pairwise_sort ranges).imp fun {r s} hle => by
    rw [le_iff] at hle
    omega

theorem covers_merge_sort (ranges : List Interval) (n : ℤ) :
    Covers (merge (sort ranges)) n ↔ Covers ranges n := by
  rw [← covers_of_perm (sort_perm ranges)]
  have hsorted := pairwise_start_sort ranges
  cases hsort : sort ranges with
  | nil => rfl
  | cons first rest =>
      rw [hsort] at hsorted
      exact covers_mergeFrom hsorted

theorem apart_merge_sort (hnonempty : ∀ r ∈ ranges, r.start ≤ r.stop) :
    Apart (merge (sort ranges)) := by
  have hsorted := pairwise_start_sort ranges
  have hnonempty' : ∀ r ∈ sort ranges, r.start ≤ r.stop := fun r hr =>
    hnonempty r ((sort_perm ranges).mem_iff.1 hr)
  cases hsort : sort ranges with
  | nil => exact ⟨List.forall_mem_nil _, List.Pairwise.nil⟩
  | cons first rest =>
      rw [hsort] at hsorted hnonempty'
      exact apart_mergeFrom hsorted hnonempty'

theorem merge_sort_of_apart (hapart : Apart ranges) : merge (sort ranges) = ranges := by
  have hsorted : ranges.Pairwise Le := by
    refine hapart.gaps.imp_of_mem fun {r s} hr _ hgap => ?_
    have hr := hapart.nonempty r hr
    rw [le_iff]
    omega
  rw [← eq_sort_of_perm (List.Perm.refl ranges) hsorted]
  cases ranges with
  | nil => rfl
  | cons first rest => exact mergeFrom_of_apart hapart

theorem Apart.ordered (hapart : Apart ranges) : Ordered ranges :=
  ⟨hapart.nonempty, hapart.gaps.imp fun hgap => by omega⟩

theorem Ordered.tail (hordered : Ordered (r :: rest)) : Ordered rest :=
  ⟨(List.forall_mem_cons.1 hordered.nonempty).2, (List.pairwise_cons.1 hordered.later).2⟩

/-- Of intervals in order, none covers what is before the first one. -/
theorem Ordered.not_covers (hordered : Ordered (r :: rest)) (hbefore : n < r.start) :
    ¬ Covers (r :: rest) n := by
  rw [covers_cons, not_or]
  refine ⟨by omega, fun hcovers => ?_⟩
  obtain ⟨s, hs, hstart, -⟩ := hcovers
  have hlater := (List.pairwise_cons.1 hordered.later).1 s hs
  have hr := hordered.nonempty r List.mem_cons_self
  omega

end

end Interval

end NewApi.Lib
