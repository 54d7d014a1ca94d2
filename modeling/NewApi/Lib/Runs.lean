import Mathlib.Algebra.Order.BigOperators.Group.List
import Mathlib.Algebra.Order.Ring.Nat
import Mathlib.Data.List.SplitBy

/-!
# Runs of a list

`List.splitBy` cuts a list into the runs of neighbours that are related.  Here it is followed from
left to right, as a loop comes upon the elements.
-/

namespace NewApi.Lib.Runs

universe u v

variable {α : Type u} {β : Type v} {r : α → α → Bool} {l : List α} {a : α}

/-- An element that is not related to the last one begins a run. -/
theorem splitBy_concat_of_not (hnot : ∀ x ∈ l.getLast?, r x a = false) :
    (l ++ [a]).splitBy r = l.splitBy r ++ [[a]] :=
  List.splitBy_append_cons [] hnot

/-- An element that is related to the last one goes on with its run. -/
theorem splitBy_concat_of_rel {runs : List (List α)} {run : List α} {x : α}
    (hruns : l.splitBy r = runs ++ [run ++ [x]]) (hrel : r x a = true) :
    (l ++ [a]).splitBy r = runs ++ [run ++ [x] ++ [a]] := by
  obtain ⟨hflatten, hnonempty, hchain, hapart⟩ := List.splitBy_eq_iff.1 hruns
  rw [List.splitBy_eq_iff]
  refine ⟨?_, ?_, ?_, ?_⟩
  · rw [hflatten]
    simp
  · intro hnil
    rcases List.mem_append.1 hnil with hold | hlast
    · exact hnonempty (List.mem_append_left _ hold)
    · simp at hlast
  · intro m hm
    rcases List.mem_append.1 hm with hold | hlast
    · exact hchain m (List.mem_append_left _ hold)
    · obtain rfl := List.mem_singleton.1 hlast
      have hrun := hchain (run ++ [x]) (List.mem_append_right _ (List.mem_singleton_self _))
      refine List.isChain_append.2 ⟨hrun, List.isChain_singleton a, fun y hy z hz => ?_⟩
      rw [List.getLast?_concat] at hy
      cases hy
      cases hz
      exact hrel
  · rw [List.isChain_append] at hapart ⊢
    obtain ⟨hbefore, -, hlast⟩ := hapart
    refine ⟨hbefore, List.isChain_singleton _, fun y hy z hz => ?_⟩
    cases hz
    obtain ⟨hy', hne, hfalse⟩ := hlast y hy (run ++ [x]) rfl
    refine ⟨hy', by simp, ?_⟩
    rw [List.head_append_of_ne_nil hne]
    exact hfalse

/-- An element that is related to the next one begins its run. -/
theorem splitBy_cons_of_rel {runs : List (List α)} {run : List α} {b : α}
    (hruns : (b :: l).splitBy r = run :: runs) (hrel : r a b = true) :
    (a :: b :: l).splitBy r = (a :: run) :: runs := by
  obtain ⟨hflatten, hnonempty, hchain, hapart⟩ := List.splitBy_eq_iff.1 hruns
  cases run with
  | nil => exact absurd List.mem_cons_self hnonempty
  | cons c run =>
      obtain ⟨rfl, hrest⟩ := List.cons.inj hflatten
      rw [List.splitBy_eq_iff]
      refine ⟨?_, ?_, ?_, ?_⟩
      · rw [hflatten]
        rfl
      · intro hnil
        rcases List.mem_cons.1 hnil with hnil | hnil
        · cases hnil
        · exact hnonempty (List.mem_cons_of_mem _ hnil)
      · intro m hm
        rcases List.mem_cons.1 hm with rfl | hm
        · exact List.isChain_cons_cons.2 ⟨hrel, hchain _ List.mem_cons_self⟩
        · exact hchain m (List.mem_cons_of_mem _ hm)
      · rw [List.isChain_cons] at hapart ⊢
        refine ⟨fun m hm => ?_, hapart.2⟩
        obtain ⟨hne, hne', hfalse⟩ := hapart.1 m hm
        exact ⟨List.cons_ne_nil _ _, hne', hfalse⟩

/-- The first run begins with the first element. -/
theorem splitBy_cons (r : α → α → Bool) (a : α) (l : List α) :
    ∃ run runs, (a :: l).splitBy r = (a :: run) :: runs := by
  have hflatten := List.flatten_splitBy r (a :: l)
  have hnonempty := List.nil_notMem_splitBy r (a :: l)
  cases hruns : (a :: l).splitBy r with
  | nil =>
      rw [hruns] at hflatten
      cases hflatten
  | cons run runs =>
      rw [hruns] at hflatten hnonempty
      cases run with
      | nil => exact absurd List.mem_cons_self hnonempty
      | cons b run =>
          obtain ⟨rfl, -⟩ := List.cons.inj hflatten
          exact ⟨run, runs, rfl⟩

/-- The last run ends with the last element. -/
theorem splitBy_concat (r : α → α → Bool) (l : List α) (x : α) :
    ∃ runs run, (l ++ [x]).splitBy r = runs ++ [run ++ [x]] := by
  have hne : (l ++ [x]).splitBy r ≠ [] := by simp
  rcases List.eq_nil_or_concat ((l ++ [x]).splitBy r) with hnil | ⟨runs, last, hruns⟩
  · exact absurd hnil hne
  rw [List.concat_eq_append] at hruns
  have hlast : last ≠ [] := by
    intro hempty
    have hmem := List.nil_notMem_splitBy r (l ++ [x])
    rw [hruns, hempty] at hmem
    simp at hmem
  rcases List.eq_nil_or_concat last with hnil | ⟨run, y, hrun⟩
  · exact absurd hnil hlast
  rw [List.concat_eq_append] at hrun
  have hflatten := List.flatten_splitBy r (l ++ [x])
  rw [hruns, hrun, List.flatten_append, List.flatten_singleton, ← List.append_assoc] at hflatten
  obtain ⟨-, hxy⟩ := List.append_inj' hflatten rfl
  cases hxy
  exact ⟨runs, run, by rw [hruns, hrun]⟩

/-- What is collected run by run. -/
theorem flatMap_splitBy (r : α → α → Bool) (l : List α) (f : α → List β) :
    (l.splitBy r).flatMap (fun run => run.flatMap f) = l.flatMap f := by
  calc (l.splitBy r).flatMap (fun run => run.flatMap f)
      = ((l.splitBy r).flatMap id).flatMap f := List.flatMap_assoc.symm
    _ = l.flatMap f := by rw [List.flatMap_id, List.flatten_splitBy]

/-- A list that is no longer than the end of another is that other only if nothing comes before the
end. -/
theorem eq_append_iff_of_length_le {before rest : List α} (hlength : l.length ≤ rest.length) :
    l = before ++ rest ↔ before = [] ∧ l = rest := by
  constructor
  · intro hwhole
    have hsuffix : rest <:+ l := ⟨before, hwhole.symm⟩
    obtain rfl := hsuffix.eq_of_length_le hlength
    exact ⟨List.self_eq_append_left.1 hwhole, rfl⟩
  · intro hend
    rw [hend.1, hend.2, List.nil_append]

/-- Where every piece is no longer than it should be, all are right if the whole is. -/
theorem flatMap_eq_flatMap_iff {f g : α → List β}
    (hlength : ∀ a ∈ l, (f a).length ≤ (g a).length) :
    l.flatMap f = l.flatMap g ↔ ∀ a ∈ l, f a = g a := by
  induction l with
  | nil => exact iff_of_true rfl fun _ ha => nomatch ha
  | cons a l ih =>
      rw [List.forall_mem_cons] at hlength ⊢
      rw [List.flatMap_cons, List.flatMap_cons]
      constructor
      · intro hall
        have hrest : (l.flatMap f).length ≤ (l.flatMap g).length := by
          rw [List.length_flatMap, List.length_flatMap]
          exact List.sum_le_sum hlength.2
        have hwhole := congrArg List.length hall
        rw [List.length_append, List.length_append] at hwhole
        have hfirst := hlength.1
        obtain ⟨ha, hl⟩ := List.append_inj hall (by omega)
        exact ⟨ha, (ih hlength.2).1 hl⟩
      · intro hall
        rw [hall.1, (ih hlength.2).2 hall.2]

/-- The elements that are left out have empty pieces. -/
theorem flatMap_filter (p : α → Bool) (l : List α) (f : α → List β) :
    (l.filter p).flatMap f = l.flatMap fun a => if p a then f a else [] := by
  induction l with
  | nil => rfl
  | cons a l ih =>
      rw [List.flatMap_cons, ← ih]
      cases hp : p a with
      | true => rw [List.filter_cons_of_pos hp, List.flatMap_cons, if_pos rfl]
      | false =>
          rw [List.filter_cons_of_neg (by rw [hp]; exact Bool.false_ne_true), if_neg Bool.false_ne_true,
            List.nil_append]

/-- Which piece an item of the whole stands in. -/
theorem exists_of_flatMap_eq {f : α → List β} {before rest : List β} {b : β}
    (hwhole : l.flatMap f = before ++ b :: rest) :
    ∃ done a todo start more, l = done ++ a :: todo ∧ f a = start ++ b :: more ∧
      before = done.flatMap f ++ start := by
  induction l generalizing before with
  | nil =>
      rw [List.flatMap_nil] at hwhole
      exact absurd hwhole.symm (by simp)
  | cons a l ih =>
      rw [List.flatMap_cons, List.append_eq_append_iff] at hwhole
      rcases hwhole with ⟨more, hbefore, hrest⟩ | ⟨more, hpiece, hrest⟩
      · obtain ⟨done, a', todo, start, more', rfl, hpiece, rfl⟩ := ih hrest
        exact ⟨a :: done, a', todo, start, more', rfl, hpiece,
          by rw [hbefore, List.flatMap_cons, List.append_assoc]⟩
      · cases more with
        | nil =>
            rw [List.append_nil] at hpiece
            have hnext : l.flatMap f = [] ++ b :: rest := hrest.symm
            obtain ⟨done, a', todo, start, more', rfl, hpiece', hstart⟩ := ih hnext
            exact ⟨a :: done, a', todo, start, more', rfl, hpiece',
              by rw [List.flatMap_cons, List.append_assoc, ← hstart, hpiece, List.append_nil]⟩
        | cons first more =>
            cases hrest
            exact ⟨[], a, l, before, more, rfl, hpiece, rfl⟩

/-- A loop whose turns append to what is looked at appends what the elements give. -/
theorem foldl_eq_append_flatMap {σ : Type*} (look : σ → List β) {turn : σ → α → σ}
    {items : α → List β} (hturn : ∀ s a, look (turn s a) = look s ++ items a) (s : σ) (l : List α) :
    look (l.foldl turn s) = look s ++ l.flatMap items := by
  induction l generalizing s with
  | nil => rw [List.foldl_nil, List.flatMap_nil, List.append_nil]
  | cons a l ih => rw [List.foldl_cons, ih, hturn, List.flatMap_cons, List.append_assoc]

end NewApi.Lib.Runs
