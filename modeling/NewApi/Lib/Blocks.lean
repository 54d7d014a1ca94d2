import Mathlib.Data.List.Basic

/-!
# Lists written block by block

Two lists are written out of the same items, each with a block of its own for an item.
The one is a beginning of the other when the blocks are the same up to the last, and when it is
one no block can contain an entry more often than the block of the other.
-/

namespace NewApi.Lib.Blocks

variable {α β : Type*} {A O : α → List β} {xs : List α}

theorem prefix_flatMap (hsame : ∀ a ∈ xs.dropLast, A a = O a)
    (hlast : ∀ a ∈ xs.getLast?, A a <+: O a) : xs.flatMap A <+: xs.flatMap O := by
  induction xs with
  | nil => exact List.prefix_rfl
  | cons a xs ih =>
      cases xs with
      | nil =>
          rw [List.flatMap_singleton, List.flatMap_singleton]
          exact hlast a rfl
      | cons b rest =>
          rw [List.flatMap_cons, List.flatMap_cons (f := O), hsame a (List.mem_cons_self ..)]
          exact (List.prefix_append_right_inj (O a)).2
            (ih (fun c hc => hsame c (List.mem_cons_of_mem a hc)) hlast)

section Count

variable [BEq β] {x : β}

theorem count_flatMap_le (hle : ∀ a ∈ xs, (O a).count x ≤ (A a).count x) :
    (xs.flatMap O).count x ≤ (xs.flatMap A).count x := by
  induction xs with
  | nil => exact Nat.le_refl _
  | cons a xs ih =>
      rw [List.flatMap_cons, List.flatMap_cons, List.count_append, List.count_append]
      exact Nat.add_le_add (hle a (List.mem_cons_self ..))
        (ih fun b hb => hle b (List.mem_cons_of_mem a hb))

theorem count_flatMap_lt (hle : ∀ a ∈ xs, (O a).count x ≤ (A a).count x)
    (hlt : ∃ a ∈ xs, (O a).count x < (A a).count x) :
    (xs.flatMap O).count x < (xs.flatMap A).count x := by
  induction xs with
  | nil =>
      obtain ⟨a, ha, -⟩ := hlt
      cases ha
  | cons a xs ih =>
      rw [List.flatMap_cons, List.flatMap_cons, List.count_append, List.count_append]
      have hfirst := hle a (List.mem_cons_self ..)
      have hrest : ∀ b ∈ xs, (O b).count x ≤ (A b).count x :=
        fun b hb => hle b (List.mem_cons_of_mem a hb)
      obtain ⟨b, hb, hless⟩ := hlt
      rcases List.mem_cons.1 hb with rfl | hb
      · exact Nat.add_lt_add_of_lt_of_le hless (count_flatMap_le hrest)
      · exact Nat.add_lt_add_of_le_of_lt hfirst (ih hrest ⟨b, hb, hless⟩)

/-- A list with more of an entry than the other is no beginning of it. -/
theorem not_prefix_flatMap (hle : ∀ a ∈ xs, (O a).count x ≤ (A a).count x)
    (hlt : ∃ a ∈ xs, (O a).count x < (A a).count x) : ¬xs.flatMap A <+: xs.flatMap O := by
  intro hstarts
  exact absurd (hstarts.sublist.count_le x) (Nat.not_le.2 (count_flatMap_lt hle hlt))

end Count

/-- When each block begins the other one's block and never goes on there with the first entry
of a block, a beginning has the same blocks up to the last. -/
theorem eq_of_prefix_flatMap (hstarts : xs.flatMap A <+: xs.flatMap O)
    (hnone : ∀ a ∈ xs, A a ≠ []) (hbegins : ∀ a ∈ xs, A a <+: O a)
    (hnext : ∀ a ∈ xs, ∀ b ∈ xs, ∀ first later, A b = first :: later →
      ¬A a ++ [first] <+: O a) :
    ∀ a ∈ xs.dropLast, A a = O a := by
  induction xs with
  | nil =>
      intro a ha
      cases ha
  | cons a xs ih =>
      cases xs with
      | nil =>
          intro b hb
          cases hb
      | cons b rest =>
          obtain ⟨more, hmore⟩ := hbegins a (List.mem_cons_self ..)
          have hsame : A a = O a := by
            cases more with
            | nil => rw [← hmore, List.append_nil]
            | cons y more =>
                -- the next block would have to go on inside the block
                obtain ⟨first, later, hfirst⟩ := List.exists_cons_of_ne_nil
                  (hnone b (List.mem_cons_of_mem a (List.mem_cons_self ..)))
                rw [List.flatMap_cons, List.flatMap_cons (f := O), ← hmore, List.append_assoc,
                  List.prefix_append_right_inj, List.flatMap_cons, hfirst, List.cons_append,
                  List.cons_append, List.cons_prefix_cons] at hstarts
                refine absurd ?_ (hnext a (List.mem_cons_self ..) b
                  (List.mem_cons_of_mem a (List.mem_cons_self ..)) first later hfirst)
                rw [← hmore, hstarts.1, List.prefix_append_right_inj]
                exact ⟨more, rfl⟩
          rw [List.flatMap_cons, List.flatMap_cons (f := O), hsame,
            List.prefix_append_right_inj] at hstarts
          intro c hc
          rcases List.mem_cons.1 hc with rfl | hc
          · exact hsame
          · exact ih hstarts (fun d hd => hnone d (List.mem_cons_of_mem a hd))
              (fun d hd => hbegins d (List.mem_cons_of_mem a hd))
              (fun d hd e he => hnext d (List.mem_cons_of_mem a hd) e (List.mem_cons_of_mem a he))
              c hc

end NewApi.Lib.Blocks
