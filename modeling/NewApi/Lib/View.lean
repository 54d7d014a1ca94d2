import Mathlib.Data.List.Nodup

/-!
# Materialised views

A base table whose records are identified by a key, and a second table that stores the rows
derived from each record.  The rows carry a primary key of their own that determines the
record they belong to.  The view mirrors the base when it holds exactly the derived rows,
each once.  Programs maintain a view in three ways, each with a rule here: they update rows
in place (`map`), they drop the rows of dropped records (`filter`), and they derive the rows
of some records again (`refresh`), during which the view is right only outside the records
still to be refreshed.
-/

namespace NewApi.Lib

variable {α β κ π : Type*}

/-- A list cut into batches; `fuel` bounds their number. -/
def chunkUpTo (size : ℕ) : ℕ → List α → List (List α)
  | 0, _ => []
  | _ + 1, [] => []
  | fuel + 1, x :: xs => (x :: xs).take size :: chunkUpTo size fuel ((x :: xs).drop size)

/-- A list cut into batches of the given size, the last one possibly shorter. -/
def chunk (size : ℕ) (xs : List α) : List (List α) :=
  chunkUpTo size xs.length xs

theorem flatten_chunkUpTo {size : ℕ} (hsize : 0 < size) {fuel : ℕ} {xs : List α}
    (hfuel : xs.length ≤ fuel) : (chunkUpTo size fuel xs).flatten = xs := by
  induction fuel generalizing xs with
  | zero => simpa [chunkUpTo] using hfuel
  | succ fuel ih =>
      cases xs with
      | nil => rfl
      | cons x xs =>
          have hshort : ((x :: xs).drop size).length ≤ fuel := by
            rw [List.length_drop]
            rw [List.length_cons] at hfuel ⊢
            omega
          rw [chunkUpTo, List.flatten_cons, ih hshort, List.take_append_drop]

/-- The batches together are the list. -/
theorem flatten_chunk {size : ℕ} (hsize : 0 < size) (xs : List α) :
    (chunk size xs).flatten = xs :=
  flatten_chunkUpTo hsize (Nat.le_refl _)

section Insert

variable [DecidableEq π] {pk : β → π} {rows new : List β} {row : β}

/-- Insert a row unless its primary key is taken. -/
def insertIgnore (pk : β → π) (rows : List β) (row : β) : List β :=
  if pk row ∈ rows.map pk then rows else rows ++ [row]

/-- Rows with new and distinct primary keys are all inserted. -/
theorem insertIgnore_all (hnodup : (new.map pk).Nodup)
    (hnew : ∀ row ∈ new, pk row ∉ rows.map pk) :
    new.foldl (insertIgnore pk) rows = rows ++ new := by
  induction new generalizing rows with
  | nil => simp
  | cons row new ih =>
      rw [List.map_cons, List.nodup_cons] at hnodup
      have hrow : pk row ∉ rows.map pk := hnew row (by simp)
      rw [List.foldl_cons, insertIgnore, if_neg hrow, ih hnodup.2]
      · simp
      · intro other hother
        rw [List.map_append, List.mem_append, not_or]
        refine ⟨hnew other (by simp [hother]), ?_⟩
        have hne : pk other ≠ pk row := by
          intro heq
          exact hnodup.1 (heq ▸ List.mem_map_of_mem hother)
        simpa using hne

theorem insertIgnore_nodup (hnodup : (rows.map pk).Nodup) :
    ((insertIgnore pk rows row).map pk).Nodup := by
  rw [insertIgnore]
  split
  case isTrue htaken => exact hnodup
  case isFalse hfree =>
    rw [List.map_append]
    refine List.Nodup.append hnodup (by simp) ?_
    intro k hk hk'
    obtain rfl : k = pk row := by simpa using hk'
    exact hfree hk

/-- Primary keys stay distinct, whatever is inserted. -/
theorem insertIgnore_foldl_nodup (hnodup : (rows.map pk).Nodup) :
    ((new.foldl (insertIgnore pk) rows).map pk).Nodup := by
  induction new generalizing rows with
  | nil => exact hnodup
  | cons row new ih => exact ih (insertIgnore_nodup hnodup)

theorem mem_insertIgnore {other : β} (hmem : other ∈ insertIgnore pk rows row) :
    other ∈ rows ∨ other = row := by
  rw [insertIgnore] at hmem
  split at hmem
  case isTrue htaken => exact .inl hmem
  case isFalse hfree => simpa using hmem

/-- Only given rows are inserted. -/
theorem mem_insertIgnore_foldl {other : β} (hmem : other ∈ new.foldl (insertIgnore pk) rows) :
    other ∈ rows ∨ other ∈ new := by
  induction new generalizing rows with
  | nil => exact .inl hmem
  | cons row new ih =>
      rcases ih hmem with hrows | hnew
      · rcases mem_insertIgnore hrows with hold | rfl
        · exact .inl hold
        · exact .inr (by simp)
      · exact .inr (by simp [hnew])

theorem pk_mem_insertIgnore {k : π} (hk : k ∈ rows.map pk ∨ k = pk row) :
    k ∈ (insertIgnore pk rows row).map pk := by
  rw [insertIgnore]
  split
  case isTrue htaken => exact hk.elim id fun heq => heq ▸ htaken
  case isFalse hfree => simpa using hk

/-- Every given row is inserted or finds its primary key taken. -/
theorem pk_mem_insertIgnore_foldl {k : π} (hk : k ∈ rows.map pk ∨ k ∈ new.map pk) :
    k ∈ (new.foldl (insertIgnore pk) rows).map pk := by
  induction new generalizing rows with
  | nil => simpa using hk
  | cons row new ih =>
      refine ih ?_
      rcases hk with hold | hnew
      · exact .inl (pk_mem_insertIgnore (.inl hold))
      · rw [List.map_cons, List.mem_cons] at hnew
        exact hnew.imp (fun heq => pk_mem_insertIgnore (.inr heq)) id

end Insert

/-- How rows are derived from records.  The rows of one record have distinct primary keys,
and a primary key tells the record. -/
structure View (α β κ π : Type*) where
  key : α → κ
  rows : α → List β
  pk : β → π
  owner : π → κ
  owner_rows : ∀ a, ∀ b ∈ rows a, owner (pk b) = key a
  nodup_rows : ∀ a, ((rows a).map pk).Nodup

namespace View

variable (V : View α β κ π)

/-- Insert the rows derived from a record. -/
def add [DecidableEq π] (view : List β) (record : α) : List β :=
  (V.rows record).foldl (insertIgnore V.pk) view

/-- Delete the rows that belong to a record of the given keys. -/
def remove [DecidableEq κ] (view : List β) (keys : List κ) : List β :=
  view.filter fun row => decide (V.owner (V.pk row) ∉ keys)

/-- Delete the rows of a record and derive them again. -/
def refresh [DecidableEq κ] [DecidableEq π] (view : List β) (record : α) : List β :=
  V.add (V.remove view [V.key record]) record

/-- The view mirrors the base outside the records whose keys are marked stale. -/
structure MirrorsOutside (stale : κ → Prop) (base : List α) (view : List β) : Prop where
  keys : (base.map V.key).Nodup
  nodup : (view.map V.pk).Nodup
  mem : ∀ row, ¬stale (V.owner (V.pk row)) → (row ∈ view ↔ ∃ a ∈ base, row ∈ V.rows a)

/-- The view holds exactly the rows derived from the base, each once. -/
def Mirrors (base : List α) (view : List β) : Prop :=
  V.MirrorsOutside (fun _ => False) base view

variable {V} {base : List α} {view : List β} {stale : κ → Prop}

/-- The rows of a record that has none yet are appended. -/
theorem add_eq_append [DecidableEq π] {a : α} (hnone : ∀ row ∈ view, V.owner (V.pk row) ≠ V.key a) :
    V.add view a = view ++ V.rows a := by
  refine insertIgnore_all (V.nodup_rows a) fun row hrow htaken => ?_
  obtain ⟨old, hold, hpk⟩ := List.mem_map.1 htaken
  have howner := V.owner_rows a row hrow
  rw [← hpk] at howner
  exact hnone old hold howner

theorem mem_remove [DecidableEq κ] {keys : List κ} {row : β} :
    row ∈ V.remove view keys ↔ row ∈ view ∧ V.owner (V.pk row) ∉ keys := by
  simp [remove]

theorem nodup_remove [DecidableEq κ] (keys : List κ) (hnodup : (view.map V.pk).Nodup) :
    ((V.remove view keys).map V.pk).Nodup :=
  hnodup.sublist ((List.filter_sublist).map V.pk)

/-- A refresh replaces the rows of the record by the derived ones. -/
theorem refresh_eq [DecidableEq κ] [DecidableEq π] (a : α) :
    V.refresh view a = V.remove view [V.key a] ++ V.rows a := by
  refine add_eq_append fun row hrow => ?_
  simpa using (mem_remove.1 hrow).2

theorem nodup_append_rows {a : α} (hnodup : (view.map V.pk).Nodup)
    (hnone : ∀ row ∈ view, V.owner (V.pk row) ≠ V.key a) :
    ((view ++ V.rows a).map V.pk).Nodup := by
  rw [List.map_append]
  refine List.Nodup.append hnodup (V.nodup_rows a) ?_
  intro pk hold hnew
  obtain ⟨old, holdmem, rfl⟩ := List.mem_map.1 hold
  obtain ⟨new, hnewmem, heq⟩ := List.mem_map.1 hnew
  exact hnone old holdmem (heq ▸ V.owner_rows a new hnewmem)

/-- Two records with the same key are the same record. -/
theorem eq_of_key {a a' : α} (hkeys : (base.map V.key).Nodup) (ha : a ∈ base) (ha' : a' ∈ base)
    (hkey : V.key a = V.key a') : a = a' :=
  List.inj_on_of_nodup_map hkeys ha ha' hkey

theorem mirrors_nil : V.Mirrors [] [] :=
  ⟨by simp, by simp, by simp⟩

/-- Records may change freely where they are then counted as stale. -/
theorem Mirrors.map_base {f : α → α} (hmirrors : V.Mirrors base view)
    (hkey : ∀ a ∈ base, V.key (f a) = V.key a)
    (hrows : ∀ a ∈ base, ¬stale (V.key a) → V.rows (f a) = V.rows a) :
    V.MirrorsOutside stale (base.map f) view := by
  have hsame : (base.map f).map V.key = base.map V.key := by
    rw [List.map_map]
    exact List.map_congr_left hkey
  refine ⟨hsame ▸ hmirrors.keys, hmirrors.nodup, fun row hfresh => ?_⟩
  rw [hmirrors.mem row id]
  constructor
  · rintro ⟨a, ha, hrow⟩
    have howner := V.owner_rows a row hrow
    refine ⟨f a, List.mem_map_of_mem ha, ?_⟩
    rwa [hrows a ha (howner ▸ hfresh)]
  · rintro ⟨a', ha', hrow⟩
    obtain ⟨a, ha, rfl⟩ := List.mem_map.1 ha'
    have howner := V.owner_rows (f a) row hrow
    rw [hkey a ha] at howner
    refine ⟨a, ha, ?_⟩
    rwa [← hrows a ha (howner ▸ hfresh)]

/-- A refresh of a record of the base makes its rows right. -/
theorem MirrorsOutside.refresh [DecidableEq κ] [DecidableEq π] {a : α}
    (hmirrors : V.MirrorsOutside stale base view)
    (ha : a ∈ base) :
    V.MirrorsOutside (fun k => stale k ∧ k ≠ V.key a) base (V.refresh view a) := by
  rw [refresh_eq]
  have hnone : ∀ row ∈ V.remove view [V.key a], V.owner (V.pk row) ≠ V.key a := by
    intro row hrow
    simpa using (mem_remove.1 hrow).2
  refine ⟨hmirrors.keys, nodup_append_rows (nodup_remove _ hmirrors.nodup) hnone, ?_⟩
  intro row hfresh
  rw [List.mem_append, mem_remove]
  by_cases howner : V.owner (V.pk row) = V.key a
  · constructor
    · rintro (⟨-, hother⟩ | hrow)
      · exact absurd howner (by simpa using hother)
      · exact ⟨a, ha, hrow⟩
    · rintro ⟨a', ha', hrow⟩
      have hsame : a' = a :=
        eq_of_key hmirrors.keys ha' ha ((V.owner_rows a' row hrow).symm.trans howner)
      exact .inr (hsame ▸ hrow)
  · have hmem := hmirrors.mem row fun hstale => hfresh ⟨hstale, howner⟩
    constructor
    · rintro (⟨hold, -⟩ | hrow)
      · exact hmem.1 hold
      · exact absurd (V.owner_rows a row hrow) howner
    · intro hbase
      exact .inl ⟨hmem.2 hbase, by simpa using howner⟩

/-- Refreshing every stale record gives a mirror. -/
theorem MirrorsOutside.refresh_all [DecidableEq κ] [DecidableEq π] {records : List α}
    (hmirrors : V.MirrorsOutside stale base view) (hmem : ∀ a ∈ records, a ∈ base)
    (hall : ∀ a ∈ base, stale (V.key a) → V.key a ∈ records.map V.key)
    (hnone : ∀ row ∈ view, stale (V.owner (V.pk row)) →
      V.owner (V.pk row) ∈ base.map V.key) :
    V.Mirrors base (records.foldl V.refresh view) := by
  induction records generalizing view stale with
  | nil =>
      refine ⟨hmirrors.keys, hmirrors.nodup, fun row _ => ?_⟩
      by_cases hstale : stale (V.owner (V.pk row))
      · constructor
        · intro hrow
          obtain ⟨a, ha, hkey⟩ := List.mem_map.1 (hnone row hrow hstale)
          exact absurd (hall a ha (hkey ▸ hstale)) (by simp)
        · rintro ⟨a, ha, hrow⟩
          exact absurd (hall a ha (V.owner_rows a row hrow ▸ hstale)) (by simp)
      · exact hmirrors.mem row hstale
  | cons a records ih =>
      have ha : a ∈ base := hmem a (by simp)
      rw [List.foldl_cons]
      refine ih (hmirrors.refresh ha) (fun other hother => hmem other (by simp [hother])) ?_ ?_
      · rintro other hother ⟨hstale, hne⟩
        have hlisted := hall other hother hstale
        rw [List.map_cons, List.mem_cons] at hlisted
        exact hlisted.resolve_left hne
      · rintro row hrow ⟨hstale, hne⟩
        rw [refresh_eq, List.mem_append, mem_remove] at hrow
        rcases hrow with ⟨hold, -⟩ | hnew
        · exact hnone row hold hstale
        · exact absurd (V.owner_rows a row hnew) hne

/-- In-place updates: the rows of the changed records are the changed rows. -/
theorem Mirrors.map {f : α → α} {g : β → β} (hmirrors : V.Mirrors base view)
    (hkey : ∀ a ∈ base, V.key (f a) = V.key a) (hpk : ∀ row, V.pk (g row) = V.pk row)
    (hrows : ∀ a ∈ base, V.rows (f a) = (V.rows a).map g) :
    V.Mirrors (base.map f) (view.map g) := by
  have hsame : (base.map f).map V.key = base.map V.key := by
    rw [List.map_map]
    exact List.map_congr_left hkey
  have hpks : (view.map g).map V.pk = view.map V.pk := by
    rw [List.map_map]
    exact List.map_congr_left fun row _ => hpk row
  refine ⟨hsame ▸ hmirrors.keys, hpks ▸ hmirrors.nodup, fun row _ => ?_⟩
  constructor
  · intro hrow
    obtain ⟨old, hold, rfl⟩ := List.mem_map.1 hrow
    obtain ⟨a, ha, hder⟩ := (hmirrors.mem old id).1 hold
    exact ⟨f a, List.mem_map_of_mem ha, hrows a ha ▸ List.mem_map_of_mem hder⟩
  · rintro ⟨a', ha', hrow⟩
    obtain ⟨a, ha, rfl⟩ := List.mem_map.1 ha'
    rw [hrows a ha] at hrow
    obtain ⟨old, hold, rfl⟩ := List.mem_map.1 hrow
    exact List.mem_map_of_mem ((hmirrors.mem old id).2 ⟨a, ha, hold⟩)

/-- Dropping records together with their rows. -/
theorem Mirrors.filter {p : α → Bool} {q : κ → Bool} (hmirrors : V.Mirrors base view)
    (hpq : ∀ a ∈ base, p a = q (V.key a)) :
    V.Mirrors (base.filter p) (view.filter fun row => q (V.owner (V.pk row))) := by
  refine ⟨hmirrors.keys.sublist ((List.filter_sublist).map V.key),
    hmirrors.nodup.sublist ((List.filter_sublist).map V.pk), fun row _ => ?_⟩
  rw [List.mem_filter, hmirrors.mem row id]
  constructor
  · rintro ⟨⟨a, ha, hrow⟩, hq⟩
    rw [V.owner_rows a row hrow] at hq
    exact ⟨a, List.mem_filter.2 ⟨ha, (hpq a ha).trans hq⟩, hrow⟩
  · rintro ⟨a, ha, hrow⟩
    obtain ⟨hbase, hp⟩ := List.mem_filter.1 ha
    refine ⟨⟨a, hbase, hrow⟩, ?_⟩
    rw [V.owner_rows a row hrow, ← hpq a hbase]
    exact hp

/-- A new record with its rows. -/
theorem Mirrors.append_one [DecidableEq π] {a : α} (hmirrors : V.Mirrors base view)
    (hnew : V.key a ∉ base.map V.key) : V.Mirrors (base ++ [a]) (V.add view a) := by
  have hnone : ∀ row ∈ view, V.owner (V.pk row) ≠ V.key a := by
    intro row hrow howner
    obtain ⟨old, hold, hder⟩ := (hmirrors.mem row id).1 hrow
    exact hnew (howner ▸ V.owner_rows old row hder ▸ List.mem_map_of_mem hold)
  rw [add_eq_append hnone]
  refine ⟨?_, nodup_append_rows hmirrors.nodup hnone, fun row _ => ?_⟩
  · rw [List.map_append]
    refine List.Nodup.append hmirrors.keys (by simp) ?_
    intro k hk hk'
    obtain rfl : k = V.key a := by simpa using hk'
    exact hnew hk
  · rw [List.mem_append, hmirrors.mem row id]
    constructor
    · rintro (⟨old, hold, hrow⟩ | hrow)
      · exact ⟨old, by simp [hold], hrow⟩
      · exact ⟨a, by simp, hrow⟩
    · rintro ⟨old, hold, hrow⟩
      rcases List.mem_append.1 hold with hbase | hlast
      · exact .inl ⟨old, hbase, hrow⟩
      · obtain rfl : old = a := by simpa using hlast
        exact .inr hrow

/-- Removing the rows of records that the base does not have removes nothing. -/
theorem Mirrors.remove_new [DecidableEq κ] {keys : List κ} (hmirrors : V.Mirrors base view)
    (hnew : ∀ k ∈ keys, k ∉ base.map V.key) : V.remove view keys = view := by
  rw [remove, List.filter_eq_self]
  intro row hrow
  obtain ⟨a, ha, hder⟩ := (hmirrors.mem row id).1 hrow
  have howner := V.owner_rows a row hder
  have hknown : V.owner (V.pk row) ∈ base.map V.key := howner ▸ List.mem_map_of_mem ha
  simpa using fun hk => hnew _ hk hknown

/-- New records, each with its rows. -/
theorem Mirrors.append [DecidableEq π] {records : List α} (hmirrors : V.Mirrors base view)
    (hkeys : ((base ++ records).map V.key).Nodup) :
    V.Mirrors (base ++ records) (records.foldl V.add view) := by
  induction records generalizing base view with
  | nil => simpa using hmirrors
  | cons a records ih =>
      have hnew : V.key a ∉ base.map V.key := by
        intro hold
        rw [List.map_append, List.nodup_append] at hkeys
        exact hkeys.2.2 _ hold _ (by simp) rfl
      have hshift : base ++ a :: records = base ++ [a] ++ records := by simp
      rw [hshift] at hkeys ⊢
      exact ih (hmirrors.append_one hnew) hkeys

end View

end NewApi.Lib
