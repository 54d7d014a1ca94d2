import Mathlib.Algebra.BigOperators.Group.List.Basic
import Mathlib.Algebra.GroupWithZero.Nat
import Mathlib.Data.List.Induction

/-!
# Strings as lists of characters

The string functions of a standard library that programs cut up comma-separated and
line-separated settings with, computed on the list of characters.
-/

namespace NewApi.Lib.Strings

/-- Cut at every occurrence of the separator; the empty string gives one empty piece. -/
def split (s : String) (separator : Char) : List String :=
  (s.toList.splitOn separator).map String.ofList

/-- White space in the sense of Unicode's `White_Space` property. -/
def isSpace (c : Char) : Bool :=
  c.toNat ∈ [0x20, 0x85, 0xA0, 0x1680, 0x2028, 0x2029, 0x202F, 0x205F, 0x3000] ||
    (9 ≤ c.toNat && c.toNat ≤ 13) || (0x2000 ≤ c.toNat && c.toNat ≤ 0x200A)

/-- Drop the characters of a kind from both ends. -/
def trim (s : String) (drop : Char → Bool) : String :=
  String.ofList ((s.toList.dropWhile drop).reverse.dropWhile drop).reverse

def trimSpace (s : String) : String :=
  trim s isSpace

/-- Drop the characters of a kind from the left end. -/
def trimLeft (s : String) (drop : Char → Bool) : String :=
  String.ofList (s.toList.dropWhile drop)

/-- Drop the characters of a kind from the right end. -/
def trimRight (s : String) (drop : Char → Bool) : String :=
  String.ofList (s.toList.reverse.dropWhile drop).reverse

def hasPrefix (s start : String) : Bool :=
  start.toList.isPrefixOf s.toList

def hasSuffix (s ending : String) : Bool :=
  ending.toList.isSuffixOf s.toList

/-- Without the prefix, if it has it. -/
def trimPrefix (s start : String) : String :=
  if hasPrefix s start then String.ofList (s.toList.drop start.toList.length) else s

/-- Without the suffix, if it has it. -/
def trimSuffix (s ending : String) : String :=
  if hasSuffix s ending then String.ofList (s.toList.take (s.toList.length - ending.toList.length))
  else s

def contains (s part : String) : Bool :=
  s.toList.tails.any part.toList.isPrefixOf

/-- The lower case of a letter, as far as it is a letter of ASCII: the dotted capital I and
the Kelvin sign have one too. -/
def lowerChar (c : Char) : Char :=
  if c.toNat = 0x130 then 'i' else if c.toNat = 0x212A then 'k' else c.toLower

def toLower (s : String) : String :=
  String.ofList (s.toList.map lowerChar)

/-- The upper case of a letter, as far as it is a letter of ASCII: the dotless i and the long s
have one too. -/
def upperChar (c : Char) : Char :=
  if c.toNat = 0x131 then 'I' else if c.toNat = 0x17F then 'S' else c.toUpper

def toUpper (s : String) : String :=
  String.ofList (s.toList.map upperChar)

/-- Drop every occurrence of a character. -/
def remove (s : String) (c : Char) : String :=
  String.ofList (s.toList.filter (· ≠ c))

/-- Digits after a sign, which may be left out. -/
def isInteger (s : String) : Bool :=
  match s.toList with
  | [] => false
  | c :: rest =>
      let digits := if c = '-' ∨ c = '+' then rest else c :: rest
      !digits.isEmpty && digits.all Char.isDigit

/-- One piece after the other. -/
def concat : List String → String
  | [] => ""
  | piece :: pieces => piece ++ concat pieces

@[simp] theorem concat_nil : concat [] = "" := rfl

@[simp] theorem concat_cons (piece : String) (pieces : List String) :
    concat (piece :: pieces) = piece ++ concat pieces := rfl

theorem concat_append (pieces rest : List String) :
    concat (pieces ++ rest) = concat pieces ++ concat rest := by
  induction pieces with
  | nil => simp
  | cons piece pieces ih => rw [List.cons_append, concat_cons, concat_cons, ih, String.append_assoc]

theorem concat_flatMap {α : Type*} (f : α → List String) (xs : List α) :
    concat (xs.flatMap f) = concat (xs.map fun a => concat (f a)) := by
  induction xs with
  | nil => rfl
  | cons a xs ih => rw [List.flatMap_cons, concat_append, ih, List.map_cons, concat_cons]

theorem concat_eq_empty {pieces : List String} :
    concat pieces = "" ↔ ∀ piece ∈ pieces, piece = "" := by
  induction pieces with
  | nil => simp
  | cons piece pieces ih =>
      rw [concat_cons, String.append_eq_empty_iff, ih, List.forall_mem_cons]

theorem concat_map_eq_empty {α : Type*} {f : α → String} {xs : List α} :
    concat (xs.map f) = "" ↔ ∀ a ∈ xs, f a = "" := by
  rw [concat_eq_empty, List.forall_mem_map]

/-- Pieces that are left out are empty. -/
theorem concat_map_filter {α : Type*} {f : α → String} {p : α → Bool} {xs : List α}
    (hrest : ∀ a ∈ xs, f a = "" ∨ p a = true) :
    concat ((xs.filter p).map f) = concat (xs.map f) := by
  induction xs with
  | nil => rfl
  | cons a xs ih =>
      obtain ⟨ha, hxs⟩ := List.forall_mem_cons.1 hrest
      cases hp : p a with
      | true => rw [List.filter_cons_of_pos hp, List.map_cons, List.map_cons, concat_cons, ih hxs,
          concat_cons]
      | false =>
          have hempty : f a = "" := ha.resolve_right (by rw [hp]; exact Bool.false_ne_true)
          rw [List.filter_cons_of_neg (by rw [hp]; exact Bool.false_ne_true), ih hxs, List.map_cons,
            concat_cons, hempty, String.empty_append]

/-- Only the last piece counts when the others are empty. -/
theorem concat_eq_getLast_iff {pieces : List String} :
    concat pieces = pieces.getLast?.getD "" ↔ ∀ piece ∈ pieces.dropLast, piece = "" := by
  rcases List.eq_nil_or_concat pieces with rfl | ⟨before, last, rfl⟩
  · simp
  · rw [List.concat_eq_append, List.dropLast_concat, List.getLast?_concat, concat_append,
      ← concat_eq_empty, concat_cons, concat_nil, String.append_empty, Option.getD_some,
      String.append_eq_right_iff]

section Visible

variable {α : Type*} {f g : α → String} {xs : List α}

theorem length_concat_le (hvisible : ∀ a ∈ xs, f a = g a ∨ f a = "") :
    (concat (xs.map f)).length ≤ (concat (xs.map g)).length := by
  induction xs with
  | nil => exact Nat.le_refl _
  | cons a xs ih =>
      rw [List.forall_mem_cons] at hvisible
      rw [List.map_cons, List.map_cons, concat_cons, concat_cons, String.length_append,
        String.length_append]
      have hrest := ih hvisible.2
      rcases hvisible.1 with hsame | hempty
      · rw [hsame]
        omega
      · rw [hempty, String.length_empty]
        omega

/-- When pieces are left out or something is added, the whole shows it. -/
theorem eq_of_concat_eq {rest : String} (hvisible : ∀ a ∈ xs, f a = g a ∨ f a = "")
    (hconcat : concat (xs.map f) = concat (xs.map g) ++ rest) :
    (∀ a ∈ xs, f a = g a) ∧ rest = "" := by
  induction xs with
  | nil => exact ⟨fun a ha => absurd ha List.not_mem_nil, by simpa using hconcat.symm⟩
  | cons a xs ih =>
      rw [List.forall_mem_cons] at hvisible
      have hlength := congrArg String.length hconcat
      have hle := length_concat_le hvisible.2
      rw [List.map_cons, List.map_cons, concat_cons, concat_cons] at hconcat hlength
      rw [String.length_append, String.length_append, String.length_append] at hlength
      have hsame : f a = g a := by
        rcases hvisible.1 with hsame | hempty
        · exact hsame
        · rw [hempty, String.length_empty] at hlength
          rw [hempty, eq_comm, ← String.length_eq_zero_iff]
          omega
      rw [hsame, String.append_assoc, String.append_right_inj] at hconcat
      obtain ⟨hrest, hempty⟩ := ih hvisible.2 hconcat
      exact ⟨List.forall_mem_cons.2 ⟨hsame, hrest⟩, hempty⟩

theorem concat_eq_append_iff {rest : String} (hvisible : ∀ a ∈ xs, f a = g a ∨ f a = "") :
    concat (xs.map f) = concat (xs.map g) ++ rest ↔ (∀ a ∈ xs, f a = g a) ∧ rest = "" := by
  constructor
  · exact eq_of_concat_eq hvisible
  · rintro ⟨hsame, rfl⟩
    rw [List.map_congr_left hsame, String.append_empty]

end Visible

theorem length_trim_le (s : String) (drop : Char → Bool) : (trim s drop).length ≤ s.length := by
  rw [← String.length_toList, ← String.length_toList, trim, String.toList_ofList,
    List.length_reverse]
  have hlast := (List.dropWhile_suffix (l := (s.toList.dropWhile drop).reverse) drop).length_le
  rw [List.length_reverse] at hlast
  have hfirst := (List.dropWhile_suffix (l := s.toList) drop).length_le
  omega

/-- The pieces with a separator between them. -/
def join (separator : Char) : List String → String
  | [] => ""
  | [piece] => piece
  | piece :: next :: pieces => piece ++ String.singleton separator ++
    join separator (next :: pieces)

section Join

variable {c : Char} {pieces : List String}

theorem toList_join : ∀ pieces : List String,
    (join c pieces).toList = [c].intercalate (pieces.map String.toList)
  | [] => rfl
  | [piece] => by simp [join]
  | piece :: next :: pieces => by
      have hrest := toList_join (next :: pieces)
      rw [List.map_cons] at hrest
      rw [join, List.map_cons, List.map_cons, List.intercalate_cons_cons, String.toList_append,
        String.toList_append, hrest]
      simp

theorem mem_of_mem_join {a : Char} (ha : a ∈ (join c pieces).toList) :
    a = c ∨ ∃ piece ∈ pieces, a ∈ piece.toList := by
  induction pieces with
  | nil => cases ha
  | cons piece pieces ih =>
      cases pieces with
      | nil => exact .inr ⟨piece, List.mem_cons_self, ha⟩
      | cons next pieces =>
          rw [join, String.toList_append, String.toList_append, String.toList_singleton,
            List.mem_append, List.mem_append, List.mem_singleton] at ha
          rcases ha with (ha | ha) | ha
          · exact .inr ⟨piece, List.mem_cons_self, ha⟩
          · exact .inl ha
          · obtain hsep | ⟨later, hlater, hmem⟩ := ih ha
            · exact .inl hsep
            · exact .inr ⟨later, List.mem_cons_of_mem piece hlater, hmem⟩

/-- No piece of a split contains the separator. -/
theorem notMem_of_mem_splitOn {xs piece : List Char} (hpiece : piece ∈ xs.splitOn c) :
    c ∉ piece := by
  induction xs generalizing piece with
  | nil =>
      rw [List.splitOn_nil, List.mem_singleton] at hpiece
      rw [hpiece]
      exact List.not_mem_nil
  | cons x xs ih =>
      rw [List.splitOn_cons_eq_if_modifyHead] at hpiece
      split at hpiece
      · rcases List.mem_cons.1 hpiece with rfl | hrest
        · exact List.not_mem_nil
        · exact ih hrest
      case isFalse hne =>
        cases hsplit : xs.splitOn c with
        | nil => exact absurd hsplit (List.splitOn_ne_nil c xs)
        | cons first rest =>
            rw [hsplit] at hpiece ih
            rw [List.modifyHead_cons] at hpiece
            rcases List.mem_cons.1 hpiece with rfl | hrest
            · rw [List.mem_cons, not_or]
              refine ⟨?_, ih List.mem_cons_self⟩
              rintro rfl
              simp at hne
            · exact ih (List.mem_cons_of_mem _ hrest)

theorem dropWhile_eq_self_iff_head? {drop : Char → Bool} {xs : List Char} :
    xs.dropWhile drop = xs ↔ ∀ a, xs.head? = some a → drop a = false := by
  constructor
  · intro hsame a hhead
    have hnot := List.head?_dropWhile_not drop xs
    rw [hsame, hhead] at hnot
    exact hnot
  · intro hhead
    cases xs with
    | nil => rfl
    | cons x xs =>
        exact List.dropWhile_cons_of_neg (by rw [hhead x rfl]; exact Bool.false_ne_true)

/-- Trimming changes nothing exactly where there is nothing to trim at the ends. -/
theorem trim_eq_self_iff_ends {s : String} {drop : Char → Bool} : trim s drop = s ↔
    (∀ a, s.toList.head? = some a → drop a = false) ∧
      ∀ a, s.toList.getLast? = some a → drop a = false := by
  rw [← String.toList_inj, trim, String.toList_ofList, List.getLast?_eq_head?_reverse,
    ← dropWhile_eq_self_iff_head?, ← dropWhile_eq_self_iff_head?]
  constructor
  · intro htrim
    have hlength := congrArg List.length htrim
    have hfirst := (List.dropWhile_suffix (l := s.toList) drop).length_le
    have hlast := (List.dropWhile_suffix (l := (s.toList.dropWhile drop).reverse) drop).length_le
    rw [List.length_reverse] at hlength hlast
    have hsame : s.toList.dropWhile drop = s.toList :=
      (List.dropWhile_suffix _).eq_of_length (by omega)
    rw [hsame] at htrim
    exact ⟨hsame, by rw [← List.reverse_inj, htrim, List.reverse_reverse]⟩
  · intro hends
    rw [hends.1, hends.2, List.reverse_reverse]

/-- Nothing to trim is left at the ends. -/
theorem ends_trim (s : String) (drop : Char → Bool) :
    (∀ a, (trim s drop).toList.head? = some a → drop a = false) ∧
      ∀ a, (trim s drop).toList.getLast? = some a → drop a = false := by
  have hnot : ∀ (xs : List Char) (a : Char), (xs.dropWhile drop).head? = some a →
      drop a = false := by
    intro xs a hhead
    have hfirst := List.head?_dropWhile_not drop xs
    rw [hhead] at hfirst
    exact hfirst
  rw [trim, String.toList_ofList, List.getLast?_reverse]
  refine ⟨fun a hhead => hnot s.toList a ?_, hnot _⟩
  have hprefix : ((s.toList.dropWhile drop).reverse.dropWhile drop).reverse <+:
      s.toList.dropWhile drop := by
    rw [← List.reverse_suffix, List.reverse_reverse]
    exact List.dropWhile_suffix _
  obtain ⟨rest, hrest⟩ := hprefix
  rw [← hrest, List.head?_append, hhead]
  rfl

/-- Trimming a second time takes nothing away. -/
theorem trim_trim (s : String) (drop : Char → Bool) : trim (trim s drop) drop = trim s drop :=
  trim_eq_self_iff_ends.2 (ends_trim s drop)

theorem hasPrefix_iff {s start : String} : hasPrefix s start = true ↔ ∃ rest, s = start ++ rest := by
  rw [hasPrefix, List.isPrefixOf_iff_prefix]
  constructor
  · intro hbegins
    obtain ⟨rest, hrest⟩ := hbegins
    refine ⟨String.ofList rest, ?_⟩
    rw [← String.toList_inj, String.toList_append, String.toList_ofList, hrest]
  · intro hrest
    obtain ⟨rest, rfl⟩ := hrest
    rw [String.toList_append]
    exact List.prefix_append _ _

theorem toList_trimLeft (s : String) (drop : Char → Bool) :
    (trimLeft s drop).toList = s.toList.dropWhile drop := by
  rw [trimLeft, String.toList_ofList]

theorem length_trimLeft_le (s : String) (drop : Char → Bool) :
    (trimLeft s drop).length ≤ s.length := by
  rw [← String.length_toList, ← String.length_toList, toList_trimLeft]
  exact (List.dropWhile_suffix drop).length_le

theorem trimLeft_eq_self_iff {s : String} {drop : Char → Bool} :
    trimLeft s drop = s ↔ ∀ a, s.toList.head? = some a → drop a = false := by
  rw [← String.toList_inj, toList_trimLeft, dropWhile_eq_self_iff_head?]

/-- A text that is as long as before has lost nothing. -/
theorem trimLeft_eq_of_length_le {s : String} {drop : Char → Bool}
    (hlength : s.length ≤ (trimLeft s drop).length) : trimLeft s drop = s := by
  rw [← String.toList_inj, toList_trimLeft]
  rw [← String.length_toList, ← String.length_toList, toList_trimLeft] at hlength
  exact (List.dropWhile_suffix drop).eq_of_length_le hlength

theorem trim_eq_trimRight (s : String) (drop : Char → Bool) :
    trim s drop = trimRight (trimLeft s drop) drop := by
  rw [trim, trimRight, toList_trimLeft]

theorem trimRight_eq_self {s : String} {drop : Char → Bool}
    (hlast : ∀ a, s.toList.getLast? = some a → drop a = false) : trimRight s drop = s := by
  have hsame : s.toList.reverse.dropWhile drop = s.toList.reverse := by
    rw [dropWhile_eq_self_iff_head?]
    intro a hhead
    rw [List.head?_reverse] at hhead
    exact hlast a hhead
  rw [trimRight, hsame, List.reverse_reverse, String.ofList_toList]

/-- A text whose last character stays is trimmed at the left end only. -/
theorem trim_eq_trimLeft {s : String} {drop : Char → Bool}
    (hlast : ∀ a, s.toList.getLast? = some a → drop a = false) : trim s drop = trimLeft s drop := by
  rw [trim_eq_trimRight]
  refine trimRight_eq_self fun a ha => hlast a ?_
  obtain ⟨dropped, hdropped⟩ := List.dropWhile_suffix (l := s.toList) drop
  rw [toList_trimLeft] at ha
  rw [← hdropped, List.getLast?_append, ha]
  rfl

/-- Nothing is trimmed from a text that has none of the characters. -/
theorem trim_of_forall {s : String} {drop : Char → Bool} (hs : ∀ a ∈ s.toList, drop a = false) :
    trim s drop = s :=
  trim_eq_self_iff_ends.2 ⟨fun a hhead => hs a (List.mem_of_head? hhead),
    fun a hlast => hs a (List.mem_of_getLast? hlast)⟩

theorem forall_eq_false_iff {o : Option Char} :
    (∀ a, o = some a → decide (a = c) = false) ↔ o ≠ some c := by
  constructor
  · intro hall heq
    exact absurd rfl (of_decide_eq_false (hall c heq))
  · intro hne a ha
    refine decide_eq_false ?_
    rintro rfl
    exact hne ha

theorem trim_eq_self_iff {s : String} : trim s (· = c) = s ↔
    s.toList.head? ≠ some c ∧ s.toList.getLast? ≠ some c := by
  rw [trim_eq_self_iff_ends, forall_eq_false_iff, forall_eq_false_iff]

theorem intercalate_concat {xs : List (List Char)} (hxs : xs ≠ []) (ys : List Char) :
    [c].intercalate (xs ++ [ys]) = [c].intercalate xs ++ c :: ys := by
  induction xs with
  | nil => exact absurd rfl hxs
  | cons x xs ih =>
      cases xs with
      | nil => simp
      | cons y xs =>
          have hrest := ih (List.cons_ne_nil y xs)
          rw [List.cons_append] at hrest
          rw [List.cons_append, List.cons_append, List.intercalate_cons_cons, hrest,
            List.intercalate_cons_cons]
          simp

/-- Joined pieces without separators start and end with one exactly where the first or the last
piece is empty. -/
theorem intercalate_ends {xs : List (List Char)} (hxs : [c].intercalate xs ≠ [])
    (hclean : ∀ x ∈ xs, c ∉ x) :
    ([c].intercalate xs).head? ≠ some c ∧ ([c].intercalate xs).getLast? ≠ some c ↔
      xs.head? ≠ some [] ∧ xs.getLast? ≠ some [] := by
  have hhead : ([c].intercalate xs).head? = some c ↔ xs.head? = some [] := by
    cases xs with
    | nil => exact absurd rfl hxs
    | cons x xs =>
        have hx := hclean x List.mem_cons_self
        cases x with
        | nil =>
            cases xs with
            | nil => simp at hxs
            | cons y xs => simp
        | cons a x =>
            have hne : a ≠ c := fun heq => hx (heq ▸ List.mem_cons_self)
            cases xs <;> simp [hne]
  have hlast : ([c].intercalate xs).getLast? = some c ↔ xs.getLast? = some [] := by
    induction xs using List.reverseRecOn with
    | nil => exact absurd rfl hxs
    | append_singleton xs x _ =>
        have hx := hclean x (List.mem_append_right _ (List.mem_singleton_self x))
        rw [List.getLast?_concat, Option.some.injEq]
        by_cases hempty : xs = []
        · subst hempty
          rw [List.nil_append, List.intercalate_singleton] at hxs ⊢
          refine iff_of_false (fun hc => hx (List.mem_of_getLast? hc)) hxs
        · rw [intercalate_concat hempty]
          cases x using List.reverseRecOn with
          | nil => simp
          | append_singleton x a =>
              have hne : a ≠ c := by
                rintro rfl
                exact hx (List.mem_append_right _ (List.mem_singleton_self a))
              rw [← List.cons_append, ← List.append_assoc, List.getLast?_concat]
              simp [hne]
  rw [Ne, Ne, hhead, hlast]

/-- Splitting undoes joining, where no piece has a separator in it. -/
theorem split_join (hpieces : pieces ≠ []) (hclean : ∀ piece ∈ pieces, c ∉ piece.toList) :
    split (join c pieces) c = pieces := by
  rw [split, toList_join, List.splitOn_intercalate, List.map_map]
  · simp
  · intro x hx
    obtain ⟨piece, hpiece, rfl⟩ := List.mem_map.1 hx
    exact hclean piece hpiece
  · exact fun hnil => hpieces (List.map_eq_nil_iff.1 hnil)

/-- Joining undoes splitting. -/
theorem join_split (s : String) : join c (split s c) = s := by
  rw [← String.toList_inj, toList_join, split, List.map_map]
  have hid : String.toList ∘ String.ofList = id := by
    funext xs
    exact String.toList_ofList
  rw [hid, List.map_id, List.intercalate_splitOn]

theorem split_ne_nil (s : String) (c : Char) : split s c ≠ [] := by
  rw [split, Ne, List.map_eq_nil_iff]
  exact List.splitOn_ne_nil _ _

/-- A text is cut into these pieces exactly if they are the pieces between its separators. -/
theorem split_eq_iff {s : String} : split s c = pieces ↔
    s = join c pieces ∧ pieces ≠ [] ∧ ∀ piece ∈ pieces, c ∉ piece.toList := by
  constructor
  · intro hsplit
    refine ⟨by rw [← hsplit, join_split], by rw [← hsplit]; exact split_ne_nil s c,
      fun piece hpiece => ?_⟩
    rw [← hsplit, split] at hpiece
    obtain ⟨chars, hchars, rfl⟩ := List.mem_map.1 hpiece
    rw [String.toList_ofList]
    exact notMem_of_mem_splitOn hchars
  · intro hpieces
    obtain ⟨htext, hnonempty, hclean⟩ := hpieces
    rw [htext, split_join hnonempty hclean]

/-- Splitting undoes joining exactly where no piece has a separator in it and neither the first nor
the last one is empty. -/
theorem split_trim_join_iff (hjoin : join c pieces ≠ "") :
    split (trim (join c pieces) (· = c)) c = pieces ↔
      (∀ piece ∈ pieces, c ∉ piece.toList) ∧ pieces.head? ≠ some "" ∧
        pieces.getLast? ≠ some "" := by
  have hnil : [c].intercalate (pieces.map String.toList) ≠ [] := by
    rw [← toList_join]
    simpa using hjoin
  have hends : ∀ piece : Option String, piece.map String.toList = some [] ↔ piece = some "" := by
    rintro (_ | piece) <;> simp
  have hiff : (∀ piece ∈ pieces, c ∉ piece.toList) →
      (trim (join c pieces) (· = c) = join c pieces ↔
        pieces.head? ≠ some "" ∧ pieces.getLast? ≠ some "") := by
    intro hclean
    have hclean' : ∀ x ∈ pieces.map String.toList, c ∉ x := by
      intro x hx
      obtain ⟨piece, hpiece, rfl⟩ := List.mem_map.1 hx
      exact hclean piece hpiece
    rw [trim_eq_self_iff, toList_join, intercalate_ends hnil hclean', List.head?_map,
      List.getLast?_map, Ne, Ne, hends, hends]
  have hpieces : pieces ≠ [] := by
    intro hempty
    rw [hempty] at hnil
    exact hnil rfl
  rw [split_eq_iff]
  constructor
  · intro hsplit
    obtain ⟨htrim, -, hclean⟩ := hsplit
    exact ⟨hclean, (hiff hclean).1 htrim⟩
  · intro hends'
    obtain ⟨hclean, hends'⟩ := hends'
    exact ⟨(hiff hclean).2 hends', hpieces, hclean⟩

/-- No separator is left at the ends. -/
theorem trim_ends (s : String) : (trim s (· = c)).toList.head? ≠ some c ∧
    (trim s (· = c)).toList.getLast? ≠ some c := by
  rw [← forall_eq_false_iff, ← forall_eq_false_iff]
  exact ends_trim s (· = c)

theorem length_join (hpieces : pieces ≠ []) :
    (join c pieces).length + 1 = (pieces.map fun piece => piece.length + 1).sum := by
  induction pieces with
  | nil => exact absurd rfl hpieces
  | cons piece pieces ih =>
      cases pieces with
      | nil => simp [join]
      | cons next pieces =>
          have hrest := ih (List.cons_ne_nil next pieces)
          rw [List.map_cons, List.sum_cons, ← hrest, join, String.length_append,
            String.length_append, String.length_singleton]
          omega

/-- The text of pieces is empty only for a single empty piece. -/
theorem eq_of_join_eq_empty (hpieces : pieces ≠ []) (hjoin : join c pieces = "") :
    pieces = [""] := by
  have hlength := length_join (c := c) hpieces
  rw [hjoin] at hlength
  cases pieces with
  | nil => exact absurd rfl hpieces
  | cons piece pieces =>
      rw [List.map_cons, List.sum_cons, String.length_empty] at hlength
      have hpiece : piece = "" := String.length_eq_zero_iff.1 (by omega)
      cases pieces with
      | nil => rw [hpiece]
      | cons next pieces =>
          rw [List.map_cons, List.sum_cons] at hlength
          omega

/-- Without one of the pieces the text gets shorter. -/
theorem length_join_eraseIdx_lt {i : ℕ} (hi : i < pieces.length) (hrest : pieces.eraseIdx i ≠ []) :
    (join c (pieces.eraseIdx i)).length < (join c pieces).length := by
  have hpieces : pieces ≠ [] := List.ne_nil_of_length_pos (Nat.zero_lt_of_lt hi)
  have hperm := (List.getElem_cons_eraseIdx_perm hi).map fun piece => piece.length + 1
  have hsum := hperm.sum_eq
  rw [List.map_cons, List.sum_cons, ← length_join (c := c) hrest,
    ← length_join (c := c) hpieces] at hsum
  omega

/-- The pieces with a separator between them, where the whole is trimmed each time. -/
def trimJoin (separator c : Char) : List String → String
  | [] => ""
  | first :: rest =>
      rest.foldl (fun text next => trim (text ++ String.singleton separator ++ next) (· = c)) first

theorem trimJoin_concat (separator c : Char) (hpieces : pieces ≠ []) (next : String) :
    trimJoin separator c (pieces ++ [next]) =
      trim (trimJoin separator c pieces ++ String.singleton separator ++ next) (· = c) := by
  cases pieces with
  | nil => exact absurd rfl hpieces
  | cons first rest => rw [List.cons_append, trimJoin, trimJoin, List.foldl_concat]

theorem join_concat (separator : Char) (hpieces : pieces ≠ []) (next : String) :
    join separator (pieces ++ [next]) =
      join separator pieces ++ String.singleton separator ++ next := by
  have hmap : pieces.map String.toList ≠ [] := fun hnil => hpieces (List.map_eq_nil_iff.1 hnil)
  rw [← String.toList_inj, toList_join, List.map_append, List.map_singleton,
    intercalate_concat hmap, String.toList_append, String.toList_append, toList_join]
  simp

/-- A trimmed text that is as long as before is the same. -/
theorem trim_eq_of_length_le {s : String} {drop : Char → Bool}
    (hlength : s.length ≤ (trim s drop).length) : trim s drop = s := by
  have hsublist : (trim s drop).toList.Sublist s.toList := by
    rw [trim, String.toList_ofList]
    have hlast := (List.dropWhile_sublist drop (l := (s.toList.dropWhile drop).reverse)).reverse
    rw [List.reverse_reverse] at hlast
    exact hlast.trans (List.dropWhile_sublist drop)
  rw [← String.toList_inj]
  exact hsublist.eq_of_length_le hlength

/-- The first piece stands in front of the first separator. -/
theorem exists_toList_join_append (separator : Char) (first : String) (rest : List String)
    (next : String) : ∃ more, (join separator (first :: rest) ++ String.singleton separator ++
      next).toList = first.toList ++ separator :: more := by
  cases rest with
  | nil => exact ⟨next.toList, by simp [join]⟩
  | cons piece rest =>
      refine ⟨(join separator (piece :: rest)).toList ++ separator :: next.toList, ?_⟩
      simp only [join, String.toList_append, String.toList_singleton, List.append_assoc,
        List.cons_append, List.nil_append]

theorem length_trimJoin_le (separator c : Char) (pieces : List String) :
    (trimJoin separator c pieces).length ≤ (join separator pieces).length := by
  induction pieces using List.reverseRecOn with
  | nil => exact Nat.le_refl _
  | append_singleton pieces next ih =>
      by_cases hpieces : pieces = []
      · rw [hpieces]
        exact Nat.le_refl _
      · rw [trimJoin_concat _ _ hpieces, join_concat _ hpieces]
        refine Nat.le_trans (length_trim_le _ _) ?_
        rw [String.length_append, String.length_append, String.length_append, String.length_append]
        omega

/-- Trimming takes nothing away exactly where the first piece does not begin with the character and
no later one ends with it. -/
theorem trimJoin_eq_join_iff {separator c : Char} (hne : separator ≠ c) (first : String)
    (rest : List String) : trimJoin separator c (first :: rest) = join separator (first :: rest) ↔
      rest = [] ∨ first.toList.head? ≠ some c ∧
        ∀ piece ∈ rest, piece.toList.getLast? ≠ some c := by
  induction rest using List.reverseRecOn with
  | nil => exact iff_of_true rfl (.inl rfl)
  | append_singleton rest next ih =>
      have hpieces : first :: rest ≠ [] := List.cons_ne_nil first rest
      have hends : trim (join separator (first :: rest) ++ String.singleton separator ++ next)
          (· = c) = join separator (first :: rest) ++ String.singleton separator ++ next ↔
            first.toList.head? ≠ some c ∧ next.toList.getLast? ≠ some c := by
        obtain ⟨more, hmore⟩ := exists_toList_join_append separator first rest next
        have hhead : (first.toList ++ separator :: more).head? ≠ some c ↔
            first.toList.head? ≠ some c := by
          cases first.toList with
          | nil => simp [hne]
          | cons x xs => simp
        have hlast : (join separator (first :: rest) ++ String.singleton separator ++
            next).toList.getLast? ≠ some c ↔ next.toList.getLast? ≠ some c := by
          rw [String.toList_append, String.toList_append, String.toList_singleton]
          cases hnext : next.toList using List.reverseRecOn with
          | nil => simp [hne]
          | append_singleton xs x => simp [← List.append_assoc]
        rw [trim_eq_self_iff, hlast, hmore, hhead]
      rw [← List.cons_append, trimJoin_concat _ _ hpieces, join_concat _ hpieces]
      constructor
      · intro hsame
        have hshort := length_trimJoin_le separator c (first :: rest)
        have htrim := length_trim_le (trimJoin separator c (first :: rest) ++
          String.singleton separator ++ next) (· = c)
        rw [hsame] at htrim
        rw [String.length_append, String.length_append, String.length_append,
          String.length_append] at htrim
        have huncut : trim (trimJoin separator c (first :: rest) ++ String.singleton separator ++
            next) (· = c) = trimJoin separator c (first :: rest) ++ String.singleton separator ++
              next := by
          refine trim_eq_of_length_le ?_
          rw [hsame, String.length_append, String.length_append, String.length_append,
            String.length_append]
          omega
        rw [huncut, String.append_assoc, String.append_assoc, String.append_left_inj] at hsame
        rw [hsame] at huncut
        obtain ⟨hhead, hlast⟩ := hends.1 huncut
        refine .inr ⟨hhead, fun piece hpiece => ?_⟩
        rcases List.mem_append.1 hpiece with hold | hnew
        · rcases ih.1 hsame with hnil | hclean
          · rw [hnil] at hold
            cases hold
          · exact hclean.2 piece hold
        · rw [List.mem_singleton.1 hnew]
          exact hlast
      · intro hclean
        rcases hclean with hnil | ⟨hhead, hlast⟩
        · simp at hnil
        · have hsame := ih.2 (.inr ⟨hhead, fun piece hpiece =>
            hlast piece (List.mem_append_left _ hpiece)⟩)
          rw [hsame]
          exact hends.2 ⟨hhead, hlast next (List.mem_append_right _ (List.mem_singleton_self next))⟩

end Join

end NewApi.Lib.Strings
