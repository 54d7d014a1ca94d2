import Mathlib.Data.List.TakeWhile
import NewApi.Lib.Integers

/-!
# The cache in Redis or in memory

`HybridCache` keeps integers under the full key of a key: the namespace with a colon, and the key
without white space at its ends and without colons at its beginning.  A key that begins with the
namespace is taken for a full key.
-/

namespace NewApi.Model

open NewApi.Lib.Strings

/-! ## Full keys -/

/-- `cachex.Namespace`. -/
abbrev CacheNamespace := String

namespace CacheNamespace

def isColon (c : Char) : Bool :=
  c = ':'

/-- `Namespace.prefix`. -/
def keyPrefix (n : CacheNamespace) : String :=
  let ns := trimRight (trimSpace n) isColon
  if ns = "" then "" else ns ++ String.singleton ':'

def fullKey (n : CacheNamespace) (key : String) : String :=
  let key := trimSpace key
  if key = "" then ""
  else
    let p := keyPrefix n
    if p = "" then trimLeft key isColon
    else if hasPrefix key p then key
    else p ++ trimLeft key isColon

/-- A key with the namespace before it, as callers store it. -/
def qualified (n : CacheNamespace) (key : String) : String :=
  n ++ String.singleton ':' ++ key

/-- The namespace is one with its colon that has nothing to trim at its right end. -/
def Plain (n : CacheNamespace) : Prop :=
  keyPrefix n = trimLeft n isSpace ++ String.singleton ':'

/-- The namespace has white space and then colons only. -/
def OnlyColons (n : CacheNamespace) : Prop :=
  ∀ c ∈ (trimLeft n isSpace).toList, c = ':'

/-- The key ends with a character that is not trimmed. -/
def Closed (key : String) : Prop :=
  ∃ c, key.toList.getLast? = some c ∧ isSpace c = false

section

variable {n : CacheNamespace} {key : String} {cs : List Char}

theorem isSpace_colon : isSpace ':' = false := by
  decide

theorem Closed.append (hkey : Closed key) (before : String) : Closed (before ++ key) := by
  obtain ⟨c, hlast, hc⟩ := hkey
  refine ⟨c, ?_, hc⟩
  rw [String.toList_append, List.getLast?_append, hlast]
  rfl

theorem Closed.qualified (hkey : Closed key) (n : CacheNamespace) :
    Closed (CacheNamespace.qualified n key) :=
  hkey.append _

theorem Closed.trimSpace_eq (hkey : Closed key) : trimSpace key = trimLeft key isSpace := by
  obtain ⟨c, hlast, hc⟩ := hkey
  refine trim_eq_trimLeft fun a ha => ?_
  rw [hlast] at ha
  rw [← Option.some.inj ha]
  exact hc

theorem Closed.trimLeft_ne_empty (hkey : Closed key) : trimLeft key isSpace ≠ "" := by
  obtain ⟨c, hlast, hc⟩ := hkey
  intro hempty
  have hlist := congrArg String.toList hempty
  rw [toList_trimLeft, String.toList_empty, List.dropWhile_eq_nil_iff] at hlist
  rw [hlist c (List.mem_of_getLast? hlast)] at hc
  cases hc

/-- The full key of a key that ends with a character that is not trimmed. -/
theorem Closed.fullKey_eq (hkey : Closed key) : fullKey n key =
    if keyPrefix n = "" then trimLeft (trimLeft key isSpace) isColon
    else if hasPrefix (trimLeft key isSpace) (keyPrefix n) then trimLeft key isSpace
    else keyPrefix n ++ trimLeft (trimLeft key isSpace) isColon := by
  unfold fullKey
  rw [hkey.trimSpace_eq]
  exact if_neg hkey.trimLeft_ne_empty

theorem trimLeft_qualified (n : CacheNamespace) (key : String) :
    trimLeft (qualified n key) isSpace = trimLeft n isSpace ++ String.singleton ':' ++ key := by
  rw [← String.toList_inj, toList_trimLeft, qualified, String.toList_append, String.toList_append,
    String.toList_append, String.toList_append, toList_trimLeft, String.toList_singleton,
    List.append_assoc, List.append_assoc, List.dropWhile_append]
  split
  case isTrue hempty =>
    rw [List.isEmpty_iff.1 hempty]
    exact List.dropWhile_cons_of_neg (by rw [isSpace_colon]; exact Bool.false_ne_true)
  case isFalse => rfl

/-- Nothing behind another character is dropped. -/
theorem trimLeft_append_of_exists {drop : Char → Bool} {s t : String}
    (hs : ∃ c ∈ s.toList, drop c = false) :
    trimLeft (s ++ t) drop = trimLeft s drop ++ t ∧ trimLeft s drop ≠ "" := by
  have hne : s.toList.dropWhile drop ≠ [] := by
    intro hnil
    obtain ⟨c, hmem, hc⟩ := hs
    rw [List.dropWhile_eq_nil_iff.1 hnil c hmem] at hc
    cases hc
  constructor
  · rw [← String.toList_inj, String.toList_append, toList_trimLeft, toList_trimLeft,
      String.toList_append, List.dropWhile_append,
      if_neg fun hempty => hne (List.isEmpty_iff.1 hempty)]
  · intro hempty
    rw [← toList_trimLeft, hempty] at hne
    exact hne rfl

theorem trimLeft_append_of_forall {drop : Char → Bool} {s t : String}
    (hs : ∀ c ∈ s.toList, drop c = true) : trimLeft (s ++ t) drop = trimLeft t drop := by
  rw [← String.toList_inj, toList_trimLeft, toList_trimLeft, String.toList_append,
    List.dropWhile_append, if_pos (List.isEmpty_iff.2 (List.dropWhile_eq_nil_iff.2 hs))]

/-- The namespace in front of a key is as long as what is left of the namespace at most. -/
theorem keyPrefix_eq (n : CacheNamespace) : ∃ ns rest, trimLeft n isSpace = ns ++ rest ∧
    keyPrefix n = if ns = "" then "" else ns ++ String.singleton ':' := by
  obtain ⟨spaces, hspaces⟩ := List.dropWhile_suffix
    (l := (trimLeft n isSpace).toList.reverse) isSpace
  obtain ⟨colons, hcolons⟩ := List.dropWhile_suffix
    (l := (trimSpace n).toList.reverse) isColon
  refine ⟨trimRight (trimSpace n) isColon,
    String.ofList (colons.reverse ++ spaces.reverse), ?_, rfl⟩
  rw [← String.toList_inj, String.toList_append, trimRight, String.toList_ofList,
    String.toList_ofList, ← List.append_assoc, ← List.reverse_append, hcolons,
    List.reverse_reverse, trimSpace, trim_eq_trimRight, trimRight, String.toList_ofList,
    ← List.reverse_append, hspaces, List.reverse_reverse]

theorem length_keyPrefix_le (hplain : ¬ Plain n) (hne : keyPrefix n ≠ "") :
    (keyPrefix n).length ≤ (trimLeft n isSpace).length := by
  obtain ⟨ns, rest, hns, hp⟩ := keyPrefix_eq n
  by_cases hempty : ns = ""
  · rw [if_pos hempty] at hp
    exact absurd hp hne
  · rw [if_neg hempty] at hp
    have hrest : rest ≠ "" := by
      rintro rfl
      rw [String.append_empty] at hns
      exact hplain (by rw [Plain, hp, hns])
    have hlength : rest.length ≠ 0 := mt String.length_eq_zero_iff.1 hrest
    rw [hp, hns, String.length_append, String.length_append, String.length_singleton]
    omega

theorem Plain.keyPrefix_ne_empty (hplain : Plain n) : keyPrefix n ≠ "" := by
  rw [hplain]
  simp

theorem OnlyColons.keyPrefix_eq_empty (hcolons : OnlyColons n) : keyPrefix n = "" := by
  have hspace : trimSpace n = trimLeft n isSpace := by
    rw [trimSpace, trim_eq_trimRight]
    refine trimRight_eq_self fun a ha => ?_
    rw [hcolons a (List.mem_of_getLast? ha)]
    exact isSpace_colon
  have hempty : trimRight (trimSpace n) isColon = "" := by
    rw [hspace, trimRight, ← String.toList_inj, String.toList_ofList, String.toList_empty,
      List.reverse_eq_nil_iff, List.dropWhile_eq_nil_iff]
    exact fun c hc => decide_eq_true (hcolons c (List.mem_reverse.1 hc))
  rw [keyPrefix, hempty]
  rfl

theorem exists_of_not_onlyColons (hcolons : ¬ OnlyColons n) :
    ∃ c ∈ (trimLeft n isSpace).toList, isColon c = false := by
  unfold OnlyColons at hcolons
  rw [not_forall₂] at hcolons
  obtain ⟨c, hc, hne⟩ := hcolons
  exact ⟨c, hc, decide_eq_false hne⟩

/-! ## Full keys of qualified keys -/

theorem fullKey_qualified_plain (hplain : Plain n) (hkey : Closed key) :
    fullKey n (qualified n key) = keyPrefix n ++ key := by
  have hbegins : hasPrefix (keyPrefix n ++ key) (keyPrefix n) = true := hasPrefix_iff.2 ⟨key, rfl⟩
  rw [(hkey.qualified n).fullKey_eq, trimLeft_qualified, ← hplain, if_neg hplain.keyPrefix_ne_empty,
    if_pos hbegins]

theorem fullKey_qualified_onlyColons (hcolons : OnlyColons n) (hkey : Closed key) :
    fullKey n (qualified n key) = trimLeft key isColon := by
  rw [(hkey.qualified n).fullKey_eq, trimLeft_qualified, if_pos hcolons.keyPrefix_eq_empty]
  refine trimLeft_append_of_forall fun c hc => ?_
  rw [String.toList_append, String.toList_singleton, List.mem_append, List.mem_singleton] at hc
  exact decide_eq_true (hc.elim (hcolons c) id)

/-- The full key of a key with any other namespace before it is longer than that of a key. -/
theorem length_fullKey_qualified (hplain : ¬ Plain n) (hcolons : ¬ OnlyColons n)
    (hkey : Closed key) :
    (keyPrefix n).length + key.length < (fullKey n (qualified n key)).length := by
  obtain ⟨hdrop, hne⟩ := trimLeft_append_of_exists
    (t := String.singleton ':' ++ key) (exists_of_not_onlyColons hcolons)
  have hlong : key.length < (trimLeft (trimLeft n isSpace ++ String.singleton ':' ++ key)
      isColon).length := by
    rw [String.append_assoc, hdrop, String.length_append, String.length_append,
      String.length_singleton]
    omega
  rw [(hkey.qualified n).fullKey_eq, trimLeft_qualified]
  split
  case isTrue hempty =>
    rw [hempty, String.length_empty]
    omega
  case isFalse hempty =>
    have hle := length_keyPrefix_le hplain hempty
    split
    · rw [String.length_append, String.length_append, String.length_singleton]
      omega
    · rw [String.length_append]
      omega

theorem fullKey_plain (hplain : Plain n) (hkey : Closed key) : fullKey n key =
    if hasPrefix (trimLeft key isSpace) (keyPrefix n) then trimLeft key isSpace
    else keyPrefix n ++ trimLeft (trimLeft key isSpace) isColon := by
  rw [hkey.fullKey_eq, if_neg hplain.keyPrefix_ne_empty]

theorem fullKey_onlyColons (hcolons : OnlyColons n) (hkey : Closed key) :
    fullKey n key = trimLeft (trimLeft key isSpace) isColon := by
  rw [hkey.fullKey_eq, if_pos hcolons.keyPrefix_eq_empty]

theorem length_fullKey_le (hkey : Closed key) :
    (fullKey n key).length ≤ (keyPrefix n).length + key.length := by
  have hspace := length_trimLeft_le key isSpace
  have hcolon := length_trimLeft_le (trimLeft key isSpace) isColon
  rw [hkey.fullKey_eq]
  split
  · omega
  · split
    · omega
    · rw [String.length_append]
      omega

/-! ## When a key and its qualified form are one -/

/-- The text begins neither with white space nor with a colon. -/
def BeginsClean (s : String) : Prop :=
  ∀ c, s.toList.head? = some c → isSpace c = false ∧ c ≠ ':'

theorem BeginsClean.trimLeft_isSpace {s : String} (hs : BeginsClean s) : trimLeft s isSpace = s :=
  trimLeft_eq_self_iff.2 fun c hc => (hs c hc).1

theorem BeginsClean.trimLeft_isColon {s : String} (hs : BeginsClean s) : trimLeft s isColon = s :=
  trimLeft_eq_self_iff.2 fun c hc => decide_eq_false (hs c hc).2

theorem fullKey_eq_qualified_plain_iff (hplain : Plain n) (hkey : Closed key) :
    fullKey n key = keyPrefix n ++ key ↔
      BeginsClean key ∧ hasPrefix key (keyPrefix n) = false := by
  have hpositive : (keyPrefix n).length ≠ 0 :=
    mt String.length_eq_zero_iff.1 hplain.keyPrefix_ne_empty
  have hspace := length_trimLeft_le key isSpace
  rw [fullKey_plain hplain hkey]
  constructor
  · intro hsame
    split at hsame
    · have hlength := congrArg String.length hsame
      rw [String.length_append] at hlength
      omega
    case isFalse hbegins =>
      rw [String.append_right_inj] at hsame
      have hlength := congrArg String.length hsame
      have hcolon := length_trimLeft_le (trimLeft key isSpace) isColon
      have hspace' : trimLeft key isSpace = key := trimLeft_eq_of_length_le (by omega)
      rw [hspace'] at hsame hbegins
      refine ⟨fun c hc => ⟨trimLeft_eq_self_iff.1 hspace' c hc, ?_⟩,
        Bool.eq_false_iff.2 hbegins⟩
      exact of_decide_eq_false (trimLeft_eq_self_iff.1 hsame c hc)
  · intro hclean
    obtain ⟨hclean, hbegins⟩ := hclean
    rw [hclean.trimLeft_isSpace, hbegins, if_neg Bool.false_ne_true, hclean.trimLeft_isColon]

theorem fullKey_eq_qualified_onlyColons_iff (hcolons : OnlyColons n) (hkey : Closed key) :
    fullKey n key = trimLeft key isColon ∧ trimLeft key isColon ≠ "" ↔
      trimLeft key isSpace = key ∧ ∃ c ∈ key.toList, c ≠ ':' := by
  have hempty : trimLeft key isColon ≠ "" ↔ ∃ c ∈ key.toList, c ≠ ':' := by
    rw [Ne, ← String.toList_inj, toList_trimLeft, String.toList_empty, List.dropWhile_eq_nil_iff,
      not_forall₂]
    simp only [isColon, decide_eq_true_eq, exists_prop]
  rw [fullKey_onlyColons hcolons hkey, hempty]
  refine and_congr_left fun _ => ?_
  constructor
  · intro hsame
    by_cases hhead : ∀ c, key.toList.head? = some c → isSpace c = false
    · exact trimLeft_eq_self_iff.2 hhead
    · rw [not_forall₂] at hhead
      obtain ⟨c, hc, hspace⟩ := hhead
      have hcolon : trimLeft key isColon = key := by
        refine trimLeft_eq_self_iff.2 fun a ha => decide_eq_false ?_
        rintro rfl
        rw [hc] at ha
        rw [Option.some.inj ha] at hspace
        exact hspace isSpace_colon
      have hlength := length_trimLeft_le (trimLeft key isSpace) isColon
      rw [hsame, hcolon] at hlength
      exact trimLeft_eq_of_length_le hlength
  · intro hsame
    rw [hsame]

/-- A key and its qualified form have one full key exactly in these cases. -/
theorem fullKey_qualified_eq_iff (hkey : Closed key) :
    fullKey n key = fullKey n (qualified n key) ∧ fullKey n (qualified n key) ≠ "" ↔
      (Plain n ∧ BeginsClean key ∧ hasPrefix key (keyPrefix n) = false) ∨
        (OnlyColons n ∧ trimLeft key isSpace = key ∧ ∃ c ∈ key.toList, c ≠ ':') := by
  by_cases hplain : Plain n
  · have hcolons : ¬ OnlyColons n := fun hcolons =>
      hplain.keyPrefix_ne_empty hcolons.keyPrefix_eq_empty
    have hne : keyPrefix n ++ key ≠ "" := by
      rw [Ne, String.append_eq_empty_iff]
      exact fun hempty => hplain.keyPrefix_ne_empty hempty.1
    rw [fullKey_qualified_plain hplain hkey, and_iff_left hne,
      fullKey_eq_qualified_plain_iff hplain hkey]
    simp only [hplain, hcolons, true_and, false_and, or_false]
  · by_cases hcolons : OnlyColons n
    · rw [fullKey_qualified_onlyColons hcolons hkey,
        fullKey_eq_qualified_onlyColons_iff hcolons hkey]
      simp only [hplain, hcolons, true_and, false_and, false_or]
    · have hlong := length_fullKey_qualified hplain hcolons hkey
      have hshort := length_fullKey_le (n := n) hkey
      refine iff_of_false (fun hsame => ?_) (by simp only [hplain, hcolons, false_and, or_self,
        not_false_eq_true])
      rw [hsame.1] at hshort
      omega

/-! ## Keys with a common beginning -/

/-- A text that is not empty and has nothing to trim. -/
def Trimmed (s : String) : Prop :=
  s ≠ "" ∧ trimSpace s = s

variable {lead v w : String}

theorem Trimmed.closed (hv : Trimmed v) : Closed v := by
  obtain ⟨hne, htrim⟩ := hv
  cases hlast : v.toList.getLast? with
  | none =>
      rw [List.getLast?_eq_none_iff, String.toList_eq_nil_iff] at hlast
      exact absurd hlast hne
  | some c => exact ⟨c, hlast, (trim_eq_self_iff_ends.1 htrim).2 c hlast⟩

theorem Trimmed.head (hv : Trimmed v) {c : Char} (hc : v.toList.head? = some c) :
    isSpace c = false :=
  (trim_eq_self_iff_ends.1 hv.2).1 c hc

theorem trimmed_of_ends {c : Char} (hv : Closed v) (hhead : v.toList.head? = some c)
    (hc : isSpace c = false) : Trimmed v := by
  obtain ⟨d, hlast, hd⟩ := hv
  constructor
  · rintro rfl
    cases hhead
  · refine trim_eq_self_iff_ends.2 ⟨fun a ha => ?_, fun a ha => ?_⟩
    · rw [hhead] at ha
      rw [← Option.some.inj ha]
      exact hc
    · rw [hlast] at ha
      rw [← Option.some.inj ha]
      exact hd

/-- The first character of a text that is not empty is that of all texts it begins. -/
theorem head?_append_of_ne_empty (hlead : lead ≠ "") (v w : String) :
    (lead ++ v).toList.head? = (lead ++ w).toList.head? := by
  rw [String.toList_append, String.toList_append]
  cases hlist : lead.toList with
  | nil => exact absurd (String.toList_eq_nil_iff.1 hlist) hlead
  | cons c cs => rfl

theorem Plain.head_keyPrefix (hplain : Plain n) {c : Char}
    (hc : (keyPrefix n).toList.head? = some c) : isSpace c = false := by
  rw [hplain, String.toList_append, toList_trimLeft, List.head?_append] at hc
  cases hhead : (n.toList.dropWhile isSpace).head? with
  | none =>
      rw [hhead, String.toList_singleton] at hc
      rw [← Option.some.inj hc]
      exact isSpace_colon
  | some d =>
      rw [hhead] at hc
      have hnot := List.head?_dropWhile_not isSpace n.toList
      rw [hhead] at hnot
      rw [← Option.some.inj hc]
      exact hnot

/-- The namespace goes on behind the text with a character that is no white space. -/
def GoesOn (n : CacheNamespace) (lead : String) : Prop :=
  ∃ c rest, (keyPrefix n).toList = lead.toList ++ c :: rest ∧ isSpace c = false

/-- Another value takes the entry of a value exactly if it can be the rest of the namespace with the
whole key behind it. -/
theorem exists_fullKey_eq_plain_iff (hplain : Plain n) (hv : Trimmed v)
    (hclean : BeginsClean (lead ++ v)) (hno : hasPrefix (lead ++ v) (keyPrefix n) = false) :
    (∃ w, Trimmed w ∧ w ≠ v ∧ fullKey n (lead ++ w) = keyPrefix n ++ (lead ++ v)) ↔
      GoesOn n lead := by
  constructor
  · intro hother
    obtain ⟨w, hw, hne, hsame⟩ := hother
    by_cases hlead : lead = ""
    · cases hlist : (keyPrefix n).toList with
      | nil => exact absurd (String.toList_eq_nil_iff.1 hlist) hplain.keyPrefix_ne_empty
      | cons c rest =>
          refine ⟨c, rest, by rw [hlead, hlist]; rfl, hplain.head_keyPrefix ?_⟩
          rw [hlist]
          rfl
    · have hclean' : BeginsClean (lead ++ w) := by
        unfold BeginsClean
        rw [head?_append_of_ne_empty hlead w v]
        exact hclean
      rw [fullKey_plain hplain (hw.closed.append lead), hclean'.trimLeft_isSpace] at hsame
      split at hsame
      case isFalse =>
        rw [hclean'.trimLeft_isColon, String.append_right_inj, String.append_right_inj] at hsame
        exact absurd hsame hne
      case isTrue =>
        have hlists := congrArg String.toList hsame
        rw [String.toList_append, String.toList_append, String.toList_append,
          List.append_eq_append_iff] at hlists
        rcases hlists with ⟨rest, hp, hrest⟩ | ⟨rest, hlong, -⟩
        · cases rest with
          | nil =>
              rw [List.append_nil, String.toList_inj] at hp
              rw [hp, hasPrefix_iff.2 ⟨v, rfl⟩] at hno
              cases hno
          | cons c rest =>
              refine ⟨c, rest, hp, hw.head ?_⟩
              rw [hrest]
              rfl
        · have hbegins : hasPrefix (lead ++ v) (keyPrefix n) = true := by
            refine hasPrefix_iff.2 ⟨String.ofList rest ++ v, ?_⟩
            rw [← String.toList_inj, String.toList_append, String.toList_append,
              String.toList_append, String.toList_ofList, hlong, List.append_assoc]
          rw [hbegins] at hno
          cases hno
  · intro hgoes
    obtain ⟨c, rest, hp, hc⟩ := hgoes
    have hkey : lead ++ (String.ofList (c :: rest) ++ (lead ++ v)) =
        keyPrefix n ++ (lead ++ v) := by
      rw [← String.append_assoc, String.append_left_inj, ← String.toList_inj,
        String.toList_append, String.toList_ofList, hp]
    refine ⟨String.ofList (c :: rest) ++ (lead ++ v),
      trimmed_of_ends ((hv.closed.append lead).append _) ?_ hc, ?_, ?_⟩
    · rw [String.toList_append, String.toList_ofList]
      rfl
    · intro hsame
      have hlength := congrArg String.length hsame
      rw [String.length_append, String.length_append, String.length_ofList,
        List.length_cons] at hlength
      omega
    · have hspace : trimLeft (keyPrefix n ++ (lead ++ v)) isSpace =
          keyPrefix n ++ (lead ++ v) := by
        refine trimLeft_eq_self_iff.2 fun a ha => hplain.head_keyPrefix ?_
        have hhead := head?_append_of_ne_empty hplain.keyPrefix_ne_empty (lead ++ v) ""
        rw [String.append_empty, ha] at hhead
        exact hhead.symm
      rw [hkey, fullKey_plain hplain ((hv.closed.append lead).append _), hspace,
        if_pos (hasPrefix_iff.2 ⟨_, rfl⟩)]

theorem exists_fullKey_eq_onlyColons_iff (hcolons : OnlyColons n) (hv : Trimmed v)
    (hspace : trimLeft (lead ++ v) isSpace = lead ++ v) :
    (∃ w, Trimmed w ∧ w ≠ v ∧ fullKey n (lead ++ w) = trimLeft (lead ++ v) isColon) ↔
      ∀ c ∈ lead.toList, c = ':' := by
  constructor
  · intro hother
    by_contra hcolon
    rw [not_forall₂] at hcolon
    obtain ⟨c, hc, hne⟩ := hcolon
    have hlead : ∃ c ∈ lead.toList, isColon c = false := ⟨c, hc, decide_eq_false hne⟩
    have hleadne : lead ≠ "" := by
      rintro rfl
      cases hc
    obtain ⟨w, hw, hne, hsame⟩ := hother
    have hspace' : trimLeft (lead ++ w) isSpace = lead ++ w := by
      rw [trimLeft_eq_self_iff] at hspace ⊢
      rw [head?_append_of_ne_empty hleadne w v]
      exact hspace
    rw [fullKey_onlyColons hcolons (hw.closed.append lead), hspace',
      (trimLeft_append_of_exists hlead).1, (trimLeft_append_of_exists hlead).1,
      String.append_right_inj] at hsame
    exact hne hsame
  · intro hlead
    have hcolon : ∀ c ∈ (lead ++ String.singleton ':').toList, isColon c = true := by
      intro c hc
      rw [String.toList_append, String.toList_singleton, List.mem_append,
        List.mem_singleton] at hc
      exact decide_eq_true (hc.elim (hlead c) id)
    have hhead : (lead ++ String.singleton ':').toList.head? = some ':' := by
      rw [String.toList_append]
      cases hlist : lead.toList with
      | nil => rfl
      | cons c cs =>
          rw [hlead c (by rw [hlist]; exact List.mem_cons_self)]
          rfl
    refine ⟨String.singleton ':' ++ v,
      trimmed_of_ends (hv.closed.append _) (by rw [String.toList_append]; rfl) isSpace_colon,
      ?_, ?_⟩
    · intro hsame
      have hlength := congrArg String.length hsame
      rw [String.length_append, String.length_singleton] at hlength
      omega
    · have hspace' : trimLeft (lead ++ String.singleton ':' ++ v) isSpace =
          lead ++ String.singleton ':' ++ v := by
        refine trimLeft_eq_self_iff.2 fun a ha => ?_
        rw [String.toList_append, List.head?_append, hhead] at ha
        rw [← Option.some.inj ha]
        exact isSpace_colon
      have hlead' : ∀ c ∈ lead.toList, isColon c = true := fun c hc =>
        decide_eq_true (hlead c hc)
      rw [fullKey_onlyColons hcolons ((hv.closed.append _).append lead), ← String.append_assoc,
        hspace', trimLeft_append_of_forall hcolon, trimLeft_append_of_forall hlead']

/-- The key with the value has one full key, qualified or not, and no other value behind the same
beginning has it. -/
def Coherent (n : CacheNamespace) (lead v : String) : Prop :=
  (Plain n ∧ BeginsClean (lead ++ v) ∧ hasPrefix (lead ++ v) (keyPrefix n) = false ∧
      ¬ GoesOn n lead) ∨
    (OnlyColons n ∧ trimLeft (lead ++ v) isSpace = lead ++ v ∧ ∃ c ∈ lead.toList, c ≠ ':')

theorem coherent_iff (hv : Trimmed v) :
    ((fullKey n (lead ++ v) = fullKey n (qualified n (lead ++ v)) ∧
        fullKey n (qualified n (lead ++ v)) ≠ "") ∧
      ∀ w, Trimmed w → w ≠ v → fullKey n (lead ++ w) ≠ fullKey n (qualified n (lead ++ v))) ↔
      Coherent n lead v := by
  have hkey := hv.closed.append lead
  have hothers : (∀ w, Trimmed w → w ≠ v →
      fullKey n (lead ++ w) ≠ fullKey n (qualified n (lead ++ v))) ↔
        ¬ ∃ w, Trimmed w ∧ w ≠ v ∧ fullKey n (lead ++ w) = fullKey n (qualified n (lead ++ v)) := by
    simp only [not_exists, not_and, Ne]
  rw [fullKey_qualified_eq_iff hkey, hothers, Coherent]
  by_cases hplain : Plain n
  · have hcolons : ¬ OnlyColons n := fun hcolons =>
      hplain.keyPrefix_ne_empty hcolons.keyPrefix_eq_empty
    simp only [hplain, hcolons, true_and, false_and, or_false, and_assoc]
    refine and_congr_right fun hclean => and_congr_right fun hno => not_congr ?_
    rw [fullKey_qualified_plain hplain hkey]
    exact exists_fullKey_eq_plain_iff hplain hv hclean hno
  · by_cases hcolons : OnlyColons n
    · simp only [hplain, hcolons, true_and, false_and, false_or, and_assoc]
      refine and_congr_right fun hspace => ?_
      rw [fullKey_qualified_onlyColons hcolons hkey,
        exists_fullKey_eq_onlyColons_iff hcolons hv hspace, not_forall₂]
      simp only [exists_prop]
      refine and_iff_right_of_imp fun hlead => ?_
      obtain ⟨c, hc, hne⟩ := hlead
      exact ⟨c, by rw [String.toList_append]; exact List.mem_append_left _ hc, hne⟩
    · simp only [hplain, hcolons, false_and, or_self]

end

end CacheNamespace

/-! ## The cache -/

/-- What is kept under keys, for a time to live in seconds: a server of Redis, or a cache in
memory. -/
structure KeyValue (S V : Type) where
  get : S → String → Option V
  set : S → String → V → ℤ → S
  delete : S → String → S

/-- Within the time to live a value is found under its own key.  Other keys keep theirs, unless room
is made for the new one. -/
structure KeyValue.Documented {S V : Type} (kv : KeyValue S V) : Prop where
  get_set : ∀ s key v ttl, 0 < ttl → kv.get (kv.set s key v ttl) key = some v
  get_set_other : ∀ s key v ttl other, other ≠ key →
    kv.get (kv.set s key v ttl) other = kv.get s other ∨
      kv.get (kv.set s key v ttl) other = none
  get_delete : ∀ s key, kv.get (kv.delete s key) key = none
  get_delete_other : ∀ s key other, other ≠ key → kv.get (kv.delete s key) other = kv.get s other

/-- `redisOn` decides between the two; Redis keeps texts. -/
inductive Backend (S : Type)
  | redis (client : KeyValue S String)
  | memory (cache : KeyValue S ℤ)

def Backend.Documented {S : Type} : Backend S → Prop
  | .redis client => client.Documented
  | .memory cache => cache.Documented

/-- `IntCodec`. -/
def encodeInt (v : ℤ) : String :=
  itoa v

def decodeInt (s : String) : Option ℤ :=
  let s := trimSpace s
  if s = "" then none else atoi s

/-- `HybridCache[int]`. -/
structure HybridCache (S : Type) where
  ns : CacheNamespace
  backend : Backend S

/-- The value, whether it was found, or an error. -/
inductive CacheResult
  | found (value : ℤ)
  | missing
  | failed
deriving DecidableEq

namespace HybridCache

variable {S : Type} (c : HybridCache S) (s : S)

def get (key : String) : CacheResult :=
  let full := c.ns.fullKey key
  if full = "" then .missing
  else
    match c.backend with
    | .redis client =>
        match client.get s full with
        | none => .missing
        | some raw =>
            match decodeInt raw with
            | none => .failed
            | some v => .found v
    | .memory cache =>
        match cache.get s full with
        | none => .missing
        | some v => .found v

def setWithTTL (key : String) (v ttl : ℤ) : S :=
  let full := c.ns.fullKey key
  if full = "" then s
  else
    match c.backend with
    | .redis client => client.set s full (encodeInt v) ttl
    | .memory cache => cache.set s full v ttl

/-- `UNLINK`, or the deletion in memory. -/
def deleteFull (full : String) : S :=
  match c.backend with
  | .redis client => client.delete s full
  | .memory cache => cache.delete s full

def deleteMany (keys : List String) : S :=
  ((keys.map c.ns.fullKey).filter (· ≠ "")).foldl c.deleteFull s

section

variable {c s} {key other : String} {v ttl : ℤ}

theorem decodeInt_encodeInt (hv : InInt64 v) : decodeInt (encodeInt v) = some v := by
  rw [decodeInt, encodeInt, trimSpace_itoa]
  exact (if_neg (itoa_ne_empty v)).trans (atoi_itoa hv)

theorem get_of_fullKey_eq (hsame : c.ns.fullKey other = c.ns.fullKey key) :
    c.get s other = c.get s key := by
  rw [get, get, hsame]

/-- A value is found under every key with the same full key. -/
theorem get_setWithTTL (hbackend : c.backend.Documented) (hv : InInt64 v) (httl : 0 < ttl)
    (hkey : c.ns.fullKey key ≠ "") (hsame : c.ns.fullKey other = c.ns.fullKey key) :
    c.get (c.setWithTTL s key v ttl) other = .found v := by
  rw [get_of_fullKey_eq hsame, get, setWithTTL]
  cases hc : c.backend with
  | redis client =>
      rw [hc] at hbackend
      simp only [if_neg hkey, hbackend.get_set s _ (encodeInt v) ttl httl, decodeInt_encodeInt hv]
  | memory cache =>
      rw [hc] at hbackend
      simp only [if_neg hkey, hbackend.get_set s _ v ttl httl]

/-- Under other full keys nothing new is found. -/
theorem get_setWithTTL_other (hbackend : c.backend.Documented)
    (hother : c.ns.fullKey other ≠ c.ns.fullKey key) :
    c.get (c.setWithTTL s key v ttl) other = c.get s other ∨
      c.get (c.setWithTTL s key v ttl) other = .missing := by
  by_cases hkey : c.ns.fullKey key = ""
  · rw [setWithTTL]
    exact .inl (by rw [if_pos hkey])
  · rw [get, get, setWithTTL]
    cases hc : c.backend with
    | redis client =>
        rw [hc] at hbackend
        simp only [if_neg hkey]
        rcases hbackend.get_set_other s _ (encodeInt v) ttl _ hother with hold | hnone
        · exact .inl (by rw [hold])
        · exact .inr (by rw [hnone]; simp)
    | memory cache =>
        rw [hc] at hbackend
        simp only [if_neg hkey]
        rcases hbackend.get_set_other s _ v ttl _ hother with hold | hnone
        · exact .inl (by rw [hold])
        · exact .inr (by rw [hnone]; simp)

theorem setWithTTL_of_empty (hkey : c.ns.fullKey key = "") : c.setWithTTL s key v ttl = s :=
  if_pos hkey

theorem get_deleteFull (hbackend : c.backend.Documented) :
    c.get (c.deleteFull s (c.ns.fullKey key)) key = .missing := by
  rw [get, deleteFull]
  cases hc : c.backend with
  | redis client =>
      rw [hc] at hbackend
      simp only [hbackend.get_delete s (c.ns.fullKey key), ite_self]
  | memory cache =>
      rw [hc] at hbackend
      simp only [hbackend.get_delete s (c.ns.fullKey key), ite_self]

/-- A deleted key is not found. -/
theorem get_deleteMany (hbackend : c.backend.Documented) :
    c.get (c.deleteMany s [key]) key = .missing := by
  by_cases hkey : c.ns.fullKey key = ""
  · rw [get]
    exact if_pos hkey
  · have hkeys : ([key].map c.ns.fullKey).filter (· ≠ "") = [c.ns.fullKey key] := by
      simp [hkey]
    rw [deleteMany, hkeys]
    exact get_deleteFull hbackend

end

end HybridCache

/-- A store that forgets nothing. -/
def KeyValue.ofMap (V : Type) : KeyValue (String → Option V) V where
  get s key := s key
  set s key v _ := Function.update s key (some v)
  delete s key := Function.update s key none

theorem KeyValue.ofMap_documented (V : Type) : (KeyValue.ofMap V).Documented where
  get_set s key v ttl _ := by simp [KeyValue.ofMap]
  get_set_other s key v ttl other hother := by simp [KeyValue.ofMap, hother]
  get_delete s key := by simp [KeyValue.ofMap]
  get_delete_other s key other hother := by simp [KeyValue.ofMap, hother]

end NewApi.Model
