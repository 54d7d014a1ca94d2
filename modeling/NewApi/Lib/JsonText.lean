import NewApi.Lib.Integers
import NewApi.Lib.Json

/-!
# Writing JSON

The text of a value, with strings quoted as `encoding/json` quotes them: control characters, the
characters of HTML and the two line separators of Unicode are escaped.  Reading a text that was
written gives the value back, unless it is nested too deeply to be read.
-/

namespace NewApi.Lib.Json

open Strings

/-! ## Strings -/

/-- `\u` and four hexadecimal digits. -/
def unicodeEscape (n : ℕ) : List Char :=
  ['\\', 'u', Nat.digitChar (n / 4096 % 16), Nat.digitChar (n / 256 % 16),
    Nat.digitChar (n / 16 % 16), Nat.digitChar (n % 16)]

/-- The character in a string between quotes. -/
def quoteChar (c : Char) : List Char :=
  if c = '\\' ∨ c = '"' then ['\\', c]
  else if c.toNat = 8 then ['\\', 'b']
  else if c.toNat = 12 then ['\\', 'f']
  else if c = '\n' then ['\\', 'n']
  else if c = '\r' then ['\\', 'r']
  else if c = '\t' then ['\\', 't']
  else if c.toNat < 0x20 ∨ c ∈ ['<', '>', '&'] ∨ c.toNat = 0x2028 ∨ c.toNat = 0x2029 then
    unicodeEscape c.toNat
  else [c]

/-- What stands between the quotes. -/
def quote (s : String) : List Char :=
  s.toList.flatMap quoteChar

section

variable {c : Char} {cs rest : List Char} {n : ℕ}

theorem hexValue_digitChar (hn : n < 16) : hexValue (Nat.digitChar n) = n := by
  have hall : ∀ k : Fin 16, hexValue (Nat.digitChar k.1) = k.1 := by decide
  exact hall ⟨n, hn⟩

theorem isHex_digitChar (hn : n < 16) : isHex (Nat.digitChar n) = true := by
  have hall : ∀ k : Fin 16, isHex (Nat.digitChar k.1) = true := by decide
  exact hall ⟨n, hn⟩

theorem codes_unicodeEscape (hn : n < 0x10000) (cs : List Char) :
    codes (unicodeEscape n ++ cs) = n :: codes cs := by
  have hvalue : ((n / 4096 % 16 * 16 + n / 256 % 16) * 16 + n / 16 % 16) * 16 + n % 16 = n := by
    omega
  show codes ('\\' :: 'u' :: _ :: _ :: _ :: _ :: cs) = _
  rw [codes, hexValue_digitChar (by omega), hexValue_digitChar (by omega),
    hexValue_digitChar (by omega), hexValue_digitChar (by omega), hvalue]

theorem codes_of_ne (hc : c ≠ '\\') (cs : List Char) : codes (c :: cs) = c.toNat :: codes cs := by
  rw [codes]
  · intro a b d e cs hsame
    exact absurd hsame hc
  · intro d cs hsame
    exact absurd hsame hc

/-- A character is escaped by a letter or by its code, or stands for itself. -/
theorem quoteChar_cases (c : Char) :
    (∃ d ∈ ['"', '\\', '/', 'b', 'f', 'n', 'r', 't'], escapedChar d = c ∧ quoteChar c = ['\\', d]) ∨
      (c.toNat < 0x10000 ∧ quoteChar c = unicodeEscape c.toNat) ∨
      (c ≠ '\\' ∧ c ≠ '"' ∧ 0x20 ≤ c.toNat ∧ quoteChar c = [c]) := by
  by_cases hquote : c = '\\' ∨ c = '"'
  · left
    rcases hquote with rfl | rfl
    · exact ⟨'\\', by decide, by decide, by decide⟩
    · exact ⟨'"', by decide, by decide, by decide⟩
  by_cases hb : c.toNat = 8
  · obtain rfl : c = Char.ofNat 8 := Char.toNat_inj.1 hb
    exact .inl ⟨'b', by decide, by decide, by decide⟩
  by_cases hf : c.toNat = 12
  · obtain rfl : c = Char.ofNat 12 := Char.toNat_inj.1 hf
    exact .inl ⟨'f', by decide, by decide, by decide⟩
  by_cases hn : c = '\n'
  · subst hn
    exact .inl ⟨'n', by decide, by decide, by decide⟩
  by_cases hr : c = '\r'
  · subst hr
    exact .inl ⟨'r', by decide, by decide, by decide⟩
  by_cases ht : c = '\t'
  · subst ht
    exact .inl ⟨'t', by decide, by decide, by decide⟩
  have hrest : quoteChar c =
      if c.toNat < 0x20 ∨ c ∈ ['<', '>', '&'] ∨ c.toNat = 0x2028 ∨ c.toNat = 0x2029 then
        unicodeEscape c.toNat else [c] := by
    rw [quoteChar, if_neg hquote, if_neg hb, if_neg hf, if_neg hn, if_neg hr, if_neg ht]
  rw [hrest]
  split
  case isTrue hescaped =>
    refine .inr (.inl ⟨?_, rfl⟩)
    have hhtml : c ∈ ['<', '>', '&'] → c.toNat < 0x10000 := by
      intro hmem
      rcases List.mem_cons.mp hmem with rfl | hmem
      · decide
      rcases List.mem_cons.mp hmem with rfl | hmem
      · decide
      rw [List.mem_singleton.mp hmem]
      decide
    rcases hescaped with hcontrol | hmem | hline | hline
    · omega
    · exact hhtml hmem
    · omega
    · omega
  case isFalse hplain =>
    rw [not_or] at hquote hplain
    exact .inr (.inr ⟨hquote.1, hquote.2, not_lt.1 hplain.1, rfl⟩)

theorem codes_escape {d : Char} (hd : d ≠ 'u') (cs : List Char) :
    codes ('\\' :: d :: cs) = (escapedChar d).toNat :: codes cs := by
  rw [codes]
  intro a b e f cs hsame
  exact absurd hsame hd

/-- A quoted character has one code, its own. -/
theorem codes_quoteChar (c : Char) (cs : List Char) :
    codes (quoteChar c ++ cs) = c.toNat :: codes cs := by
  rcases quoteChar_cases c with ⟨d, hd, hescaped, hquote⟩ | ⟨hlt, hquote⟩ | ⟨hne, -, -, hquote⟩
  · have hu : d ≠ 'u' := by
      intro hsame
      subst hsame
      revert hd
      decide
    rw [hquote, List.cons_append, List.singleton_append, codes_escape hu, hescaped]
  · rw [hquote, codes_unicodeEscape hlt]
  · rw [hquote, List.singleton_append, codes_of_ne hne]

theorem codes_quote (s : String) : codes (quote s) = s.toList.map Char.toNat := by
  unfold quote
  induction s.toList with
  | nil => rfl
  | cons c cs ih => rw [List.flatMap_cons, codes_quoteChar, ih, List.map_cons]

theorem charsOfCodes_toNat (cs : List Char) : charsOfCodes (cs.map Char.toNat) = cs := by
  have hchar : ∀ c : Char, ¬ (0xD800 ≤ c.toNat ∧ c.toNat < 0xE000) := by
    intro c
    have hvalid : c.toNat < 0xD800 ∨ 0xDFFF < c.toNat ∧ c.toNat < 0x110000 := c.valid
    omega
  induction cs with
  | nil => rfl
  | cons c cs ih =>
      have hsingle : (if 0xD800 ≤ c.toNat ∧ c.toNat < 0xE000 then Char.ofNat 0xFFFD
          else Char.ofNat c.toNat) = c := by
        rw [if_neg (hchar c), Char.ofNat_toNat]
      cases cs with
      | nil =>
          show [ite _ _ _] = [c]
          rw [hsingle]
      | cons d cs =>
          have hpair : ¬ (0xD800 ≤ c.toNat ∧ c.toNat < 0xDC00 ∧ 0xDC00 ≤ d.toNat ∧
              d.toNat < 0xE000) := by
            have hc := hchar c
            omega
          rw [List.map_cons, List.map_cons, charsOfCodes, if_neg hpair, hsingle, ← List.map_cons, ih]

/-- Reading what stands between the quotes gives the string back. -/
theorem unquote_quote (s : String) : unquote (quote s) = s := by
  rw [unquote, codes_quote, charsOfCodes_toNat, String.ofList_toList]

theorem stringBody_of_next {state next : StringState} (hnext : state.next c = some next)
    (hend : ¬ (state = .plain ∧ c = '"')) (cs : List Char) :
    stringBody state (c :: cs) = (stringBody next cs).map fun (raw, rest) => (c :: raw, rest) := by
  rw [stringBody, if_neg hend, hnext, Option.bind_some]

theorem stringBody_unicodeEscape (n : ℕ) {raw : List Char}
    (hread : stringBody .plain cs = some (raw, rest)) :
    stringBody .plain (unicodeEscape n ++ cs) = some (unicodeEscape n ++ raw, rest) := by
  have hcode : ∀ left k, k < 16 → (StringState.code (left + 1)).next (Nat.digitChar k) =
      some (.code left) := by
    intro left k hk
    rw [StringState.next, if_pos (isHex_digitChar hk)]
  have hlast : ∀ k, k < 16 → (StringState.code 0).next (Nat.digitChar k) = some .plain := by
    intro k hk
    rw [StringState.next, if_pos (isHex_digitChar hk)]
  have hinside : ∀ left d, ¬ (StringState.code left = .plain ∧ d = '"') := by
    intro left d hsame
    cases hsame.1
  have hback : StringState.plain.next '\\' = some .escaped := rfl
  have hu : StringState.escaped.next 'u' = some (.code 3) := rfl
  show stringBody .plain ('\\' :: 'u' :: _ :: _ :: _ :: _ :: cs) = _
  rw [stringBody_of_next hback (by decide), stringBody_of_next hu (by decide),
    stringBody_of_next (hcode 2 _ (by omega)) (hinside _ _),
    stringBody_of_next (hcode 1 _ (by omega)) (hinside _ _),
    stringBody_of_next (hcode 0 _ (by omega)) (hinside _ _),
    stringBody_of_next (hlast _ (by omega)) (hinside _ _), hread]
  rfl

theorem stringBody_quoteChar (c : Char) {raw : List Char}
    (hread : stringBody .plain cs = some (raw, rest)) :
    stringBody .plain (quoteChar c ++ cs) = some (quoteChar c ++ raw, rest) := by
  rcases quoteChar_cases c with ⟨d, hd, -, hquote⟩ | ⟨-, hquote⟩ | ⟨hne, hend, hcontrol, hquote⟩
  · have hnext : StringState.escaped.next d = some .plain := by
      have hu : d ≠ 'u' := by
        intro hsame
        subst hsame
        revert hd
        decide
      rw [StringState.next, if_neg hu, if_pos hd]
    have hinside : ¬ (StringState.escaped = .plain ∧ d = '"') := by
      intro hsame
      cases hsame.1
    have hback : StringState.plain.next '\\' = some .escaped := rfl
    rw [hquote, List.cons_append, List.singleton_append, stringBody_of_next hback (by decide),
      stringBody_of_next hnext hinside, hread]
    rfl
  · rw [hquote]
    exact stringBody_unicodeEscape _ hread
  · have hnext : StringState.plain.next c = some .plain := by
      rw [StringState.next, if_neg hne, if_neg (not_lt.2 hcontrol)]
    rw [hquote, List.singleton_append, stringBody_of_next hnext (fun hsame => hend hsame.2), hread]
    rfl

/-- The string ends at the quote behind it. -/
theorem stringBody_quote (s : String) (cs : List Char) :
    stringBody .plain (quote s ++ '"' :: cs) = some (quote s, cs) := by
  unfold quote
  induction s.toList with
  | nil => rfl
  | cons c rest ih =>
      rw [List.flatMap_cons, List.append_assoc]
      exact stringBody_quoteChar c ih

end

/-! ## Numbers -/

section

variable {cs : List Char} {n : ℕ}

theorem isNumberChar_of_isDigit {c : Char} (hc : c.isDigit = true) : isNumberChar c = true := by
  simp [isNumberChar, hc]

/-- Digits that do not begin with a zero are a number. -/
theorem unsigned_of_digits {c : Char} (hc : c.isDigit = true) (hzero : c ≠ '0')
    (hdigits : ∀ d ∈ cs, d.isDigit = true) : unsigned (c :: cs) = true := by
  have hdrop : cs.dropWhile Char.isDigit = [] := List.dropWhile_eq_nil_iff.2 hdigits
  rw [unsigned]
  · rw [hc, hdrop]
    rfl
  · exact hzero

theorem head_toDigits (hn : 0 < n) : ∃ c cs, Nat.toDigits 10 n = c :: cs ∧ c ≠ '0' := by
  induction n using Nat.strong_induction_on with
  | _ n ih =>
      by_cases hsmall : n < 10
      · refine ⟨n.digitChar, [], Nat.toDigits_of_lt_base hsmall, ?_⟩
        have hall : ∀ k : Fin 10, 0 < k.1 → Nat.digitChar k.1 ≠ '0' := by decide
        exact hall ⟨n, hsmall⟩ hn
      · obtain ⟨c, cs, hdigits, hzero⟩ := ih (n / 10) (by omega) (by omega)
        refine ⟨c, cs ++ [Nat.digitChar (n % 10)], ?_, hzero⟩
        rw [Nat.toDigits_of_base_le (by omega) (by omega), hdigits, List.cons_append]

theorem unsigned_repr (n : ℕ) : unsigned n.repr.toList = true := by
  by_cases hzero : n = 0
  · subst hzero
    decide
  · obtain ⟨c, cs, hdigits, hc⟩ := head_toDigits (Nat.pos_of_ne_zero hzero)
    have hrepr : n.repr.toList = c :: cs := Nat.toList_repr.trans hdigits
    have hmem : ∀ d ∈ c :: cs, d.isDigit = true := by
      intro d hd
      rw [← hrepr] at hd
      exact isDigit_of_mem_repr hd
    rw [hrepr]
    exact unsigned_of_digits (hmem c List.mem_cons_self) hc fun d hd =>
      hmem d (List.mem_cons_of_mem c hd)

theorem isNumber_of_unsigned (hcs : unsigned cs = true) : isNumber cs = true := by
  unfold isNumber
  split
  · cases hcs
  · exact hcs

theorem isNumber_repr (n : ℕ) : isNumber n.repr.toList = true :=
  isNumber_of_unsigned (unsigned_repr n)

/-- The text of an integer is a number. -/
theorem isNumber_itoa (n : ℤ) : isNumber (itoa n).toList = true := by
  rw [itoa]
  split
  · rw [String.toList_append, String.toList_singleton]
    exact unsigned_repr _
  · exact isNumber_repr _

end

section

variable {cs : List Char}

theorem forall_isNumberChar_cons {c : Char} (hc : isNumberChar c = true)
    (hcs : ∀ d ∈ cs, isNumberChar d = true) : ∀ d ∈ c :: cs, isNumberChar d = true :=
  List.forall_mem_cons.2 ⟨hc, hcs⟩

theorem isNumberChar_of_digits (hcs : digits cs = true) : ∀ c ∈ cs, isNumberChar c = true := by
  intro c hc
  rw [digits, Bool.and_eq_true, List.all_eq_true] at hcs
  exact isNumberChar_of_isDigit (hcs.2 c hc)

theorem isNumberChar_of_exponent (hcs : exponent cs = true) : ∀ c ∈ cs, isNumberChar c = true := by
  cases cs with
  | nil =>
      intro c hc
      cases hc
  | cons e cs =>
      unfold exponent at hcs
      rw [Bool.and_eq_true] at hcs
      obtain ⟨he, hrest⟩ := hcs
      have hletter : isNumberChar e = true := by
        rcases (by simpa using he : e = 'e' ∨ e = 'E') with rfl | rfl <;> rfl
      refine forall_isNumberChar_cons hletter ?_
      split at hrest
      · exact forall_isNumberChar_cons rfl (isNumberChar_of_digits hrest)
      · exact forall_isNumberChar_cons rfl (isNumberChar_of_digits hrest)
      · exact isNumberChar_of_digits hrest

theorem isNumberChar_of_dropWhile (hcs : ∀ c ∈ cs.dropWhile Char.isDigit, isNumberChar c = true) :
    ∀ c ∈ cs, isNumberChar c = true := by
  intro c hc
  rw [← List.takeWhile_append_dropWhile (p := Char.isDigit) (l := cs), List.mem_append] at hc
  rcases hc with hdigit | hrest
  · exact isNumberChar_of_isDigit (List.mem_takeWhile_imp hdigit)
  · exact hcs c hrest

theorem isNumberChar_of_fraction (hcs : fraction cs = true) : ∀ c ∈ cs, isNumberChar c = true := by
  unfold fraction at hcs
  split at hcs
  · rw [Bool.and_eq_true] at hcs
    exact forall_isNumberChar_cons rfl
      (isNumberChar_of_dropWhile (isNumberChar_of_exponent hcs.2))
  · exact isNumberChar_of_exponent hcs

theorem isNumberChar_of_unsigned (hcs : unsigned cs = true) : ∀ c ∈ cs, isNumberChar c = true := by
  unfold unsigned at hcs
  split at hcs
  · cases hcs
  · exact forall_isNumberChar_cons rfl (isNumberChar_of_fraction hcs)
  · rw [Bool.and_eq_true] at hcs
    exact forall_isNumberChar_cons (isNumberChar_of_isDigit hcs.1)
      (isNumberChar_of_dropWhile (isNumberChar_of_fraction hcs.2))

theorem isNumberChar_of_isNumber (hcs : isNumber cs = true) : ∀ c ∈ cs, isNumberChar c = true := by
  unfold isNumber at hcs
  split at hcs
  · exact forall_isNumberChar_cons rfl (isNumberChar_of_unsigned hcs)
  · exact isNumberChar_of_unsigned hcs

/-- A number begins with its sign or a digit. -/
theorem head_of_isNumber (hcs : isNumber cs = true) :
    ∃ c rest, cs = c :: rest ∧ (c = '-' ∨ c.isDigit = true) := by
  unfold isNumber at hcs
  split at hcs
  case h_1 rest => exact ⟨'-', rest, rfl, .inl rfl⟩
  case h_2 =>
    unfold unsigned at hcs
    split at hcs
    case h_1 => cases hcs
    case h_2 rest _ => exact ⟨'0', rest, rfl, .inr rfl⟩
    case h_3 c rest _ _ =>
      rw [Bool.and_eq_true] at hcs
      exact ⟨c, rest, rfl, .inr hcs.1⟩

end

/-! ## Values -/

mutual

/-- The text of a value. -/
def text : Json → List Char
  | .null => ['n', 'u', 'l', 'l']
  | .bool true => ['t', 'r', 'u', 'e']
  | .bool false => ['f', 'a', 'l', 's', 'e']
  | .num digits => digits
  | .str raw => '"' :: (raw ++ ['"'])
  | .arr items => joined (itemTexts items)
  | .obj fields => '{' :: ([','].intercalate (fieldTexts fields) ++ ['}'])

def itemTexts : List Json → List (List Char)
  | [] => []
  | item :: items => text item :: itemTexts items

def fieldTexts : List (List Char × Json) → List (List Char)
  | [] => []
  | (key, v) :: fields => ('"' :: (key ++ '"' :: ':' :: text v)) :: fieldTexts fields

end

mutual

/-- How deep containers are nested. -/
def depth : Json → ℕ
  | .arr items => itemsDepth items + 1
  | .obj fields => fieldsDepth fields + 1
  | _ => 0

def itemsDepth : List Json → ℕ
  | [] => 0
  | item :: items => max (depth item) (itemsDepth items)

def fieldsDepth : List (List Char × Json) → ℕ
  | [] => 0
  | (_, v) :: fields => max (depth v) (fieldsDepth fields)

end

/-- Numbers are numbers, and strings and keys are quoted. -/
inductive WellFormed : Json → Prop
  | null : WellFormed .null
  | bool (b : Bool) : WellFormed (.bool b)
  | num {digits : List Char} (hdigits : isNumber digits = true) : WellFormed (.num digits)
  | str (s : String) : WellFormed (.str (quote s))
  | arr {items : List Json} (hitems : ∀ v ∈ items, WellFormed v) : WellFormed (.arr items)
  | obj {fields : List (List Char × Json)} (hkeys : ∀ field ∈ fields, ∃ s, field.1 = quote s)
      (hvalues : ∀ field ∈ fields, WellFormed field.2) : WellFormed (.obj fields)

section

variable {limit : ℕ} {v : Json} {c : Char}

/-- A value that begins with none of the brackets is no container. -/
theorem value_of_not_bracket (hwhite : isWhite c = false) (hbracket : c ≠ '[') (hbrace : c ≠ '{')
    (cs : List Char) : value limit (c :: cs) = scalar c cs := by
  have hskip : skipWhite (c :: cs) = c :: cs := skipWhite_cons_of_not_white hwhite cs
  cases limit with
  | zero => rw [value, token_eq hskip]
  | succ limit => rw [value, token_eq hskip, if_neg hbracket, if_neg hbrace]

theorem parse_num {digits : List Char} (hdigits : isNumber digits = true) :
    parse limit digits = some (.num digits) := by
  obtain ⟨c, cs, hsplit, hfirst⟩ := head_of_isNumber hdigits
  have hother : ∀ d, d ≠ '-' → d.isDigit = false → c ≠ d := by
    intro d hminus hdigit hsame
    subst hsame
    rcases hfirst with hfirst | hfirst
    · exact hminus hfirst
    · rw [hfirst] at hdigit
      cases hdigit
  have hwhite : isWhite c = false := by
    simp only [isWhite, Bool.or_eq_false_iff, decide_eq_false_iff_not]
    exact ⟨⟨⟨hother _ (by decide) rfl, hother _ (by decide) rfl⟩, hother _ (by decide) rfl⟩,
      hother _ (by decide) rfl⟩
  have hchars := isNumberChar_of_isNumber hdigits
  have htake : digits.takeWhile isNumberChar = digits := List.takeWhile_eq_self_iff.2 hchars
  have hdrop : digits.dropWhile isNumberChar = [] := List.dropWhile_eq_nil_iff.2 hchars
  have hnumber : number digits = some (.num digits, []) := by
    rw [number, htake, if_pos hdigits, hdrop]
  refine parse_eq_some_iff.2 ⟨[], ?_, rfl⟩
  rw [hsplit] at hnumber ⊢
  rw [value_of_not_bracket hwhite (hother _ (by decide) rfl) (hother _ (by decide) rfl), scalar,
    if_neg (hother _ (by decide) rfl), if_neg (hother _ (by decide) rfl),
    if_neg (hother _ (by decide) rfl), if_neg (hother _ (by decide) rfl)]
  exact hnumber

theorem value_str (s : String) (cs : List Char) :
    value limit ('"' :: (quote s ++ '"' :: cs)) = some (.str (quote s), cs) := by
  rw [value_of_not_bracket rfl (by decide) (by decide), scalar, if_pos rfl,
    map_eq (stringBody_quote s cs)]

theorem member_text {s : String} {cs : List Char} (hread : parse limit cs = some v) :
    Whole (member (value limit)) ('"' :: (quote s ++ '"' :: ':' :: cs)) (quote s, v) := by
  obtain ⟨rest, hvalue, hblank⟩ := parse_eq_some_iff.1 hread
  have hskip : skipWhite ('"' :: (quote s ++ '"' :: ':' :: cs)) =
      '"' :: (quote s ++ '"' :: ':' :: cs) := skipWhite_cons_of_not_white rfl _
  have hcolon : skipWhite (':' :: cs) = ':' :: cs := skipWhite_cons_of_not_white rfl _
  refine ⟨rest, ?_, hblank⟩
  rw [member, token_eq hskip, if_pos rfl, bind_eq (stringBody_quote s (':' :: cs)),
    token_eq hcolon, if_pos rfl, map_eq hvalue]

theorem forall₂_itemTexts {R : List Char → Json → Prop} {items : List Json}
    (hitems : ∀ v ∈ items, R (text v) v) : List.Forall₂ R (itemTexts items) items := by
  induction items with
  | nil => exact .nil
  | cons v items ih =>
      rw [List.forall_mem_cons] at hitems
      exact .cons hitems.1 (ih hitems.2)

theorem forall₂_fieldTexts {R : List Char → List Char × Json → Prop}
    {fields : List (List Char × Json)}
    (hfields : ∀ field ∈ fields, R ('"' :: (field.1 ++ '"' :: ':' :: text field.2)) field) :
    List.Forall₂ R (fieldTexts fields) fields := by
  induction fields with
  | nil => exact .nil
  | cons field fields ih =>
      rw [List.forall_mem_cons] at hfields
      exact .cons hfields.1 (ih hfields.2)

theorem itemsDepth_le_iff {n : ℕ} {items : List Json} :
    itemsDepth items ≤ n ↔ ∀ v ∈ items, depth v ≤ n := by
  induction items with
  | nil => simp [itemsDepth]
  | cons v items ih => rw [itemsDepth, Nat.max_le, ih, List.forall_mem_cons]

theorem fieldsDepth_le_iff {n : ℕ} {fields : List (List Char × Json)} :
    fieldsDepth fields ≤ n ↔ ∀ field ∈ fields, depth field.2 ≤ n := by
  induction fields with
  | nil => simp [fieldsDepth]
  | cons field fields ih => rw [fieldsDepth, Nat.max_le, ih, List.forall_mem_cons]

/-- A text that was written is read, if it is not nested too deeply. -/
theorem parse_text_of_depth_le (hv : WellFormed v) (hdepth : depth v ≤ limit) :
    parse limit (text v) = some v := by
  induction hv generalizing limit with
  | null =>
      exact parse_eq_some_iff.2 ⟨[], value_of_not_bracket rfl (by decide) (by decide) _, rfl⟩
  | bool b =>
      cases b <;>
        exact parse_eq_some_iff.2 ⟨[], value_of_not_bracket rfl (by decide) (by decide) _, rfl⟩
  | num hdigits => exact parse_num hdigits
  | str s => exact parse_eq_some_iff.2 ⟨[], value_str s [], rfl⟩
  | @arr items hitems ih =>
      cases limit with
      | zero => cases hdepth
      | succ limit =>
          have hitem := itemsDepth_le_iff.1 (Nat.le_of_succ_le_succ hdepth)
          exact parse_joined (forall₂_itemTexts fun v hmem => ih v hmem (hitem v hmem))
  | @obj fields hkeys hvalues ih =>
      cases limit with
      | zero => cases hdepth
      | succ limit =>
          have hfield := fieldsDepth_le_iff.1 (Nat.le_of_succ_le_succ hdepth)
          have hwhole := enclosed_join (member_itemReader limit) <| forall₂_fieldTexts
            fun field hmem => by
              obtain ⟨s, hkey⟩ := hkeys field hmem
              rw [hkey]
              have hread := member_text (s := s) (ih field hmem (hfield field hmem))
              rw [← hkey] at hread ⊢
              exact hread
          refine parse_eq_some_iff.2 ⟨[], ?_, rfl⟩
          have hskip : ∀ cs, skipWhite ('{' :: cs) = '{' :: cs :=
            fun cs => skipWhite_cons_of_not_white rfl cs
          rw [text, value, token_eq (hskip _), if_neg (by decide), if_pos rfl, map_eq hwhole]

theorem mem_of_sequence {α : Type} {item : Reader α} {close : Char} {fuel : ℕ} {cs rest : List Char}
    {as : List α} (hread : sequence item close fuel cs = some (as, rest)) :
    ∀ a ∈ as, ∃ cs rest, item cs = some (a, rest) := by
  induction fuel generalizing cs rest as with
  | zero => cases hread
  | succ fuel ih =>
      obtain ⟨a, left, ha, hleft⟩ := bind_eq_some hread
      obtain ⟨c, more, -, hmore⟩ := token_eq_some hleft
      split at hmore
      case isTrue =>
        obtain ⟨as, has, rfl⟩ := map_eq_some hmore
        exact List.forall_mem_cons.2 ⟨⟨cs, left, ha⟩, ih has⟩
      case isFalse =>
        split at hmore
        case isTrue =>
          cases hmore
          exact List.forall_mem_singleton.2 ⟨cs, left, ha⟩
        case isFalse => cases hmore

theorem mem_of_enclosed {α : Type} {item : Reader α} {close : Char} {cs rest : List Char}
    {as : List α} (hread : enclosed item close cs = some (as, rest)) :
    ∀ a ∈ as, ∃ cs rest, item cs = some (a, rest) := by
  obtain ⟨c, left, -, hleft⟩ := token_eq_some hread
  split at hleft
  case isTrue =>
    cases hleft
    intro a ha
    cases ha
  case isFalse => exact mem_of_sequence hleft

theorem value_of_member {limit : ℕ} {cs rest : List Char} {field : List Char × Json}
    (hread : member (value limit) cs = some (field, rest)) :
    ∃ cs, value limit cs = some (field.2, rest) := by
  obtain ⟨c, left, -, hleft⟩ := token_eq_some hread
  split at hleft
  case isTrue =>
    obtain ⟨key, more, -, hmore⟩ := bind_eq_some hleft
    obtain ⟨d, value, -, hvalue⟩ := token_eq_some hmore
    split at hvalue
    case isTrue =>
      obtain ⟨v, hv, rfl⟩ := map_eq_some hvalue
      exact ⟨value, hv⟩
    case isFalse => cases hvalue
  case isFalse => cases hleft

theorem depth_of_scalar {cs rest : List Char} (hread : scalar c cs = some (v, rest)) :
    depth v = 0 := by
  have hword : ∀ {letters w}, depth w = 0 → word letters w cs = some (v, rest) → depth v = 0 := by
    intro letters w hw hread
    unfold word at hread
    split at hread
    case isTrue =>
      cases hread
      exact hw
    case isFalse => cases hread
  unfold scalar at hread
  split at hread
  · obtain ⟨raw, -, rfl⟩ := map_eq_some hread
    rfl
  split at hread
  · exact hword rfl hread
  split at hread
  · exact hword rfl hread
  split at hread
  · exact hword rfl hread
  · replace hread : number (c :: cs) = some (v, rest) := hread
    unfold number at hread
    split at hread
    case isTrue =>
      cases hread
      rfl
    case isFalse => cases hread

/-- What is read is nested no deeper than the limit. -/
theorem depth_of_value {cs rest : List Char} (hread : value limit cs = some (v, rest)) :
    depth v ≤ limit := by
  induction limit generalizing v cs rest with
  | zero =>
      obtain ⟨c, left, -, hleft⟩ := token_eq_some hread
      exact Nat.le_of_eq (depth_of_scalar hleft)
  | succ limit ih =>
      obtain ⟨c, left, -, hleft⟩ := token_eq_some hread
      split at hleft
      · obtain ⟨items, hitems, rfl⟩ := map_eq_some hleft
        refine Nat.succ_le_succ (itemsDepth_le_iff.2 fun v hmem => ?_)
        obtain ⟨cs, rest, hv⟩ := mem_of_enclosed hitems v hmem
        exact ih hv
      split at hleft
      · obtain ⟨fields, hfields, rfl⟩ := map_eq_some hleft
        refine Nat.succ_le_succ (fieldsDepth_le_iff.2 fun field hmem => ?_)
        obtain ⟨cs, rest, hfield⟩ := mem_of_enclosed hfields field hmem
        obtain ⟨cs, hv⟩ := value_of_member hfield
        exact ih hv
      · rw [depth_of_scalar hleft]
        exact Nat.zero_le _

/-- A text that was written is read exactly if it is not nested too deeply. -/
theorem parse_text (hv : WellFormed v) :
    parse limit (text v) = if depth v ≤ limit then some v else none := by
  split
  case isTrue hdepth => exact parse_text_of_depth_le hv hdepth
  case isFalse hdepth =>
    rw [Option.eq_none_iff_forall_ne_some]
    intro w hparse
    have hread := parse_text_of_depth_le hv (Nat.le_max_right limit (depth v))
    rw [parse_of_le (Nat.le_max_left limit (depth v)) hparse] at hread
    obtain ⟨rest, hvalue, -⟩ := parse_eq_some_iff.1 hparse
    cases hread
    exact hdepth (depth_of_value hvalue)

/-- Only null is written as null. -/
theorem text_eq_null_iff (hv : WellFormed v) : text v = ['n', 'u', 'l', 'l'] ↔ v = .null := by
  constructor
  · intro hnull
    have hread := parse_text_of_depth_le hv (Nat.le_refl (depth v))
    have hword : parse (depth v) ['n', 'u', 'l', 'l'] = some .null :=
      parse_text_of_depth_le .null (Nat.zero_le _)
    rw [hnull, hword] at hread
    exact (Option.some.inj hread).symm
  · intro hnull
    rw [hnull]
    rfl

end

end NewApi.Lib.Json
