import Mathlib.Data.List.DropRight
import NewApi.Lib.Strings

/-!
# JSON texts

The grammar of JSON on lists of characters.  A reader takes a value from the beginning of a text and
gives the rest back; containers may be nested up to a limit.  Numbers and strings keep the text they
stand in.  A reader that succeeds does the same when the text goes on behind a delimiter, so the
texts of values with commas between them, in brackets, are the text of the array of the values.
-/

namespace NewApi.Lib

/-- A value, with the text of its numbers, strings and keys as it stands in the source. -/
inductive Json where
  | null
  | bool (value : Bool)
  | num (text : List Char)
  | str (raw : List Char)
  | arr (items : List Json)
  | obj (fields : List (List Char × Json))

namespace Json

/-- Takes something from the beginning of a text, if it is there, and leaves the rest. -/
abbrev Reader (α : Type) :=
  List Char → Option (α × List Char)

section Reader

variable {α β : Type}

namespace Reader

def pure (a : α) : Reader α := fun cs =>
  some (a, cs)

def fail : Reader α := fun _ =>
  none

def map (f : α → β) (item : Reader α) : Reader β := fun cs =>
  (item cs).map fun (a, rest) => (f a, rest)

def bind (item : Reader α) (k : α → Reader β) : Reader β := fun cs =>
  (item cs).bind fun (a, rest) => k a rest

end Reader

def isWhite (c : Char) : Bool :=
  c = ' ' || c = '\t' || c = '\n' || c = '\r'

def skipWhite (cs : List Char) : List Char :=
  cs.dropWhile isWhite

/-- Goes on with the first character that is no white space. -/
def token (k : Char → Reader α) : Reader α := fun cs =>
  match skipWhite cs with
  | [] => none
  | c :: rest => k c rest

end Reader

/-! ## Numbers, strings and words -/

def digits (cs : List Char) : Bool :=
  !cs.isEmpty && cs.all Char.isDigit

def exponent : List Char → Bool
  | [] => true
  | c :: cs =>
      (c = 'e' || c = 'E') &&
        match cs with
        | '+' :: cs => digits cs
        | '-' :: cs => digits cs
        | cs => digits cs

def fraction : List Char → Bool
  | '.' :: cs =>
      !(cs.takeWhile Char.isDigit).isEmpty && exponent (cs.dropWhile Char.isDigit)
  | cs => exponent cs

/-- A zero stands alone before the fraction. -/
def unsigned : List Char → Bool
  | [] => false
  | '0' :: cs => fraction cs
  | c :: cs => c.isDigit && fraction (cs.dropWhile Char.isDigit)

def isNumber : List Char → Bool
  | '-' :: cs => unsigned cs
  | cs => unsigned cs

/-- The characters that can stand in a number. -/
def isNumberChar (c : Char) : Bool :=
  c.isDigit || c = '-' || c = '+' || c = '.' || c = 'e' || c = 'E'

/-- A number ends where no character of one follows. -/
def number : Reader Json := fun cs =>
  if isNumber (cs.takeWhile isNumberChar) then
    some (.num (cs.takeWhile isNumberChar), cs.dropWhile isNumberChar)
  else none

def isHex (c : Char) : Bool :=
  c.isDigit || ('a' ≤ c && c ≤ 'f') || ('A' ≤ c && c ≤ 'F')

/-- Where one is in a string: behind a backslash, or with digits of a code still to come. -/
inductive StringState where
  | plain
  | escaped
  | code (left : ℕ)
deriving DecidableEq

def StringState.next (c : Char) : StringState → Option StringState
  | .plain => if c = '\\' then some .escaped else if c.toNat < 0x20 then none else some .plain
  | .escaped =>
      if c = 'u' then some (.code 3)
      else if c ∈ ['"', '\\', '/', 'b', 'f', 'n', 'r', 't'] then some .plain else none
  | .code 0 => if isHex c then some .plain else none
  | .code (left + 1) => if isHex c then some (.code left) else none

/-- What stands before the closing quote. -/
def stringBody : StringState → Reader (List Char)
  | _, [] => none
  | state, c :: cs =>
      if state = .plain ∧ c = '"' then some ([], cs)
      else (state.next c).bind fun state =>
        (stringBody state cs).map fun (raw, rest) => (c :: raw, rest)

def word (letters : List Char) (v : Json) : Reader Json := fun cs =>
  if letters.isPrefixOf cs then some (v, cs.drop letters.length) else none

/-- A value that is no container, told by its first character. -/
def scalar (c : Char) : Reader Json :=
  if c = '"' then (stringBody .plain).map .str
  else if c = 'n' then word ['u', 'l', 'l'] .null
  else if c = 't' then word ['r', 'u', 'e'] (.bool true)
  else if c = 'f' then word ['a', 'l', 's', 'e'] (.bool false)
  else fun cs => number (c :: cs)

/-! ## Containers -/

section Container

variable {α : Type}

/-- Items with commas between them, up to the closing bracket. -/
def sequence (item : Reader α) (close : Char) : ℕ → Reader (List α)
  | 0 => .fail
  | fuel + 1 => item.bind fun a => token fun c =>
      if c = ',' then (sequence item close fuel).map (a :: ·)
      else if c = close then .pure [a]
      else .fail

/-- What stands between the brackets; every item takes a character at least. -/
def enclosed (item : Reader α) (close : Char) : Reader (List α) :=
  token fun c => if c = close then .pure [] else fun rest =>
    sequence item close (c :: rest).length (c :: rest)

/-- A key with its value. -/
def member (item : Reader α) : Reader (List Char × α) :=
  token fun c =>
    if c = '"' then
      (stringBody .plain).bind fun key => token fun c =>
        if c = ':' then item.map (key, ·) else .fail
    else .fail

end Container

/-- A value in which containers are nested up to a depth. -/
def value : ℕ → Reader Json
  | 0 => token scalar
  | depth + 1 => token fun c =>
      if c = '[' then (enclosed (value depth) ']').map .arr
      else if c = '{' then (enclosed (member (value depth)) '}').map .obj
      else scalar c

/-- The value of a whole text. -/
def parse (limit : ℕ) (text : List Char) : Option Json :=
  (value limit text).bind fun (v, rest) => if skipWhite rest = [] then some v else none

/-! ## What a reader does when the text goes on -/

section Continue

variable {α β : Type} {item item' : Reader α} {close : Char} {cs rest tail : List Char}

/-- Nothing that could belong to a number comes first. -/
def Delimited (cs : List Char) : Prop :=
  ∀ c, cs.head? = some c → isNumberChar c = false

/-- What the reader takes does not depend on what follows behind a delimiter. -/
structure Continues (item : Reader α) : Prop where
  append : ∀ {cs tail : List Char} {a : α} {rest : List Char}, Delimited tail →
    item cs = some (a, rest) → item (cs ++ tail) = some (a, rest ++ tail)

theorem skipWhite_append {c : Char} (hskip : skipWhite cs = c :: rest) (tail : List Char) :
    skipWhite (cs ++ tail) = c :: (rest ++ tail) := by
  unfold skipWhite at hskip ⊢
  rw [List.dropWhile_append, hskip]
  rfl

theorem skipWhite_blank (hblank : skipWhite cs = []) (tail : List Char) :
    skipWhite (cs ++ tail) = skipWhite tail := by
  unfold skipWhite at hblank ⊢
  rw [List.dropWhile_append, hblank]
  rfl

theorem token_eq {k : Char → Reader α} {c : Char} (hskip : skipWhite cs = c :: rest) :
    token k cs = k c rest := by
  unfold token
  rw [hskip]

theorem token_eq_some {k : Char → Reader α} {a : α × List Char} (hread : token k cs = some a) :
    ∃ c left, skipWhite cs = c :: left ∧ k c left = some a := by
  cases hskip : skipWhite cs with
  | nil =>
      unfold token at hread
      rw [hskip] at hread
      cases hread
  | cons c left => exact ⟨c, left, rfl, (token_eq hskip).symm.trans hread⟩

theorem map_eq_some {f : α → β} {b : β} (hread : item.map f cs = some (b, rest)) :
    ∃ a, item cs = some (a, rest) ∧ f a = b := by
  obtain ⟨⟨a, left⟩, hitem, hpair⟩ := Option.map_eq_some_iff.1 hread
  cases hpair
  exact ⟨a, hitem, rfl⟩

theorem map_eq {f : α → β} {a : α} (hitem : item cs = some (a, rest)) :
    item.map f cs = some (f a, rest) := by
  unfold Reader.map
  rw [hitem]
  rfl

theorem bind_eq {k : α → Reader β} {a : α} (hitem : item cs = some (a, rest)) :
    item.bind k cs = k a rest := by
  unfold Reader.bind
  rw [hitem]
  rfl

theorem bind_eq_some {k : α → Reader β} {b : β × List Char} (hread : item.bind k cs = some b) :
    ∃ a left, item cs = some (a, left) ∧ k a left = some b := by
  obtain ⟨⟨a, left⟩, hitem, hk⟩ := Option.bind_eq_some_iff.1 hread
  exact ⟨a, left, hitem, hk⟩

namespace Continues

theorem pure (a : α) : Continues (.pure a) := by
  constructor
  intro cs tail b rest _ hread
  cases hread
  rfl

theorem fail : Continues (.fail : Reader α) := by
  constructor
  intro cs tail b rest _ hread
  cases hread

theorem map (hitem : Continues item) (f : α → β) : Continues (item.map f) := by
  constructor
  intro cs tail b rest htail hread
  obtain ⟨a, ha, rfl⟩ := map_eq_some hread
  exact map_eq (hitem.append htail ha)

theorem bind (hitem : Continues item) {k : α → Reader β} (hk : ∀ a, Continues (k a)) :
    Continues (item.bind k) := by
  constructor
  intro cs tail b rest htail hread
  obtain ⟨a, left, ha, hrest⟩ := bind_eq_some hread
  rw [bind_eq (hitem.append htail ha)]
  exact (hk a).append htail hrest

theorem token {k : Char → Reader α} (hk : ∀ c, Continues (k c)) : Continues (token k) := by
  constructor
  intro cs tail a rest htail hread
  obtain ⟨c, left, hskip, hleft⟩ := token_eq_some hread
  rw [token_eq (skipWhite_append hskip tail)]
  exact (hk c).append htail hleft

theorem ite {p : Prop} [Decidable p] (hitem : Continues item) (hitem' : Continues item') :
    Continues (if p then item else item') := by
  split
  · exact hitem
  · exact hitem'

end Continues

theorem takeWhile_append (hdelimited : Delimited tail) :
    (cs ++ tail).takeWhile isNumberChar = cs.takeWhile isNumberChar ∧
      (cs ++ tail).dropWhile isNumberChar = cs.dropWhile isNumberChar ++ tail := by
  induction cs with
  | nil =>
      cases tail with
      | nil => exact ⟨rfl, rfl⟩
      | cons c tail =>
          have hc : isNumberChar c = false := hdelimited c rfl
          simp [hc]
  | cons c cs ih =>
      cases hc : isNumberChar c with
      | true => simp [hc, ih.1, ih.2]
      | false => simp [hc]

theorem number_continues : Continues number := by
  constructor
  intro cs tail a rest htail hread
  unfold number at hread ⊢
  rw [(takeWhile_append htail).1, (takeWhile_append htail).2]
  split at hread
  case isTrue hnumber =>
    cases hread
    rw [if_pos hnumber]
  case isFalse => cases hread

theorem stringBody_continues (state : StringState) : Continues (stringBody state) := by
  constructor
  intro cs tail raw rest htail hread
  induction cs generalizing state raw with
  | nil => cases hread
  | cons c cs ih =>
      rw [List.cons_append]
      unfold stringBody at hread ⊢
      by_cases hend : state = .plain ∧ c = '"'
      · rw [if_pos hend] at hread ⊢
        cases hread
        rfl
      · rw [if_neg hend] at hread ⊢
        obtain ⟨next, hnext, hmap⟩ := Option.bind_eq_some_iff.1 hread
        obtain ⟨inner, hinner, rfl⟩ := map_eq_some hmap
        rw [hnext, Option.bind_some, ih next hinner]
        rfl

theorem word_continues (letters : List Char) (v : Json) : Continues (word letters v) := by
  constructor
  intro cs tail a rest _ hread
  unfold word at hread ⊢
  split at hread
  case isTrue hprefix =>
    cases hread
    obtain ⟨left, rfl⟩ := List.isPrefixOf_iff_prefix.1 hprefix
    rw [List.append_assoc, if_pos (List.isPrefixOf_iff_prefix.2 (List.prefix_append ..)),
      List.drop_left, List.drop_left]
  case isFalse => cases hread

theorem scalar_continues (c : Char) : Continues (scalar c) := by
  refine .ite ((stringBody_continues .plain).map Json.str) ?_
  refine .ite (word_continues _ _) (.ite (word_continues _ _) (.ite (word_continues _ _) ?_))
  constructor
  intro cs tail v rest htail hread
  exact number_continues.append htail hread

theorem sequence_continues (hitem : Continues item) (fuel : ℕ) :
    Continues (sequence item close fuel) := by
  induction fuel with
  | zero => exact .fail
  | succ fuel ih =>
      exact .bind hitem fun a => .token fun c => .ite (ih.map _) (.ite (.pure [a]) .fail)

/-- The one reader takes all that the other takes, and does with it what that does. -/
def Extends (item item' : Reader α) : Prop :=
  ∀ cs a, item cs = some a → item' cs = some a

namespace Extends

theorem refl (item : Reader α) : Extends item item :=
  fun _ _ hread => hread

theorem fail (item : Reader α) : Extends .fail item := by
  intro cs a hread
  cases hread

theorem map (hitem : Extends item item') (f : α → β) : Extends (item.map f) (item'.map f) := by
  intro cs result hread
  obtain ⟨b, rest⟩ := result
  obtain ⟨a, ha, rfl⟩ := map_eq_some hread
  exact map_eq (hitem _ _ ha)

theorem bind (hitem : Extends item item') {k k' : α → Reader β} (hk : ∀ a, Extends (k a) (k' a)) :
    Extends (item.bind k) (item'.bind k') := by
  intro cs b hread
  obtain ⟨a, left, ha, hrest⟩ := bind_eq_some hread
  rw [bind_eq (hitem _ _ ha)]
  exact hk a _ _ hrest

theorem token {k k' : Char → Reader α} (hk : ∀ c, Extends (k c) (k' c)) :
    Extends (token k) (token k') := by
  intro cs a hread
  obtain ⟨c, left, hskip, hleft⟩ := token_eq_some hread
  rw [token_eq hskip]
  exact hk c _ _ hleft

theorem ite {p : Prop} [Decidable p] {other other' : Reader α} (hitem : Extends item item')
    (hother : Extends other other') :
    Extends (if p then item else other) (if p then item' else other') := by
  split
  · exact hitem
  · exact hother

end Extends

theorem sequence_extends (hitem : Extends item item') {fuel more : ℕ} (hmore : fuel ≤ more) :
    Extends (sequence item close fuel) (sequence item' close more) := by
  induction fuel generalizing more with
  | zero => exact .fail _
  | succ fuel ih =>
      cases more with
      | zero => exact absurd hmore (Nat.not_succ_le_zero fuel)
      | succ more =>
          have hrest := ih (Nat.le_of_succ_le_succ hmore)
          exact .bind hitem fun a => .token fun c => .ite (hrest.map _) (.refl _)

theorem enclosed_extends (hitem : Extends item item') :
    Extends (enclosed item close) (enclosed item' close) :=
  .token fun _ => .ite (.refl _) fun _ a hread => sequence_extends hitem (Nat.le_refl _) _ a hread

theorem member_extends (hitem : Extends item item') : Extends (member item) (member item') :=
  .token fun _ => .ite (.bind (.refl _) fun _ => .token fun _ => .ite (hitem.map _) (.refl _))
    (.refl _)

theorem enclosed_continues (hitem : Continues item) : Continues (enclosed item close) := by
  refine .token fun c => .ite (.pure []) ?_
  constructor
  intro cs tail as rest htail hread
  have hlength : (c :: cs).length ≤ (c :: (cs ++ tail)).length := by
    rw [List.length_cons, List.length_cons, List.length_append]
    omega
  exact sequence_extends (.refl item) hlength _ _
    ((sequence_continues hitem (c :: cs).length).append htail hread)

theorem member_continues (hitem : Continues item) : Continues (member item) := by
  refine .token fun c => .ite (.bind (stringBody_continues .plain) fun key => ?_) .fail
  exact .token fun c => .ite (hitem.map _) .fail

theorem value_continues (depth : ℕ) : Continues (value depth) := by
  induction depth with
  | zero => exact .token scalar_continues
  | succ depth ih =>
      refine .token fun c => .ite ((enclosed_continues ih).map Json.arr) ?_
      exact .ite ((enclosed_continues (member_continues ih)).map Json.obj) (scalar_continues c)

theorem scalar_bracket (cs : List Char) : scalar '[' cs = none ∧ scalar '{' cs = none := by
  constructor <;> simp [scalar, number, isNumberChar, isNumber, unsigned]

/-- With more nesting allowed no value gets lost. -/
theorem value_extends (depth : ℕ) : Extends (value depth) (value (depth + 1)) := by
  induction depth with
  | zero =>
      refine .token fun c => ?_
      intro cs v hread
      rw [if_neg, if_neg]
      · exact hread
      · intro hbrace
        subst hbrace
        cases (scalar_bracket cs).2.symm.trans hread
      · intro hbracket
        subst hbracket
        cases (scalar_bracket cs).1.symm.trans hread
  | succ depth ih =>
      refine .token fun c => .ite ((enclosed_extends ih).map Json.arr) ?_
      exact .ite ((enclosed_extends (member_extends ih)).map Json.obj) (.refl _)

end Continue

/-! ## Texts with commas between them -/

section Join

variable {α : Type} {item : Reader α} {close : Char} {cs text : List Char} {texts : List (List Char)}
  {as : List α} {a : α}

/-- The text is that of one item, with white space behind it at most. -/
def Whole (item : Reader α) (text : List Char) (a : α) : Prop :=
  ∃ rest, item text = some (a, rest) ∧ skipWhite rest = []

/-- White space before an item is skipped, and no item begins with the closing bracket. -/
structure ItemReader (item : Reader α) (close : Char) : Prop where
  continues : Continues item
  skips : ∀ cs, item (skipWhite cs) = item cs
  first : ∀ {cs a}, item cs = some a → ∃ c left, skipWhite cs = c :: left ∧ c ≠ close
  closes : isNumberChar close = false ∧ isWhite close = false ∧ close ≠ ','

theorem delimited_of_head {c : Char} (hc : isNumberChar c = false) (cs : List Char) :
    Delimited (c :: cs) := by
  intro d hd
  cases hd
  exact hc

theorem token_skipWhite (k : Char → Reader α) (cs : List Char) :
    token k (skipWhite cs) = token k cs := by
  have hidem : skipWhite (skipWhite cs) = skipWhite cs := List.dropWhile_idempotent _ _
  unfold token
  rw [hidem]

theorem skipWhite_cons_of_not_white {c : Char} (hc : isWhite c = false) (cs : List Char) :
    skipWhite (c :: cs) = c :: cs := by
  rw [skipWhite, List.dropWhile_cons, if_neg (Bool.not_eq_true _ ▸ hc)]

theorem sequence_skipWhite (hskips : ∀ cs, item (skipWhite cs) = item cs) (fuel : ℕ)
    (cs : List Char) : sequence item close fuel (skipWhite cs) = sequence item close fuel cs := by
  cases fuel with
  | zero => rfl
  | succ fuel => rw [sequence, Reader.bind, Reader.bind, hskips]

/-- The items of the sequence are those of the list. -/
theorem sequence_join (hitem : ItemReader item close) {fuel : ℕ}
    (hitems : List.Forall₂ (Whole item) texts as) (hne : texts ≠ []) (hfuel : texts.length ≤ fuel) :
    sequence item close fuel ([','].intercalate texts ++ [close]) = some (as, []) := by
  obtain ⟨hnumber, hwhite, hcomma⟩ := hitem.closes
  induction hitems generalizing fuel with
  | nil => exact absurd rfl hne
  | @cons text a texts as htext hrest ih =>
      obtain ⟨rest, hread, hblank⟩ := htext
      cases fuel with
      | zero => exact absurd hfuel (Nat.not_succ_le_zero _)
      | succ fuel =>
          cases texts with
          | nil =>
              cases hrest
              have hread := hitem.continues.append (delimited_of_head hnumber []) hread
              have hskip : skipWhite (rest ++ [close]) = [close] :=
                (skipWhite_blank hblank _).trans (skipWhite_cons_of_not_white hwhite [])
              rw [List.intercalate_singleton, sequence, bind_eq hread, token_eq hskip,
                if_neg hcomma, if_pos rfl]
              rfl
          | cons next texts =>
              have hread := hitem.continues.append (delimited_of_head (c := ',') rfl
                ([','].intercalate (next :: texts) ++ [close])) hread
              have hskip : skipWhite (rest ++ ',' :: ([','].intercalate (next :: texts) ++ [close])) =
                  ',' :: ([','].intercalate (next :: texts) ++ [close]) := skipWhite_blank hblank _
              have hleft := ih (List.cons_ne_nil next texts) (Nat.le_of_succ_le_succ hfuel)
              rw [List.intercalate_cons_cons, sequence, List.append_assoc, List.append_assoc,
                List.singleton_append, bind_eq hread, token_eq hskip, if_pos rfl, map_eq hleft]

/-- Behind the first item there is a character for every item. -/
theorem intercalate_eq_append (close : Char) (text : List Char) (texts : List (List Char)) :
    ∃ more, [','].intercalate (text :: texts) ++ [close] = text ++ more ∧
      (text :: texts).length ≤ more.length := by
  induction texts generalizing text with
  | nil => exact ⟨[close], by rw [List.intercalate_singleton], Nat.le_refl _⟩
  | cons next texts ih =>
      obtain ⟨more, hmore, hlength⟩ := ih next
      refine ⟨',' :: (next ++ more), ?_, ?_⟩
      · rw [← hmore, List.intercalate_cons_cons, List.append_assoc, List.append_assoc,
          List.singleton_append]
      · simp only [List.length_cons, List.length_append] at hlength ⊢
        omega

/-- Between the brackets stand the items of the texts. -/
theorem enclosed_join (hitem : ItemReader item close)
    (hitems : List.Forall₂ (Whole item) texts as) :
    enclosed item close ([','].intercalate texts ++ [close]) = some (as, []) := by
  cases hitems with
  | nil =>
      have hskip : skipWhite [close] = [close] := skipWhite_cons_of_not_white hitem.closes.2.1 []
      show enclosed item close [close] = _
      rw [enclosed, token_eq hskip, if_pos rfl]
      rfl
  | @cons text a texts as htext hrest =>
      obtain ⟨rest, hread, hblank⟩ := htext
      obtain ⟨c, left, hskip, hc⟩ := hitem.first hread
      obtain ⟨more, hmore, hlength⟩ := intercalate_eq_append close text texts
      have hfirst := skipWhite_append hskip more
      have hfuel : (text :: texts).length ≤ (c :: (left ++ more)).length := by
        simp only [List.length_cons, List.length_append] at hlength ⊢
        omega
      rw [hmore, enclosed, token_eq hfirst, if_neg hc, ← hfirst, sequence_skipWhite hitem.skips,
        hfirst, ← hmore]
      exact sequence_join hitem (.cons ⟨rest, hread, hblank⟩ hrest) (List.cons_ne_nil text texts) hfuel

variable {limit : ℕ} {v : Json} {items : List (List Char)} {vs : List Json}

/-- The texts in brackets, with commas between them. -/
def joined (items : List (List Char)) : List Char :=
  '[' :: ([','].intercalate items ++ [']'])

theorem parse_eq_some_iff : parse limit text = some v ↔ Whole (value limit) text v := by
  unfold parse
  constructor
  · intro hparse
    obtain ⟨⟨w, rest⟩, hvalue, hrest⟩ := Option.bind_eq_some_iff.1 hparse
    dsimp only at hrest
    split at hrest
    case isTrue hblank =>
      cases hrest
      exact ⟨rest, hvalue, hblank⟩
    case isFalse => cases hrest
  · intro hread
    obtain ⟨rest, hvalue, hblank⟩ := hread
    rw [hvalue, Option.bind_some]
    exact if_pos hblank

/-- An empty text has no value. -/
theorem parse_nil (limit : ℕ) : parse limit [] = none := by
  cases limit <;> rfl

theorem parse_succ (hparse : parse limit text = some v) : parse (limit + 1) text = some v := by
  obtain ⟨rest, hvalue, hblank⟩ := parse_eq_some_iff.1 hparse
  exact parse_eq_some_iff.2 ⟨rest, value_extends limit _ _ hvalue, hblank⟩

/-- What is read to some depth is read to any more. -/
theorem parse_of_le {more : ℕ} (hmore : limit ≤ more) (hparse : parse limit text = some v) :
    parse more text = some v := by
  induction hmore with
  | refl => exact hparse
  | step _ ih => exact parse_succ ih

theorem value_skipWhite (limit : ℕ) (cs : List Char) :
    value limit (skipWhite cs) = value limit cs := by
  cases limit with
  | zero => exact token_skipWhite _ _
  | succ limit => exact token_skipWhite _ _

theorem value_itemReader (limit : ℕ) : ItemReader (value limit) ']' where
  continues := value_continues limit
  skips := value_skipWhite limit
  first := by
    intro cs a hvalue
    have hscalar : ∀ cs, scalar ']' cs = none := by
      intro cs
      simp [scalar, number, isNumberChar, isNumber, unsigned]
    cases limit with
    | zero =>
        obtain ⟨c, left, hskip, hread⟩ := token_eq_some hvalue
        refine ⟨c, left, hskip, fun hc => ?_⟩
        subst hc
        cases (hscalar left).symm.trans hread
    | succ limit =>
        obtain ⟨c, left, hskip, hread⟩ := token_eq_some hvalue
        refine ⟨c, left, hskip, fun hc => ?_⟩
        subst hc
        cases (hscalar left).symm.trans hread
  closes := by decide

theorem member_itemReader (limit : ℕ) : ItemReader (member (value limit)) '}' where
  continues := member_continues (value_continues limit)
  skips := token_skipWhite _
  first := by
    intro cs a hmember
    obtain ⟨c, left, hskip, hread⟩ := token_eq_some hmember
    refine ⟨c, left, hskip, fun hc => ?_⟩
    subst hc
    cases hread
  closes := by decide

/-- The joined texts are the text of the array, one level deeper. -/
theorem parse_joined (hitems : List.Forall₂ (fun item v => parse limit item = some v) items vs) :
    parse (limit + 1) (joined items) = some (.arr vs) := by
  rw [parse_eq_some_iff]
  have henclosed := enclosed_join (value_itemReader limit)
    (hitems.imp fun _ _ hparse => parse_eq_some_iff.1 hparse)
  have hskip : skipWhite (joined items) = '[' :: ([','].intercalate items ++ [']']) := rfl
  refine ⟨[], ?_, rfl⟩
  rw [value, token_eq hskip, if_pos rfl, map_eq henclosed]

/-- Where the array is read at all, it is the array of the values. -/
theorem eq_of_parse_joined
    (hitems : List.Forall₂ (fun item v => parse limit item = some v) items vs)
    (hparse : parse limit (joined items) = some v) : v = .arr vs :=
  Option.some.inj ((parse_succ hparse).symm.trans (parse_joined hitems))

end Join

/-! ## What the text of a string stands for -/

def hexValue (c : Char) : ℕ :=
  if c.isDigit then c.toNat - '0'.toNat
  else if 'a' ≤ c then c.toNat - 'a'.toNat + 10
  else c.toNat - 'A'.toNat + 10

/-- The character of an escape of one letter. -/
def escapedChar (c : Char) : Char :=
  if c = 'b' then Char.ofNat 8
  else if c = 'f' then Char.ofNat 12
  else if c = 'n' then '\n'
  else if c = 'r' then '\r'
  else if c = 't' then '\t'
  else c

/-- The codes of a text with escapes, among them the halves of surrogate pairs. -/
def codes : List Char → List ℕ
  | '\\' :: 'u' :: a :: b :: c :: d :: cs =>
      (((hexValue a * 16 + hexValue b) * 16 + hexValue c) * 16 + hexValue d) :: codes cs
  | '\\' :: c :: cs => (escapedChar c).toNat :: codes cs
  | c :: cs => c.toNat :: codes cs
  | [] => []

/-- The characters of codes; a half of a pair that is alone is replaced. -/
def charsOfCodes : List ℕ → List Char
  | [] => []
  | n :: ns =>
      match ns with
      | [] => [if 0xD800 ≤ n ∧ n < 0xE000 then Char.ofNat 0xFFFD else Char.ofNat n]
      | m :: ms =>
          if 0xD800 ≤ n ∧ n < 0xDC00 ∧ 0xDC00 ≤ m ∧ m < 0xE000 then
            Char.ofNat (0x10000 + (n - 0xD800) * 0x400 + (m - 0xDC00)) :: charsOfCodes ms
          else
            (if 0xD800 ≤ n ∧ n < 0xE000 then Char.ofNat 0xFFFD else Char.ofNat n) ::
              charsOfCodes (m :: ms)

/-- The string that the text between two quotes stands for. -/
def unquote (raw : List Char) : String :=
  String.ofList (charsOfCodes (codes raw))

example : unquote "a\\u00e9\\n\\uD83D\\ude00".toList = "aé\n😀" := by decide

end Json

end NewApi.Lib
