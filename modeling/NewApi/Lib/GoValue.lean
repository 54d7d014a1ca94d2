import Mathlib.Data.List.AList
import Mathlib.Data.Fin.Basic
import NewApi.Lib.Integers
import NewApi.Lib.Json
import NewApi.Lib.Slice

/-!
# Values of Go

The types that are built from strings, booleans, numbers, slices, maps, structs and pointers, their
values, the texts of their numbers and the names that `encoding/json` gives to the fields of
structs.
-/

namespace NewApi.Lib.Go

open Strings

/-! ## Types -/

inductive IntWidth
  | w8 | w16 | w32 | w64
deriving DecidableEq

namespace IntWidth

def bits : IntWidth → ℕ
  | w8 => 8
  | w16 => 16
  | w32 => 32
  | w64 => 64

end IntWidth

inductive FloatWidth
  | w32 | w64
deriving DecidableEq

/-- What is read of `reflect.StructField`: the tag is the one for `json`. -/
structure StructField where
  name : String
  tag : String
  exported : Bool
deriving DecidableEq

/-- The types of the keys of maps. -/
inductive KeyType
  | string
  | int (width : IntWidth)
  | uint (width : IntWidth)

inductive GoType
  | string
  | bool
  | int (width : IntWidth)
  | uint (width : IntWidth)
  | float (width : FloatWidth)
  | bytes
  | slice (elem : GoType)
  | map (key : KeyType) (elem : GoType)
  | struct (n : ℕ) (field : Fin n → StructField) (type : Fin n → GoType)
  | ptr (elem : GoType)

/-! ## Texts of numbers and names -/

/-- Floating-point numbers with their texts (one text of `strconv`, one of `encoding/json`, which
has none for infinities and NaN), and the tables of Unicode. -/
structure GoLibrary (F : FloatWidth → Type) where
  zeroFloat : (width : FloatWidth) → F width
  isZeroFloat : {width : FloatWidth} → F width → Bool
  isFinite : {width : FloatWidth} → F width → Bool
  formatFloat : {width : FloatWidth} → F width → String
  parseFloat : (width : FloatWidth) → String → Option (F width)
  floatNumber : {width : FloatWidth} → F width → List Char
  ofNumber : (width : FloatWidth) → List Char → Option (F width)
  parse_format : ∀ {width} (x : F width), parseFloat width (formatFloat x) = some x
  isNumber_floatNumber : ∀ {width} (x : F width), isFinite x = true →
    Json.isNumber (floatNumber x) = true
  ofNumber_floatNumber : ∀ {width} (x : F width), isFinite x = true →
    ofNumber width (floatNumber x) = some x
  isLetterOrDigit : Char → Bool
  foldName : String → String

/-- `strconv.ParseUint` for the base 10. -/
def parseUint (s : String) : Option ℕ :=
  let n := Nat.ofDigitChars 10 s.toList 0
  if s ≠ "" ∧ s.toList.all Char.isDigit ∧ n < 2 ^ 64 then some n else none

namespace IntWidth

/-- A signed integer, if it fits. -/
def ofText (width : IntWidth) (s : String) : Option (BitVec width.bits) :=
  (atoi s).bind fun n =>
    if (BitVec.ofInt width.bits n).toInt = n then some (BitVec.ofInt width.bits n) else none

/-- An unsigned integer, if it fits. -/
def ofUnsignedText (width : IntWidth) (s : String) : Option (BitVec width.bits) :=
  (parseUint s).bind fun n =>
    if n < 2 ^ width.bits then some (BitVec.ofNat width.bits n) else none

end IntWidth

namespace KeyType

def Carrier : KeyType → Type
  | string => String
  | int width => BitVec width.bits
  | uint width => BitVec width.bits

instance (key : KeyType) : DecidableEq key.Carrier :=
  match key with
  | string => inferInstanceAs (DecidableEq String)
  | int width => inferInstanceAs (DecidableEq (BitVec width.bits))
  | uint width => inferInstanceAs (DecidableEq (BitVec width.bits))

/-- The key of an object for the key of a map. -/
def text : (key : KeyType) → key.Carrier → String
  | string => fun s => s
  | int _ => fun n => itoa n.toInt
  | uint _ => fun n => n.toNat.repr

def ofText : (key : KeyType) → String → Option key.Carrier
  | string => some
  | int width => width.ofText
  | uint width => width.ofUnsignedText

end KeyType

section

theorem inInt64_toInt {width : IntWidth} (n : BitVec width.bits) : InInt64 n.toInt := by
  have hle := BitVec.le_toInt n
  have hlt := BitVec.toInt_lt (x := n)
  generalize n.toInt = k at hle hlt ⊢
  unfold InInt64
  cases width <;> simp only [IntWidth.bits] at hle hlt <;> omega

theorem IntWidth.ofText_itoa (width : IntWidth) (n : BitVec width.bits) :
    width.ofText (itoa n.toInt) = some n := by
  rw [IntWidth.ofText, atoi_itoa (inInt64_toInt n), Option.bind_some, BitVec.ofInt_toInt, if_pos rfl]

theorem parseUint_repr {n : ℕ} (hn : n < 2 ^ 64) : parseUint n.repr = some n := by
  have hne : n.repr ≠ "" := by
    intro hempty
    exact repr_ne_nil n (by rw [hempty]; rfl)
  have hdigits : n.repr.toList.all Char.isDigit = true :=
    List.all_eq_true.2 fun c hc => isDigit_of_mem_repr hc
  simp only [parseUint, ofDigitChars_repr]
  rw [if_pos ⟨hne, hdigits, hn⟩]

theorem toNat_lt_two_pow {width : IntWidth} (n : BitVec width.bits) : n.toNat < 2 ^ 64 := by
  have hlt := n.isLt
  generalize n.toNat = k at hlt ⊢
  cases width <;> simp only [IntWidth.bits] at hlt <;> omega

theorem IntWidth.ofUnsignedText_repr (width : IntWidth) (n : BitVec width.bits) :
    width.ofUnsignedText n.toNat.repr = some n := by
  rw [IntWidth.ofUnsignedText, parseUint_repr (toNat_lt_two_pow n), Option.bind_some,
    if_pos n.isLt, BitVec.ofNat_toNat, BitVec.setWidth_eq]

theorem KeyType.ofText_text (key : KeyType) (k : key.Carrier) : key.ofText (key.text k) = some k := by
  cases key with
  | string => rfl
  | int width => exact width.ofText_itoa k
  | uint width => exact width.ofUnsignedText_repr k

end

/-! ## Values -/

section

variable (F : FloatWidth → Type)

/-- Slices, maps and pointers may be nil. -/
def Value : GoType → Type
  | .string => String
  | .bool => Bool
  | .int width => BitVec width.bits
  | .uint width => BitVec width.bits
  | .float width => F width
  | .bytes => Option (Slice (BitVec 8))
  | .slice elem => Option (Slice (Value elem))
  | .map key elem => Option (AList fun _ : key.Carrier => Value elem)
  | .struct n _ type => (i : Fin n) → Value (type i)
  | .ptr elem => Option (Value elem)

end

variable {F : FloatWidth → Type}

/-- Equality of values: the spare room of slices and the order of entries are no part of it. -/
def Same : (t : GoType) → Value F t → Value F t → Prop
  | .string => fun v w => v = w
  | .bool => fun v w => v = w
  | .int _ => fun v w => v = w
  | .uint _ => fun v w => v = w
  | .float _ => fun v w => v = w
  | .bytes => Option.Rel fun s t => s.items = t.items
  | .slice elem => Option.Rel fun s t => List.Forall₂ (Same elem) s.items t.items
  | .map _ elem => Option.Rel fun m l => ∀ k, Option.Rel (Same elem) (m.lookup k) (l.lookup k)
  | .struct _ _ type => fun v w => ∀ i, Same (type i) (v i) (w i)
  | .ptr elem => Option.Rel (Same elem)

variable (lib : GoLibrary F)

def zero : (t : GoType) → Value F t
  | .string => ""
  | .bool => false
  | .int width => (0 : BitVec width.bits)
  | .uint width => (0 : BitVec width.bits)
  | .float width => lib.zeroFloat width
  | .bytes => none
  | .slice _ => none
  | .map _ _ => none
  | .struct _ _ type => fun i => zero (type i)
  | .ptr _ => none

def isZero : (t : GoType) → Value F t → Bool
  | .string => fun s : String => s = ""
  | .bool => fun b : Bool => !b
  | .int width => fun n : BitVec width.bits => n = 0
  | .uint width => fun n : BitVec width.bits => n = 0
  | .float _ => fun x => lib.isZeroFloat x
  | .bytes => Option.isNone
  | .slice _ => Option.isNone
  | .map _ _ => Option.isNone
  | .struct n _ type => fun v => (List.finRange n).all fun i => isZero (type i) (v i)
  | .ptr _ => Option.isNone

/-- `isEmptyValue` of `encoding/json`. -/
def isEmpty : (t : GoType) → Value F t → Bool
  | .string => fun s : String => s = ""
  | .bool => fun b : Bool => !b
  | .int width => fun n : BitVec width.bits => n = 0
  | .uint width => fun n : BitVec width.bits => n = 0
  | .float _ => fun x => lib.isZeroFloat x
  | .bytes => fun v => v.all fun s => s.items.isEmpty
  | .slice _ => fun v => v.all fun s => s.items.isEmpty
  | .map _ _ => fun v => v.all fun m => m.keys.isEmpty
  | .struct _ _ _ => fun _ => false
  | .ptr _ => Option.isNone

/-! ## Fields of structs -/

namespace StructField

variable (field : StructField)

/-- The name and the options of a tag. -/
def tagParts : List String :=
  split field.tag ','

def tagName : String :=
  field.tagParts.headD ""

def omitEmpty : Bool :=
  "omitempty" ∈ field.tagParts.tail

def omitZero : Bool :=
  "omitzero" ∈ field.tagParts.tail

/-- `isValidTag`. -/
def tagged : Bool :=
  field.tagName ≠ "" && field.tagName.toList.all fun c =>
    "!#$%&()*+-./:;<=>?@[]^_\x7b|\x7d~ ".toList.contains c || lib.isLetterOrDigit c

def jsonName : String :=
  if field.tagged lib then field.tagName else field.name

/-- The fields that have a name in JSON. -/
def named : Bool :=
  field.exported && field.tag ≠ "-"

end StructField

section

variable {n : ℕ} (field : Fin n → StructField)

/-- Of several fields with one name the only one with a tag is visible, otherwise none. -/
def visible (i : Fin n) : Bool :=
  (field i).named && (List.finRange n).all fun j =>
    j = i || !(field j).named || (field j).jsonName lib ≠ (field i).jsonName lib ||
      ((field i).tagged lib && !(field j).tagged lib)

/-- The field of a name, else the first one of the folded name. -/
def fieldNamed (name : String) : Option (Fin n) :=
  match (List.finRange n).find? fun i => visible lib field i && (field i).jsonName lib = name with
  | some i => some i
  | none => (List.finRange n).find? fun i =>
      visible lib field i && lib.foldName ((field i).jsonName lib) = lib.foldName name

/-- Whether a field is written. -/
def written (type : Fin n → GoType) (v : (i : Fin n) → Value F (type i)) (i : Fin n) : Bool :=
  visible lib field i && !((field i).omitEmpty && isEmpty lib (type i) (v i)) &&
    !((field i).omitZero && isZero lib (type i) (v i))

variable {lib field} {i j : Fin n}

theorem visible_injective (hi : visible lib field i = true) (hj : visible lib field j = true)
    (hname : (field i).jsonName lib = (field j).jsonName lib) : i = j := by
  simp only [visible, Bool.and_eq_true, List.all_eq_true, Bool.or_eq_true, decide_eq_true_eq,
    Bool.not_eq_true'] at hi hj
  have hij := hi.2 j (List.mem_finRange j)
  have hji := hj.2 i (List.mem_finRange i)
  rw [hi.1] at hji
  rw [hj.1] at hij
  grind

theorem fieldNamed_jsonName (hi : visible lib field i = true) :
    fieldNamed lib field ((field i).jsonName lib) = some i := by
  unfold fieldNamed
  cases hfind : (List.finRange n).find? fun j =>
      visible lib field j && (field j).jsonName lib = (field i).jsonName lib with
  | some j =>
      have hj := List.find?_some hfind
      rw [Bool.and_eq_true, decide_eq_true_eq] at hj
      rw [visible_injective hj.1 hi hj.2]
  | none =>
      have hnone := List.find?_eq_none.1 hfind i (List.mem_finRange i)
      rw [hi, decide_eq_true rfl] at hnone
      exact absurd rfl hnone

end

end NewApi.Lib.Go
