import NewApi.Lib.JsonPath
import NewApi.Lib.Strings

/-!
# JSON texts and what edits them

The overrides work on the text of a request body.  They decode it with `encoding/json`, which has
every number as a float, or look it up and edit it in place with gjson and sjson, which know the
paths of their documentation.
-/

namespace NewApi.Model

open NewApi.Lib NewApi.Lib.Strings

/-- What is used of `encoding/json`, gjson and sjson, over the texts `D` of JSON documents, the
numbers `N` that stand in them and the floats `F` of the program. -/
structure JsonText (D N F : Type) where
  /-- The value of a text. -/
  tree : D → JsonTree N
  /-- `ParseFloat`, and the shortest text that is read as a float. -/
  parse : N → F
  print : F → N
  finite : F → Bool
  /-- `gjson.Get` with the raw text of its result. -/
  get : D → String → Option D
  /-- `Result.Value` and `Result.String`. -/
  value : D → JsonTree F
  string : D → String
  /-- `sjson.Set` and `sjson.Delete`. -/
  set : D → String → JsonTree F → Except String D
  delete : D → String → Except String D
  /-- `json.Unmarshal` into a map; `null` makes it nil. -/
  unmarshalMap : D → Except String (JsonTree F)
  marshal : JsonTree F → Except String D

/-- The characters with a meaning in some path. -/
def pathSpecials : List Char :=
  ['.', '*', '?', '|', '#', '@', '\\', '!', '{', '}', '[', ']', '(', ')', ':']

/-- A part of a path that stands for itself: a key without special characters, or a number. -/
def PlainPart (part : String) : Prop :=
  part ≠ "" ∧ (∀ c ∈ pathSpecials, c ∉ part.toList) ∧
    (part.toList.all Char.isDigit = true → (JsonTree.index part).isSome = true)

-- the special characters are gone through, not all characters
instance (part : String) : Decidable (PlainPart part) :=
  have : Decidable (∀ c ∈ pathSpecials, c ∉ part.toList) := List.decidableBAll _ _
  inferInstanceAs (Decidable (_ ∧ _))

/-- The parts of a path of plain parts with dots between them. -/
def PlainPath (parts : List String) : Prop :=
  parts ≠ [] ∧ ∀ part ∈ parts, PlainPart part

instance (parts : List String) : Decidable (PlainPath parts) :=
  inferInstanceAs (Decidable (_ ∧ _))

/-- The text of a path. -/
def dotted (parts : List String) : String :=
  join '.' parts

namespace JsonText

variable {D N F : Type}

/-- What becomes of a number that is decoded and encoded again. -/
def rewrite (lib : JsonText D N F) (n : N) : N :=
  lib.print (lib.parse n)

/-- All numbers are floats that can be encoded. -/
def Finite (lib : JsonText D N F) (v : JsonTree F) : Prop :=
  v.AllNum fun f => lib.finite f = true

/-- All numbers can be decoded. -/
def Decodes (lib : JsonText D N F) (t : JsonTree N) : Prop :=
  t.AllNum fun n => lib.finite (lib.parse n) = true

instance (lib : JsonText D N F) (v : JsonTree F) : Decidable (lib.Finite v) :=
  inferInstanceAs (Decidable (v.AllNum fun f => lib.finite f = true))

instance (lib : JsonText D N F) (t : JsonTree N) : Decidable (lib.Decodes t) :=
  inferInstanceAs (Decidable (t.AllNum fun n => lib.finite (lib.parse n) = true))

/-- What `sjson.Set` writes for a value of the program: a number is printed as it is, and anything
else is marshalled. -/
def written (lib : JsonText D N F) (v : JsonTree F) : Option (JsonTree N) :=
  match v with
  | .num f => some (.num (lib.print f))
  | v => if lib.Finite v then some (v.map lib.print) else none

/-- What is documented of the libraries. -/
structure Documented (lib : JsonText D N F) : Prop where
  get : ∀ d parts, PlainPath parts →
    (lib.get d (dotted parts)).map lib.tree = (lib.tree d).get parts
  value : ∀ d, lib.value d = (lib.tree d).map lib.parse
  set_ok : ∀ d parts v raw t, PlainPath parts → lib.written v = some raw →
    (lib.tree d).set parts raw = some t → ∃ d', lib.set d (dotted parts) v = .ok d' ∧ lib.tree d' = t
  set_error : ∀ d parts v, PlainPath parts → (lib.written v).bind ((lib.tree d).set parts) = none →
    ∃ err, lib.set d (dotted parts) v = .error err
  delete : ∀ d parts, PlainPath parts → ∃ d', lib.delete d (dotted parts) = .ok d' ∧
    lib.tree d' = (lib.tree d).delete parts
  unmarshal_ok : ∀ d keys value, lib.tree d = .obj keys value → lib.Decodes (lib.tree d) →
    lib.unmarshalMap d = .ok ((lib.tree d).map lib.parse)
  unmarshal_error : ∀ d, ¬ lib.Decodes (lib.tree d) → ∃ err, lib.unmarshalMap d = .error err
  unmarshal_map : ∀ d v, lib.unmarshalMap d = .ok v → v = .null ∨ ∃ keys value, v = .obj keys value
  marshal_ok : ∀ v, lib.Finite v → ∃ d, lib.marshal v = .ok d ∧ lib.tree d = v.map lib.print
  marshal_error : ∀ v, ¬ lib.Finite v → ∃ err, lib.marshal v = .error err

section

variable {lib : JsonText D N F} {d d' : D} {parts : List String} {v : JsonTree F} {t : JsonTree N}

theorem Documented.get_some (hlib : lib.Documented) (hparts : PlainPath parts)
    (hget : (lib.tree d).get parts = some t) :
    ∃ found, lib.get d (dotted parts) = some found ∧ lib.tree found = t :=
  Option.map_eq_some_iff.1 ((hlib.get d parts hparts).trans hget)

theorem Documented.get_none (hlib : lib.Documented) (hparts : PlainPath parts)
    (hget : (lib.tree d).get parts = none) : lib.get d (dotted parts) = none :=
  Option.map_eq_none_iff.1 ((hlib.get d parts hparts).trans hget)

/-- What a value is set to, if that works. -/
theorem Documented.set_eq_ok (hlib : lib.Documented) (hparts : PlainPath parts)
    (hset : lib.set d (dotted parts) v = .ok d') :
    ∃ raw, lib.written v = some raw ∧ (lib.tree d).set parts raw = some (lib.tree d') := by
  cases hwritten : (lib.written v).bind ((lib.tree d).set parts) with
  | none =>
      obtain ⟨err, herr⟩ := hlib.set_error d parts v hparts hwritten
      cases hset.symm.trans herr
  | some t =>
      obtain ⟨raw, hraw, ht⟩ := Option.bind_eq_some_iff.1 hwritten
      obtain ⟨d'', hd'', htree⟩ := hlib.set_ok d parts v raw t hparts hraw ht
      cases hset.symm.trans hd''
      exact ⟨raw, hraw, htree ▸ ht⟩

theorem Documented.delete_eq_ok (hlib : lib.Documented) (hparts : PlainPath parts)
    (hdelete : lib.delete d (dotted parts) = .ok d') :
    lib.tree d' = (lib.tree d).delete parts := by
  obtain ⟨d'', hd'', htree⟩ := hlib.delete d parts hparts
  cases hdelete.symm.trans hd''
  exact htree

/-- What is written is the value with its numbers printed. -/
theorem written_eq_some {raw : JsonTree N} (hwritten : lib.written v = some raw) :
    raw = v.map lib.print := by
  unfold written at hwritten
  split at hwritten
  case h_1 =>
    cases hwritten
    rfl
  case h_2 =>
    split at hwritten
    case isTrue => exact (Option.some.inj hwritten).symm
    case isFalse => cases hwritten

/-- A number survives if it is read back as it was printed. -/
def Survives (lib : JsonText D N F) (t : JsonTree N) : Prop :=
  t.AllNum fun n => lib.rewrite n = n

theorem map_print_map_parse (lib : JsonText D N F) (t : JsonTree N) :
    (t.map lib.parse).map lib.print = t.map lib.rewrite :=
  JsonTree.map_map lib.parse lib.print t

theorem map_rewrite_eq_self : t.map lib.rewrite = t ↔ lib.Survives t :=
  JsonTree.map_eq_self

end

/-! ## Trees as texts -/

/-- The nearest float of an integer, up to `2 ^ 54`. -/
def nearestFloat (n : ℤ) : ℤ :=
  if n.natAbs ≤ 2 ^ 53 then n
  else if n % 2 = 0 then n
  else if n / 2 % 2 = 0 then n - 1
  else n + 1

/-- The integer does not exceed the floats. -/
def inRange (n : ℤ) : Bool :=
  n.natAbs.log2 < 1024

/-- What is written for a value with integers. -/
def writeInts (v : JsonTree ℤ) : Option (JsonTree ℤ) :=
  match v with
  | .num f => some (.num f)
  | v => if v.AllNum fun f => inRange f = true then some v else none

/-- The documented behaviour, on values with integers. -/
def ofTrees : JsonText (JsonTree ℤ) ℤ ℤ where
  tree d := d
  parse := nearestFloat
  print := id
  finite := inRange
  get d path := d.get (split path '.')
  value d := d.map nearestFloat
  string d :=
    match d with
    | .str s => s
    | .num n => toString n
    | .bool b => toString b
    | _ => ""
  set d path v :=
    match (writeInts v).bind (d.set (split path '.')) with
    | some t => .ok t
    | none => .error "cannot set the value"
  delete d path := .ok (d.delete (split path '.'))
  unmarshalMap d :=
    if d.AllNum fun n => inRange (nearestFloat n) = true then
      match d.map nearestFloat with
      | .obj keys value => .ok (.obj keys value)
      | .null => .ok .null
      | _ => .error "json: cannot unmarshal into a map"
    else .error "json: cannot unmarshal number"
  marshal v :=
    if v.AllNum fun f => inRange f = true then .ok v
    else .error "json: unsupported value"

theorem split_dotted {parts : List String} (hparts : PlainPath parts) :
    split (dotted parts) '.' = parts :=
  split_join hparts.1 fun part hpart => (hparts.2 part hpart).2.1 '.' (by decide)

theorem written_ofTrees (v : JsonTree ℤ) : ofTrees.written v = writeInts v := by
  cases v with
  | num f => rfl
  | _ =>
      unfold written
      dsimp only
      rw [show ofTrees.print = id from rfl, JsonTree.map_id]
      rfl

theorem documented_ofTrees : ofTrees.Documented where
  get d parts hparts := by
    show (d.get (split (dotted parts) '.')).map id = d.get parts
    rw [split_dotted hparts, Option.map_id, id]
  value d := rfl
  set_ok d parts v raw t hparts hwritten hset := by
    rw [written_ofTrees] at hwritten
    refine ⟨t, ?_, rfl⟩
    show (match (writeInts v).bind (d.set (split (dotted parts) '.')) with
      | some t => .ok t
      | none => .error "cannot set the value") = Except.ok t
    have hset' : d.set parts raw = some t := hset
    rw [split_dotted hparts, hwritten, Option.bind_some, hset']
  set_error d parts v hparts hset := by
    rw [written_ofTrees] at hset
    refine ⟨"cannot set the value", ?_⟩
    show (match (writeInts v).bind (d.set (split (dotted parts) '.')) with
      | some t => .ok t
      | none => .error "cannot set the value") = Except.error _
    have hset' : (writeInts v).bind (d.set parts) = none := hset
    rw [split_dotted hparts, hset']
  delete d parts hparts := by
    refine ⟨d.delete parts, ?_, rfl⟩
    show Except.ok (d.delete (split (dotted parts) '.')) = _
    rw [split_dotted hparts]
  unmarshal_ok d keys value hobj hdecodes := by
    have htree : d = .obj keys value := hobj
    subst htree
    exact if_pos hdecodes
  unmarshal_error d hdecodes := ⟨_, if_neg hdecodes⟩
  unmarshal_map d v hunmarshal := by
    have hunmarshal' : (if d.AllNum fun n => inRange (nearestFloat n) = true then
        match d.map nearestFloat with
        | .obj keys value => .ok (.obj keys value)
        | .null => .ok .null
        | _ => .error "json: cannot unmarshal into a map"
      else .error "json: cannot unmarshal number") = Except.ok v := hunmarshal
    split at hunmarshal'
    · split at hunmarshal'
      · cases hunmarshal'
        exact .inr ⟨_, _, rfl⟩
      · cases hunmarshal'
        exact .inl rfl
      · cases hunmarshal'
    · cases hunmarshal'
  marshal_ok v hfinite := ⟨v, if_pos hfinite, (JsonTree.map_id v).symm⟩
  marshal_error v hfinite := ⟨_, if_neg hfinite⟩

end JsonText

end NewApi.Model
