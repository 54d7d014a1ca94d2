import NewApi.Lib.Integers
import NewApi.Lib.Outcome

/-!
# Structs as Redis hashes

`RedisHSetObj` writes the fields of a struct as texts of a hash, and `RedisHGetObj` reads the fields
that it finds into a struct; both go over the fields by reflection and switch on their kinds.
-/

namespace NewApi.Model

open NewApi.Lib NewApi.Lib.Strings

/-! ## Structs -/

/-- The kinds that both switches know; `int` stands for `int64` too. -/
inductive BaseKind
  | string
  | int
  | bool
deriving DecidableEq

abbrev BaseKind.Value : BaseKind → Type
  | .string => String
  | .int => Int64
  | .bool => Bool

/-- `gorm.DeletedAt` has a type of its own. -/
inductive FieldKind
  | base (kind : BaseKind)
  | pointer (kind : BaseKind)
  | deletedAt
deriving DecidableEq

/-- A `gorm.DeletedAt` is a time where it is valid. -/
abbrev FieldKind.Value : FieldKind → Type
  | .base kind => kind.Value
  | .pointer kind => Option kind.Value
  | .deletedAt => Option ℤ

structure ObjectField where
  name : String
  kind : FieldKind
deriving DecidableEq

/-- The fields of a struct have different names. -/
structure StructType where
  fields : List ObjectField
  nodup : (fields.map ObjectField.name).Nodup

structure FieldValue where
  field : ObjectField
  value : field.kind.Value

structure StructValue (type : StructType) where
  values : List FieldValue
  fields_eq : values.map FieldValue.field = type.fields

def BaseKind.zero : (kind : BaseKind) → kind.Value
  | .string => ""
  | .int => 0
  | .bool => false

def ObjectField.zero : ObjectField → FieldValue
  | ⟨name, .base kind⟩ => ⟨⟨name, .base kind⟩, kind.zero⟩
  | ⟨name, .pointer kind⟩ => ⟨⟨name, .pointer kind⟩, none⟩
  | ⟨name, .deletedAt⟩ => ⟨⟨name, .deletedAt⟩, none⟩

@[simp] theorem ObjectField.field_zero (field : ObjectField) : field.zero.field = field := by
  obtain ⟨name, _ | _ | _⟩ := field <;> rfl

/-- A declared struct, `var token Token`. -/
def StructType.zero (type : StructType) : StructValue type where
  values := type.fields.map ObjectField.zero
  fields_eq := by simp [Function.comp_def]

/-! ## Hashes -/

abbrev RedisHash := String → Option String

namespace RedisHash

/-- `HSET` with a map of fields. -/
def hset (hash : RedisHash) (data : List (String × String)) : RedisHash :=
  fun name => (data.lookup name).or (hash name)

/-- The integers that Redis reads: without a plus sign or leading zeros. -/
def readInteger (text : String) : Option ℤ :=
  (atoi text).filter fun n => itoa n = text

/-- `HINCRBY`, which can fail. -/
def hincrby (hash : RedisHash) (field : String) (delta : Int64) : Option RedisHash :=
  match readInteger ((hash field).getD "0") with
  | some n =>
      if InInt64 (n + delta.toInt) then some (hash.hset [(field, itoa (n + delta.toInt))]) else none
  | none => none

end RedisHash

/-! ## Writing and reading -/

/-- `strconv.FormatBool`, or the text of `%v`. -/
def BaseKind.format : (kind : BaseKind) → kind.Value → String
  | .string, s => s
  | .int, n => itoa n.toInt
  | .bool, b => formatBool b

def BaseKind.parse : (kind : BaseKind) → String → Option kind.Value
  | .string, text => some text
  | .int, text => (atoi text).map Int64.ofInt
  | .bool, text => parseBool text

/-- The entry of a field in the data of `RedisHSetObj`. -/
def FieldValue.entry : FieldValue → Option (String × String)
  | ⟨⟨_, .deletedAt⟩, _⟩ => none
  | ⟨⟨name, .pointer _⟩, none⟩ => some (name, "")
  | ⟨⟨name, .pointer kind⟩, some value⟩ => some (name, kind.format value)
  | ⟨⟨name, .base kind⟩, value⟩ => some (name, kind.format value)

def StructValue.data {type : StructType} (obj : StructValue type) : List (String × String) :=
  obj.values.filterMap FieldValue.entry

/-- The errors of `RedisHGetObj` name the field. -/
inductive HGetError
  | notFound
  | parseField (kind : BaseKind) (fieldName : String)
  | parseDeletedAt (fieldName : String)
deriving DecidableEq

section

variable (parseTime : String → Option ℤ)

/-- The turn of a field whose text is found. -/
def FieldValue.setText : FieldValue → String → Except HGetError FieldValue
  | ⟨⟨name, .base kind⟩, _⟩, text =>
      match kind.parse text with
      | some value => .ok ⟨⟨name, .base kind⟩, value⟩
      | none => .error (.parseField kind name)
  | ⟨⟨name, .pointer kind⟩, old⟩, text =>
      if text = "" then .ok ⟨⟨name, .pointer kind⟩, old⟩
      else
        match kind.parse text with
        | some value => .ok ⟨⟨name, .pointer kind⟩, some value⟩
        | none => .error (.parseField kind name)
  | ⟨⟨name, .deletedAt⟩, old⟩, text =>
      if text = "" then .ok ⟨⟨name, .deletedAt⟩, old⟩
      else
        match parseTime text with
        | some time => .ok ⟨⟨name, .deletedAt⟩, some time⟩
        | none => .error (.parseDeletedAt name)

/-- The value that a text is read as into a struct that has been declared only. -/
def FieldKind.read : (kind : FieldKind) → String → Option kind.Value
  | .base kind, text => kind.parse text
  | .pointer kind, text => if text = "" then some none else (kind.parse text).map some
  | .deletedAt, text => if text = "" then some none else (parseTime text).map some

/-- `RedisHGetObj` into a struct with values; `parseTime` is `time.Parse` of RFC 3339. -/
def redisHGetObj (hash : Option RedisHash) (values : List FieldValue) :
    Except HGetError (List FieldValue) :=
  match hash with
  | none => .error .notFound
  | some hash => values.mapM fun fv =>
      match hash fv.field.name with
      | some text => fv.setText parseTime text
      | none => .ok fv

/-- `RedisHSetObj` on a hash that may be there; `HSET` fails without fields. -/
def redisHSetObj {type : StructType} (hash : Option RedisHash) (obj : StructValue type) :
    Option RedisHash :=
  if obj.data = [] then none else some ((hash.getD fun _ => none).hset obj.data)

end

/-! ## Reading what was written -/

/-- The value that is read back: of a pointer to an empty text nothing is left, and deletion times
are not written. -/
def FieldKind.normal : (kind : FieldKind) → kind.Value → kind.Value
  | .base _, value => value
  | .pointer kind, some value => if kind.format value = "" then none else some value
  | .pointer _, none => none
  | .deletedAt, _ => none

def FieldValue.normal (fv : FieldValue) : FieldValue :=
  ⟨fv.field, fv.field.kind.normal fv.value⟩

/-- The fields that `RedisHSetObj` does not skip. -/
def ObjectField.cached (field : ObjectField) : Bool :=
  field.kind ≠ .deletedAt

section

variable {parseTime : String → Option ℤ} {type : StructType}

theorem toInt_inInt64 (n : Int64) : InInt64 n.toInt :=
  ⟨n.le_toInt, n.toInt_lt⟩

theorem BaseKind.parse_format (kind : BaseKind) (value : kind.Value) :
    kind.parse (kind.format value) = some value := by
  cases kind with
  | string => rfl
  | int =>
      show (atoi (itoa value.toInt)).map Int64.ofInt = some value
      rw [atoi_itoa (toInt_inInt64 value), Option.map_some, Int64.ofInt_toInt]
  | bool => exact parseBool_formatBool value

/-- The entry of a field has its name, and its text is read as the value. -/
theorem read_entry (parseTime : String → Option ℤ) {fv : FieldValue}
    (hcached : fv.field.cached = true) :
    ∃ text, fv.entry = some (fv.field.name, text) ∧
      fv.field.kind.read parseTime text = some fv.normal.value := by
  obtain ⟨⟨name, kind | kind | _⟩, value⟩ := fv
  · exact ⟨kind.format value, rfl, kind.parse_format value⟩
  · cases value with
    | none => exact ⟨"", rfl, rfl⟩
    | some value =>
        refine ⟨kind.format value, rfl, ?_⟩
        show (if kind.format value = "" then some none
          else (kind.parse (kind.format value)).map some) =
            some (if kind.format value = "" then none else some value)
        rw [kind.parse_format]
        split <;> rfl
  · cases hcached

theorem entry_eq_none {fv : FieldValue} (hcached : fv.field.cached = false) : fv.entry = none := by
  obtain ⟨⟨name, kind | kind | _⟩, value⟩ := fv
  · cases hcached
  · cases hcached
  · rfl

theorem normal_of_not_cached {fv : FieldValue} (hcached : fv.field.cached = false) :
    fv.normal = fv.field.zero := by
  obtain ⟨⟨name, kind | kind | _⟩, value⟩ := fv
  · cases hcached
  · cases hcached
  · rfl

theorem name_of_entry {fv : FieldValue} {name text : String}
    (hentry : fv.entry = some (name, text)) : name = fv.field.name := by
  obtain ⟨⟨own, kind | kind | _⟩, value⟩ := fv
  · cases hentry
    rfl
  · cases value <;> cases hentry <;> rfl
  · cases hentry

/-- A field is found in the data under its name. -/
theorem lookup_data {values : List FieldValue}
    (hnodup : (values.map fun fv => fv.field.name).Nodup) {fv : FieldValue} (hmem : fv ∈ values) :
    (values.filterMap FieldValue.entry).lookup fv.field.name = fv.entry.map Prod.snd := by
  induction values with
  | nil => cases hmem
  | cons first values ih =>
      obtain ⟨hfirst, hrest⟩ := List.nodup_cons.1 hnodup
      have hnone : (values.filterMap FieldValue.entry).lookup first.field.name = none := by
        rw [List.lookup_eq_none_iff]
        rintro ⟨name, text⟩ hentry
        obtain ⟨later, hlater, hentry⟩ := List.mem_filterMap.1 hentry
        rw [bne_iff_ne, name_of_entry hentry]
        exact fun hsame => hfirst (List.mem_map.2 ⟨later, hlater, hsame.symm⟩)
      rcases List.mem_cons.1 hmem with rfl | hlater
      · cases hentry : fv.entry with
        | none => rw [List.filterMap_cons_none hentry, hnone, Option.map_none]
        | some entry =>
            obtain ⟨name, text⟩ := entry
            rw [List.filterMap_cons_some hentry, name_of_entry hentry, List.lookup_cons_self,
              Option.map_some]
      · rw [← ih hrest hlater]
        have hne : fv.field.name ≠ first.field.name := fun hsame =>
          hfirst (List.mem_map.2 ⟨fv, hlater, hsame⟩)
        cases hentry : first.entry with
        | none => rw [List.filterMap_cons_none hentry]
        | some entry =>
            obtain ⟨name, text⟩ := entry
            rw [List.filterMap_cons_some hentry, name_of_entry hentry, List.lookup_cons,
              beq_false_of_ne hne]

/-- Setting a field of a declared struct reads its text. -/
theorem setText_zero_eq_ok_iff {field : ObjectField} {text : String} {fv : FieldValue} :
    field.zero.setText parseTime text = .ok fv ↔
      ∃ value, field.kind.read parseTime text = some value ∧ fv = ⟨field, value⟩ := by
  obtain ⟨name, kind | kind | _⟩ := field
  · simp only [ObjectField.zero, FieldValue.setText, FieldKind.read]
    cases kind.parse text <;> simp [eq_comm]
  · simp only [ObjectField.zero, FieldValue.setText, FieldKind.read]
    by_cases hempty : text = ""
    · simp [hempty, eq_comm]
    · rw [if_neg hempty, if_neg hempty]
      cases kind.parse text <;> simp [eq_comm]
  · simp only [ObjectField.zero, FieldValue.setText, FieldKind.read]
    by_cases hempty : text = ""
    · simp [hempty, eq_comm]
    · rw [if_neg hempty, if_neg hempty]
      cases parseTime text <;> simp [eq_comm]

theorem StructValue.nodup (obj : StructValue type) :
    (obj.values.map fun fv => fv.field.name).Nodup := by
  have hnames : obj.values.map (fun fv => fv.field.name) = type.fields.map ObjectField.name := by
    rw [← obj.fields_eq, List.map_map]
    rfl
  rw [hnames]
  exact type.nodup

/-- Writing a struct over a hash that has no field of those that are skipped, and reading it, gives
its normal values. -/
theorem redisHGetObj_redisHSetObj (obj : StructValue type) {old : Option RedisHash}
    {hash : RedisHash}
    (hskipped : ∀ field ∈ type.fields, field.cached = false →
      (old.getD fun _ => none) field.name = none)
    (hset : redisHSetObj old obj = some hash) :
    redisHGetObj parseTime (some hash) type.zero.values =
      .ok (obj.values.map FieldValue.normal) := by
  obtain ⟨-, rfl⟩ : obj.data ≠ [] ∧ (old.getD fun _ => none).hset obj.data = hash := by
    simpa [redisHSetObj] using hset
  rw [redisHGetObj, mapM_eq_ok_iff]
  show List.Forall₂ _ (type.fields.map ObjectField.zero) _
  rw [← obj.fields_eq, List.map_map, List.forall₂_map_left_iff, List.forall₂_map_right_iff,
    List.forall₂_same]
  intro fv hmem
  have hlookup : RedisHash.hset (old.getD fun _ => none) obj.data fv.field.name =
      (fv.entry.map Prod.snd).or ((old.getD fun _ => none) fv.field.name) := by
    rw [RedisHash.hset, StructValue.data, lookup_data obj.nodup hmem]
  rw [Function.comp_apply, ObjectField.field_zero, hlookup]
  cases hcached : fv.field.cached with
  | true =>
      obtain ⟨text, hentry, hread⟩ := read_entry parseTime hcached
      rw [hentry]
      exact setText_zero_eq_ok_iff.2 ⟨_, hread, rfl⟩
  | false =>
      have hfield : fv.field ∈ type.fields := obj.fields_eq ▸ List.mem_map_of_mem hmem
      rw [entry_eq_none hcached, normal_of_not_cached hcached, Option.map_none, Option.none_or,
        hskipped fv.field hfield hcached]

end

end NewApi.Model
