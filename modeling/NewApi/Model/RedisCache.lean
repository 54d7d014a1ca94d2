import Mathlib.Data.List.Nodup
import NewApi.Lib.System
import NewApi.Model.RedisObject

/-!
# Cached entities

A token or a user is kept in Redis as a hash that expires. `RedisHIncrBy` and `RedisHSetField` ask
for the time to live and write one field in a second command, between which the key can vanish.
-/

namespace NewApi.Model

open NewApi.Lib NewApi.Lib.Strings

namespace RedisCache

/-! ## One key -/

/-- What a call of `RedisHIncrBy` or `RedisHSetField` records. -/
inductive FieldChange
  | hIncrBy (field : String) (delta : Int64)
  | hSetField (field text : String)
deriving DecidableEq

/-- Increments are of quotas, which are integers. -/
def FieldChange.fitsType (type : StructType) : FieldChange → Bool
  | .hIncrBy field _ => type.fields.contains ⟨field, .base .int⟩
  | .hSetField .. => true

def FieldChange.exec (hash : RedisHash) : FieldChange → Option RedisHash
  | .hIncrBy field delta => hash.hincrby field delta
  | .hSetField field text => some (hash.hset [(field, text)])

structure CachedKey where
  fields : RedisHash
  expires : Bool

/-- A field of an entity; a text that has been set may not be readable. -/
structure EntityField where
  field : ObjectField
  value : Option field.kind.Value

/-- The key, the calls that have found it alive, and the entity that is stored, as the recorded
changes leave it. -/
structure RedisState where
  key : Option CachedKey
  calls : List (Option FieldChange)
  entity : Option (List EntityField)

/-- The commands on the key, which may fail, and its expiry. -/
inductive RedisStep (type : StructType)
  | redisHSetObj (obj : StructValue type) (expires : Bool)
  | ttl (change : FieldChange) (seconds : ℤ)
  | exec (call : ℕ)
  | fail (call : ℕ)
  | redisDelKey
  | expire

/-- The cached fields of a struct, as they are read back. -/
def storedEntity {type : StructType} (obj : StructValue type) : List EntityField :=
  (obj.values.filter fun fv => fv.field.cached).map fun fv => ⟨fv.field, some fv.normal.value⟩

section

variable (parseTime : String → Option ℤ)

def EntityField.change : EntityField → FieldChange → EntityField
  | ⟨⟨name, .base .int⟩, value⟩, .hIncrBy field delta =>
      ⟨⟨name, .base .int⟩, if name = field then value.map (· + delta) else value⟩
  | c, .hIncrBy .. => c
  | c, .hSetField field text =>
      ⟨c.field, if c.field.name = field then c.field.kind.read parseTime text else c.value⟩

/-- An entity after changes. -/
def recorded (entity : List EntityField) (changes : List FieldChange) : List EntityField :=
  changes.foldl (fun entity change => entity.map fun c => c.change parseTime change) entity

/-- `Exec` of `HINCRBY` or `HSET` with `EXPIRE`: a key that is not there is created, and an
increment that fails still renews the key. -/
def RedisState.exec (s : RedisState) (change : FieldChange) : RedisState :=
  match change.exec ((s.key.map CachedKey.fields).getD fun _ => none) with
  | some fields =>
      { s with
        key := some ⟨fields, true⟩
        entity := s.entity.map fun entity => entity.map fun c => c.change parseTime change }
  | none => { s with key := s.key.map fun key => { key with expires := true } }

def RedisState.expires (s : RedisState) : Bool :=
  s.key.any CachedKey.expires

variable (type : StructType)

def step (s : RedisState) : RedisStep type → Option RedisState
  | .redisHSetObj obj expires =>
      some <|
        match Model.redisHSetObj (s.key.map CachedKey.fields) obj with
        | some fields =>
            { s with key := some ⟨fields, expires || s.expires⟩, entity := some (storedEntity obj) }
        | none => s
  | .ttl change seconds =>
      if change.fitsType type then
        if 0 < seconds then
          -- only a key that is there and expires has a time to live
          if s.expires then some { s with calls := s.calls ++ [some change] } else none
        else some s
      else none
  | .exec call =>
      match s.calls[call]? with
      | some (some change) =>
          some ({ s with calls := s.calls.set call none }.exec parseTime change)
      | _ => none
  | .fail call => some { s with calls := s.calls.set call none }
  | .redisDelKey => some { s with key := none, entity := none }
  | .expire => if s.expires then some { s with key := none, entity := none } else none

def system : System RedisState (RedisStep type) where
  step := step parseTime type

def RedisState.initial : RedisState where
  key := none
  calls := []
  entity := none

/-! ## What is read -/

/-- What is there has been stored and has all fields, and what is read from it is the entity. -/
structure Whole (s : RedisState) : Prop where
  stored : s.key.isSome = true → s.entity.isSome = true
  complete : ∀ key, s.key = some key → ∀ field ∈ type.fields, field.cached = true →
    (key.fields field.name).isSome = true
  decoded : ∀ values,
    redisHGetObj parseTime (s.key.map CachedKey.fields) type.zero.values = .ok values →
      ∃ entity, s.entity = some entity ∧
        ∀ fv ∈ values, fv.field.cached = true → ⟨fv.field, some fv.value⟩ ∈ entity

/-- A change is written where the key is. -/
def Found (s : RedisState) : RedisStep type → Prop
  | .exec _ => s.key.isSome = true
  | _ => True

instance (s : RedisState) : ∀ action, Decidable (Found type s action)
  | .exec _ => inferInstanceAs (Decidable (s.key.isSome = true))
  | .redisHSetObj .. => inferInstanceAs (Decidable True)
  | .ttl .. => inferInstanceAs (Decidable True)
  | .fail _ => inferInstanceAs (Decidable True)
  | .redisDelKey => inferInstanceAs (Decidable True)
  | .expire => inferInstanceAs (Decidable True)

end

/-! ## Writing one field -/

section

variable {parseTime : String → Option ℤ} {type : StructType} {s s' : RedisState}

/-- The hash has the field, and its text is read as the value. -/
def Reads (parseTime : String → Option ℤ) (hash : RedisHash) (c : EntityField) : Prop :=
  ∃ text, hash c.field.name = some text ∧ c.field.kind.read parseTime text = c.value

theorem hset_self (hash : RedisHash) (field text : String) :
    hash.hset [(field, text)] field = some text := by
  simp [RedisHash.hset]

theorem hset_of_ne (hash : RedisHash) {field name : String} (text : String) (hne : name ≠ field) :
    hash.hset [(field, text)] name = hash name := by
  simp [RedisHash.hset, List.lookup_cons, beq_false_of_ne hne]

/-- An increment writes the sum of what the text is read as. -/
theorem hincrby_eq_some {hash fields : RedisHash} {field : String} {delta : Int64}
    (hincr : hash.hincrby field delta = some fields) :
    ∃ n, atoi ((hash field).getD "0") = some n ∧ InInt64 (n + delta.toInt) ∧
      fields = hash.hset [(field, itoa (n + delta.toInt))] := by
  rw [RedisHash.hincrby, RedisHash.readInteger] at hincr
  split at hincr
  case h_1 n hread =>
    simp only [Option.ite_none_right_eq_some, Option.some.injEq] at hincr
    exact ⟨n, (Option.filter_eq_some_iff.1 hread).1, hincr.1, hincr.2.symm⟩
  case h_2 => cases hincr

/-- On a key that is not there every change succeeds. -/
theorem exec_empty_isSome (change : FieldChange) :
    (change.exec fun _ => none).isSome = true := by
  cases change with
  | hIncrBy field delta =>
      have hrange : InInt64 (0 + delta.toInt) := by
        rw [Int.zero_add]
        exact toInt_inInt64 delta
      have hread : RedisHash.readInteger "0" = some 0 := by decide
      rw [FieldChange.exec, RedisHash.hincrby, Option.getD_none, hread]
      dsimp only
      rw [if_pos hrange]
      rfl
  | hSetField field text => rfl

theorem EntityField.change_hSetField (c : EntityField) (field text : String) :
    c.change parseTime (.hSetField field text) =
      ⟨c.field, if c.field.name = field then c.field.kind.read parseTime text else c.value⟩ := by
  obtain ⟨⟨name, (_ | _ | _) | _ | _⟩, value⟩ := c <;> rfl

/-- An increment of another field changes nothing. -/
theorem EntityField.change_of_ne {c : EntityField} {field : String} (delta : Int64)
    (hne : c.field.name ≠ field) : c.change parseTime (.hIncrBy field delta) = c := by
  obtain ⟨⟨name, (_ | _ | _) | _ | _⟩, value⟩ := c
  case base.int =>
    show (⟨_, if name = field then _ else value⟩ : EntityField) = _
    rw [if_neg hne]
  all_goals rfl

@[simp] theorem EntityField.field_change (c : EntityField) (change : FieldChange) :
    (c.change parseTime change).field = c.field := by
  cases change with
  | hIncrBy field delta => obtain ⟨⟨name, (_ | _ | _) | _ | _⟩, value⟩ := c <;> rfl
  | hSetField field text => rw [EntityField.change_hSetField]

/-- A field that is read as its value is so after a recorded change of it or another one. -/
theorem reads_change {hash fields : RedisHash} {c : EntityField} {change : FieldChange}
    (hfits : change.fitsType type = true) (hfield : c.field ∈ type.fields)
    (hexec : change.exec hash = some fields) (hreads : Reads parseTime hash c) :
    Reads parseTime fields (c.change parseTime change) := by
  obtain ⟨text, htext, hread⟩ := hreads
  cases change with
  | hSetField field written =>
      obtain rfl := Option.some.inj hexec
      rw [EntityField.change_hSetField]
      by_cases hsame : c.field.name = field
      · rw [if_pos hsame]
        refine ⟨written, ?_, rfl⟩
        show hash.hset [(field, written)] c.field.name = some written
        rw [hsame, hset_self]
      · rw [if_neg hsame]
        refine ⟨text, ?_, hread⟩
        show hash.hset [(field, written)] c.field.name = some text
        rw [hset_of_ne hash written hsame, htext]
  | hIncrBy field delta =>
      obtain ⟨n, hn, hrange, rfl⟩ := hincrby_eq_some hexec
      by_cases hsame : c.field.name = field
      · -- names are different, so the field with this name is the integer that is incremented
        have hint : c.field = ⟨field, .base .int⟩ :=
          List.inj_on_of_nodup_map type.nodup hfield (List.contains_iff_mem.1 hfits) hsame
        obtain ⟨own, value⟩ := c
        obtain rfl : own = ⟨field, .base .int⟩ := hint
        have hvalue : (atoi text).map Int64.ofInt = value := hread
        have hsum : Int64.ofInt (n + delta.toInt) = Int64.ofInt n + delta := by
          rw [Int64.ofInt_add, Int64.ofInt_toInt]
        rw [show hash field = some text from htext, Option.getD_some] at hn
        rw [hn] at hvalue
        refine ⟨itoa (n + delta.toInt), hset_self _ _ _, ?_⟩
        show (atoi (itoa (n + delta.toInt))).map Int64.ofInt =
          if field = field then value.map (· + delta) else value
        rw [if_pos rfl, atoi_itoa hrange, ← hvalue, Option.map_some, hsum]
        rfl
      · rw [EntityField.change_of_ne delta hsame]
        exact ⟨text, by rw [hset_of_ne hash _ hsame, htext], hread⟩

/-! ## Runs of commands -/

/-- The calls in progress fit the struct, and an entity is stored where the key is only. -/
structure Sound (type : StructType) (s : RedisState) : Prop where
  fits : ∀ change, some change ∈ s.calls → change.fitsType type = true
  absent : s.key = none → s.entity = none

/-- The hash has the cached fields, and they are read as the entity is. -/
def Held (parseTime : String → Option ℤ) (type : StructType) (s : RedisState) : Prop :=
  ∀ key, s.key = some key → ∃ entity, s.entity = some entity ∧
    entity.map EntityField.field = type.fields.filter ObjectField.cached ∧
      ∀ c ∈ entity, Reads parseTime key.fields c

theorem storedEntity_fields (obj : StructValue type) :
    (storedEntity obj).map EntityField.field = type.fields.filter ObjectField.cached := by
  rw [storedEntity, ← obj.fields_eq, List.map_map, List.filter_map]
  rfl

/-- After `RedisHSetObj` the fields are read as those of the struct. -/
theorem reads_stored {obj : StructValue type} {hash : Option RedisHash} {fields : RedisHash}
    (hset : redisHSetObj hash obj = some fields) :
    ∀ c ∈ storedEntity obj, Reads parseTime fields c := by
  intro c hmem
  obtain ⟨fv, hfv, rfl⟩ := List.mem_map.1 hmem
  obtain ⟨hvalues, hcached⟩ := List.mem_filter.1 hfv
  obtain ⟨text, hentry, hread⟩ := read_entry parseTime hcached
  obtain ⟨-, rfl⟩ : obj.data ≠ [] ∧ (hash.getD fun _ => none).hset obj.data = fields := by
    simpa [redisHSetObj] using hset
  refine ⟨text, ?_, hread⟩
  show (obj.data.lookup fv.field.name).or _ = some text
  rw [StructValue.data, lookup_data obj.nodup hvalues, hentry]
  rfl

/-- What `Exec` leaves of a key that is there. -/
theorem exec_spec (parseTime : String → Option ℤ) (change : FieldChange) {key : CachedKey}
    (hkey : s.key = some key) :
    (∃ fields, change.exec key.fields = some fields ∧ s.exec parseTime change =
      { s with
        key := some ⟨fields, true⟩
        entity := s.entity.map fun entity => entity.map fun c => c.change parseTime change }) ∨
      s.exec parseTime change = { s with key := some { key with expires := true } } := by
  rw [RedisState.exec, hkey, Option.map_some, Option.getD_some]
  cases hexec : change.exec key.fields with
  | some fields => exact .inl ⟨fields, rfl, rfl⟩
  | none => exact .inr rfl

/-- `Exec` creates a key that is not there, of which no entity is known. -/
theorem exec_none (parseTime : String → Option ℤ) (change : FieldChange) (hkey : s.key = none)
    (hentity : s.entity = none) :
    ∃ fields, s.exec parseTime change = { s with key := some ⟨fields, true⟩ } := by
  obtain ⟨fields, hexec⟩ := Option.isSome_iff_exists.1 (exec_empty_isSome change)
  refine ⟨fields, ?_⟩
  rw [RedisState.exec, hkey, Option.map_none, Option.getD_none, hexec]
  simp [hentity]

/-- `Exec` ends with a key. -/
theorem exec_key_ne_none (hs : s.key = none → s.entity = none) (change : FieldChange) :
    (s.exec parseTime change).key ≠ none := by
  cases hkey : s.key with
  | none =>
      obtain ⟨fields, hexec⟩ := exec_none parseTime change hkey (hs hkey)
      rw [hexec]
      exact nofun
  | some key =>
      obtain ⟨fields, -, hexec⟩ | hexec := exec_spec parseTime change hkey
      all_goals
        rw [hexec]
        exact nofun

@[simp] theorem calls_exec (change : FieldChange) :
    (s.exec parseTime change).calls = s.calls := by
  rw [RedisState.exec]
  split <;> rfl

/-- A question for the time to live starts a call or changes nothing. -/
theorem step_ttl {change : FieldChange} {seconds : ℤ}
    (hstep : step parseTime type s (.ttl change seconds) = some s') :
    s' = s ∨ change.fitsType type = true ∧ s' = { s with calls := s.calls ++ [some change] } := by
  rw [step, Option.ite_none_right_eq_some] at hstep
  obtain ⟨hfits, hstep⟩ := hstep
  split at hstep
  case isTrue =>
    rw [Option.ite_none_right_eq_some] at hstep
    exact .inr ⟨hfits, (Option.some.inj hstep.2).symm⟩
  case isFalse => exact .inl (Option.some.inj hstep).symm

/-- A call in progress is carried out. -/
theorem step_exec {call : ℕ} (hstep : step parseTime type s (.exec call) = some s') :
    ∃ change, s.calls[call]? = some (some change) ∧
      s' = { s with calls := s.calls.set call none }.exec parseTime change := by
  rw [step] at hstep
  split at hstep
  case h_1 change hcall => exact ⟨change, hcall, (Option.some.inj hstep).symm⟩
  case h_2 => cases hstep

theorem step_expire (hstep : step parseTime type s .expire = some s') :
    s' = { s with key := none, entity := none } := by
  rw [step, Option.ite_none_right_eq_some] at hstep
  exact (Option.some.inj hstep.2).symm

theorem sound_step {action : RedisStep type} (hstep : step parseTime type s action = some s')
    (hs : Sound type s) : Sound type s' := by
  cases action with
  | redisHSetObj obj expires =>
      obtain rfl := Option.some.inj hstep
      split
      case h_1 => exact ⟨hs.fits, nofun⟩
      case h_2 => exact hs
  | ttl change seconds =>
      obtain rfl | ⟨hfits, rfl⟩ := step_ttl hstep
      · exact hs
      · refine ⟨fun other hmem => ?_, hs.absent⟩
        rcases List.mem_append.1 hmem with hmem | hmem
        · exact hs.fits other hmem
        · obtain rfl := Option.some.inj (List.mem_singleton.1 hmem)
          exact hfits
  | exec call =>
      obtain ⟨change, -, rfl⟩ := step_exec hstep
      refine ⟨fun other hmem => ?_, fun hnone => ?_⟩
      · rw [calls_exec] at hmem
        exact hs.fits other ((List.mem_or_eq_of_mem_set hmem).resolve_right nofun)
      · exact absurd hnone
          (exec_key_ne_none (s := { s with calls := s.calls.set call none }) hs.absent change)
  | fail call =>
      obtain rfl := Option.some.inj hstep
      exact ⟨fun other hmem => hs.fits other ((List.mem_or_eq_of_mem_set hmem).resolve_right nofun),
        hs.absent⟩
  | redisDelKey =>
      obtain rfl := Option.some.inj hstep
      exact ⟨hs.fits, fun _ => rfl⟩
  | expire =>
      obtain rfl := step_expire hstep
      exact ⟨hs.fits, fun _ => rfl⟩

/-- A change that finds the key is one of the entity. -/
theorem held_exec {change : FieldChange} (hfits : change.fitsType type = true)
    (hs : Held parseTime type s) (hkey : s.key ≠ none) :
    Held parseTime type (s.exec parseTime change) := by
  obtain ⟨key, hkey⟩ := Option.ne_none_iff_exists'.1 hkey
  obtain ⟨entity, hentity, hfields, hreads⟩ := hs key hkey
  obtain ⟨fields, hexec, hspec⟩ | hspec := exec_spec parseTime change hkey
  · rw [hspec]
    intro other hother
    obtain rfl := Option.some.inj hother
    refine ⟨entity.map fun c => c.change parseTime change, by rw [hentity, Option.map_some], ?_, ?_⟩
    · simp only [List.map_map, Function.comp_def, EntityField.field_change]
      exact hfields
    · intro c hc
      obtain ⟨old, hold, rfl⟩ := List.mem_map.1 hc
      have hfield : old.field ∈ type.fields.filter ObjectField.cached := by
        rw [← hfields]
        exact List.mem_map_of_mem hold
      exact reads_change hfits (List.mem_filter.1 hfield).1 hexec (hreads old hold)
  · rw [hspec]
    intro other hother
    obtain rfl := Option.some.inj hother
    exact ⟨entity, hentity, hfields, hreads⟩

theorem held_step {action : RedisStep type} (hstep : step parseTime type s action = some s')
    (hsound : Sound type s) (hs : Held parseTime type s) (hfound : Found type s action) :
    Held parseTime type s' := by
  cases action with
  | redisHSetObj obj expires =>
      obtain rfl := Option.some.inj hstep
      split
      case h_1 fields hset =>
        intro key hkey
        obtain rfl := Option.some.inj hkey
        exact ⟨storedEntity obj, rfl, storedEntity_fields obj, reads_stored hset⟩
      case h_2 => exact hs
  | ttl change seconds => obtain rfl | ⟨-, rfl⟩ := step_ttl hstep <;> exact hs
  | exec call =>
      obtain ⟨change, hcall, rfl⟩ := step_exec hstep
      exact held_exec (hsound.fits change (List.mem_of_getElem? hcall)) hs
        (Option.isSome_iff_ne_none.1 hfound)
  | fail call =>
      obtain rfl := Option.some.inj hstep
      exact hs
  | redisDelKey =>
      obtain rfl := Option.some.inj hstep
      exact nofun
  | expire =>
      obtain rfl := step_expire hstep
      exact nofun

/-- A change that does not find the key leaves a hash of which no entity is known. -/
theorem found_of_whole {action : RedisStep type} (hstep : step parseTime type s action = some s')
    (hsound : Sound type s) (hwhole : Whole parseTime type s') : Found type s action := by
  cases action with
  | exec call =>
      obtain ⟨change, -, rfl⟩ := step_exec hstep
      by_contra hlost
      -- the change creates the key, and no entity is known of what it creates
      have hkey : s.key = none := Option.not_isSome_iff_eq_none.1 hlost
      have hentity := hsound.absent hkey
      obtain ⟨fields, hexec⟩ := exec_none parseTime change
        (s := { s with calls := s.calls.set call none }) hkey hentity
      have hstored := hwhole.stored
      rw [hexec] at hstored
      have hsome : s.entity.isSome = true := hstored rfl
      rw [hentity] at hsome
      cases hsome
  | redisHSetObj | ttl | fail | redisDelKey | expire => trivial

/-- A cached field is found as the entity has it. -/
theorem exists_entity_field {key : CachedKey} {entity : List EntityField} {field : ObjectField}
    (hfields : entity.map EntityField.field = type.fields.filter ObjectField.cached)
    (hreads : ∀ c ∈ entity, Reads parseTime key.fields c) (hfield : field ∈ type.fields)
    (hcached : field.cached = true) : ∃ text value, key.fields field.name = some text ∧
      field.kind.read parseTime text = value ∧ ⟨field, value⟩ ∈ entity := by
  have hmem : field ∈ entity.map EntityField.field := by
    rw [hfields]
    exact List.mem_filter.2 ⟨hfield, hcached⟩
  obtain ⟨c, hc, rfl⟩ := List.mem_map.1 hmem
  obtain ⟨text, htext, hread⟩ := hreads c hc
  exact ⟨text, c.value, htext, hread, hc⟩

theorem Held.whole (hs : Held parseTime type s) : Whole parseTime type s := by
  refine ⟨fun hkey => ?_, fun key hkey field hfield hcached => ?_, fun values hvalues => ?_⟩
  · obtain ⟨key, hkey⟩ := Option.isSome_iff_exists.1 hkey
    obtain ⟨entity, hentity, -⟩ := hs key hkey
    rw [hentity]
    rfl
  · obtain ⟨entity, -, hfields, hreads⟩ := hs key hkey
    obtain ⟨text, value, htext, -⟩ := exists_entity_field hfields hreads hfield hcached
    rw [htext]
    rfl
  · cases hkey : s.key with
    | none =>
        rw [hkey] at hvalues
        cases hvalues
    | some key =>
        rw [hkey] at hvalues
        obtain ⟨entity, hentity, hfields, hreads⟩ := hs key hkey
        refine ⟨entity, hentity, fun fv hfv hcached => ?_⟩
        obtain ⟨start, hstart, hturn⟩ := exists_of_mem_mapM hvalues hfv
        obtain ⟨field, hfield, rfl⟩ := List.mem_map.1 hstart
        rw [ObjectField.field_zero] at hturn
        split at hturn
        case h_1 found hfound =>
          obtain ⟨value, hread, rfl⟩ := setText_zero_eq_ok_iff.1 hturn
          obtain ⟨text, held, htext, hheld, hmem⟩ :=
            exists_entity_field hfields hreads hfield hcached
          obtain rfl := Option.some.inj (htext.symm.trans hfound)
          obtain rfl : some value = held := hread.symm.trans hheld
          exact hmem
        case h_2 hnone =>
          -- no cached field is missing in the hash
          obtain rfl := Except.ok.inj hturn
          rw [ObjectField.field_zero] at hcached
          obtain ⟨text, -, htext, -⟩ := exists_entity_field hfields hreads hfield hcached
          cases hnone.symm.trans htext

/-- A step keeps the entity, stores one or records a change of it. -/
theorem entity_step {action : RedisStep type} {entity : List EntityField}
    (hstep : step parseTime type s action = some s') (hentity : s'.entity = some entity) :
    s.entity = some entity ∨
      (∃ obj expires, action = .redisHSetObj obj expires ∧ entity = storedEntity obj) ∨
      ∃ old change, s.entity = some old ∧ entity = old.map fun c => c.change parseTime change := by
  cases action with
  | redisHSetObj obj expires =>
      obtain rfl := Option.some.inj hstep
      split at hentity
      case h_1 => exact .inr (.inl ⟨obj, expires, rfl, (Option.some.inj hentity).symm⟩)
      case h_2 => exact .inl hentity
  | ttl change seconds => obtain rfl | ⟨-, rfl⟩ := step_ttl hstep <;> exact .inl hentity
  | exec call =>
      obtain ⟨change, -, rfl⟩ := step_exec hstep
      rw [RedisState.exec] at hentity
      split at hentity
      case h_1 =>
        obtain ⟨old, hold, hsame⟩ := Option.map_eq_some_iff.1 hentity
        exact .inr (.inr ⟨old, change, hold, hsame.symm⟩)
      case h_2 => exact .inl hentity
  | fail call =>
      obtain rfl := Option.some.inj hstep
      exact .inl hentity
  | redisDelKey =>
      obtain rfl := Option.some.inj hstep
      cases hentity
  | expire =>
      obtain rfl := step_expire hstep
      cases hentity

/-- An entity is a struct that the run has stored, with changes that have been recorded. -/
theorem entity_of_run {steps : List (RedisStep type)}
    (hrun : (system parseTime type).run .initial steps = some s) :
    ∀ entity, s.entity = some entity → ∃ obj expires, .redisHSetObj obj expires ∈ steps ∧
      ∃ changes, entity = recorded parseTime (storedEntity obj) changes := by
  have hinitial : ∀ entity, RedisState.initial.entity = some entity →
      ∃ obj expires, (.redisHSetObj obj expires : RedisStep type) ∈ ([] : List (RedisStep type)) ∧
        ∃ changes, entity = recorded parseTime (storedEntity obj) changes :=
    fun entity hnone => nomatch hnone
  refine System.history_run (M := system parseTime type)
    (I := fun past s => ∀ entity, s.entity = some entity →
      ∃ obj expires, .redisHSetObj obj expires ∈ past ∧
        ∃ changes, entity = recorded parseTime (storedEntity obj) changes)
    (fun {past s action s'} hstep hpast entity hentity => ?_) hinitial hrun
  obtain hsame | ⟨obj, expires, rfl, hstored⟩ | ⟨old, change, hold, hchanged⟩ :=
    entity_step hstep hentity
  · obtain ⟨obj, expires, hmem, hchanges⟩ := hpast entity hsame
    exact ⟨obj, expires, List.mem_append_left _ hmem, hchanges⟩
  · exact ⟨obj, expires, List.mem_append_right _ List.mem_cons_self, [], hstored⟩
  · obtain ⟨obj, expires, hmem, changes, rfl⟩ := hpast old hold
    refine ⟨obj, expires, List.mem_append_left _ hmem, changes ++ [change], ?_⟩
    rw [hchanged, recorded, recorded, List.foldl_append, List.foldl_cons, List.foldl_nil]

/-- What is in Redis is a whole entity in all states of a run exactly if all changes find the key,
and writing and reading a struct gives it back. -/
theorem cached_entity_whole_iff (parseTime : String → Option ℤ) (type : StructType)
    (steps : List (RedisStep type)) (after : RedisState)
    (hrun : (system parseTime type).run .initial steps = some after) :
    (∀ (obj : StructValue type) (hash : RedisHash), redisHSetObj none obj = some hash →
      redisHGetObj parseTime (some hash) type.zero.values =
        .ok (obj.values.map FieldValue.normal)) ∧
      (∀ before later s, steps = before ++ later →
        (system parseTime type).run .initial before = some s → Whole parseTime type s) ↔
      (system parseTime type).Along (Found type) .initial steps := by
  rw [and_iff_right fun obj hash hset => redisHGetObj_redisHSetObj obj (fun _ _ _ => rfl) hset]
  exact System.reached_iff_along (P := fun s => Sound type s ∧ Held parseTime type s)
    (fun hs => hs.2.whole)
    (fun hstep hs hfound => ⟨sound_step hstep hs.1, held_step hstep hs.1 hs.2 hfound⟩)
    (fun hstep hs hwhole => found_of_whole hstep hs.1 hwhole)
    ⟨⟨nofun, fun _ => rfl⟩, nofun⟩ hrun

end

/-! ## Users and tokens -/

def userBaseType : StructType where
  fields :=
    [⟨"Id", .base .int⟩, ⟨"Group", .base .string⟩, ⟨"Email", .base .string⟩,
      ⟨"Quota", .base .int⟩, ⟨"Status", .base .int⟩, ⟨"Username", .base .string⟩,
      ⟨"Setting", .base .string⟩]
  nodup := by decide

def tokenType : StructType where
  fields :=
    [⟨"Id", .base .int⟩, ⟨"UserId", .base .int⟩, ⟨"Key", .base .string⟩, ⟨"Status", .base .int⟩,
      ⟨"Name", .base .string⟩, ⟨"CreatedTime", .base .int⟩, ⟨"AccessedTime", .base .int⟩,
      ⟨"ExpiredTime", .base .int⟩, ⟨"RemainQuota", .base .int⟩, ⟨"UnlimitedQuota", .base .bool⟩,
      ⟨"ModelLimitsEnabled", .base .bool⟩, ⟨"ModelLimits", .base .string⟩,
      ⟨"AllowIps", .pointer .string⟩, ⟨"UsedQuota", .base .int⟩, ⟨"Group", .base .string⟩,
      ⟨"CrossGroupRetry", .base .bool⟩, ⟨"DeletedAt", .deletedAt⟩]
  nodup := by decide

/-- A user with 500 left. -/
def sampleUser : StructValue userBaseType where
  values :=
    [⟨⟨"Id", .base .int⟩, (7 : Int64)⟩, ⟨⟨"Group", .base .string⟩, "default"⟩,
      ⟨⟨"Email", .base .string⟩, "user@example.com"⟩, ⟨⟨"Quota", .base .int⟩, (500 : Int64)⟩,
      ⟨⟨"Status", .base .int⟩, (1 : Int64)⟩, ⟨⟨"Username", .base .string⟩, "user"⟩,
      ⟨⟨"Setting", .base .string⟩, ""⟩]
  fields_eq := rfl

/-- A user is stored and 100 of the quota are taken while the key is there. -/
def changeInTime : List (RedisStep userBaseType) :=
  [.redisHSetObj sampleUser true, .ttl (.hIncrBy "Quota" (-100)) 60, .exec 0]

/-- The key expires between the question for its time to live and the change. -/
def changeTooLate : List (RedisStep userBaseType) :=
  [.redisHSetObj sampleUser true, .ttl (.hIncrBy "Quota" (-100)) 1, .expire, .exec 0]

theorem change_in_time_whole :
    ∃ s, (system (fun _ => none) userBaseType).run .initial changeInTime = some s ∧
      Whole (fun _ => none) userBaseType s :=
  ⟨_, rfl, ((cached_entity_whole_iff (fun _ => none) userBaseType changeInTime _ rfl).2
    (by decide)).2 changeInTime [] _ (List.append_nil _).symm rfl⟩

/-- The change that is too late makes a user of no id, group and status with a quota of -100, which
`RedisHGetObj` reads. -/
theorem change_too_late_partial :
    ∃ s, (system (fun _ => none) userBaseType).run .initial changeTooLate = some s ∧
      s.entity = none ∧
      redisHGetObj (fun _ => none) (s.key.map CachedKey.fields) userBaseType.zero.values =
        .ok [⟨⟨"Id", .base .int⟩, (0 : Int64)⟩, ⟨⟨"Group", .base .string⟩, ""⟩,
          ⟨⟨"Email", .base .string⟩, ""⟩, ⟨⟨"Quota", .base .int⟩, (-100 : Int64)⟩,
          ⟨⟨"Status", .base .int⟩, (0 : Int64)⟩, ⟨⟨"Username", .base .string⟩, ""⟩,
          ⟨⟨"Setting", .base .string⟩, ""⟩] ∧
      ¬ Whole (fun _ => none) userBaseType s := by
  refine ⟨_, rfl, rfl, rfl, fun hwhole => ?_⟩
  exact absurd (hwhole.stored rfl) (by decide)

/-- `token.Key`, where the fields of a token are set. -/
def withKey (key : String) (values : List FieldValue) : List FieldValue :=
  values.map fun fv =>
    match fv with
    | ⟨⟨name, .base .string⟩, value⟩ =>
        ⟨⟨name, .base .string⟩, if name = "Key" then key else value⟩
    | fv => fv

theorem fields_withKey (key : String) (values : List FieldValue) :
    (withKey key values).map FieldValue.field = values.map FieldValue.field := by
  rw [withKey, List.map_map]
  refine List.map_congr_left fun fv _ => ?_
  obtain ⟨⟨name, (_ | _ | _) | _ | _⟩, value⟩ := fv <;> rfl

/-- `cacheSetToken` stores a token without its key. -/
def cacheSetToken (hash : Option RedisHash) (token : StructValue tokenType) : Option RedisHash :=
  redisHSetObj hash
    (⟨withKey "" token.values, (fields_withKey "" _).trans token.fields_eq⟩ : StructValue tokenType)

def cacheGetTokenByKey (parseTime : String → Option ℤ) (hash : Option RedisHash) (key : String) :
    Except HGetError (List FieldValue) :=
  (redisHGetObj parseTime hash tokenType.zero.values).map (withKey key)

/-- A token that has been stored over any hash without a deletion time, which is never written, is
read with its key again. -/
theorem cacheGetTokenByKey_cacheSetToken {parseTime : String → Option ℤ}
    {token : StructValue tokenType} {old : Option RedisHash} {hash : RedisHash} {key : String}
    (hkey : withKey key token.values = token.values)
    (hdeleted : ∀ fields ∈ old, fields "DeletedAt" = none)
    (hset : cacheSetToken old token = some hash) :
    cacheGetTokenByKey parseTime (some hash) key = .ok (token.values.map FieldValue.normal) := by
  have hfields : withKey key ((withKey "" token.values).map FieldValue.normal) =
      (withKey key token.values).map FieldValue.normal := by
    simp only [withKey, List.map_map]
    refine List.map_congr_left fun fv _ => ?_
    obtain ⟨⟨name, (_ | _ | _) | _ | _⟩, value⟩ := fv
    case base.string =>
      show (⟨⟨name, .base .string⟩,
          if name = "Key" then key else if name = "Key" then "" else value⟩ : FieldValue) =
        ⟨⟨name, .base .string⟩, if name = "Key" then key else value⟩
      split <;> rfl
    all_goals rfl
  have hskipped : ∀ field ∈ tokenType.fields, field.cached = false →
      (old.getD fun _ => none) field.name = none := by
    intro field hfield hcached
    obtain rfl : field = ⟨"DeletedAt", .deletedAt⟩ :=
      (by decide : ∀ field ∈ tokenType.fields, field.cached = false →
        field = ⟨"DeletedAt", .deletedAt⟩) field hfield hcached
    cases old with
    | none => rfl
    | some fields => exact hdeleted fields rfl
  rw [cacheGetTokenByKey, redisHGetObj_redisHSetObj _ hskipped hset]
  exact congrArg Except.ok (hfields.trans (congrArg _ hkey))

/-- A token of a user with a limit of addresses. -/
def keyedToken : StructValue tokenType where
  values :=
    [⟨⟨"Id", .base .int⟩, (3 : Int64)⟩, ⟨⟨"UserId", .base .int⟩, (7 : Int64)⟩,
      ⟨⟨"Key", .base .string⟩, "sk"⟩, ⟨⟨"Status", .base .int⟩, (1 : Int64)⟩,
      ⟨⟨"Name", .base .string⟩, "laptop"⟩, ⟨⟨"CreatedTime", .base .int⟩, (1700000000 : Int64)⟩,
      ⟨⟨"AccessedTime", .base .int⟩, (1700000060 : Int64)⟩,
      ⟨⟨"ExpiredTime", .base .int⟩, (-1 : Int64)⟩, ⟨⟨"RemainQuota", .base .int⟩, (400 : Int64)⟩,
      ⟨⟨"UnlimitedQuota", .base .bool⟩, false⟩, ⟨⟨"ModelLimitsEnabled", .base .bool⟩, true⟩,
      ⟨⟨"ModelLimits", .base .string⟩, "gpt-4o"⟩,
      ⟨⟨"AllowIps", .pointer .string⟩, some "10.0.0.1"⟩, ⟨⟨"UsedQuota", .base .int⟩, (100 : Int64)⟩,
      ⟨⟨"Group", .base .string⟩, "vip"⟩, ⟨⟨"CrossGroupRetry", .base .bool⟩, true⟩,
      ⟨⟨"DeletedAt", .deletedAt⟩, (none : Option ℤ)⟩]
  fields_eq := rfl

/-- What is left of the token as it was cached before. -/
def staleHash : RedisHash :=
  RedisHash.hset (fun _ => none) [("RemainQuota", "500"), ("UsedQuota", "0"), ("Name", "old")]

theorem keyedToken_is_read : ∃ hash, cacheSetToken (some staleHash) keyedToken = some hash ∧
    cacheGetTokenByKey (fun _ => none) (some hash) "sk" =
      .ok (keyedToken.values.map FieldValue.normal) :=
  ⟨_, rfl, cacheGetTokenByKey_cacheSetToken (by rfl)
    (fun fields hfields => by obtain rfl := Option.some.inj hfields; rfl) rfl⟩

end RedisCache

end NewApi.Model
