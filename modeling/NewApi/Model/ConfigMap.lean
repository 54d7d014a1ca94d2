import Mathlib.Data.Fintype.Basic
import Mathlib.Data.Finset.Max
import NewApi.Lib.GoJson
import NewApi.Model.StreamText

/-!
# Configurations as maps of texts

`configToMap` writes every exported field of a configuration as a text under its key, and
`updateConfigFromMap` reads the texts into the fields of a configuration that is already there: text
by text for strings, booleans and numbers, as JSON for everything else.
-/

namespace NewApi.Model

open NewApi.Lib NewApi.Lib.Go NewApi.Lib.Strings

/-- The type of a configuration. -/
structure ConfigType where
  n : ℕ
  field : Fin n → StructField
  type : Fin n → GoType

namespace ConfigType

variable {F : FloatWidth → Type} (c : ConfigType)

abbrev Config (F : FloatWidth → Type) : Type :=
  (i : Fin c.n) → Value F (c.type i)

/-- The tag of a field as it stands, with its options; without a tag its name. -/
def key (i : Fin c.n) : String :=
  if (c.field i).tag = "" ∨ (c.field i).tag = "-" then (c.field i).name else (c.field i).tag

def exported (i : Fin c.n) : Bool :=
  (c.field i).exported

/-- Equality of configurations. -/
def SameConfig (config config' : c.Config F) : Prop :=
  ∀ i, Same (c.type i) (config i) (config' i)

end ConfigType

namespace ConfigMap

variable {F : FloatWidth → Type} (lib : GoLibrary F)

/-! ## Texts of fields -/

/-- The text of a field by its kind; none if it has no JSON. -/
def strValue : (t : GoType) → Value F t → Option String
  | .string => fun s : String => some s
  | .bool => fun b : Bool => some (formatBool b)
  | .int width => fun n : BitVec width.bits => some (itoa n.toInt)
  | .uint width => fun n : BitVec width.bits => some n.toNat.repr
  | .float _ => fun x => some (lib.formatFloat x)
  | .ptr elem => fun v : Option (Value F elem) =>
      match v with
      | some v => marshal lib elem v
      | none => some "null"
  | .bytes => marshal lib .bytes
  | .slice elem => marshal lib (.slice elem)
  | .map key elem => marshal lib (.map key elem)
  | .struct n field type => marshal lib (.struct n field type)

/-- The field after a text was set, by its kind; a text that cannot be parsed leaves it. -/
def setValue : (t : GoType) → String → Value F t → Value F t
  | .string => fun text _ => text
  | .bool => fun text (old : Bool) => (parseBool text).getD old
  | .int width => fun text (old : BitVec width.bits) =>
      (atoi text).elim old (BitVec.ofInt width.bits)
  | .uint width => fun text (old : BitVec width.bits) =>
      (parseUint text).elim old (BitVec.ofNat width.bits)
  | .float width => fun text (old : F width) => (lib.parseFloat width text).getD old
  | .ptr elem => fun text (old : Option (Value F elem)) =>
      if text = "null" then none
      else some (Go.unmarshal lib maxNestingDepth elem text (old.getD (zero lib elem)))
  | .bytes => Go.unmarshal lib maxNestingDepth .bytes
  | .slice elem => Go.unmarshal lib maxNestingDepth (.slice elem)
  | .map key elem => Go.unmarshal lib maxNestingDepth (.map key elem)
  | .struct n field type => Go.unmarshal lib maxNestingDepth (.struct n field type)

/-! ## Saving and loading -/

variable {c : ConfigType}

/-- One turn of the loop that saves. -/
def addField (config : c.Config F) (result : String → Option String) (i : Fin c.n) :
    Option (String → Option String) :=
  if c.exported i then
    (strValue lib (c.type i) (config i)).map fun text =>
      Function.update result (c.key i) (some text)
  else some result

/-- The map of a configuration; none for an error. -/
def configToMap (config : c.Config F) : Option (String → Option String) :=
  (List.finRange c.n).foldlM (addField lib config) fun _ => none

/-- The configuration with the texts of the map, each turn of the loop for its own field. -/
def updateConfigFromMap (config : c.Config F) (configMap : String → Option String) : c.Config F :=
  fun i =>
    if c.exported i then
      match configMap (c.key i) with
      | some text => setValue lib (c.type i) text (config i)
      | none => config i
    else config i

/-! ## What is restored -/

/-- The text of the new value, set in the old one, gives the new one: what is written as JSON
restores the old value, and a pointer is not to what is written as null. -/
def FieldRestores : (t : GoType) → Value F t → Value F t → Prop
  | .ptr elem => fun (old new : Option (Value F elem)) => ∀ v, new = some v →
      json lib elem v ≠ .null ∧
        RestoresText lib maxNestingDepth elem (old.getD (zero lib elem)) v
  | .bytes => RestoresText lib maxNestingDepth .bytes
  | .slice elem => RestoresText lib maxNestingDepth (.slice elem)
  | .map key elem => RestoresText lib maxNestingDepth (.map key elem)
  | .struct n field type => RestoresText lib maxNestingDepth (.struct n field type)
  | _ => fun _ _ => True

/-- Some text is read as the new value, or cannot be parsed while the old value is the new one. -/
def ReadAs : (t : GoType) → String → Value F t → Value F t → Prop
  | .string => fun text _ new => text = new
  | .bool => fun text old new =>
      parseBool text = some new ∨ parseBool text = none ∧ old = new
  | .int width => fun text old new =>
      (∃ n, atoi text = some n ∧ BitVec.ofInt width.bits n = new) ∨ atoi text = none ∧ old = new
  | .uint width => fun text old new =>
      (∃ n, parseUint text = some n ∧ BitVec.ofNat width.bits n = new) ∨
        parseUint text = none ∧ old = new
  | .float width => fun text old new =>
      lib.parseFloat width text = some new ∨ lib.parseFloat width text = none ∧ old = new
  | .ptr elem => fun text (old new : Option (Value F elem)) =>
      if text = "null" then new = none
      else ∃ v, new = some v ∧
        Same elem (Go.unmarshal lib maxNestingDepth elem text (old.getD (zero lib elem))) v
  | t => fun text old new => Same t (Go.unmarshal lib maxNestingDepth t text old) new

/-- No later field has the key of this one. -/
def IsLast (c : ConfigType) (j : Fin c.n) : Prop :=
  c.exported j = true ∧ ∀ k, j < k → c.exported k = true → c.key k ≠ c.key j

/-- Fields that are not exported are the same; every exported one has a text; the last one with a
key restores the old one; and an earlier one with its key reads the text of the last as its own
value. -/
structure Restorable (old new : c.Config F) : Prop where
  unexported : ∀ i, c.exported i = false → Same (c.type i) (old i) (new i)
  hasText : ∀ i, c.exported i = true → (strValue lib (c.type i) (new i)).isSome
  last : ∀ j, IsLast c j → FieldRestores lib (c.type j) (old j) (new j)
  earlier : ∀ i j, c.exported i = true → IsLast c j → i ≠ j → c.key i = c.key j →
    ∀ text, strValue lib (c.type j) (new j) = some text →
      ReadAs lib (c.type i) text (old i) (new i)

/-! ## One field -/

section

variable {lib}

theorem same_setValue_bool (old new : Bool) :
    Same .bool (setValue lib .bool (formatBool new) old) new := by
  show (parseBool (formatBool new)).getD old = new
  rw [parseBool_formatBool, Option.getD_some]

theorem same_setValue_float {width : FloatWidth} (old new : F width) :
    Same (.float width) (setValue lib (.float width) (lib.formatFloat new) old) new := by
  show (lib.parseFloat width (lib.formatFloat new)).getD old = new
  rw [lib.parse_format, Option.getD_some]

theorem same_setValue_int (width : IntWidth) (old new : BitVec width.bits) :
    Same (.int width) (setValue lib (.int width) (itoa new.toInt) old) new := by
  show (atoi (itoa new.toInt)).elim old (BitVec.ofInt width.bits) = new
  rw [atoi_itoa (inInt64_toInt new)]
  exact BitVec.ofInt_toInt

theorem same_setValue_uint (width : IntWidth) (old new : BitVec width.bits) :
    Same (.uint width) (setValue lib (.uint width) new.toNat.repr old) new := by
  show (parseUint new.toNat.repr).elim old (BitVec.ofNat width.bits) = new
  rw [parseUint_repr (toNat_lt_two_pow new)]
  show BitVec.ofNat width.bits new.toNat = new
  rw [BitVec.ofNat_toNat, BitVec.setWidth_eq]

/-- A pointer is set to nil by the text of null, and otherwise what it points to is read. -/
theorem ptr_restored_iff {elem : GoType} (old : Option (Value F elem)) (v : Value F elem) :
    (∃ text, strValue lib (.ptr elem) (some v) = some text ∧
        Same (.ptr elem) (setValue lib (.ptr elem) text old) (some v)) ↔
      FieldRestores lib (.ptr elem) old (some v) := by
  have hrestores : FieldRestores lib (.ptr elem) old (some v) ↔ json lib elem v ≠ .null ∧
      RestoresText lib maxNestingDepth elem (old.getD (zero lib elem)) v :=
    ⟨fun hall => hall v rfl, fun hall w hw => Option.some.inj hw ▸ hall⟩
  rw [hrestores, ← unmarshal_marshal_iff]
  show (∃ text, marshal lib elem v = some text ∧ Option.Rel (Same elem) (if text = "null" then none
    else some (Go.unmarshal lib maxNestingDepth elem text (old.getD (zero lib elem)))) (some v)) ↔ _
  have hnull : ∀ text, marshal lib elem v = some text → (text = "null" ↔ json lib elem v = .null) := by
    intro text htext
    obtain ⟨hjson, rfl⟩ := marshal_eq_some_iff.1 htext
    rw [← Json.text_eq_null_iff (wellFormed_json elem v hjson), ← String.toList_inj,
      String.toList_ofList]
    rfl
  constructor
  · intro hrestored
    obtain ⟨text, htext, hsame⟩ := hrestored
    by_cases hpointee : json lib elem v = .null
    · rw [if_pos ((hnull text htext).2 hpointee)] at hsame
      cases hsame
    · rw [if_neg (mt (hnull text htext).1 hpointee), Option.rel_some_some] at hsame
      exact ⟨hpointee, text, htext, hsame⟩
  · intro hrestored
    obtain ⟨hpointee, text, htext, hsame⟩ := hrestored
    refine ⟨text, htext, ?_⟩
    rw [if_neg (mt (hnull text htext).1 hpointee)]
    exact .some hsame

/-- The text of a field, set in the old one, gives the new one exactly if it restores it. -/
theorem field_restored_iff (t : GoType) (old new : Value F t) :
    (∃ text, strValue lib t new = some text ∧ Same t (setValue lib t text old) new) ↔
      FieldRestores lib t old new := by
  cases t with
  | string => exact iff_of_true ⟨new, rfl, rfl⟩ trivial
  | bool => exact iff_of_true ⟨_, rfl, same_setValue_bool old new⟩ trivial
  | int width => exact iff_of_true ⟨_, rfl, same_setValue_int width old new⟩ trivial
  | uint width => exact iff_of_true ⟨_, rfl, same_setValue_uint width old new⟩ trivial
  | float width => exact iff_of_true ⟨_, rfl, same_setValue_float old new⟩ trivial
  | bytes => exact unmarshal_marshal_iff
  | slice elem => exact unmarshal_marshal_iff
  | map key elem => exact unmarshal_marshal_iff
  | struct n field type => exact unmarshal_marshal_iff
  | ptr elem =>
      cases new with
      | none => exact iff_of_true ⟨"null", rfl, .none⟩ fun v hv => nomatch hv
      | some v => exact ptr_restored_iff old v

theorem elim_eq_iff {α β : Type} {o : Option α} {f : α → β} {old new : β} :
    o.elim old f = new ↔ (∃ a, o = some a ∧ f a = new) ∨ o = none ∧ old = new := by
  cases o <;> simp

/-- What a text sets is the value that the text is read as. -/
theorem same_setValue_iff (t : GoType) (text : String) (old new : Value F t) :
    Same t (setValue lib t text old) new ↔ ReadAs lib t text old new := by
  cases t with
  | string => exact Iff.rfl
  | bool => exact Option.getD_eq_iff
  | int width => exact elim_eq_iff
  | uint width => exact elim_eq_iff
  | float width => exact Option.getD_eq_iff
  | bytes => exact Iff.rfl
  | slice elem => exact Iff.rfl
  | map key elem => exact Iff.rfl
  | struct n field type => exact Iff.rfl
  | ptr elem =>
      show Option.Rel (Same elem) (if text = "null" then none else some _) new ↔
        if text = "null" then new = none else ∃ v, new = some v ∧ Same elem _ v
      by_cases hnull : text = "null"
      · rw [if_pos hnull, if_pos hnull]
        cases new with
        | none => exact iff_of_true .none rfl
        | some v => exact iff_of_false (fun hrel => nomatch hrel) fun hsame => nomatch hsame
      · rw [if_neg hnull, if_neg hnull]
        cases new with
        | none => exact iff_of_false (fun hrel => nomatch hrel) fun ⟨v, hv, _⟩ => nomatch hv
        | some v =>
            rw [Option.rel_some_some]
            exact ⟨fun hsame => ⟨v, rfl, hsame⟩, fun ⟨w, hw, hsame⟩ => Option.some.inj hw ▸ hsame⟩

/-! ## All fields -/

variable {old new config : c.Config F} {i j : Fin c.n} {l : List (Fin c.n)}
  {result m : String → Option String}

variable (lib config) in
/-- One turn of the loop that saves, where all fields have a text. -/
def savedField (result : String → Option String) (i : Fin c.n) : String → Option String :=
  if c.exported i then Function.update result (c.key i) (strValue lib (c.type i) (config i))
  else result

variable (lib config) in
def savedMap : String → Option String :=
  (List.finRange c.n).foldl (savedField lib config) fun _ => none

variable (lib config) in
def HasText (i : Fin c.n) : Prop :=
  c.exported i = true → (strValue lib (c.type i) (config i)).isSome

theorem addField_of_hasText (result : String → Option String) (i : Fin c.n)
    (htext : HasText lib config i) :
    addField lib config result i = some (savedField lib config result i) := by
  unfold addField savedField
  cases hexported : c.exported i with
  | false => rfl
  | true =>
      obtain ⟨text, hsome⟩ := Option.isSome_iff_exists.1 (htext hexported)
      rw [if_pos rfl, if_pos rfl, hsome]
      rfl

theorem addField_of_not_hasText (result : String → Option String) (i : Fin c.n)
    (htext : ¬ HasText lib config i) : addField lib config result i = none := by
  obtain ⟨hexported, hnone⟩ := Classical.not_imp.1 htext
  rw [Bool.not_eq_true, Option.isSome_eq_false_iff, Option.isNone_iff_eq_none] at hnone
  rw [addField, if_pos hexported, hnone]
  rfl

theorem foldlM_addField_iff : l.foldlM (addField lib config) result = some m ↔
    (∀ i ∈ l, HasText lib config i) ∧ m = l.foldl (savedField lib config) result := by
  induction l generalizing result with
  | nil =>
      show some result = some m ↔ _
      rw [Option.some.injEq, eq_comm]
      exact (and_iff_right fun i hi => nomatch hi).symm
  | cons i l ih =>
      rw [List.foldlM_cons, List.foldl_cons, List.forall_mem_cons]
      by_cases htext : HasText lib config i
      · rw [addField_of_hasText result i htext, and_assoc, and_iff_right htext]
        exact ih
      · rw [addField_of_not_hasText result i htext]
        exact iff_of_false (fun hsome => nomatch hsome) fun hall => htext hall.1.1

theorem configToMap_eq_some_iff : configToMap lib config = some m ↔
    (∀ i, HasText lib config i) ∧ m = savedMap lib config := by
  rw [configToMap, foldlM_addField_iff, savedMap]
  exact and_congr_left' (forall_congr' fun i => forall_prop_of_true (List.mem_finRange i))

theorem foldl_savedField_of_ne {name : String}
    (hne : ∀ k ∈ l, c.exported k = true → c.key k ≠ name) :
    l.foldl (savedField lib config) result name = result name := by
  induction l generalizing result with
  | nil => rfl
  | cons i l ih =>
      rw [List.forall_mem_cons] at hne
      rw [List.foldl_cons, ih hne.2, savedField]
      split
      case isTrue hexported => rw [Function.update_of_ne (hne.1 hexported).symm]
      case isFalse => rfl

/-- Under a key stands the text of the last field with it. -/
theorem savedMap_of_isLast (hlast : IsLast c j) :
    savedMap lib config (c.key j) = strValue lib (c.type j) (config j) := by
  obtain ⟨before, after, hsplit⟩ := List.append_of_mem (List.mem_finRange j)
  have hafter : ∀ k ∈ after, j < k := by
    have hsorted := List.pairwise_lt_finRange c.n
    rw [hsplit, List.pairwise_append, List.pairwise_cons] at hsorted
    exact hsorted.2.1.1
  rw [savedMap, hsplit, List.foldl_append, List.foldl_cons,
    foldl_savedField_of_ne fun k hk => hlast.2 k (hafter k hk), savedField, if_pos hlast.1,
    Function.update_self]

/-- Every exported field has a last one with its key. -/
theorem exists_isLast (hexported : c.exported i = true) : ∃ j, IsLast c j ∧ c.key i = c.key j := by
  let sharing := Finset.univ.filter fun k => c.exported k = true ∧ c.key k = c.key i
  have hmem : ∀ k, k ∈ sharing ↔ c.exported k = true ∧ c.key k = c.key i := by
    intro k
    rw [Finset.mem_filter, and_iff_right (Finset.mem_univ k)]
  have hne : sharing.Nonempty := ⟨i, (hmem i).2 ⟨hexported, rfl⟩⟩
  obtain ⟨hlast, hkey⟩ := (hmem _).1 (sharing.max'_mem hne)
  refine ⟨sharing.max' hne, ⟨hlast, fun k hlt hk hsame => ?_⟩, hkey.symm⟩
  have hle := sharing.le_max' k ((hmem k).2 ⟨hk, hsame.trans hkey⟩)
  exact absurd hle (not_le.2 hlt)

theorem updateConfigFromMap_of_isLast (hexported : c.exported i = true) (hlast : IsLast c j)
    (hkey : c.key i = c.key j) {text : String}
    (htext : strValue lib (c.type j) (new j) = some text) :
    updateConfigFromMap lib old (savedMap lib new) i = setValue lib (c.type i) text (old i) := by
  rw [updateConfigFromMap, if_pos hexported, hkey, savedMap_of_isLast hlast, htext]

end

/-- Saving one configuration and loading it into another one gives the saved one exactly if it is
restorable. -/
theorem config_restored_iff (lib : GoLibrary F) (old new : c.Config F) :
    (∃ configMap, configToMap lib new = some configMap ∧
        c.SameConfig (updateConfigFromMap lib old configMap) new) ↔
      Restorable lib old new := by
  constructor
  · intro hrestored
    obtain ⟨configMap, hsaved, hsame⟩ := hrestored
    obtain ⟨htexts, rfl⟩ := configToMap_eq_some_iff.1 hsaved
    refine ⟨fun i hexported => ?_, htexts, fun j hlast => ?_, fun i j hexported hlast _ hkey text
      htext => ?_⟩
    · have hfield := hsame i
      rw [updateConfigFromMap, if_neg (Bool.eq_false_iff.1 hexported)] at hfield
      exact hfield
    · obtain ⟨text, htext⟩ := Option.isSome_iff_exists.1 (htexts j hlast.1)
      have hfield := hsame j
      rw [updateConfigFromMap_of_isLast hlast.1 hlast rfl htext] at hfield
      exact (field_restored_iff _ _ _).1 ⟨text, htext, hfield⟩
    · have hfield := hsame i
      rw [updateConfigFromMap_of_isLast hexported hlast hkey htext] at hfield
      exact (same_setValue_iff _ _ _ _).1 hfield
  · intro hrestorable
    refine ⟨savedMap lib new, configToMap_eq_some_iff.2 ⟨hrestorable.hasText, rfl⟩, fun i => ?_⟩
    cases hexported : c.exported i with
    | false =>
        rw [updateConfigFromMap, if_neg (Bool.eq_false_iff.1 hexported)]
        exact hrestorable.unexported i hexported
    | true =>
        obtain ⟨j, hlast, hkey⟩ := exists_isLast hexported
        by_cases hsame : i = j
        · subst hsame
          obtain ⟨text, htext, hfield⟩ := (field_restored_iff _ _ _).2 (hrestorable.last i hlast)
          rw [updateConfigFromMap_of_isLast hexported hlast rfl htext]
          exact hfield
        · obtain ⟨text, htext⟩ := Option.isSome_iff_exists.1 (hrestorable.hasText j hlast.1)
          rw [updateConfigFromMap_of_isLast hexported hlast hkey htext]
          exact (same_setValue_iff _ _ _ _).2
            (hrestorable.earlier i j hexported hlast hsame hkey text htext)

/-! ## A key that was removed -/

/-- Floats that are integers. -/
def intLibrary : GoLibrary fun _ => {n : ℤ // InInt64 n} where
  zeroFloat := fun _ => ⟨0, by decide⟩
  isZeroFloat := fun x => x.1 = 0
  isFinite := fun _ => true
  formatFloat := fun x => itoa x.1
  parseFloat := fun _ s => (atoi s).bind fun n => if hn : InInt64 n then some ⟨n, hn⟩ else none
  floatNumber := fun x => (itoa x.1).toList
  ofNumber := fun _ digits => (atoi (String.ofList digits)).bind fun n =>
    if hn : InInt64 n then some ⟨n, hn⟩ else none
  parse_format := by
    intro _ x
    rw [atoi_itoa x.2, Option.bind_some, dif_pos x.2]
  isNumber_floatNumber := fun x _ => Json.isNumber_itoa x.1
  ofNumber_floatNumber := by
    intro _ x _
    rw [String.ofList_toList, atoi_itoa x.2, Option.bind_some, dif_pos x.2]
  isLetterOrDigit := Char.isAlphanum
  foldName := toUpper

/-- One map of numbers. -/
def limitsType : ConfigType where
  n := 1
  field := fun _ => ⟨"Limits", "limits", true⟩
  type := fun _ => .map .string (.int .w64)

def limitsConfig (limits : AList fun _ : String => BitVec 64) :
    limitsType.Config fun _ => {n : ℤ // InInt64 n} :=
  fun _ => some limits

def vipLimits : AList fun _ : String => BitVec 64 :=
  AList.singleton "vip" 1

def limitsField : Fin limitsType.n :=
  ⟨0, Nat.one_pos⟩

/-- A key that was removed from a map is kept from the old configuration. -/
theorem removed_key_kept :
    ¬ ∃ configMap, configToMap intLibrary (limitsConfig ∅) = some configMap ∧
      limitsType.SameConfig (updateConfigFromMap intLibrary (limitsConfig vipLimits)
        configMap) (limitsConfig ∅) := by
  intro hrestored
  obtain ⟨configMap, hsaved, hsame⟩ := hrestored
  obtain ⟨htexts, rfl⟩ := configToMap_eq_some_iff.1 hsaved
  have hlast : IsLast limitsType limitsField := by
    refine ⟨rfl, fun k hlt => ?_⟩
    have hk : k.1 < 1 := k.2
    exact absurd hk (not_lt.2 hlt)
  obtain ⟨text, htext⟩ := Option.isSome_iff_exists.1 (htexts limitsField rfl)
  have hfield := hsame limitsField
  rw [updateConfigFromMap_of_isLast rfl hlast rfl htext] at hfield
  have hrestores : RestoresText intLibrary maxNestingDepth (.map .string (.int .w64))
      (some vipLimits) (some ∅) :=
    (field_restored_iff _ _ _).1 ⟨text, htext, hfield⟩
  have hshallow : Json.depth (json intLibrary (.map .string (.int .w64)) (some ∅)) ≤
      maxNestingDepth := by
    simp [json, sortedEntries, Json.depth, Json.fieldsDepth, maxNestingDepth]
  have hkeys := hrestores.2
  rw [if_pos hshallow] at hkeys
  have hmem : "vip" ∈ (∅ : AList fun _ : String => BitVec 64) :=
    (hkeys ∅ rfl).1 vipLimits rfl "vip" List.mem_cons_self
  exact AList.notMem_empty "vip" hmem

end ConfigMap

end NewApi.Model
