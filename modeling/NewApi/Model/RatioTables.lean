import NewApi.Lib.Integers
import NewApi.Model.ModelNames
import NewApi.Model.StreamText

/-!
# Updates of the ratio and price tables

Each table of prices and ratios is replaced by the one that a JSON text holds.  Most of the update
functions make the table empty and decode the text into it, so that a text with an error leaves what
has been decoded of it; the two for audio decode the text on the side.
-/

namespace NewApi.Model

open NewApi.Lib NewApi.Lib.Strings

/-- A table that is looked up by name; a nil map has no entries. -/
abbrev RatioTable (V : Type) := String → Option V

/-- A type of Go that `encoding/json` decodes: what a new value is after a JSON value was decoded
into it, and whether the value fits. A value that does not fit is skipped, and decoding goes on. -/
structure JsonType (V : Type) where
  stored : Json → V
  fits : Json → Bool

inductive JsonError
  | syntaxError
  | unmarshalType
deriving DecidableEq

namespace RatioTables

section Decoding

variable {V F : Type}

def emptyTable : RatioTable V := fun _ => none

/-- `map[name] = value`, for a member of an object. -/
def setMember (elem : JsonType V) (table : RatioTable V) (field : List Char × Json) :
    RatioTable V :=
  Function.update table (Json.unquote field.1) (some (elem.stored field.2))

/-- `float64`: null is skipped without an error, a number out of range with one. -/
def float64Type [Zero F] (parseFloat : List Char → Option F) : JsonType F where
  stored
    | .num text => (parseFloat text).getD 0
    | _ => 0
  fits
    | .null => true
    | .num text => (parseFloat text).isSome
    | _ => false

/-- `map[string]V`. -/
def mapType (elem : JsonType V) : JsonType (RatioTable V) where
  stored
    | .obj fields => fields.foldl (setMember elem) emptyTable
    | _ => emptyTable
  fits
    | .null => true
    | .obj fields => fields.all fun field => elem.fits field.2
    | _ => false

/-- `json.Unmarshal` into a map. -/
def unmarshalMap (elem : JsonType V) (jsonStr : String) (table : RatioTable V) :
    RatioTable V × Option JsonError :=
  match Json.parse maxNestingDepth jsonStr.toList with
  | none => (table, some .syntaxError)
  | some .null => (emptyTable, none)
  | some (.obj fields) =>
      (fields.foldl (setMember elem) table,
        if fields.all fun field => elem.fits field.2 then none else some .unmarshalType)
  | some _ => (table, some .unmarshalType)

end Decoding

/-! ## The tables and their updates -/

/-- The variables that hold the tables. -/
inductive Name
  | modelPriceMap
  | modelRatioMap
  | completionRatio
  | cacheRatioMap
  | imageRatioMap
  | audioRatioMap
  | audioCompletionRatioMap
  | groupRatio
  | groupGroupRatio
deriving DecidableEq

/-- The values of a table: ratios, or tables of ratios. -/
abbrev Name.Value (F : Type) : Name → Type
  | .groupGroupRatio => RatioTable F
  | _ => F

/-- The contents of all tables. -/
abbrev Tables (F : Type) := (name : Name) → RatioTable (name.Value F)

section Updates

variable {F : Type} [Zero F] (parseFloat : List Char → Option F)

def elementType : (name : Name) → JsonType (name.Value F)
  | .groupGroupRatio => mapType (float64Type parseFloat)
  | .modelPriceMap => (float64Type parseFloat : JsonType F)
  | .modelRatioMap => (float64Type parseFloat : JsonType F)
  | .completionRatio => (float64Type parseFloat : JsonType F)
  | .cacheRatioMap => (float64Type parseFloat : JsonType F)
  | .imageRatioMap => (float64Type parseFloat : JsonType F)
  | .audioRatioMap => (float64Type parseFloat : JsonType F)
  | .audioCompletionRatioMap => (float64Type parseFloat : JsonType F)
  | .groupRatio => (float64Type parseFloat : JsonType F)

/-- The table is made new, and the text is decoded into it. -/
def resetAndDecode (name : Name) (tables : Tables F) (jsonStr : String) :
    Tables F × Option JsonError :=
  let tables := Function.update tables name emptyTable
  let (table, err) := unmarshalMap (elementType parseFloat name) jsonStr (tables name)
  (Function.update tables name table, err)

/-- The text is decoded into a table on the side, which takes the place of the old one. -/
def decodeAndReplace (name : Name) (tables : Tables F) (jsonStr : String) :
    Tables F × Option JsonError :=
  let (tmp, err) := unmarshalMap (elementType parseFloat name) jsonStr emptyTable
  match err with
  | some err => (tables, some err)
  | none => (Function.update tables name tmp, none)

def updateModelPriceByJSONString := resetAndDecode parseFloat .modelPriceMap

def updateModelRatioByJSONString := resetAndDecode parseFloat .modelRatioMap

def updateCompletionRatioByJSONString := resetAndDecode parseFloat .completionRatio

def updateCacheRatioByJSONString := resetAndDecode parseFloat .cacheRatioMap

def updateImageRatioByJSONString := resetAndDecode parseFloat .imageRatioMap

def updateAudioRatioByJSONString := decodeAndReplace parseFloat .audioRatioMap

def updateAudioCompletionRatioByJSONString :=
  decodeAndReplace parseFloat .audioCompletionRatioMap

def updateGroupRatioByJSONString := resetAndDecode parseFloat .groupRatio

def updateGroupGroupRatioByJSONString := resetAndDecode parseFloat .groupGroupRatio

/-- The function that updates a table. -/
def updateByJSONString : Name → Tables F → String → Tables F × Option JsonError
  | .modelPriceMap => updateModelPriceByJSONString parseFloat
  | .modelRatioMap => updateModelRatioByJSONString parseFloat
  | .completionRatio => updateCompletionRatioByJSONString parseFloat
  | .cacheRatioMap => updateCacheRatioByJSONString parseFloat
  | .imageRatioMap => updateImageRatioByJSONString parseFloat
  | .audioRatioMap => updateAudioRatioByJSONString parseFloat
  | .audioCompletionRatioMap => updateAudioCompletionRatioByJSONString parseFloat
  | .groupRatio => updateGroupRatioByJSONString parseFloat
  | .groupGroupRatio => updateGroupGroupRatioByJSONString parseFloat

end Updates

/-! ## What a text holds -/

section Contents

variable {V : Type} (elem : JsonType V)

/-- The value of the last member with a name. -/
def memberNamed (fields : List (List Char × Json)) (name : String) : Option V :=
  (fields.reverse.find? fun field => Json.unquote field.1 = name).map fun field =>
    elem.stored field.2

/-- What a text has under a name; a text that is no object has nothing. -/
def entry (jsonStr : String) (name : String) : Option V :=
  match Json.parse maxNestingDepth jsonStr.toList with
  | some (.obj fields) => memberNamed elem fields name
  | _ => none

/-- The text is null or an object whose values fit. -/
def Readable (jsonStr : String) : Prop :=
  ∃ v, Json.parse maxNestingDepth jsonStr.toList = some v ∧ (mapType elem).fits v = true

/-- The table has what the text has, with the zero value for what does not fit. -/
def Holds (jsonStr : String) (table : RatioTable V) : Prop :=
  ∀ name, table name = entry elem jsonStr name

variable {elem} {fields : List (List Char × Json)} {jsonStr : String} {name : String}

theorem foldl_setMember (table : RatioTable V) :
    fields.foldl (setMember elem) table name = (memberNamed elem fields name).or (table name) := by
  induction fields using List.reverseRecOn with
  | nil => rfl
  | append_singleton fields field ih =>
      rw [List.foldl_concat, setMember, memberNamed, List.reverse_concat, List.find?_cons]
      by_cases hname : Json.unquote field.1 = name
      · rw [hname, Function.update_self]
        simp
      · rw [Function.update_of_ne (Ne.symm hname), ih]
        simp [hname, memberNamed]

theorem unmarshalMap_fst : (unmarshalMap elem jsonStr emptyTable).1 name =
    entry elem jsonStr name := by
  unfold unmarshalMap entry
  cases Json.parse maxNestingDepth jsonStr.toList with
  | none => rfl
  | some v =>
      cases v with
      | obj fields => exact (foldl_setMember emptyTable).trans Option.or_none
      | _ => rfl

theorem unmarshalMap_snd : (unmarshalMap elem jsonStr emptyTable).2 = none ↔
    Readable elem jsonStr := by
  unfold unmarshalMap Readable
  cases Json.parse maxNestingDepth jsonStr.toList with
  | none => simp
  | some v => cases v <;> simp [mapType]

end Contents

/-! ## Rejected and accepted updates -/

section Atomicity

variable {F : Type} [Zero F] {parseFloat : List Char → Option F} {name : Name} {tables : Tables F}
  {jsonStr : String}

variable (parseFloat name tables jsonStr) in
/-- An update that is rejected changes nothing, and an accepted one makes the table what the text
has. -/
structure AllOrNothing (result : Tables F × Option JsonError) : Prop where
  rejected : result.2 ≠ none → result.1 = tables
  accepted : result.2 = none → ∃ table, Readable (elementType parseFloat name) jsonStr ∧
    Holds (elementType parseFloat name) jsonStr table ∧
      result.1 = Function.update tables name table

/-- The text is decoded on the side. -/
def Name.decodedAside : Name → Bool
  | .audioRatioMap => true
  | .audioCompletionRatioMap => true
  | _ => false

theorem updateByJSONString_eq (name : Name) : updateByJSONString parseFloat name =
    if name.decodedAside then decodeAndReplace parseFloat name
    else resetAndDecode parseFloat name := by
  cases name <;> rfl

theorem resetAndDecode_eq : resetAndDecode parseFloat name tables jsonStr =
    (Function.update tables name
      (unmarshalMap (elementType parseFloat name) jsonStr emptyTable).1,
      (unmarshalMap (elementType parseFloat name) jsonStr emptyTable).2) := by
  simp only [resetAndDecode, Function.update_self, Function.update_idem]

theorem resetAndDecode_table : (resetAndDecode parseFloat name tables jsonStr).1 name =
    (unmarshalMap (elementType parseFloat name) jsonStr emptyTable).1 := by
  rw [resetAndDecode_eq]
  exact Function.update_self _ _ _

theorem holds_unmarshalMap : Holds (elementType parseFloat name) jsonStr
    (unmarshalMap (elementType parseFloat name) jsonStr emptyTable).1 := fun _ =>
  unmarshalMap_fst

theorem holds_iff {table : RatioTable (name.Value F)} :
    Holds (elementType parseFloat name) jsonStr table ↔
      (unmarshalMap (elementType parseFloat name) jsonStr emptyTable).1 = table := by
  constructor
  · intro hholds
    funext key
    rw [hholds key]
    exact unmarshalMap_fst
  · rintro rfl
    exact holds_unmarshalMap

theorem accepted_of_readable (hreadable : Readable (elementType parseFloat name) jsonStr)
    {result : Tables F × Option JsonError}
    (hresult : result = (Function.update tables name
      (unmarshalMap (elementType parseFloat name) jsonStr emptyTable).1, none)) :
    AllOrNothing parseFloat name tables jsonStr result := by
  subst hresult
  exact ⟨fun hne => absurd rfl hne, fun _ => ⟨_, hreadable, holds_unmarshalMap, rfl⟩⟩

theorem decodeAndReplace_allOrNothing :
    AllOrNothing parseFloat name tables jsonStr (decodeAndReplace parseFloat name tables jsonStr) := by
  cases herr : (unmarshalMap (elementType parseFloat name) jsonStr emptyTable).2 with
  | some err =>
      have hresult : decodeAndReplace parseFloat name tables jsonStr = (tables, some err) := by
        simp only [decodeAndReplace, herr]
      rw [hresult]
      exact ⟨fun _ => rfl, fun hnone => by cases hnone⟩
  | none =>
      refine accepted_of_readable (unmarshalMap_snd.1 herr) ?_
      simp only [decodeAndReplace, herr]

theorem resetAndDecode_allOrNothing_iff :
    AllOrNothing parseFloat name tables jsonStr (resetAndDecode parseFloat name tables jsonStr) ↔
      Readable (elementType parseFloat name) jsonStr ∨
        Holds (elementType parseFloat name) jsonStr (tables name) := by
  by_cases hreadable : Readable (elementType parseFloat name) jsonStr
  · refine iff_of_true (accepted_of_readable hreadable ?_) (.inl hreadable)
    rw [resetAndDecode_eq, unmarshalMap_snd.2 hreadable]
  · have herr : (unmarshalMap (elementType parseFloat name) jsonStr emptyTable).2 ≠ none :=
      mt unmarshalMap_snd.1 hreadable
    rw [or_iff_right hreadable, holds_iff, resetAndDecode_eq]
    constructor
    · intro hatomic
      exact Function.update_eq_self_iff.1 (hatomic.rejected herr)
    · intro hsame
      exact ⟨fun _ => Function.update_eq_self_iff.2 hsame, fun hnone => absurd hnone herr⟩

theorem update_iff : AllOrNothing parseFloat name tables jsonStr
      (updateByJSONString parseFloat name tables jsonStr) ↔
    name.decodedAside = true ∨ Readable (elementType parseFloat name) jsonStr ∨
      Holds (elementType parseFloat name) jsonStr (tables name) := by
  rw [updateByJSONString_eq]
  cases hname : name.decodedAside with
  | true => exact iff_of_true decodeAndReplace_allOrNothing (.inl rfl)
  | false =>
      rw [if_neg Bool.false_ne_true, resetAndDecode_allOrNothing_iff]
      exact (or_iff_right Bool.false_ne_true).symm

/-- An update is all or nothing exactly if the table is one of the two for audio, or the text is
readable, or the table has been what is left of the text. -/
theorem update_allOrNothing_iff (parseFloat : List Char → Option F) (name : Name)
    (tables : Tables F) (jsonStr : String) :
    AllOrNothing parseFloat name tables jsonStr
        (updateByJSONString parseFloat name tables jsonStr) ↔
      name.decodedAside = true ∨ Readable (elementType parseFloat name) jsonStr ∨
        Holds (elementType parseFloat name) jsonStr (tables name) :=
  update_iff

/-! ## Runs of updates -/

/-- The error of an update tells whether its text is readable. -/
theorem update_snd : (updateByJSONString parseFloat name tables jsonStr).2 = none ↔
    Readable (elementType parseFloat name) jsonStr := by
  rw [updateByJSONString_eq]
  cases name.decodedAside with
  | false =>
      rw [if_neg Bool.false_ne_true, resetAndDecode_eq]
      exact unmarshalMap_snd
  | true =>
      rw [if_pos rfl, ← unmarshalMap_snd]
      cases herr : (unmarshalMap (elementType parseFloat name) jsonStr emptyTable).2 <;>
        simp [decodeAndReplace, herr]

variable (parseFloat) in
/-- The tables after updates, some of which may have been rejected. -/
def afterUpdates (tables : Tables F) (updates : List (Name × String)) : Tables F :=
  updates.foldl (fun tables update =>
    (updateByJSONString parseFloat update.1 tables update.2).1) tables

variable (parseFloat) in
/-- The text of the last update of a table that could be read. -/
def LastRead (name : Name) (updates : List (Name × String)) (text : Option String) : Prop :=
  match text with
  | none => ∀ update ∈ updates, update.1 = name →
      ¬ Readable (elementType parseFloat name) update.2
  | some text => ∃ before later, updates = before ++ (name, text) :: later ∧
      Readable (elementType parseFloat name) text ∧
      ∀ update ∈ later, update.1 = name → ¬ Readable (elementType parseFloat name) update.2

theorem LastRead.concat {updates : List (Name × String)} {text : Option String}
    {update : Name × String} (hread : LastRead parseFloat name updates text)
    (hupdate : update.1 = name → ¬ Readable (elementType parseFloat name) update.2) :
    LastRead parseFloat name (updates ++ [update]) text := by
  have hconcat : ∀ later : List (Name × String),
      (∀ update ∈ later, update.1 = name → ¬ Readable (elementType parseFloat name) update.2) →
        ∀ u ∈ later ++ [update], u.1 = name → ¬ Readable (elementType parseFloat name) u.2 := by
    intro later hlater u hu
    rcases List.mem_append.1 hu with hu | hu
    · exact hlater u hu
    · rw [List.mem_singleton.1 hu]
      exact hupdate
  cases text with
  | none => exact hconcat updates hread
  | some text =>
      obtain ⟨before, later, hsplit, htext, hlater⟩ := hread
      refine ⟨before, later ++ [update], ?_, htext, hconcat later hlater⟩
      rw [hsplit, List.append_assoc, List.cons_append]

/-- Where no text in a run of updates is unreadable unless it is decoded on the side, each table is
in the end what the last readable text for it has, or what it was where there is none. -/
theorem afterUpdates_table (updates : List (Name × String))
    (hupdates : ∀ update ∈ updates, update.1.decodedAside = true ∨
      Readable (elementType parseFloat update.1) update.2) (name : Name) :
    ∃ text, LastRead parseFloat name updates text ∧
      match text with
      | none => afterUpdates parseFloat tables updates name = tables name
      | some text => Holds (elementType parseFloat name) text
          (afterUpdates parseFloat tables updates name) := by
  induction updates using List.reverseRecOn with
  | nil => exact ⟨none, fun _ hmem => (List.not_mem_nil hmem).elim, rfl⟩
  | append_singleton updates update ih =>
      obtain ⟨text, hread, htable⟩ := ih fun update hmem =>
        hupdates update (List.mem_append_left _ hmem)
      have hcondition := hupdates update (List.mem_append_right _ (List.mem_singleton_self _))
      have hatomic : AllOrNothing parseFloat update.1 (afterUpdates parseFloat tables updates)
          update.2 _ := update_iff.2 (hcondition.imp_right .inl)
      have hafter : afterUpdates parseFloat tables (updates ++ [update]) =
          (updateByJSONString parseFloat update.1 (afterUpdates parseFloat tables updates)
            update.2).1 := List.foldl_concat _ _ _ _
      by_cases herr : (updateByJSONString parseFloat update.1
          (afterUpdates parseFloat tables updates) update.2).2 = none
      · obtain ⟨table, hreadable, hholds, hresult⟩ := hatomic.accepted herr
        rw [hafter, hresult]
        by_cases hname : update.1 = name
        · subst hname
          refine ⟨some update.2, ⟨updates, [], rfl, hreadable,
            fun _ hmem => (List.not_mem_nil hmem).elim⟩, ?_⟩
          simpa only [Function.update_self] using hholds
        · refine ⟨text, hread.concat fun hsame => absurd hsame hname, ?_⟩
          rw [Function.update_of_ne (Ne.symm hname)]
          exact htable
      · rw [hafter, hatomic.rejected herr]
        refine ⟨text, hread.concat fun hsame => ?_, htable⟩
        subst hsame
        exact mt update_snd.2 herr

end Atomicity

/-! ## Lookups -/

def compactWildcardModelKey : String := "*" ++ CompactModelSuffix

section Lookup

variable {F : Type}

/-- The price of a model, if it has one. -/
def getModelPrice (tables : Tables F) (name : String) : Option F :=
  let name := formatMatchingModelName name
  if hasSuffix name CompactModelSuffix then tables .modelPriceMap compactWildcardModelKey
  else tables .modelPriceMap name

/-- The ratio of a model, if it has one. -/
def getModelRatio (tables : Tables F) (name : String) : Option F :=
  let name := formatMatchingModelName name
  match tables .modelRatioMap name with
  | some ratio => some ratio
  | none =>
      if hasSuffix name CompactModelSuffix then tables .modelRatioMap compactWildcardModelKey
      else none

def getGroupGroupRatio (tables : Tables F) (userGroup usingGroup : String) : Option F :=
  (tables .groupGroupRatio userGroup).bind fun gp => gp usingGroup

variable [Zero F] {parseFloat : List Char → Option F} {tables : Tables F} {jsonStr : String}

/-- A text that is no object takes the price away from every model, although it is rejected. -/
theorem getModelPrice_of_noObject
    (hobj : ∀ fields, Json.parse maxNestingDepth jsonStr.toList ≠ some (.obj fields))
    (name : String) :
    getModelPrice (updateModelPriceByJSONString parseFloat tables jsonStr).1 name = none := by
  have htable : (updateModelPriceByJSONString parseFloat tables jsonStr).1 .modelPriceMap =
      (unmarshalMap (elementType parseFloat .modelPriceMap) jsonStr emptyTable).1 :=
    resetAndDecode_table
  have hempty : ∀ key, (updateModelPriceByJSONString parseFloat tables jsonStr).1
      .modelPriceMap key = none := by
    intro key
    rw [htable]
    refine unmarshalMap_fst.trans ?_
    unfold entry
    split
    case h_1 fields hparse => exact absurd hparse (hobj fields)
    case h_2 => rfl
  unfold getModelPrice
  dsimp only
  split
  · exact hempty _
  · exact hempty _

end Lookup

/-! ## An update that empties the table -/

/-- One model with a price of 30. -/
def pricedTables : Tables ℤ
  | .modelPriceMap => fun name => if name = "gpt-4" then some (30 : ℤ) else none
  | _ => emptyTable

/-- Numbers without a fraction. -/
def parseWhole (text : List Char) : Option ℤ :=
  atoi (String.ofList text)

/-- Two prices, of which the later one counts, and a text for another table that is refused. -/
def sampleUpdates : List (Name × String) :=
  [(.modelPriceMap, "\x7b\"gpt-4\":20\x7d"), (.modelPriceMap, "\x7b\"gpt-4\":40\x7d"),
    (.audioRatioMap, "")]

theorem prices_after_sampleUpdates : ∃ text,
    LastRead parseWhole .modelPriceMap sampleUpdates text ∧
      match text with
      | none => afterUpdates parseWhole pricedTables sampleUpdates .modelPriceMap =
          pricedTables .modelPriceMap
      | some text => Holds (elementType parseWhole .modelPriceMap) text
          (afterUpdates parseWhole pricedTables sampleUpdates .modelPriceMap) := by
  have hreadable : ∀ jsonStr : String,
      ((Json.parse 1 jsonStr.toList).map (mapType (float64Type parseWhole)).fits) = some true →
        Readable (float64Type parseWhole) jsonStr := by
    intro jsonStr hfits
    obtain ⟨v, hparse, hfits⟩ := Option.map_eq_some_iff.1 hfits
    exact ⟨v, Json.parse_of_le (by decide) hparse, hfits⟩
  refine afterUpdates_table sampleUpdates (fun update hmem => ?_) .modelPriceMap
  rw [sampleUpdates, List.mem_cons, List.mem_cons, List.mem_singleton] at hmem
  rcases hmem with rfl | rfl | rfl
  · exact .inr (hreadable _ (by decide +kernel))
  · exact .inr (hreadable _ (by decide +kernel))
  · exact .inl rfl

/-- The empty text is no JSON: it is rejected, and the price is gone. -/
theorem rejected_text_empties_prices :
    (updateModelPriceByJSONString parseWhole pricedTables "").2 ≠ none ∧
      (updateModelPriceByJSONString parseWhole pricedTables "").1 ≠ pricedTables := by
  have hparse : ∀ v, Json.parse maxNestingDepth "".toList ≠ some v := by
    intro v hparse
    rw [String.toList_empty, Json.parse_nil] at hparse
    cases hparse
  have herr : (updateByJSONString parseWhole .modelPriceMap pricedTables "").2 ≠ none := by
    rw [Ne, update_snd]
    exact fun hreadable => hreadable.elim fun v hv => hparse v hv.1
  refine ⟨herr, fun hsame => ?_⟩
  have hgone : getModelPrice pricedTables "gpt-4" = none := by
    rw [← hsame]
    exact getModelPrice_of_noObject (fun fields => hparse (.obj fields)) "gpt-4"
  revert hgone
  decide

end RatioTables

end NewApi.Model
