import NewApi.Model.NegativeIndex

/-!
# Overrides of the request body

A channel's override is a map.  With a list of well-formed `operations` it is a program that edits
the text of the body, operation by operation; any other map is merged into the decoded body.
-/

namespace NewApi.Model

open NewApi.Lib NewApi.Lib.Strings

/-- A condition of an operation. -/
structure ConditionOperation (F : Type) where
  path : String
  mode : String
  value : JsonTree F
  invert : Bool
  passMissingKey : Bool

structure ParamOperation (F : Type) where
  path : String
  mode : String
  value : JsonTree F
  keepOrigin : Bool
  fromPath : String
  toPath : String
  conditions : List (ConditionOperation F)
  logic : String

/-! ## Parsing the operations -/

section

variable {F : Type}

/-- A type assertion on the entry of a map; `none` if it fails. -/
def stringEntry (m : JsonTree F) (key : String) : Option String :=
  match m.child key with
  | some (.str s) => some s
  | _ => none

def boolEntry (m : JsonTree F) (key : String) : Option Bool :=
  match m.child key with
  | some (.bool b) => some b
  | _ => none

/-- The entry itself; a missing one is nil. -/
def anyEntry (m : JsonTree F) (key : String) : JsonTree F :=
  (m.child key).getD .null

def parseCondition (cond : JsonTree F) : Option (ConditionOperation F) :=
  match cond with
  | .obj _ _ =>
      some
        { path := (stringEntry cond "path").getD ""
          mode := (stringEntry cond "mode").getD ""
          value := anyEntry cond "value"
          invert := (boolEntry cond "invert").getD false
          passMissingKey := (boolEntry cond "pass_missing_key").getD false }
  | _ => none

/-- Elements that are no maps are passed over. -/
def parseConditions (conditions : JsonTree F) : List (ConditionOperation F) :=
  match conditions with
  | .arr _ cond => (List.ofFn cond).filterMap parseCondition
  | _ => []

/-- Only the mode is needed. -/
def parseOperation (op : JsonTree F) : Option (ParamOperation F) :=
  match op with
  | .obj _ _ =>
      (stringEntry op "mode").map fun mode =>
        { path := (stringEntry op "path").getD ""
          mode := mode
          value := anyEntry op "value"
          keepOrigin := (boolEntry op "keep_origin").getD false
          fromPath := (stringEntry op "from").getD ""
          toPath := (stringEntry op "to").getD ""
          conditions := parseConditions (anyEntry op "conditions")
          logic := (stringEntry op "logic").getD "OR" }
  | _ => none

def tryParseOperations (paramOverride : JsonTree F) : Option (List (ParamOperation F)) :=
  match paramOverride.child "operations" with
  | some (.arr _ op) => (List.ofFn op).mapM parseOperation
  | _ => none

end

/-! ## What the operations call -/

/-- `fmt`'s `%v`, comparisons of floats, `regexp`, and the case of letters. -/
structure TextFunctions (F : Type) where
  sprint : JsonTree F → String
  eqNum : F → F → Bool
  lt : F → F → Bool
  le : F → F → Bool
  toLower : String → String
  toUpper : String → String
  /-- `regexp.Compile` and `ReplaceAllString`. -/
  replaceAllString : String → String → String → Except String String

/-- The types that gjson tells apart. -/
inductive GjsonType
  | null
  | false
  | number
  | string
  | true
  | json
deriving DecidableEq

namespace GjsonType

def text : GjsonType → String
  | .null => "Null"
  | .false => "False"
  | .number => "Number"
  | .string => "String"
  | .true => "True"
  | .json => "JSON"

def ofTree {N : Type} : JsonTree N → GjsonType
  | .null => .null
  | .bool b => if b then .true else .false
  | .num _ => .number
  | .str _ => .string
  | .arr _ _ => .json
  | .obj _ _ => .json

end GjsonType

namespace JsonText

variable {D N F : Type} (lib : JsonText D N F) (fns : TextFunctions F)

/-- The type of a result. -/
def typeOf (d : D) : GjsonType :=
  .ofTree (lib.tree d)

/-- The type of what may not be there. -/
def typeAt (found : Option D) : GjsonType :=
  (found.map lib.typeOf).getD .null

/-- The string that a result is. -/
def stringAt (found : Option D) : Option String :=
  (found.map lib.tree).bind fun t =>
    match t with
    | .str s => some s
    | _ => none

/-! ### Conditions -/

/-- The number that a result is. -/
def numberOf (d : D) : Option F :=
  match lib.tree d with
  | .num n => some (lib.parse n)
  | _ => none

def compareEqual (jsonValue targetValue : D) : Except String Bool :=
  if lib.typeOf jsonValue = .null ∨ lib.typeOf targetValue = .null then
    .ok (lib.typeOf jsonValue = .null ∧ lib.typeOf targetValue = .null)
  else
    match lib.tree jsonValue, lib.tree targetValue with
    | .bool b, .bool b' => .ok (b = b')
    | _, _ =>
        if lib.typeOf jsonValue ≠ lib.typeOf targetValue then
          .error ("compare for different types, got " ++ (lib.typeOf jsonValue).text ++ " and " ++
            (lib.typeOf targetValue).text)
        else
          match lib.numberOf jsonValue, lib.numberOf targetValue with
          | some num, some num' => .ok (fns.eqNum num num')
          | _, _ => .ok (lib.string jsonValue = lib.string targetValue)

def compareNumeric (jsonValue targetValue : D) (compare : F → F → Bool) : Except String Bool :=
  match lib.numberOf jsonValue, lib.numberOf targetValue with
  | some num, some num' => .ok (compare num num')
  | _, _ =>
      .error ("numeric comparison requires both values to be numbers, got " ++
        (lib.typeOf jsonValue).text ++ " and " ++ (lib.typeOf targetValue).text)

def compareGjsonValues (jsonValue targetValue : D) (mode : String) : Except String Bool :=
  match mode with
  | "full" => lib.compareEqual fns jsonValue targetValue
  | "prefix" => .ok (hasPrefix (lib.string jsonValue) (lib.string targetValue))
  | "suffix" => .ok (hasSuffix (lib.string jsonValue) (lib.string targetValue))
  | "contains" => .ok (contains (lib.string jsonValue) (lib.string targetValue))
  | "gt" => lib.compareNumeric jsonValue targetValue fun num num' => fns.lt num' num
  | "gte" => lib.compareNumeric jsonValue targetValue fun num num' => fns.le num' num
  | "lt" => lib.compareNumeric jsonValue targetValue fns.lt
  | "lte" => lib.compareNumeric jsonValue targetValue fns.le
  | mode => .error ("unsupported comparison mode: " ++ mode)

/-- What a condition looks at; the context is asked for the path as it was written. -/
def conditionValue (jsonStr : D) (contextJSON : Option D) (condition : ConditionOperation F) :
    Option D :=
  match lib.get jsonStr (lib.processNegativeIndex jsonStr condition.path) with
  | some value => some value
  | none => contextJSON.bind fun context => lib.get context condition.path

def checkSingleCondition (jsonStr : D) (contextJSON : Option D)
    (condition : ConditionOperation F) : Except String Bool :=
  match lib.conditionValue jsonStr contextJSON condition with
  | none => .ok condition.passMissingKey
  | some value => do
      let targetValue ← (lib.marshal condition.value).mapError
        ("failed to marshal condition value: " ++ ·)
      let result ← (lib.compareGjsonValues fns value targetValue (fns.toLower condition.mode)).mapError
        ("comparison failed for path " ++ condition.path ++ ": " ++ ·)
      return if condition.invert then !result else result

def checkConditions (jsonStr : D) (contextJSON : Option D) (conditions : List (ConditionOperation F))
    (logic : String) : Except String Bool :=
  if conditions = [] then .ok true
  else do
    let results ← conditions.mapM (lib.checkSingleCondition fns jsonStr contextJSON)
    return if fns.toUpper logic = "AND" then results.all id else results.any id

/-! ### The edits -/

def moveValue (jsonStr : D) (fromPath toPath : String) : Except String D :=
  match lib.get jsonStr fromPath with
  | none => .error ("source path does not exist: " ++ fromPath)
  | some sourceValue => do
      let result ← lib.set jsonStr toPath (lib.value sourceValue)
      lib.delete result fromPath

def copyValue (jsonStr : D) (fromPath toPath : String) : Except String D :=
  match lib.get jsonStr fromPath with
  | none => .error ("source path does not exist: " ++ fromPath)
  | some sourceValue => lib.set jsonStr toPath (lib.value sourceValue)

/-- A list that has been appended to; it is still nil if nothing was. -/
def arrayOf (items : List (JsonTree F)) : JsonTree F :=
  if items = [] then .null else .arr items.length items.get

/-- The values that are added: a list adds its items. -/
def addedValues (value : JsonTree F) : List (JsonTree F) :=
  match value with
  | .arr _ item => List.ofFn item
  | value => [value]

/-- The decoded items of a result. -/
def decodedItems (current : D) : List (JsonTree F) :=
  match lib.value current with
  | .arr _ item => List.ofFn item
  | _ => []

def modifyArray (jsonStr : D) (path : String) (value : JsonTree F) (isPrepend : Bool) :
    Except String D :=
  let items := ((lib.get jsonStr path).map lib.decodedItems).getD []
  lib.set jsonStr path
    (arrayOf (if isPrepend then addedValues value ++ items else items ++ addedValues value))

def modifyString (jsonStr : D) (path : String) (value : JsonTree F) (isPrepend : Bool) :
    Except String D :=
  let current := (lib.stringAt (lib.get jsonStr path)).getD ""
  let valueStr := fns.sprint value
  lib.set jsonStr path (.str (if isPrepend then valueStr ++ current else current ++ valueStr))

/-- The new map; anything but a map is encoded and decoded. -/
def newEntries (value : JsonTree F) : Except String (JsonTree F) :=
  match value with
  | .obj keys entries => .ok (.obj keys entries)
  | value =>
      match lib.marshal value with
      | .ok jsonBytes => lib.unmarshalMap jsonBytes
      | .error _ => .error "unexpected end of JSON input"

/-- The keys of a map; a nil map has none. -/
def keysOf (m : JsonTree F) : Finset String :=
  match m with
  | .obj keys _ => keys
  | _ => ∅

/-- The entries of the one map and the other one: the new one is taken unless the origin is kept and
not nil. -/
def mergeEntries (currentMap newMap : JsonTree F) (keepOrigin : Bool) : JsonTree F :=
  .obj (keysOf currentMap ∪ keysOf newMap) fun key =>
    match newMap.child key with
    | some v =>
        match currentMap.child key with
        | none | some .null => v
        | some old => if keepOrigin then old else v
    | none => anyEntry currentMap key

def mergeObjects (jsonStr : D) (path : String) (value : JsonTree F) (keepOrigin : Bool) :
    Except String D :=
  match lib.get jsonStr path with
  | none => .error "unexpected end of JSON input"
  | some current => do
      let currentMap ← lib.unmarshalMap current
      let newMap ← lib.newEntries value
      lib.set jsonStr path (mergeEntries currentMap newMap keepOrigin)

/-- What is said of a value of the wrong type. -/
def unsupported (found : Option D) : String :=
  "operation not supported for type: " ++ (lib.typeAt found).text

def modifyValue (jsonStr : D) (path : String) (value : JsonTree F) (keepOrigin isPrepend : Bool) :
    Except String D :=
  match (lib.get jsonStr path).map lib.tree with
  | some (.arr _ _) => lib.modifyArray jsonStr path value isPrepend
  | some (.str _) => lib.modifyString fns jsonStr path value isPrepend
  | some (.obj _ _) => lib.mergeObjects jsonStr path value keepOrigin
  | _ => .error (lib.unsupported (lib.get jsonStr path))

/-- The string at a path replaced by what an edit makes of it. -/
def editString (jsonStr : D) (path : String) (edit : String → Except String (Option String)) :
    Except String D :=
  match lib.stringAt (lib.get jsonStr path) with
  | none => .error (lib.unsupported (lib.get jsonStr path))
  | some current => do
      match ← edit current with
      | some newStr => lib.set jsonStr path (.str newStr)
      | none => .ok jsonStr

/-- The occurrences of a text that is not empty, from left to right. -/
def replaceAllIn (old new : List Char) : ℕ → List Char → List Char
  | fuel + 1, c :: rest =>
      if old <+: c :: rest then new ++ replaceAllIn old new fuel ((c :: rest).drop old.length)
      else c :: replaceAllIn old new fuel rest
  | _, rest => rest

/-- `strings.ReplaceAll` of a text that is not empty. -/
def replaceAll (s old new : String) : String :=
  String.ofList (replaceAllIn old.toList new.toList s.toList.length s.toList)

def trimStringValue (jsonStr : D) (path : String) (value : JsonTree F) (isPrefix : Bool) :
    Except String D :=
  lib.editString jsonStr path fun current =>
    match value with
    | .null => .error "trim value is required"
    | value =>
        .ok (some (if isPrefix then trimPrefix current (fns.sprint value)
          else trimSuffix current (fns.sprint value)))

def ensureStringAffix (jsonStr : D) (path : String) (value : JsonTree F) (isPrefix : Bool) :
    Except String D :=
  lib.editString jsonStr path fun current =>
    match value with
    | .null => .error "ensure value is required"
    | value =>
        let valueStr := fns.sprint value
        if valueStr = "" then .error "ensure value is required"
        else if isPrefix then
          .ok (if hasPrefix current valueStr then none else some (valueStr ++ current))
        else .ok (if hasSuffix current valueStr then none else some (current ++ valueStr))

def transformStringValue (jsonStr : D) (path : String) (transform : String → String) :
    Except String D :=
  lib.editString jsonStr path fun current => .ok (some (transform current))

def replaceStringValue (jsonStr : D) (path fromText toText : String) : Except String D :=
  lib.editString jsonStr path fun current =>
    if fromText = "" then .error "replace from is required"
    else .ok (some (replaceAll current fromText toText))

def regexReplaceStringValue (jsonStr : D) (path : String) (pattern replacement : String) :
    Except String D :=
  lib.editString jsonStr path fun current =>
    if pattern = "" then .error "regex pattern is required"
    else (fns.replaceAllString pattern current replacement).map some

/-! ## One operation and all of them -/

/-- The edit of an operation whose conditions are met. -/
def edit (result : D) (op : ParamOperation F) : Except String D :=
  let opPath := lib.processNegativeIndex result op.path
  let opFrom := lib.processNegativeIndex result op.fromPath
  let opTo := lib.processNegativeIndex result op.toPath
  match op.mode with
  | "delete" => lib.delete result opPath
  | "set" =>
      if op.keepOrigin ∧ (lib.get result opPath).isSome then .ok result
      else lib.set result opPath op.value
  | "move" => lib.moveValue result opFrom opTo
  | "copy" => lib.copyValue result opFrom opTo
  | "prepend" => lib.modifyValue fns result opPath op.value op.keepOrigin true
  | "append" => lib.modifyValue fns result opPath op.value op.keepOrigin false
  | "trim_prefix" => lib.trimStringValue fns result opPath op.value true
  | "trim_suffix" => lib.trimStringValue fns result opPath op.value false
  | "ensure_prefix" => lib.ensureStringAffix fns result opPath op.value true
  | "ensure_suffix" => lib.ensureStringAffix fns result opPath op.value false
  | "trim_space" => lib.transformStringValue result opPath trimSpace
  | "to_lower" => lib.transformStringValue result opPath fns.toLower
  | "to_upper" => lib.transformStringValue result opPath fns.toUpper
  | "replace" => lib.replaceStringValue result opPath op.fromPath op.toPath
  | "regex_replace" => lib.regexReplaceStringValue fns result opPath op.fromPath op.toPath
  | mode => .error ("unknown operation: " ++ mode)

/-- The modes that there are. -/
def operationModes : List String :=
  ["delete", "set", "move", "copy", "prepend", "append", "trim_prefix", "trim_suffix",
    "ensure_prefix", "ensure_suffix", "trim_space", "to_lower", "to_upper", "replace",
    "regex_replace"]

/-- The edit, with the error as it is reported: one that is found before the edit stands alone. -/
def applyEdit (result : D) (op : ParamOperation F) : Except String D :=
  if op.mode = "copy" ∧ (op.fromPath = "" ∨ op.toPath = "") then .error "copy from/to is required"
  else if op.mode ∉ operationModes then .error ("unknown operation: " ++ op.mode)
  else (lib.edit fns result op).mapError ("operation " ++ op.mode ++ " failed: " ++ ·)

/-- One turn of the loop: an operation whose conditions are not met is skipped. -/
def applyOperation (contextJSON : Option D) (result : D) (op : ParamOperation F) :
    Except String D := do
  let ok ← lib.checkConditions fns result contextJSON op.conditions op.logic
  if ok then lib.applyEdit fns result op else .ok result

/-- The context as a text; an empty one is none. -/
def contextText (conditionContext : JsonTree F) : Except String (Option D) :=
  match conditionContext with
  | .obj keys entries =>
      if keys = ∅ then .ok none
      else
        ((lib.marshal (.obj keys entries)).mapError
          ("failed to marshal condition context: " ++ ·)).map some
  | _ => .ok none

def applyOperations (jsonStr : D) (operations : List (ParamOperation F))
    (conditionContext : JsonTree F) : Except String D := do
  let contextJSON ← lib.contextText conditionContext
  operations.foldlM (lib.applyOperation fns contextJSON) jsonStr

/-- The decoded body with the entries of the override. -/
def overridden (reqMap paramOverride : JsonTree F) : JsonTree F :=
  .obj (keysOf reqMap ∪ keysOf paramOverride) fun key =>
    match paramOverride.child key with
    | some v => v
    | none => anyEntry reqMap key

/-- `none` is the panic of the assignment to an entry of a nil map. -/
def applyOperationsLegacy (jsonData : D) (paramOverride : JsonTree F) : Option (Except String D) :=
  match lib.unmarshalMap jsonData with
  | .error err => some (.error err)
  | .ok (.obj keys entries) => some (lib.marshal (overridden (.obj keys entries) paramOverride))
  | .ok _ => if keysOf paramOverride = ∅ then some (lib.marshal .null) else none

def applyParamOverride (jsonData : D) (paramOverride conditionContext : JsonTree F) :
    Option (Except String D) :=
  if keysOf paramOverride = ∅ then some (.ok jsonData)
  else
    match tryParseOperations paramOverride with
    | some operations => some (lib.applyOperations fns jsonData operations conditionContext)
    | none => lib.applyOperationsLegacy jsonData paramOverride

/-! ## Runs -/

/-- A property of every operation of a run, with the texts before and after it. -/
def Along (contextJSON : Option D) (P : D → ParamOperation F → D → Prop) :
    D → List (ParamOperation F) → Prop
  | _, [] => True
  | d, op :: operations =>
      ∀ d', lib.applyOperation fns contextJSON d op = .ok d' →
        P d op d' ∧ Along contextJSON P d' operations

/-- The conditions of the operation are met. -/
def Runs (contextJSON : Option D) (d : D) (op : ParamOperation F) : Prop :=
  lib.checkConditions fns d contextJSON op.conditions op.logic = .ok true

section

variable {lib : JsonText D N F} {fns : TextFunctions F} {contextJSON : Option D} {d d' : D}
  {op : ParamOperation F} {operations : List (ParamOperation F)}

/-- Two properties that agree on every operation agree on every run. -/
theorem along_congr {P Q R : D → ParamOperation F → D → Prop}
    (hstep : ∀ d op d', lib.applyOperation fns contextJSON d op = .ok d' → R d op d' →
      (P d op d' ↔ Q d op d'))
    (hrun : lib.Along fns contextJSON R d operations) :
    lib.Along fns contextJSON P d operations ↔ lib.Along fns contextJSON Q d operations := by
  induction operations generalizing d with
  | nil => exact Iff.rfl
  | cons op operations ih =>
      refine forall_congr' fun d' => forall_congr' fun hd' => ?_
      obtain ⟨hR, hrest⟩ := hrun d' hd'
      exact and_congr (hstep d op d' hd' hR) (ih hrest)

/-- What every operation of a run preserves holds at its end. -/
theorem along_invariant {I : D → Prop} {R : D → ParamOperation F → D → Prop}
    (hstep : ∀ d op d', lib.applyOperation fns contextJSON d op = .ok d' → R d op d' → I d → I d')
    (hrun : lib.Along fns contextJSON R d operations) (hI : I d)
    (hlast : operations.foldlM (lib.applyOperation fns contextJSON) d = .ok d') : I d' := by
  induction operations generalizing d with
  | nil =>
      cases hlast
      exact hI
  | cons op operations ih =>
      rw [List.foldlM_cons] at hlast
      cases hnext : lib.applyOperation fns contextJSON d op with
      | error err =>
          rw [hnext] at hlast
          cases hlast
      | ok next =>
          rw [hnext] at hlast
          obtain ⟨hR, hrest⟩ := hrun next hnext
          exact ih hrest (hstep d op next hnext hR hI) hlast

/-- An operation is skipped or carried out. -/
theorem applyOperation_eq_ok (hstep : lib.applyOperation fns contextJSON d op = .ok d') :
    (lib.Runs fns contextJSON d op ∧ lib.edit fns d op = .ok d') ∨
      (¬ lib.Runs fns contextJSON d op ∧ d' = d) := by
  unfold applyOperation at hstep
  unfold Runs
  cases hcheck : lib.checkConditions fns d contextJSON op.conditions op.logic with
  | error err =>
      rw [hcheck] at hstep
      cases hstep
  | ok met =>
      rw [hcheck] at hstep
      cases met with
      | false =>
          cases hstep
          exact .inr ⟨(fun h => nomatch h), rfl⟩
      | true =>
          have happly : lib.applyEdit fns d op = .ok d' := hstep
          refine .inl ⟨rfl, ?_⟩
          unfold applyEdit at happly
          split at happly
          · cases happly
          · split at happly
            · cases happly
            · cases hedit : lib.edit fns d op with
              | error err =>
                  rw [hedit] at happly
                  cases happly
              | ok result =>
                  rw [hedit] at happly
                  exact happly

end

/-- The functions on integers, ASCII letters and patterns that are plain texts. -/
def intFunctions : TextFunctions ℤ where
  sprint v :=
    match v with
    | .str s => s
    | .num n => toString n
    | .bool b => toString b
    | _ => "<nil>"
  eqNum n m := n = m
  lt n m := n < m
  le n m := n ≤ m
  toLower := Strings.toLower
  toUpper := Strings.toUpper
  replaceAllString pattern s replacement := .ok (replaceAll s pattern replacement)

end JsonText

end NewApi.Model
