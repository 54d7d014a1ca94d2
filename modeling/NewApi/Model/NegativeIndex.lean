import NewApi.Model.JsonText

/-!
# Negative indices in paths

`processNegativeIndex` rewrites a path as a text: for every `-k` behind a dot it looks an array up
at the text in front of the first `-k` of the path, and replaces the first `.-k` that is left. Part
by part, the array is the one that the parts before it lead to.
-/

namespace NewApi.Model

open NewApi.Lib NewApi.Lib.Strings

/-! ## The texts -/

/-- What `negativeIndexRegexp` takes behind a dot: a minus sign and all digits that follow. -/
def negativeInteger : List Char → Option (List Char)
  | '-' :: rest =>
      if rest.takeWhile Char.isDigit = [] then none else some ('-' :: rest.takeWhile Char.isDigit)
  | _ => none

/-- `FindAllStringSubmatch`: the second submatches. -/
def findAllIndices : List Char → List (List Char)
  | [] => []
  | c :: rest =>
      match (if c = '.' then negativeInteger rest else none) with
      | some negIndex => negIndex :: findAllIndices rest
      | none => findAllIndices rest

/-- `strconv.Atoi` of a minus sign with digits, without the sign. -/
def atoiDigits (negIndex : List Char) : ℕ :=
  Nat.ofDigitChars 10 negIndex.tail 0

/-- What is in front of the first occurrence. -/
def textBefore (part : List Char) : List Char → List Char
  | [] => []
  | c :: rest => if part <+: c :: rest then [] else c :: textBefore part rest

/-- `strings.Replace` of the first occurrence. -/
def replaceFirst (old new : List Char) : List Char → List Char
  | [] => []
  | c :: rest =>
      if old <+: c :: rest then new ++ (c :: rest).drop old.length
      else c :: replaceFirst old new rest

namespace JsonText

variable {D N F : Type}

/-- How many items the array has that a path leads to. -/
def arrayLengthAt (lib : JsonText D N F) (jsonStr : D) (path : String) : Option ℕ :=
  (lib.get jsonStr path).bind fun array => (lib.tree array).arrayLength

/-- The index of the `k`-th last item. -/
def fromEnd (length k : ℕ) : Option ℕ :=
  if 1 ≤ k ∧ k ≤ length then some (length - k) else none

/-- The path of the array that is looked up for a match. -/
def arrayPath (path : String) (negIndex : List Char) : String :=
  let before := textBefore negIndex path.toList
  String.ofList (if before.getLast? = some '.' then before.dropLast else before)

/-- The index that is computed for a match. -/
def actualIndex (lib : JsonText D N F) (jsonStr : D) (path : String) (negIndex : List Char) :
    Option ℕ :=
  (lib.arrayLengthAt jsonStr (arrayPath path negIndex)).bind fun length =>
    fromEnd length (atoiDigits negIndex)

def processNegativeIndex (lib : JsonText D N F) (jsonStr : D) (path : String) : String :=
  let result := (findAllIndices path.toList).foldl
    (fun result negIndex =>
      match lib.actualIndex jsonStr path negIndex with
      | some index => replaceFirst ('.' :: negIndex) ('.' :: index.repr.toList) result
      | none => result)
    path.toList
  String.ofList result

/-! ## The parts -/

/-- The array that resolved parts lead to; no part leads to the document itself. -/
def arrayLengthBehind (lib : JsonText D N F) (jsonStr : D) (resolved : List String) : Option ℕ :=
  if resolved = [] then (lib.tree jsonStr).arrayLength
  else lib.arrayLengthAt jsonStr (dotted resolved)

/-- The index that is due to a part, if it is a negative integer within its own array. -/
def dueIndex (lib : JsonText D N F) (jsonStr : D) (resolved : List String) (part : String) :
    Option ℕ :=
  (if negativeInteger part.toList = some part.toList then some (atoiDigits part.toList)
    else none).bind fun k =>
      (lib.arrayLengthBehind jsonStr resolved).bind fun length => fromEnd length k

/-- A part with the index that is due to it. -/
def resolvePart (lib : JsonText D N F) (jsonStr : D) (resolved : List String) (part : String) :
    String :=
  match lib.dueIndex jsonStr resolved part with
  | some index => index.repr
  | none => part

/-- The parts resolved from left to right. -/
def resolve (lib : JsonText D N F) (jsonStr : D) (resolved : List String) :
    List String → List String
  | [] => []
  | part :: rest =>
      lib.resolvePart jsonStr resolved part ::
        lib.resolve jsonStr (resolved ++ [lib.resolvePart jsonStr resolved part]) rest

/-- For every part that begins with a negative integer, the index that is computed from the text in
front of its first occurrence is the one that is due, and no earlier part that is left takes it. -/
def IndicesDue (lib : JsonText D N F) (jsonStr : D) (path first : String) (done : List String) :
    List String → Prop
  | [] => True
  | part :: rest =>
      (∀ negIndex, negativeInteger part.toList = some negIndex →
        lib.actualIndex jsonStr path negIndex = lib.dueIndex jsonStr (first :: done) part ∧
          (lib.dueIndex jsonStr (first :: done) part ≠ none →
            ∀ earlier ∈ done, ¬ negIndex <+: earlier.toList)) ∧
      lib.IndicesDue jsonStr path first
        (done ++ [lib.resolvePart jsonStr (first :: done) part]) rest

end JsonText

/-! ## The texts, part by part -/

/-- Parts, each with a dot before it. -/
def flatParts (parts : List String) : List Char :=
  parts.flatMap fun part => '.' :: part.toList

/-- Replacing at the first part that begins with the negative integer. -/
def replacePart (negIndex digits : List Char) : List String → List String
  | [] => []
  | part :: rest =>
      if negIndex <+: part.toList then
        String.ofList (digits ++ part.toList.drop negIndex.length) :: rest
      else part :: replacePart negIndex digits rest

section

variable {cs rest negIndex digits : List Char} {part first : String} {parts done : List String}

theorem dotted_cons (first : String) (parts : List String) :
    (dotted (first :: parts)).toList = first.toList ++ flatParts parts := by
  induction parts generalizing first with
  | nil => simp [dotted, join, flatParts]
  | cons part parts ih =>
      have hrest := ih part
      unfold dotted at hrest ⊢
      rw [join, String.toList_append, String.toList_append, hrest]
      simp [flatParts]

/-- Behind a part there is nothing, or a dot. -/
theorem flatParts_head (parts : List String) :
    flatParts parts = [] ∨ ∃ rest, flatParts parts = '.' :: rest := by
  cases parts with
  | nil => exact .inl rfl
  | cons part parts => exact .inr ⟨_, rfl⟩

theorem negativeInteger_eq_some (hneg : negativeInteger cs = some negIndex) :
    ∃ digits, negIndex = '-' :: digits ∧ digits ≠ [] ∧ (∀ c ∈ digits, c.isDigit = true) ∧
      negIndex <+: cs := by
  unfold negativeInteger at hneg
  split at hneg
  case h_1 rest =>
    split at hneg
    case isTrue => cases hneg
    case isFalse hne =>
      cases hneg
      refine ⟨_, rfl, hne, fun c hc => (List.all_takeWhile (p := Char.isDigit) |> List.all_eq_true.1) c hc, ?_⟩
      exact List.cons_prefix_cons.2 ⟨rfl, List.takeWhile_prefix _⟩
  case h_2 => cases hneg

theorem negIndex_no_dot (hneg : negativeInteger cs = some negIndex) : '.' ∉ negIndex := by
  obtain ⟨digits, rfl, -, hdigits, -⟩ := negativeInteger_eq_some hneg
  intro hmem
  rcases List.mem_cons.1 hmem with heq | hmem
  · exact absurd heq (by decide)
  · exact absurd (hdigits '.' hmem) (by decide)

/-- The digits of a part are not continued behind it. -/
theorem negativeInteger_append (hdot : '.' ∉ cs) (hrest : rest = [] ∨ ∃ tail, rest = '.' :: tail) :
    negativeInteger (cs ++ rest) = negativeInteger cs := by
  rcases hrest with rfl | ⟨tail, rfl⟩
  · rw [List.append_nil]
  · cases cs with
    | nil => rfl
    | cons c cs =>
        by_cases hc : c = '-'
        · subst hc
          have htake : (cs ++ '.' :: tail).takeWhile Char.isDigit = cs.takeWhile Char.isDigit := by
            rw [List.takeWhile_append]
            split
            case isTrue hlength =>
              have hstop : ('.' :: tail).takeWhile Char.isDigit = [] := by
                simp
              rw [hstop, List.append_nil]
              exact (List.IsPrefix.eq_of_length (List.takeWhile_prefix _) hlength).symm
            case isFalse => rfl
          rw [List.cons_append, negativeInteger, negativeInteger, htake]
        · unfold negativeInteger
          split
          case h_1 heq => exact absurd (List.cons.inj heq).1 hc
          case h_2 =>
            split
            case h_1 heq => exact absurd (List.cons.inj heq).1 hc
            case h_2 => rfl

theorem findAllIndices_append (hdot : '.' ∉ cs) (rest : List Char) :
    findAllIndices (cs ++ rest) = findAllIndices rest := by
  induction cs with
  | nil => rfl
  | cons c cs ih =>
      rw [List.mem_cons, not_or] at hdot
      rw [List.cons_append, findAllIndices, if_neg (Ne.symm hdot.1)]
      exact ih hdot.2

/-- The matches are the beginnings of parts. -/
theorem findAllIndices_flatParts (hdot : ∀ part ∈ parts, '.' ∉ part.toList) :
    findAllIndices (flatParts parts) = parts.filterMap fun part => negativeInteger part.toList := by
  induction parts with
  | nil => rfl
  | cons part parts ih =>
      rw [List.forall_mem_cons] at hdot
      have hneg : negativeInteger (part.toList ++ flatParts parts) = negativeInteger part.toList :=
        negativeInteger_append hdot.1 (flatParts_head parts)
      show findAllIndices ('.' :: (part.toList ++ flatParts parts)) = _
      rw [findAllIndices, if_pos rfl, hneg, findAllIndices_append hdot.1, ih hdot.2,
        List.filterMap_cons]
      cases negativeInteger part.toList <;> rfl

theorem replaceFirst_append (hdot : '.' ∉ cs) (old new : List Char) (rest : List Char) :
    replaceFirst ('.' :: old) new (cs ++ rest) = cs ++ replaceFirst ('.' :: old) new rest := by
  induction cs with
  | nil => rfl
  | cons c cs ih =>
      rw [List.mem_cons, not_or] at hdot
      rw [List.cons_append, replaceFirst, if_neg, ih hdot.2]
      · rfl
      · exact fun hbegins => hdot.1 (List.cons_prefix_cons.1 hbegins).1

/-- What has no dot stands within one part. -/
theorem prefix_append_iff (hneg : '.' ∉ negIndex)
    (hrest : rest = [] ∨ ∃ tail, rest = '.' :: tail) :
    negIndex <+: cs ++ rest ↔ negIndex <+: cs := by
  rcases hrest with rfl | ⟨tail, rfl⟩
  · rw [List.append_nil]
  · constructor
    · intro hbegins
      rcases List.prefix_or_prefix_of_prefix hbegins (List.prefix_append cs _) with h | ⟨more, hmore⟩
      · exact h
      · subst hmore
        rw [List.prefix_append_right_inj] at hbegins
        cases more with
        | nil => rw [List.append_nil]
        | cons c more =>
            obtain rfl := (List.cons_prefix_cons.1 hbegins).1
            exact absurd (List.mem_append_right cs List.mem_cons_self) hneg
    · exact fun hbegins => hbegins.trans (List.prefix_append _ _)

theorem replaceFirst_flatParts (hneg : '.' ∉ negIndex) (hdot : ∀ part ∈ parts, '.' ∉ part.toList) :
    replaceFirst ('.' :: negIndex) ('.' :: digits) (flatParts parts) =
      flatParts (replacePart negIndex digits parts) := by
  induction parts with
  | nil => rfl
  | cons part parts ih =>
      rw [List.forall_mem_cons] at hdot
      show replaceFirst ('.' :: negIndex) ('.' :: digits) ('.' :: (part.toList ++ flatParts parts)) = _
      have hiff : '.' :: negIndex <+: '.' :: (part.toList ++ flatParts parts) ↔
          negIndex <+: part.toList := by
        rw [List.cons_prefix_cons, prefix_append_iff hneg (flatParts_head parts)]
        exact and_iff_right rfl
      rw [replaceFirst, replacePart]
      by_cases hbegins : negIndex <+: part.toList
      · rw [if_pos (hiff.2 hbegins), if_pos hbegins]
        simp [flatParts, List.drop_append_of_le_length hbegins.length_le]
      · rw [if_neg fun hstart => hbegins (hiff.1 hstart), if_neg hbegins,
          replaceFirst_append hdot.1, ih hdot.2]
        rfl

/-- All matches replaced, one after the other. -/
def replaceParts (index : List Char → Option ℕ) (negIndices : List (List Char))
    (parts : List String) : List String :=
  negIndices.foldl
    (fun parts negIndex =>
      match index negIndex with
      | some index => replacePart negIndex index.repr.toList parts
      | none => parts)
    parts

theorem isDigit_of_mem_repr {n : ℕ} {c : Char} (hc : c ∈ n.repr.toList) : c.isDigit = true := by
  rw [Nat.toList_repr] at hc
  exact Nat.isDigit_of_mem_toDigits (by decide) (by decide) hc

theorem no_dot_replacePart (hdigits : '.' ∉ digits) (hdot : ∀ part ∈ parts, '.' ∉ part.toList) :
    ∀ part ∈ replacePart negIndex digits parts, '.' ∉ part.toList := by
  induction parts with
  | nil => exact hdot
  | cons part parts ih =>
      rw [List.forall_mem_cons] at hdot
      rw [replacePart]
      split
      · rw [List.forall_mem_cons, String.toList_ofList, List.mem_append, not_or]
        exact ⟨⟨hdigits, fun hmem => hdot.1 (List.mem_of_mem_drop hmem)⟩, hdot.2⟩
      · rw [List.forall_mem_cons]
        exact ⟨hdot.1, ih hdot.2⟩

/-- One text is rewritten like its parts. -/
theorem foldl_replaceFirst (index : List Char → Option ℕ) {negIndices : List (List Char)}
    (hneg : ∀ negIndex ∈ negIndices, '.' ∉ negIndex) (hfirst : '.' ∉ first.toList)
    (hdot : ∀ part ∈ parts, '.' ∉ part.toList) :
    negIndices.foldl
        (fun result negIndex =>
          match index negIndex with
          | some index => replaceFirst ('.' :: negIndex) ('.' :: index.repr.toList) result
          | none => result)
        (first.toList ++ flatParts parts) =
      first.toList ++ flatParts (replaceParts index negIndices parts) := by
  induction negIndices generalizing parts with
  | nil => rfl
  | cons negIndex negIndices ih =>
      rw [List.forall_mem_cons] at hneg
      rw [replaceParts, List.foldl_cons, List.foldl_cons]
      cases index negIndex with
      | none => exact ih hneg.2 hdot
      | some i =>
          dsimp only
          rw [replaceFirst_append hfirst, replaceFirst_flatParts hneg.1 hdot]
          exact ih hneg.2 (no_dot_replacePart
            (fun hmem => absurd (isDigit_of_mem_repr hmem) (by decide)) hdot)

theorem no_dot_split (path : String) : ∀ part ∈ split path '.', '.' ∉ part.toList := by
  intro part hpart
  obtain ⟨piece, hpiece, rfl⟩ := List.mem_map.1 hpart
  rw [String.toList_ofList]
  exact notMem_of_mem_splitOn hpiece

theorem processNegativeIndex_parts {D N F : Type} (lib : JsonText D N F) (jsonStr : D)
    (path : String) (hsplit : split path '.' = first :: parts) :
    lib.processNegativeIndex jsonStr path =
      dotted (first :: replaceParts (lib.actualIndex jsonStr path)
        (parts.filterMap fun part => negativeInteger part.toList) parts) := by
  have hdot := no_dot_split path
  rw [hsplit, List.forall_mem_cons] at hdot
  have hpath : path.toList = first.toList ++ flatParts parts := by
    rw [← dotted_cons, dotted, ← hsplit, join_split]
  have hneg : ∀ negIndex ∈ parts.filterMap (fun part => negativeInteger part.toList),
      '.' ∉ negIndex := by
    intro negIndex hmem
    obtain ⟨part, -, hpart⟩ := List.mem_filterMap.1 hmem
    exact negIndex_no_dot hpart
  apply String.toList_injective
  rw [dotted_cons, JsonText.processNegativeIndex, String.toList_ofList, hpath,
    findAllIndices_append hdot.1, findAllIndices_flatParts hdot.2]
  exact foldl_replaceFirst _ hneg hdot.1 hdot.2

/-! ## When every index is due -/

namespace JsonText

variable {D N F : Type} {lib : JsonText D N F} {jsonStr : D} {path : String}
  {resolved : List String} {i : ℕ}

theorem dueIndex_eq_some (hdue : lib.dueIndex jsonStr resolved part = some i) :
    negativeInteger part.toList = some part.toList := by
  unfold dueIndex at hdue
  by_contra hneg
  rw [if_neg hneg] at hdue
  cases hdue

theorem resolvePart_of_none (hdue : lib.dueIndex jsonStr resolved part = none) :
    lib.resolvePart jsonStr resolved part = part := by
  unfold resolvePart
  rw [hdue]

theorem resolvePart_of_some (hdue : lib.dueIndex jsonStr resolved part = some i) :
    lib.resolvePart jsonStr resolved part = i.repr := by
  unfold resolvePart
  rw [hdue]

end JsonText

/-- A part is replaced behind others that do not begin like it. -/
theorem replacePart_append (hdone : ∀ earlier ∈ done, ¬ negIndex <+: earlier.toList)
    (hpart : negIndex <+: part.toList) :
    replacePart negIndex digits (done ++ part :: parts) =
      done ++ String.ofList (digits ++ part.toList.drop negIndex.length) :: parts := by
  induction done with
  | nil => exact if_pos hpart
  | cons earlier done ih =>
      rw [List.forall_mem_cons] at hdone
      rw [List.cons_append, replacePart, if_neg hdone.1, ih hdone.2]
      rfl

theorem replaceParts_cons (index : List Char → Option ℕ) (negIndices : List (List Char)) :
    replaceParts index (negIndex :: negIndices) parts =
      replaceParts index negIndices
        (match index negIndex with
        | some index => replacePart negIndex index.repr.toList parts
        | none => parts) :=
  rfl

theorem replaceParts_of_due {D N F : Type} {lib : JsonText D N F} {jsonStr : D} {path : String}
    (hdue : lib.IndicesDue jsonStr path first done parts) :
    replaceParts (lib.actualIndex jsonStr path)
        (parts.filterMap fun part => negativeInteger part.toList) (done ++ parts) =
      done ++ lib.resolve jsonStr (first :: done) parts := by
  induction parts generalizing done with
  | nil => rfl
  | cons part parts ih =>
      obtain ⟨hpart, hrest⟩ := hdue
      have hlater := ih hrest
      rw [List.append_assoc, List.append_assoc] at hlater
      rw [JsonText.resolve, List.filterMap_cons]
      cases hneg : negativeInteger part.toList with
      | none =>
          have hnone : lib.dueIndex jsonStr (first :: done) part = none := by
            cases hindex : lib.dueIndex jsonStr (first :: done) part with
            | none => rfl
            | some i => cases hneg.symm.trans (JsonText.dueIndex_eq_some hindex)
          rw [JsonText.resolvePart_of_none hnone] at hlater ⊢
          exact hlater
      | some negIndex =>
          obtain ⟨hactual, hearlier⟩ := hpart negIndex hneg
          dsimp only
          rw [replaceParts_cons, hactual]
          cases hindex : lib.dueIndex jsonStr (first :: done) part with
          | none =>
              rw [JsonText.resolvePart_of_none hindex] at hlater ⊢
              exact hlater
          | some i =>
              have hself := JsonText.dueIndex_eq_some hindex
              obtain rfl := Option.some.inj (hneg.symm.trans hself)
              rw [JsonText.resolvePart_of_some hindex] at hlater ⊢
              dsimp only
              rw [replacePart_append (hearlier (fun hnone => nomatch hindex.symm.trans hnone))
                List.prefix_rfl, List.drop_length, List.append_nil, String.ofList_toList]
              exact hlater

/-! ## Only when every index is due -/

/-- An element stays where nothing that is replaced begins it. -/
theorem replacePart_getElem? {k : ℕ} {x : String} (hkeep : ¬ negIndex <+: x.toList)
    (hx : parts[k]? = some x) : (replacePart negIndex digits parts)[k]? = some x := by
  induction parts generalizing k with
  | nil => cases hx
  | cons part parts ih =>
      rw [replacePart]
      cases k with
      | zero =>
          obtain rfl := Option.some.inj hx
          rw [if_neg hkeep]
          rfl
      | succ k =>
          split
          · exact hx
          · exact ih hx

theorem replaceParts_getElem? (index : List Char → Option ℕ) {negIndices : List (List Char)}
    {k : ℕ} {x : String}
    (hkeep : ∀ negIndex ∈ negIndices, index negIndex ≠ none → ¬ negIndex <+: x.toList)
    (hx : parts[k]? = some x) : (replaceParts index negIndices parts)[k]? = some x := by
  induction negIndices generalizing parts with
  | nil => exact hx
  | cons negIndex negIndices ih =>
      rw [List.forall_mem_cons] at hkeep
      rw [replaceParts_cons]
      refine ih hkeep.2 ?_
      cases hindex : index negIndex with
      | none => exact hx
      | some i =>
          exact replacePart_getElem? (hkeep.1 fun hnone => nomatch hindex.symm.trans hnone) hx

/-- A text that begins with a negative integer has one at its beginning that is as long. -/
theorem negativeInteger_of_prefix (hneg : negativeInteger rest = some negIndex)
    (hbegins : negIndex <+: cs) :
    ∃ longer, negativeInteger cs = some longer ∧ negIndex <+: longer := by
  obtain ⟨digits, rfl, hne, hdigits, -⟩ := negativeInteger_eq_some hneg
  obtain ⟨tail, rfl⟩ := hbegins
  have htake : (digits ++ tail).takeWhile Char.isDigit = digits ++ tail.takeWhile Char.isDigit :=
    List.takeWhile_append_of_pos hdigits
  refine ⟨'-' :: (digits ++ tail.takeWhile Char.isDigit), ?_, ?_⟩
  · rw [List.cons_append, negativeInteger, htake, if_neg]
    exact List.append_ne_nil_of_left_ne_nil hne _
  · exact List.cons_prefix_cons.2 ⟨rfl, List.prefix_append _ _⟩

/-- No number begins with a minus sign. -/
theorem not_prefix_repr (hneg : negativeInteger rest = some negIndex) (n : ℕ) (tail : List Char) :
    ¬ negIndex <+: n.repr.toList ++ tail := by
  obtain ⟨digits, rfl, -, -, -⟩ := negativeInteger_eq_some hneg
  have hne : n.repr.toList ≠ [] := by
    rw [Nat.toList_repr]
    exact Nat.toDigits_ne_nil
  obtain ⟨c, more, hrepr⟩ := List.exists_cons_of_ne_nil hne
  rw [hrepr, List.cons_append]
  intro hbegins
  obtain rfl := (List.cons_prefix_cons.1 hbegins).1
  have hc : ('-' : Char) ∈ n.repr.toList := hrepr ▸ List.mem_cons_self
  exact absurd (isDigit_of_mem_repr hc) (by decide)

theorem negativeInteger_repr (n : ℕ) : negativeInteger n.repr.toList = none := by
  cases hneg : negativeInteger n.repr.toList with
  | none => rfl
  | some negIndex =>
      obtain ⟨-, -, -, -, hbegins⟩ := negativeInteger_eq_some hneg
      have hnot := not_prefix_repr hneg n []
      rw [List.append_nil] at hnot
      exact absurd hbegins hnot

/-- No negative integer of a part begins a longer one of another part. -/
def Separate (parts : List String) : Prop :=
  ∀ a ∈ parts, ∀ b ∈ parts, ∀ short long, negativeInteger a.toList = some short →
    negativeInteger b.toList = some long → short <+: long → short = long

theorem Separate.settle {part part' : String} (hseparate : Separate (done ++ part :: parts))
    (hpart' : part' = part ∨ negativeInteger part'.toList = none) :
    Separate ((done ++ [part']) ++ parts) := by
  have hold : ∀ a ∈ (done ++ [part']) ++ parts, ∀ negIndex, negativeInteger a.toList = some negIndex →
      a ∈ done ++ part :: parts := by
    intro a ha negIndex hneg
    rw [List.append_assoc, List.singleton_append, List.mem_append, List.mem_cons] at ha
    rw [List.mem_append, List.mem_cons]
    rcases ha with ha | rfl | ha
    · exact .inl ha
    · rcases hpart' with rfl | hnone
      · exact .inr (.inl rfl)
      · cases hneg.symm.trans hnone
    · exact .inr (.inr ha)
  intro a ha b hb short long hshort hlong hbegins
  exact hseparate a (hold a ha short hshort) b (hold b hb long hlong) short long hshort hlong hbegins

section

variable {D N F : Type} {lib : JsonText D N F} {jsonStr : D} {path : String}

/-- The part behind those that are settled is what it is resolved to, if nothing begins it. -/
theorem eq_resolvePart {x : String} {resolved : List String}
    (hresolves : replaceParts (lib.actualIndex jsonStr path)
        (parts.filterMap fun part => negativeInteger part.toList) (done ++ x :: parts) =
      done ++ part :: resolved)
    (hkeep : ∀ b ∈ parts, ∀ negIndex, negativeInteger b.toList = some negIndex →
      lib.actualIndex jsonStr path negIndex ≠ none → ¬ negIndex <+: x.toList) : x = part := by
  have hx : (done ++ x :: parts)[done.length]? = some x := by
    rw [List.getElem?_append_right (Nat.le_refl _), Nat.sub_self]
    rfl
  have hkept : ∀ negIndex ∈ parts.filterMap fun part => negativeInteger part.toList,
      lib.actualIndex jsonStr path negIndex ≠ none → ¬ negIndex <+: x.toList := by
    intro negIndex hmem
    obtain ⟨b, hb, hneg⟩ := List.mem_filterMap.1 hmem
    exact hkeep b hb negIndex hneg
  have hstays := replaceParts_getElem? (lib.actualIndex jsonStr path) hkept hx
  rw [hresolves, List.getElem?_append_right (Nat.le_refl _), Nat.sub_self] at hstays
  exact (Option.some.inj hstays).symm

theorem due_of_replaceParts (hseparate : Separate (done ++ parts))
    (hsettled : ∀ earlier ∈ done, ∀ negIndex, negativeInteger earlier.toList = some negIndex →
      lib.actualIndex jsonStr path negIndex = none)
    (hresolves : replaceParts (lib.actualIndex jsonStr path)
        (parts.filterMap fun part => negativeInteger part.toList) (done ++ parts) =
      done ++ lib.resolve jsonStr (first :: done) parts) :
    lib.IndicesDue jsonStr path first done parts := by
  induction parts generalizing done with
  | nil => trivial
  | cons part parts ih =>
      rw [JsonText.resolve, List.filterMap_cons] at hresolves
      have hnext : ∀ part', (part' = part ∨ negativeInteger part'.toList = none) →
          lib.resolvePart jsonStr (first :: done) part = part' →
          (∀ negIndex, negativeInteger part'.toList = some negIndex →
            lib.actualIndex jsonStr path negIndex = none) →
          replaceParts (lib.actualIndex jsonStr path)
              (parts.filterMap fun part => negativeInteger part.toList) (done ++ part' :: parts) =
            done ++ part' :: lib.resolve jsonStr (first :: done ++ [part']) parts →
          lib.IndicesDue jsonStr path first (done ++ [lib.resolvePart jsonStr (first :: done) part])
            parts := by
        intro part' hpart' hresolve hnone hstate
        rw [hresolve]
        refine ih (hseparate.settle hpart') ?_ ?_
        · intro earlier hearlier
          rcases List.mem_append.1 hearlier with hearlier | hearlier
          · exact hsettled earlier hearlier
          · rw [List.mem_singleton.1 hearlier]
            exact hnone
        · rw [List.append_assoc, List.append_assoc]
          exact hstate
      cases hneg : negativeInteger part.toList with
      | none =>
          rw [hneg] at hresolves
          have hdue : lib.dueIndex jsonStr (first :: done) part = none := by
            cases hindex : lib.dueIndex jsonStr (first :: done) part with
            | none => rfl
            | some i => cases hneg.symm.trans (JsonText.dueIndex_eq_some hindex)
          have hself := JsonText.resolvePart_of_none hdue
          rw [hself] at hresolves
          refine ⟨fun negIndex hsome => (nomatch hneg.symm.trans hsome),
            hnext part (.inl rfl) hself (fun negIndex hsome => ?_) hresolves⟩
          cases hneg.symm.trans hsome
      | some negIndex =>
          rw [hneg] at hresolves
          dsimp only at hresolves
          rw [replaceParts_cons] at hresolves
          have hmem : part ∈ done ++ part :: parts := List.mem_append_right _ List.mem_cons_self
          -- Nothing that is settled begins like this part, as its index would be computed too.
          have hearlier : lib.actualIndex jsonStr path negIndex ≠ none →
              ∀ earlier ∈ done, ¬ negIndex <+: earlier.toList := by
            intro hactual earlier hdone hbegins
            obtain ⟨longer, hlonger, hle⟩ := negativeInteger_of_prefix hneg hbegins
            obtain rfl := hseparate part hmem earlier (List.mem_append_left _ hdone) negIndex longer
              hneg hlonger hle
            exact hactual (hsettled earlier hdone negIndex hlonger)
          cases hactual : lib.actualIndex jsonStr path negIndex with
          | none =>
              rw [hactual] at hresolves
              have hstays := eq_resolvePart hresolves fun b hb short hshort hcomputed hbegins => by
                obtain ⟨longer, hlonger, hle⟩ := negativeInteger_of_prefix hshort hbegins
                obtain rfl := Option.some.inj (hneg.symm.trans hlonger)
                obtain rfl := hseparate b (List.mem_append_right _ (List.mem_cons_of_mem _ hb)) part
                  hmem short negIndex hshort hneg hle
                exact hcomputed hactual
              have hdue : lib.dueIndex jsonStr (first :: done) part = none := by
                cases hindex : lib.dueIndex jsonStr (first :: done) part with
                | none => rfl
                | some i =>
                    rw [JsonText.resolvePart_of_some hindex] at hstays
                    rw [hstays, negativeInteger_repr] at hneg
                    cases hneg
              rw [← hstays] at hresolves
              refine ⟨fun other hother => ?_, hnext part (.inl rfl) hstays.symm (fun other hother => ?_)
                hresolves⟩
              · obtain rfl := Option.some.inj (hneg.symm.trans hother)
                rw [hdue]
                exact ⟨hactual, fun hnot => (hnot rfl).elim⟩
              · obtain rfl := Option.some.inj (hneg.symm.trans hother)
                exact hactual
          | some i =>
              obtain ⟨-, -, -, -, hbegins⟩ := negativeInteger_eq_some hneg
              have hnone := hearlier (by rw [hactual]; exact fun h => nomatch h)
              rw [hactual] at hresolves
              dsimp only at hresolves
              rw [replacePart_append hnone hbegins] at hresolves
              have hstays := eq_resolvePart hresolves fun b hb short hshort _ => by
                rw [String.toList_ofList]
                exact not_prefix_repr hshort i _
              cases hindex : lib.dueIndex jsonStr (first :: done) part with
              | none =>
                  rw [JsonText.resolvePart_of_none hindex] at hstays
                  rw [← hstays, String.toList_ofList] at hbegins
                  exact absurd hbegins (not_prefix_repr hneg i _)
              | some j =>
                  have hself := JsonText.dueIndex_eq_some hindex
                  obtain rfl := Option.some.inj (hneg.symm.trans hself)
                  have hresolve := JsonText.resolvePart_of_some hindex
                  rw [hresolve, List.drop_length, List.append_nil, String.ofList_toList] at hstays
                  obtain rfl := JsonTree.eq_of_repr hstays
                  rw [hresolve, List.drop_length, List.append_nil, String.ofList_toList] at hresolves
                  refine ⟨fun other hother => ?_,
                    hnext i.repr (.inr (negativeInteger_repr i)) hresolve (fun other hother => ?_)
                      hresolves⟩
                  · obtain rfl := Option.some.inj (hneg.symm.trans hother)
                    exact ⟨hactual.trans hindex.symm, fun _ => hnone⟩
                  · cases (negativeInteger_repr i).symm.trans hother

/-! ## The whole path -/

namespace JsonText

/-- Every index that is computed for a path is the one that is due to its part; the first part,
which is never looked at, is due none. -/
def NegativeIndicesDue (lib : JsonText D N F) (jsonStr : D) (path : String) : Prop :=
  ∀ first rest, split path '.' = first :: rest →
    lib.dueIndex jsonStr [] first = none ∧ lib.IndicesDue jsonStr path first [] rest

/-- The path with every negative index resolved against its own array. -/
def resolvedPath (lib : JsonText D N F) (jsonStr : D) (path : String) : String :=
  dotted (lib.resolve jsonStr [] (split path '.'))

theorem no_dot_resolve {resolved : List String} (hdot : ∀ part ∈ parts, '.' ∉ part.toList) :
    ∀ part ∈ lib.resolve jsonStr resolved parts, '.' ∉ part.toList := by
  induction parts generalizing resolved with
  | nil => exact fun _ hmem => nomatch hmem
  | cons part parts ih =>
      rw [List.forall_mem_cons] at hdot
      rw [resolve, List.forall_mem_cons]
      refine ⟨?_, ih hdot.2⟩
      unfold resolvePart
      split
      · exact fun hmem => absurd (isDigit_of_mem_repr hmem) (by decide)
      · exact hdot.1

theorem no_dot_replaceParts (index : List Char → Option ℕ) {negIndices : List (List Char)}
    (hdot : ∀ part ∈ parts, '.' ∉ part.toList) :
    ∀ part ∈ replaceParts index negIndices parts, '.' ∉ part.toList := by
  induction negIndices generalizing parts with
  | nil => exact hdot
  | cons negIndex negIndices ih =>
      rw [replaceParts_cons]
      apply ih
      split
      · exact no_dot_replacePart (fun hmem => absurd (isDigit_of_mem_repr hmem) (by decide)) hdot
      · exact hdot

theorem exists_split (path : String) : ∃ first rest, split path '.' = first :: rest := by
  cases hsplit : split path '.' with
  | nil => exact absurd (List.map_eq_nil_iff.1 hsplit) (List.splitOn_ne_nil '.' path.toList)
  | cons first rest => exact ⟨first, rest, rfl⟩

/-- Negative indices are resolved against their own arrays where every computed index is due; and
only there, unless one of the negative integers begins another one. -/
theorem processNegativeIndex_resolves (lib : JsonText D N F) (jsonStr : D) (path : String) :
    (lib.NegativeIndicesDue jsonStr path →
      lib.processNegativeIndex jsonStr path = lib.resolvedPath jsonStr path) ∧
    (Separate (split path '.').tail →
      lib.processNegativeIndex jsonStr path = lib.resolvedPath jsonStr path →
        lib.NegativeIndicesDue jsonStr path) := by
  obtain ⟨first, rest, hsplit⟩ := exists_split path
  have hdot := no_dot_split path
  rw [hsplit] at hdot
  have hprocess := processNegativeIndex_parts lib jsonStr path hsplit
  unfold resolvedPath
  rw [hsplit, hprocess, resolve]
  constructor
  · intro hdue
    obtain ⟨hfirst, hrest⟩ := hdue first rest hsplit
    have hparts := replaceParts_of_due hrest
    rw [List.nil_append, List.nil_append] at hparts
    rw [resolvePart_of_none hfirst, hparts]
    rfl
  · intro hseparate heq first' rest' hsplit'
    obtain ⟨rfl, rfl⟩ := List.cons.inj (hsplit.symm.trans hsplit')
    have hdot' : ∀ part ∈ lib.resolve jsonStr [] (first :: rest), '.' ∉ part.toList :=
      no_dot_resolve hdot
    rw [List.forall_mem_cons] at hdot
    have hlists := congrArg (fun text => split text '.') heq
    dsimp only [dotted] at hlists
    rw [split_join (List.cons_ne_nil _ _) ?_, split_join (List.cons_ne_nil _ _) hdot'] at hlists
    · obtain ⟨hfirst, hrest⟩ := List.cons.inj hlists
      have hnone : lib.dueIndex jsonStr [] first = none := by
        cases hindex : lib.dueIndex jsonStr [] first with
        | none => rfl
        | some i =>
            have hneg := dueIndex_eq_some hindex
            rw [resolvePart_of_some hindex] at hfirst
            rw [hfirst, negativeInteger_repr] at hneg
            cases hneg
      rw [resolvePart_of_none hnone] at hrest
      exact ⟨hnone, due_of_replaceParts hseparate (fun _ hmem => nomatch hmem) hrest⟩
    · rw [List.forall_mem_cons]
      exact ⟨hdot.1, no_dot_replaceParts _ hdot.2⟩

/-- The last message of a conversation. -/
theorem processNegativeIndex_resolves_messages :
    ofTrees.processNegativeIndex
        (.obj {"messages"} fun _ => .arr 2 fun _ => .obj {"content"} fun _ => .str "hi")
        "messages.-1.content" = "messages.1.content" := by
  have hdue := (processNegativeIndex_resolves ofTrees
    (.obj {"messages"} fun _ => .arr 2 fun _ => .obj {"content"} fun _ => .str "hi")
    "messages.-1.content").1
  refine (hdue fun first rest hsplit => ?_).trans (by decide)
  have hparts : split "messages.-1.content" '.' = ["messages", "-1", "content"] := by decide
  obtain ⟨rfl, rfl⟩ := List.cons.inj (hparts.symm.trans hsplit)
  refine ⟨by decide, ⟨fun negIndex hneg => ?_, fun negIndex hneg => ?_, trivial⟩⟩
  · obtain rfl := Option.some.inj
      ((show negativeInteger "-1".toList = some ['-', '1'] by decide).symm.trans hneg)
    exact ⟨by decide, fun _ _ hearlier => nomatch hearlier⟩
  · exact absurd hneg (by simp [negativeInteger])

/-- The second index is computed from the first array. -/
theorem second_index_of_first_array :
    ofTrees.processNegativeIndex
        (.obj {"a"} fun _ => .arr 2 fun _ => .obj {"b"} fun _ => .arr 3 fun _ => .null)
        "a.-1.b.-1" = "a.1.b.1" ∧
    ofTrees.resolvedPath
        (.obj {"a"} fun _ => .arr 2 fun _ => .obj {"b"} fun _ => .arr 3 fun _ => .null)
        "a.-1.b.-1" = "a.1.b.2" := by
  decide

end JsonText

end

end

end NewApi.Model
