import NewApi.Lib.Integers
import NewApi.Lib.Interval
import NewApi.Lib.System

/-!
# Status code ranges

The rules that say on which status codes a request is retried and a channel is disabled are kept as
ranges of codes.  `ParseHTTPStatusCodeRanges` reads them from a text and
`statusCodeRangesToString` writes them back.
-/

namespace NewApi.Model

open NewApi.Lib NewApi.Lib.Strings

abbrev StatusCodeRange := Lib.Interval

namespace StatusCodeRanges

/-! ## Writing and matching -/

def rangeToString (r : StatusCodeRange) : String :=
  if r.start = r.stop then itoa r.start
  else itoa r.start ++ String.singleton '-' ++ itoa r.stop

def statusCodeRangesToString (ranges : List StatusCodeRange) : String :=
  join ',' (ranges.map rangeToString)

/-- The loop over the ranges, which ends at the first range behind the code. -/
def matchLoop (code : ℤ) : List StatusCodeRange → Bool
  | [] => false
  | r :: rest =>
      if code < r.start then false
      else if code ≤ r.stop then true
      else matchLoop code rest

def shouldMatchStatusCodeRanges (ranges : List StatusCodeRange) (code : ℤ) : Bool :=
  if code < 100 ∨ code > 599 then false else matchLoop code ranges

/-! ## Parsing -/

def parseHTTPStatusCodeToken (token : String) : Except String StatusCodeRange :=
  let token := remove (trimSpace token) ' '
  if token = "" then .error "empty token"
  else if contains token "-" then
    match split token '-' with
    | [first, second] =>
        if first = "" ∨ second = "" then .error ("invalid range token: " ++ token)
        else
          match atoi first with
          | none => .error ("invalid range start: " ++ token)
          | some start =>
              match atoi second with
              | none => .error ("invalid range end: " ++ token)
              | some stop =>
                  if start > stop then .error ("range start > end: " ++ token)
                  else if start < 100 ∨ stop > 599 then
                    .error ("range out of bounds: " ++ token)
                  else .ok ⟨start, stop⟩
    | _ => .error ("invalid range token: " ++ token)
  else
    match atoi token with
    | none => .error ("invalid status code: " ++ token)
    | some code =>
        if code < 100 ∨ code > 599 then .error ("status code out of bounds: " ++ token)
        else .ok ⟨code, code⟩

/-- One segment: its range, or the segment itself among the invalid ones. -/
def parseSegment (acc : List StatusCodeRange × List String) (seg : String) :
    List StatusCodeRange × List String :=
  let seg := trimSpace seg
  if seg = "" then acc
  else
    match parseHTTPStatusCodeToken seg with
    | .error _ => (acc.1, acc.2 ++ [seg])
    | .ok r => (acc.1 ++ [r], acc.2)

/-- The full-width comma separates, too. -/
def normalizeSeparators (s : String) : String :=
  String.ofList (s.toList.map fun c => if c = '，' then ',' else c)

def parseHTTPStatusCodeRanges (input : String) : Except String (List StatusCodeRange) :=
  let input := trimSpace input
  if input = "" then .ok []
  else
    let segments := split (normalizeSeparators input) ','
    let parsed := segments.foldl parseSegment ([], [])
    if parsed.2 ≠ [] then
      .error ("invalid http status code rules: " ++ String.intercalate ", " parsed.2)
    else .ok (Interval.merge (Interval.sort parsed.1))

/-! ## What a rule means -/

/-- What stands between the separators, trimmed, where something is left. -/
def tokensOf (segments : List String) : List String :=
  (segments.map trimSpace).filter (· ≠ "")

def tokens (input : String) : List String :=
  tokensOf (split (normalizeSeparators (trimSpace input)) ',')

def IsStatusCode (code : ℤ) : Prop :=
  100 ≤ code ∧ code ≤ 599

/-- A token stands for a range: without its spaces it is one code, or two codes in order with a
minus sign between them. -/
def StandsFor (token : String) (r : StatusCodeRange) : Prop :=
  (atoi (remove token ' ') = some r.start ∧ IsStatusCode r.start ∧ r.stop = r.start) ∨
    ∃ first second, remove token ' ' = first ++ String.singleton '-' ++ second ∧
      atoi first = some r.start ∧ atoi second = some r.stop ∧
        IsStatusCode r.start ∧ IsStatusCode r.stop ∧ r.start ≤ r.stop

def ValidToken (token : String) : Prop :=
  ∃ r, StandsFor token r

section

variable {token input : String} {r : StatusCodeRange} {ranges rest : List StatusCodeRange}
  {code : ℤ}

/-! ## One token -/

theorem contains_minus (s : String) : contains s "-" = true ↔ '-' ∈ s.toList := by
  have hmem : ∀ cs : List Char, cs.tails.any (['-'].isPrefixOf) = true ↔ '-' ∈ cs := by
    intro cs
    induction cs with
    | nil => simp
    | cons c cs ih =>
        rw [List.tails, List.any_cons, Bool.or_eq_true, ih, List.isPrefixOf_iff_prefix,
          List.mem_cons]
        simp
  exact hmem s.toList

/-- What a minus sign stands between, where nothing else is a minus sign. -/
theorem split_minus {first second : String} (hfirst : '-' ∉ first.toList)
    (hsecond : '-' ∉ second.toList) :
    split (first ++ String.singleton '-' ++ second) '-' = [first, second] := by
  rw [split_eq_iff]
  refine ⟨rfl, List.cons_ne_nil _ _, ?_⟩
  intro piece hpiece
  rcases List.mem_cons.1 hpiece with rfl | hpiece
  · exact hfirst
  · rw [List.mem_singleton.1 hpiece]
    exact hsecond

theorem atoi_ne_empty {s : String} {n : ℤ} (hread : atoi s = some n) : s ≠ "" := by
  intro hempty
  rw [hempty] at hread
  cases hread

theorem standsFor_of_parse (hparse : parseHTTPStatusCodeToken token = .ok r) :
    StandsFor (trimSpace token) r := by
  unfold StandsFor IsStatusCode
  unfold parseHTTPStatusCodeToken at hparse
  generalize remove (trimSpace token) ' ' = clean at hparse ⊢
  dsimp only at hparse
  split at hparse
  · cases hparse
  split at hparse
  · split at hparse
    case h_2 => cases hparse
    case h_1 first second hsplit =>
      obtain ⟨htext, -, -⟩ := split_eq_iff.1 hsplit
      split at hparse
      · cases hparse
      split at hparse
      · cases hparse
      case h_2 start hstart =>
        split at hparse
        · cases hparse
        case h_2 stop hstop =>
          split at hparse
          · cases hparse
          split at hparse
          · cases hparse
          cases hparse
          refine .inr ⟨first, second, htext, hstart, hstop, ?_⟩
          show (100 ≤ start ∧ start ≤ 599) ∧ (100 ≤ stop ∧ stop ≤ 599) ∧ start ≤ stop
          omega
  · split at hparse
    · cases hparse
    case h_2 code hcode =>
      split at hparse
      · cases hparse
      cases hparse
      refine .inl ⟨hcode, ?_, rfl⟩
      show 100 ≤ code ∧ code ≤ 599
      omega

theorem parse_of_standsFor (hstands : StandsFor (trimSpace token) r) :
    parseHTTPStatusCodeToken token = .ok r := by
  unfold StandsFor IsStatusCode at hstands
  unfold parseHTTPStatusCodeToken
  generalize remove (trimSpace token) ' ' = clean at hstands ⊢
  obtain ⟨start, stop⟩ := r
  dsimp only at hstands ⊢
  rcases hstands with ⟨hcode, hbounds, rfl⟩ |
    ⟨first, second, rfl, hstart, hstop, hbounds, hbounds', hle⟩
  · have hminus : ¬ contains clean "-" = true := by
      rw [contains_minus]
      exact notMem_minus_of_atoi_pos hcode (by omega)
    rw [if_neg (atoi_ne_empty hcode), if_neg hminus, hcode]
    exact if_neg (by omega)
  · have hminus : contains (first ++ String.singleton '-' ++ second) "-" = true := by
      rw [contains_minus]
      simp
    have hne : ¬ first ++ String.singleton '-' ++ second = "" := by
      intro hempty
      rw [hempty] at hminus
      cases hminus
    have hsplit := split_minus (notMem_minus_of_atoi_pos hstart (by omega))
      (notMem_minus_of_atoi_pos hstop (by omega))
    have hparts : ¬ (first = "" ∨ second = "") := fun hempty =>
      hempty.elim (atoi_ne_empty hstart) (atoi_ne_empty hstop)
    rw [if_neg hne, if_pos hminus, hsplit]
    dsimp only
    rw [if_neg hparts, hstart, hstop]
    dsimp only
    rw [if_neg (by omega), if_neg (by omega)]

theorem parse_eq_ok_iff :
    parseHTTPStatusCodeToken token = .ok r ↔ StandsFor (trimSpace token) r :=
  ⟨standsFor_of_parse, parse_of_standsFor⟩

/-- A token stands for at most one range. -/
theorem StandsFor.start_le_stop (hr : StandsFor token r) : r.start ≤ r.stop := by
  rcases hr with ⟨-, -, hstop⟩ | ⟨first, second, -, -, -, -, -, hle⟩
  · omega
  · exact hle

theorem StandsFor.isStatusCode (hr : StandsFor token r) (hstart : r.start ≤ code)
    (hstop : code ≤ r.stop) : IsStatusCode code := by
  unfold IsStatusCode
  rcases hr with ⟨-, hbounds, hone⟩ | ⟨first, second, -, -, -, hbounds, hbounds', -⟩
  · unfold IsStatusCode at hbounds
    omega
  · unfold IsStatusCode at hbounds hbounds'
    omega

/-! ## All tokens -/

def tokenRange (token : String) : Option StatusCodeRange :=
  (parseHTTPStatusCodeToken token).toOption

theorem trimSpace_of_mem_tokens (htoken : token ∈ tokens input) : trimSpace token = token := by
  obtain ⟨hmem, -⟩ := List.mem_filter.1 htoken
  obtain ⟨segment, -, rfl⟩ := List.mem_map.1 hmem
  exact trim_trim segment isSpace

theorem tokenRange_eq_some_iff (htoken : token ∈ tokens input) :
    tokenRange token = some r ↔ StandsFor token r := by
  have hiff : parseHTTPStatusCodeToken token = .ok r ↔ StandsFor (trimSpace token) r :=
    parse_eq_ok_iff
  rw [trimSpace_of_mem_tokens htoken] at hiff
  rw [← hiff, tokenRange]
  cases parseHTTPStatusCodeToken token with
  | error err => simp [Except.toOption]
  | ok s => simp [Except.toOption]

theorem tokenRange_eq_none_iff (htoken : token ∈ tokens input) :
    tokenRange token = none ↔ ¬ ValidToken token := by
  rw [ValidToken, Option.eq_none_iff_forall_ne_some, not_exists]
  exact forall_congr' fun r => not_congr (tokenRange_eq_some_iff htoken)

/-- The loop over the segments sorts the tokens into ranges and invalid ones. -/
theorem foldl_parseSegment (segments : List String) (acc : List StatusCodeRange × List String) :
    segments.foldl parseSegment acc = (acc.1 ++ (tokensOf segments).filterMap tokenRange,
      acc.2 ++ (tokensOf segments).filter fun token => (tokenRange token).isNone) := by
  induction segments generalizing acc with
  | nil => simp [tokensOf]
  | cons seg segments ih =>
      rw [List.foldl_cons, ih]
      by_cases hempty : trimSpace seg = ""
      · simp [parseSegment, tokensOf, hempty]
      · cases hparse : parseHTTPStatusCodeToken (trimSpace seg) <;>
          simp [parseSegment, tokensOf, tokenRange, hempty, hparse, Except.toOption]

/-- The invalid tokens of an input, in order. -/
def invalidTokens (input : String) : List String :=
  (tokens input).filter fun token => (tokenRange token).isNone

theorem parseHTTPStatusCodeRanges_eq (input : String) : parseHTTPStatusCodeRanges input =
    if invalidTokens input ≠ [] then
      .error ("invalid http status code rules: " ++
        String.intercalate ", " (invalidTokens input))
    else .ok (Interval.merge (Interval.sort ((tokens input).filterMap tokenRange))) := by
  unfold parseHTTPStatusCodeRanges invalidTokens tokens
  dsimp only
  by_cases hempty : trimSpace input = ""
  · have htokens : tokensOf (split (normalizeSeparators "") ',') = [] := by
      simp [normalizeSeparators, split, tokensOf, trimSpace, trim]
    rw [if_pos hempty, hempty, htokens]
    simp [Interval.sort, Interval.merge]
  · simp only [if_neg hempty, foldl_parseSegment, List.nil_append]

theorem invalidTokens_eq_nil_iff :
    invalidTokens input = [] ↔ ∀ token ∈ tokens input, ValidToken token := by
  rw [invalidTokens, List.filter_eq_nil_iff]
  refine forall₂_congr fun token htoken => ?_
  rw [Option.isNone_iff_eq_none, tokenRange_eq_none_iff htoken, not_not]

theorem parse_error_iff : (∃ err, parseHTTPStatusCodeRanges input = .error err) ↔
    ∃ token ∈ tokens input, ¬ ValidToken token := by
  have hvalid : (∃ token ∈ tokens input, ¬ ValidToken token) ↔ invalidTokens input ≠ [] := by
    rw [Ne, invalidTokens_eq_nil_iff, not_forall₂]
    simp only [exists_prop]
  rw [hvalid, parseHTTPStatusCodeRanges_eq]
  split
  case isTrue hinvalid => exact iff_of_true ⟨_, rfl⟩ hinvalid
  case isFalse hvalid =>
    refine iff_of_false (fun herr => ?_) hvalid
    obtain ⟨err, herr⟩ := herr
    cases herr

theorem parse_ok (hparse : parseHTTPStatusCodeRanges input = .ok ranges) :
    ranges = Interval.merge (Interval.sort ((tokens input).filterMap tokenRange)) := by
  rw [parseHTTPStatusCodeRanges_eq] at hparse
  split at hparse
  · cases hparse
  · exact (Except.ok.inj hparse).symm

theorem mem_ranges_iff :
    r ∈ (tokens input).filterMap tokenRange ↔ ∃ token ∈ tokens input, StandsFor token r := by
  rw [List.mem_filterMap]
  exact exists_congr fun token => and_congr_right fun hmem => tokenRange_eq_some_iff hmem

/-! ## What is matched -/

theorem matchLoop_iff (hordered : Interval.Ordered ranges) :
    matchLoop code ranges = true ↔ Interval.Covers ranges code := by
  induction ranges with
  | nil => simp [matchLoop, Interval.Covers]
  | cons r rest ih =>
      rw [matchLoop]
      split
      case isTrue hbefore =>
        exact iff_of_false Bool.false_ne_true (hordered.not_covers hbefore)
      case isFalse hstart =>
        rw [Interval.covers_cons]
        split
        case isTrue hstop => exact iff_of_true rfl (.inl ⟨by omega, hstop⟩)
        case isFalse hstop =>
          rw [ih hordered.tail]
          exact (or_iff_right fun hin => hstop hin.2).symm

/-- In order, and within the codes of HTTP. -/
structure Normal (ranges : List StatusCodeRange) : Prop where
  ordered : Interval.Ordered ranges
  codes : ∀ code, Interval.Covers ranges code → IsStatusCode code

theorem Normal.shouldMatch_iff (hnormal : Normal ranges) :
    shouldMatchStatusCodeRanges ranges code = true ↔ Interval.Covers ranges code := by
  unfold shouldMatchStatusCodeRanges
  split
  case isTrue hout =>
    refine iff_of_false Bool.false_ne_true fun hcovers => ?_
    have hbounds := hnormal.codes code hcovers
    unfold IsStatusCode at hbounds
    omega
  case isFalse => exact matchLoop_iff hnormal.ordered

theorem covers_parse_iff (hparse : parseHTTPStatusCodeRanges input = .ok ranges) :
    Interval.Covers ranges code ↔
      ∃ token ∈ tokens input, ∃ r, StandsFor token r ∧ r.start ≤ code ∧ code ≤ r.stop := by
  rw [parse_ok hparse, Interval.covers_merge_sort]
  constructor
  · intro hcovers
    obtain ⟨r, hr, hcode⟩ := hcovers
    obtain ⟨token, htoken, hstands⟩ := mem_ranges_iff.1 hr
    exact ⟨token, htoken, r, hstands, hcode⟩
  · intro htokens
    obtain ⟨token, htoken, r, hstands, hcode⟩ := htokens
    exact ⟨r, mem_ranges_iff.2 ⟨token, htoken, hstands⟩, hcode⟩

theorem apart_of_parse (hparse : parseHTTPStatusCodeRanges input = .ok ranges) :
    Interval.Apart ranges := by
  rw [parse_ok hparse]
  refine Interval.apart_merge_sort fun r hr => ?_
  obtain ⟨token, -, hstands⟩ := mem_ranges_iff.1 hr
  exact hstands.start_le_stop

theorem normal_of_parse (hparse : parseHTTPStatusCodeRanges input = .ok ranges) :
    Normal ranges := by
  refine ⟨(apart_of_parse hparse).ordered, fun code hcovers => ?_⟩
  obtain ⟨token, -, r, hstands, hstart, hstop⟩ := (covers_parse_iff hparse).1 hcovers
  exact hstands.isStatusCode hstart hstop

/-! ## Reading back what was written -/

theorem Normal.isStatusCode (hnormal : Normal ranges) (hr : r ∈ ranges) :
    IsStatusCode r.start ∧ IsStatusCode r.stop ∧ r.start ≤ r.stop := by
  have hle := hnormal.ordered.nonempty r hr
  exact ⟨hnormal.codes _ ⟨r, hr, Int.le_refl _, hle⟩,
    hnormal.codes _ ⟨r, hr, hle, Int.le_refl _⟩, hle⟩

theorem atoi_itoa_of_isStatusCode (hcode : IsStatusCode code) : atoi (itoa code) = some code := by
  refine atoi_itoa ?_
  unfold IsStatusCode at hcode
  unfold InInt64
  omega

theorem isDigit_of_isStatusCode {c : Char} (hcode : IsStatusCode code)
    (hc : c ∈ (itoa code).toList) : c.isDigit = true := by
  refine (isDigit_of_mem_itoa hc).resolve_right fun hneg => ?_
  unfold IsStatusCode at hcode
  omega

/-- The text of a range has digits and minus signs only. -/
theorem mem_rangeToString {c : Char} (hnormal : Normal ranges) (hr : r ∈ ranges)
    (hc : c ∈ (rangeToString r).toList) : c.isDigit = true ∨ c = '-' := by
  obtain ⟨hstart, hstop, -⟩ := hnormal.isStatusCode hr
  rw [rangeToString] at hc
  split at hc
  · exact .inl (isDigit_of_isStatusCode hstart hc)
  · rw [String.toList_append, String.toList_append, String.toList_singleton, List.mem_append,
      List.mem_append, List.mem_singleton] at hc
    rcases hc with (hc | hc) | hc
    · exact .inl (isDigit_of_isStatusCode hstart hc)
    · exact .inr hc
    · exact .inl (isDigit_of_isStatusCode hstop hc)

theorem ne_of_isDigit_or_minus {c d : Char} (hc : c.isDigit = true ∨ c = '-')
    (hdigit : d.isDigit = false) (hminus : d ≠ '-') : c ≠ d := by
  rintro rfl
  rcases hc with hc | hc
  · rw [hdigit] at hc
    cases hc
  · exact hminus hc

theorem isSpace_of_isDigit_or_minus {c : Char} (hc : c.isDigit = true ∨ c = '-') :
    isSpace c = false := by
  rcases hc with hc | rfl
  · exact isSpace_of_isDigit hc
  · decide

theorem remove_of_notMem {s : String} {c : Char} (hs : c ∉ s.toList) : remove s c = s := by
  have hfilter : s.toList.filter (· ≠ c) = s.toList := by
    refine List.filter_eq_self.2 fun a ha => decide_eq_true ?_
    rintro rfl
    exact hs ha
  rw [remove, hfilter, String.ofList_toList]

theorem rangeToString_ne_empty (r : StatusCodeRange) : rangeToString r ≠ "" := by
  rw [rangeToString]
  split
  · exact itoa_ne_empty _
  · simp

/-- A range is read back from its text. -/
theorem standsFor_rangeToString (hnormal : Normal ranges) (hr : r ∈ ranges) :
    StandsFor (rangeToString r) r := by
  obtain ⟨hstart, hstop, hle⟩ := hnormal.isStatusCode hr
  have hclean : remove (rangeToString r) ' ' = rangeToString r := remove_of_notMem fun hspace =>
    ne_of_isDigit_or_minus (mem_rangeToString hnormal hr hspace) rfl (by decide) rfl
  unfold StandsFor
  rw [hclean, rangeToString]
  split
  case isTrue hone =>
    exact .inl ⟨atoi_itoa_of_isStatusCode hstart, hstart, hone.symm⟩
  case isFalse =>
    exact .inr ⟨itoa r.start, itoa r.stop, rfl, atoi_itoa_of_isStatusCode hstart,
      atoi_itoa_of_isStatusCode hstop, hstart, hstop, hle⟩

/-- The tokens of a text are the ranges it was written from. -/
theorem tokens_toString (hnormal : Normal ranges) :
    tokens (statusCodeRangesToString ranges) = ranges.map rangeToString := by
  have hpieces : ∀ piece ∈ ranges.map rangeToString, ∀ c ∈ piece.toList,
      c.isDigit = true ∨ c = '-' := by
    intro piece hpiece c hc
    obtain ⟨r, hr, rfl⟩ := List.mem_map.1 hpiece
    exact mem_rangeToString hnormal hr hc
  have hchars : ∀ c ∈ (statusCodeRangesToString ranges).toList,
      c = ',' ∨ c.isDigit = true ∨ c = '-' := by
    intro c hc
    obtain hsep | ⟨piece, hpiece, hmem⟩ := mem_of_mem_join hc
    · exact .inl hsep
    · exact .inr (hpieces piece hpiece c hmem)
  have htrim : trimSpace (statusCodeRangesToString ranges) = statusCodeRangesToString ranges := by
    refine trim_of_forall fun c hc => ?_
    rcases hchars c hc with rfl | hc
    · decide
    · exact isSpace_of_isDigit_or_minus hc
  have hnormalize : normalizeSeparators (statusCodeRangesToString ranges) =
      statusCodeRangesToString ranges := by
    have hmap : (statusCodeRangesToString ranges).toList.map
        (fun c => if c = '，' then ',' else c) = (statusCodeRangesToString ranges).toList := by
      refine (List.map_congr_left fun c hc => ?_).trans (List.map_id _)
      refine if_neg ?_
      rcases hchars c hc with rfl | hc
      · decide
      · exact ne_of_isDigit_or_minus hc rfl (by decide)
    rw [normalizeSeparators, hmap, String.ofList_toList]
  have htokens : tokensOf (ranges.map rangeToString) = ranges.map rangeToString := by
    have hmap : (ranges.map rangeToString).map trimSpace = ranges.map rangeToString := by
      refine (List.map_congr_left fun piece hpiece => ?_).trans (List.map_id _)
      exact trim_of_forall fun c hc => isSpace_of_isDigit_or_minus (hpieces piece hpiece c hc)
    rw [tokensOf, hmap]
    refine List.filter_eq_self.2 fun piece hpiece => decide_eq_true ?_
    obtain ⟨r, -, rfl⟩ := List.mem_map.1 hpiece
    exact rangeToString_ne_empty r
  rw [tokens, htrim, hnormalize]
  cases hranges : ranges with
  | nil => simp [statusCodeRangesToString, join, split, tokensOf, trimSpace, trim]
  | cons r rest =>
      rw [← hranges, statusCodeRangesToString, split_join, htokens]
      · simp [hranges]
      · intro piece hpiece hcomma
        exact ne_of_isDigit_or_minus (hpieces piece hpiece ',' hcomma) rfl (by decide) rfl

theorem parse_toString (hnormal : Normal ranges) :
    parseHTTPStatusCodeRanges (statusCodeRangesToString ranges) =
      .ok (Interval.merge (Interval.sort ranges)) := by
  have htokens := tokens_toString hnormal
  have hmem : ∀ r ∈ ranges, rangeToString r ∈ tokens (statusCodeRangesToString ranges) := by
    intro r hr
    rw [htokens]
    exact List.mem_map_of_mem hr
  have hvalid : invalidTokens (statusCodeRangesToString ranges) = [] := by
    rw [invalidTokens_eq_nil_iff, htokens]
    intro token htoken
    obtain ⟨r, hr, rfl⟩ := List.mem_map.1 htoken
    exact ⟨r, standsFor_rangeToString hnormal hr⟩
  have hranges : (tokens (statusCodeRangesToString ranges)).filterMap tokenRange = ranges := by
    have hread : ∀ r ∈ ranges, (tokenRange ∘ rangeToString) r = some r := by
      intro r hr
      rw [Function.comp_apply, tokenRange_eq_some_iff (hmem r hr)]
      exact standsFor_rangeToString hnormal hr
    rw [htokens, List.filterMap_map, List.filterMap_congr hread, List.filterMap_some]
  rw [parseHTTPStatusCodeRanges_eq, if_neg (not_not.2 hvalid), hranges]

/-- Ranges match the same codes when they are read back from their text. -/
theorem Normal.reloaded_matches (hnormal : Normal ranges) (code : ℤ) :
    shouldMatchStatusCodeRanges (Interval.merge (Interval.sort ranges)) code =
      shouldMatchStatusCodeRanges ranges code := by
  rw [Bool.eq_iff_iff, (normal_of_parse (parse_toString hnormal)).shouldMatch_iff,
    hnormal.shouldMatch_iff, Interval.covers_merge_sort]

/-- Parsing fails exactly for an input with an invalid token.  Otherwise the result is sorted and
apart, matches the codes that the tokens stand for, and is read back from its own text. -/
theorem parseHTTPStatusCodeRanges_spec (input : String) :
    ((∃ err, parseHTTPStatusCodeRanges input = .error err) ↔
      ∃ token ∈ tokens input, ¬ ValidToken token) ∧
    ∀ ranges, parseHTTPStatusCodeRanges input = .ok ranges →
      Interval.Apart ranges ∧
      (∀ code, shouldMatchStatusCodeRanges ranges code = true ↔
        ∃ token ∈ tokens input, ∃ r, StandsFor token r ∧ r.start ≤ code ∧ code ≤ r.stop) ∧
      parseHTTPStatusCodeRanges (statusCodeRangesToString ranges) = .ok ranges := by
  refine ⟨parse_error_iff, fun ranges hparse => ?_⟩
  have hnormal := normal_of_parse hparse
  have hapart := apart_of_parse hparse
  refine ⟨hapart, fun code => ?_, ?_⟩
  · rw [hnormal.shouldMatch_iff, covers_parse_iff hparse]
  · rw [parse_toString hnormal, Interval.merge_sort_of_apart hapart]

end

example : (parseHTTPStatusCodeRanges "500-505, 504，401,403,,402").toOption =
    some [⟨401, 403⟩, ⟨500, 505⟩] := by
  decide

/-! ## The settings -/

/-- `AutomaticDisableStatusCodeRanges` and `AutomaticRetryStatusCodeRanges`. -/
structure StatusCodeSettings where
  automaticDisable : List StatusCodeRange
  automaticRetry : List StatusCodeRange
deriving DecidableEq

/-- The values at the start of the program. -/
def StatusCodeSettings.initial : StatusCodeSettings where
  automaticDisable := [⟨401, 401⟩]
  automaticRetry := [⟨100, 199⟩, ⟨300, 399⟩, ⟨401, 407⟩, ⟨409, 499⟩, ⟨500, 503⟩, ⟨505, 523⟩,
    ⟨525, 599⟩]

/-- An option whose value is set. -/
inductive StatusCodeOption
  | automaticDisableStatusCodes (value : String)
  | automaticRetryStatusCodes (value : String)

namespace StatusCodeSettings

def automaticDisableStatusCodesFromString (cfg : StatusCodeSettings) (s : String) :
    Except String StatusCodeSettings :=
  match parseHTTPStatusCodeRanges s with
  | .error err => .error err
  | .ok ranges => .ok { cfg with automaticDisable := ranges }

def automaticRetryStatusCodesFromString (cfg : StatusCodeSettings) (s : String) :
    Except String StatusCodeSettings :=
  match parseHTTPStatusCodeRanges s with
  | .error err => .error err
  | .ok ranges => .ok { cfg with automaticRetry := ranges }

def automaticDisableStatusCodesToString (cfg : StatusCodeSettings) : String :=
  statusCodeRangesToString cfg.automaticDisable

def automaticRetryStatusCodesToString (cfg : StatusCodeSettings) : String :=
  statusCodeRangesToString cfg.automaticRetry

def shouldDisableByStatusCode (cfg : StatusCodeSettings) (code : ℤ) : Bool :=
  shouldMatchStatusCodeRanges cfg.automaticDisable code

def shouldRetryByStatusCode (cfg : StatusCodeSettings) (code : ℤ) : Bool :=
  shouldMatchStatusCodeRanges cfg.automaticRetry code

def updateOptionMap (cfg : StatusCodeSettings) :
    StatusCodeOption → Except String StatusCodeSettings
  | .automaticDisableStatusCodes value => cfg.automaticDisableStatusCodesFromString value
  | .automaticRetryStatusCodes value => cfg.automaticRetryStatusCodesFromString value

/-- The options are set one after the other; a value that is refused leaves the settings alone. -/
def system : System StatusCodeSettings StatusCodeOption where
  step cfg option :=
    match cfg.updateOptionMap option with
    | .error _ => some cfg
    | .ok updated => some updated

/-- Both lists of ranges are in order and within the codes of HTTP. -/
structure Normal (cfg : StatusCodeSettings) : Prop where
  automaticDisable : StatusCodeRanges.Normal cfg.automaticDisable
  automaticRetry : StatusCodeRanges.Normal cfg.automaticRetry

section

variable {cfg after : StatusCodeSettings} {option : StatusCodeOption}
  {options : List StatusCodeOption}

theorem normal_initial : initial.Normal := by
  refine ⟨⟨⟨by decide, by decide⟩, fun code hcovers => ?_⟩,
    ⟨⟨by decide, by decide⟩, fun code hcovers => ?_⟩⟩
  · simp only [initial, Interval.covers_cons, Interval.not_covers_nil, or_false] at hcovers
    unfold IsStatusCode
    omega
  · simp only [initial, Interval.covers_cons, Interval.not_covers_nil, or_false] at hcovers
    unfold IsStatusCode
    omega

theorem updateOptionMap_normal (hcfg : cfg.Normal) (hset : cfg.updateOptionMap option = .ok after) :
    after.Normal := by
  cases option with
  | automaticDisableStatusCodes value =>
      rw [updateOptionMap, automaticDisableStatusCodesFromString] at hset
      cases hparse : parseHTTPStatusCodeRanges value with
      | error err =>
          rw [hparse] at hset
          cases hset
      | ok ranges =>
          rw [hparse] at hset
          cases hset
          exact ⟨normal_of_parse hparse, hcfg.automaticRetry⟩
  | automaticRetryStatusCodes value =>
      rw [updateOptionMap, automaticRetryStatusCodesFromString] at hset
      cases hparse : parseHTTPStatusCodeRanges value with
      | error err =>
          rw [hparse] at hset
          cases hset
      | ok ranges =>
          rw [hparse] at hset
          cases hset
          exact ⟨hcfg.automaticDisable, normal_of_parse hparse⟩

theorem step_normal (hstep : system.step cfg option = some after) (hcfg : cfg.Normal) :
    after.Normal := by
  cases hset : cfg.updateOptionMap option with
  | error err =>
      simp only [system, hset, Option.some.injEq] at hstep
      rw [← hstep]
      exact hcfg
  | ok updated =>
      simp only [system, hset, Option.some.injEq] at hstep
      rw [← hstep]
      exact updateOptionMap_normal hcfg hset

theorem run_normal (hrun : system.run initial options = some after) : after.Normal :=
  System.kept_run step_normal normal_initial hrun

/-- The settings after any updates decide as before when they are read back from their texts. -/
theorem run_reloads (hrun : system.run initial options = some after) (cfg : StatusCodeSettings) :
    ∃ reloaded, system.run cfg
        [.automaticDisableStatusCodes after.automaticDisableStatusCodesToString,
          .automaticRetryStatusCodes after.automaticRetryStatusCodesToString] = some reloaded ∧
      ∀ code, reloaded.shouldDisableByStatusCode code = after.shouldDisableByStatusCode code ∧
        reloaded.shouldRetryByStatusCode code = after.shouldRetryByStatusCode code := by
  have hnormal := run_normal hrun
  refine ⟨⟨Interval.merge (Interval.sort after.automaticDisable),
    Interval.merge (Interval.sort after.automaticRetry)⟩, ?_, fun code =>
      ⟨hnormal.automaticDisable.reloaded_matches code,
        hnormal.automaticRetry.reloaded_matches code⟩⟩
  simp only [System.run, system, updateOptionMap, automaticDisableStatusCodesFromString,
    automaticRetryStatusCodesFromString, automaticDisableStatusCodesToString,
    automaticRetryStatusCodesToString, parse_toString hnormal.automaticDisable,
    parse_toString hnormal.automaticRetry]

/-- Ranges that are accepted, and merged where they meet. -/
def updated : StatusCodeSettings :=
  { initial with automaticRetry := [⟨429, 429⟩, ⟨500, 599⟩] }

/-- An update is accepted, and a later one is refused. -/
theorem updated_reloads : ∃ reloaded, system.run ⟨[], []⟩
      [.automaticDisableStatusCodes updated.automaticDisableStatusCodesToString,
        .automaticRetryStatusCodes updated.automaticRetryStatusCodesToString] = some reloaded ∧
    ∀ code, reloaded.shouldDisableByStatusCode code = updated.shouldDisableByStatusCode code ∧
      reloaded.shouldRetryByStatusCode code = updated.shouldRetryByStatusCode code := by
  have hrun : system.run initial [.automaticRetryStatusCodes "550-599, 429, 500-549",
      .automaticRetryStatusCodes "600"] = some updated := by decide
  exact run_reloads hrun ⟨[], []⟩

end

end StatusCodeSettings

end StatusCodeRanges

end NewApi.Model
