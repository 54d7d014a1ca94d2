import Mathlib.Data.List.Basic

/-!
# The lines of an upstream stream

`StreamScannerHandler` hands the data of an upstream stream line by line to a handler.  A stream
ends with `data: [DONE]`, and the loop lets a bare `[DONE]` through its first test as well; but then
it cuts off the five bytes that `data:` has, so that the bare marker is no marker any more and its
rest is handed to the handler.
-/

namespace NewApi.Model

/-- A line as the scanner returns it, without its line feed. -/
abbrev StreamLine := List UInt8

namespace StreamLine

/-- The bytes of an ASCII text. -/
def ascii (text : String) : StreamLine :=
  text.toList.map fun c => c.toNat.toUInt8

/-- `strings.TrimSuffix(data, "\r")`. -/
def trimReturn (data : StreamLine) : StreamLine :=
  if data.getLast? = some 13 then data.dropLast else data

/-- What the loop takes for the data of a line, if it does not skip it. -/
def data (line : StreamLine) : Option StreamLine :=
  if line.length < 6 then none
  else if line.take 5 ≠ ascii "data:" ∧ line.take 6 ≠ ascii "[DONE]" then none
  else some (trimReturn ((line.drop 5).dropWhile (· = 32)))

def hasDone (data : StreamLine) : Bool :=
  (ascii "[DONE]").isPrefixOf data

/-- What a line has to say to the handler: the text after `data:`, without leading spaces and a
trailing carriage return. -/
def payload (line : StreamLine) : Option StreamLine :=
  if 6 ≤ line.length ∧ (ascii "data:").isPrefixOf line then
    some (trimReturn ((line.drop 5).dropWhile (· = 32)))
  else none

/-- The stream ends with the marker as a payload. -/
def endsAsData (line : StreamLine) : Bool :=
  match line.payload with
  | none => false
  | some payload => hasDone payload

/-- The stream ends with a line that is the marker itself, or has it as its payload. -/
def isEnd (line : StreamLine) : Bool :=
  hasDone line || line.endsAsData

end StreamLine

open StreamLine

/-- The loop over the lines: the last state of the handler, and what it was called with.  A handler
that fails ends the loop. -/
def streamScanner {σ : Type} (dataHandler : σ → StreamLine → σ × Bool) :
    σ → List StreamLine → σ × List StreamLine
  | s, [] => (s, [])
  | s, line :: lines =>
      match line.data with
      | none => streamScanner dataHandler s lines
      | some data =>
          if hasDone data then (s, [])
          else
            let (s, success) := dataHandler s data
            if success then
              let (s, calls) := streamScanner dataHandler s lines
              (s, data :: calls)
            else (s, [data])

/-- The payloads before the first end marker. -/
def payloadsBeforeEnd (lines : List StreamLine) : List StreamLine :=
  (lines.takeWhile fun line => !line.isEnd).filterMap payload

/-- No bare marker comes before the marker that is a payload. -/
def NoBareDone (lines : List StreamLine) : Prop :=
  ∀ line ∈ lines.takeWhile fun line => !line.endsAsData, hasDone line = false

instance : DecidablePred NoBareDone := fun lines =>
  inferInstanceAs (Decidable (∀ line ∈ lines.takeWhile fun line => !line.endsAsData,
    hasDone line = false))

section

variable {σ : Type} {dataHandler : σ → StreamLine → σ × Bool} {s : σ} {line : StreamLine}
  {lines : List StreamLine}

theorem take_eq_ascii_iff (text : String) (line : StreamLine) :
    line.take (ascii text).length = ascii text ↔ (ascii text).isPrefixOf line = true := by
  rw [List.isPrefixOf_iff_prefix, List.prefix_iff_eq_take]
  exact eq_comm

theorem take_data_iff : line.take 5 = ascii "data:" ↔ (ascii "data:").isPrefixOf line = true :=
  take_eq_ascii_iff "data:" line

theorem take_done_iff : line.take 6 = ascii "[DONE]" ↔ hasDone line = true :=
  take_eq_ascii_iff "[DONE]" line

/-- After its first five bytes are cut off a bare marker begins with its last one. -/
theorem trimReturn_bare (rest : StreamLine) : ∃ tail, trimReturn (93 :: rest) = 93 :: tail := by
  unfold trimReturn
  split
  case isFalse => exact ⟨rest, rfl⟩
  case isTrue hlast =>
    cases rest with
    | nil => exact absurd hlast (by decide)
    | cons byte rest => exact ⟨(byte :: rest).dropLast, rfl⟩

/-- A bare marker has no payload, but the loop takes data from it. -/
theorem data_of_hasDone (hdone : hasDone line = true) :
    line.payload = none ∧ line.endsAsData = false ∧
      ∃ data, line.data = some data ∧ hasDone data = false := by
  have hpayload : line.payload = none := by
    refine if_neg fun hdata => ?_
    have hfive := congrArg (List.take 5) (take_done_iff.2 hdone)
    rw [List.take_take] at hfive
    exact absurd ((take_data_iff.2 hdata.2).symm.trans hfive) (by decide)
  refine ⟨hpayload, by rw [endsAsData, hpayload], ?_⟩
  obtain ⟨rest, rfl⟩ := List.isPrefixOf_iff_prefix.1 hdone
  obtain ⟨tail, htail⟩ := trimReturn_bare rest
  refine ⟨93 :: tail, ?_, rfl⟩
  have hlength : ¬ (ascii "[DONE]" ++ rest).length < 6 := by
    rw [List.length_append]
    have hsix : (ascii "[DONE]").length = 6 := rfl
    omega
  unfold StreamLine.data
  rw [if_neg hlength, if_neg fun hneither => hneither.2 (take_done_iff.2 hdone), ← htail]
  rfl

/-- Of any other line the loop takes its payload. -/
theorem data_of_not_hasDone (hdone : hasDone line = false) : line.data = line.payload := by
  have hnot : line.take 6 ≠ ascii "[DONE]" := fun htake => by
    rw [take_done_iff, hdone] at htake
    cases htake
  unfold StreamLine.data payload
  by_cases hlength : line.length < 6
  · rw [if_pos hlength, if_neg fun hpayload => absurd hpayload.1 (by omega)]
  · rw [if_neg hlength]
    by_cases hdata : (ascii "data:").isPrefixOf line = true
    · rw [if_neg fun hneither => hneither.1 (take_data_iff.2 hdata), if_pos ⟨by omega, hdata⟩]
    · rw [if_pos ⟨fun htake => hdata (take_data_iff.1 htake), hnot⟩,
        if_neg fun hpayload => hdata hpayload.2]

variable (hsuccess : ∀ s data, (dataHandler s data).2 = true)

include hsuccess

theorem streamScanner_call (s : σ) (lines : List StreamLine) {data : StreamLine}
    (hdata : line.data = some data) (hdone : hasDone data = false) :
    ∃ s', (streamScanner dataHandler s (line :: lines)).2 =
      data :: (streamScanner dataHandler s' lines).2 := by
  refine ⟨(dataHandler s data).1, ?_⟩
  rw [streamScanner, hdata]
  dsimp only
  rw [hdone, if_neg Bool.false_ne_true, if_pos (hsuccess s data)]

/-- A line without end mark gives the handler its payload, if it has one, and the loop goes on. -/
theorem streamScanner_goes_on (s : σ) (lines : List StreamLine) (hdone : hasDone line = false)
    (hends : line.endsAsData = false) :
    ∃ s', (streamScanner dataHandler s (line :: lines)).2 =
      line.payload.toList ++ (streamScanner dataHandler s' lines).2 := by
  have hdata := data_of_not_hasDone hdone
  cases hpayload : line.payload with
  | none =>
      refine ⟨s, ?_⟩
      rw [streamScanner, hdata, hpayload]
      rfl
  | some payload =>
      have hnot : hasDone payload = false := by
        unfold endsAsData at hends
        rw [hpayload] at hends
        exact hends
      exact streamScanner_call hsuccess s lines (hdata.trans hpayload) hnot

omit hsuccess in
/-- A payload that is an end mark ends the loop. -/
theorem streamScanner_ends (s : σ) (lines : List StreamLine) (hdone : hasDone line = false)
    (hends : line.endsAsData = true) : (streamScanner dataHandler s (line :: lines)).2 = [] := by
  have hdata := data_of_not_hasDone hdone
  unfold endsAsData at hends
  rw [streamScanner, hdata]
  cases hpayload : line.payload with
  | none =>
      rw [hpayload] at hends
      cases hends
  | some payload =>
      rw [hpayload] at hends
      dsimp only at hends ⊢
      rw [hends, if_pos rfl]

/-- The handler is called with the payloads before the first end marker exactly if no bare marker
comes before the marker that is a payload. -/
theorem stream_scanner_exact_iff (s : σ) (lines : List StreamLine) :
    (streamScanner dataHandler s lines).2 = payloadsBeforeEnd lines ↔ NoBareDone lines := by
  unfold payloadsBeforeEnd NoBareDone
  induction lines generalizing s with
  | nil => exact iff_of_true rfl fun line hline => (nomatch hline)
  | cons line lines ih =>
      cases hdone : hasDone line with
      | true =>
          -- the stream is over, and the loop goes on
          obtain ⟨-, hends, data, hdata, hnot⟩ := data_of_hasDone hdone
          obtain ⟨s', hcalls⟩ := streamScanner_call hsuccess s lines hdata hnot
          have hend : line.isEnd = true := by rw [isEnd, hdone, Bool.true_or]
          refine iff_of_false (fun hsame => ?_) fun hbare => ?_
          · rw [hcalls, List.takeWhile_cons_of_neg (by rw [hend]; decide)] at hsame
            cases hsame
          · rw [List.takeWhile_cons_of_pos (by rw [hends]; decide)] at hbare
            have hfalse := hbare line List.mem_cons_self
            rw [hdone] at hfalse
            cases hfalse
      | false =>
          have hisEnd : line.isEnd = line.endsAsData := by rw [isEnd, hdone, Bool.false_or]
          cases hends : line.endsAsData with
          | true =>
              have hend : line.isEnd = true := hisEnd.trans hends
              rw [List.takeWhile_cons_of_neg (by rw [hend]; decide),
                List.takeWhile_cons_of_neg (by rw [hends]; decide)]
              exact iff_of_true (streamScanner_ends s lines hdone hends)
                fun line hline => (nomatch hline)
          | false =>
              have hend : line.isEnd = false := hisEnd.trans hends
              obtain ⟨s', hcalls⟩ := streamScanner_goes_on hsuccess s lines hdone hends
              rw [List.takeWhile_cons_of_pos (by rw [hend]; decide),
                List.takeWhile_cons_of_pos (by rw [hends]; decide), List.forall_mem_cons,
                and_iff_right hdone, hcalls, List.filterMap_cons]
              cases line.payload with
              | none => exact ih s'
              | some payload =>
                  show payload :: _ = payload :: _ ↔ _
                  rw [List.cons.injEq, and_iff_right rfl]
                  exact ih s'

end

/-- A handler that keeps nothing. -/
def silentHandler (_ : Unit) (_ : StreamLine) : Unit × Bool :=
  ((), true)

theorem stream_scanner_exact_done :
    (streamScanner silentHandler () [ascii ": ping", ascii "data:  one", ascii "",
      ascii "data: two\r", ascii "data: [DONE]", ascii "[DONE]", ascii "data: three"]).2 =
        [ascii "one", ascii "two"] := by
  have hsuccess : ∀ s data, (silentHandler s data).2 = true := fun _ _ => rfl
  have hexact := (stream_scanner_exact_iff hsuccess ()
    [ascii ": ping", ascii "data:  one", ascii "", ascii "data: two\r", ascii "data: [DONE]",
      ascii "[DONE]", ascii "data: three"]).2 (by decide)
  rw [hexact]
  decide

/-- Of a stream that ends with a bare marker the handler gets the bracket. -/
theorem bare_done_is_delivered :
    (streamScanner silentHandler () [ascii "[DONE]"]).2 = [ascii "]"] ∧
    ¬ ∀ (dataHandler : Unit → StreamLine → Unit × Bool),
      (∀ s data, (dataHandler s data).2 = true) → ∀ lines,
        (streamScanner dataHandler () lines).2 = payloadsBeforeEnd lines := by
  refine ⟨by decide, fun hclaim => ?_⟩
  have hsame := hclaim silentHandler (fun _ _ => rfl) [ascii "[DONE]"]
  exact absurd hsame (by decide)

end NewApi.Model
