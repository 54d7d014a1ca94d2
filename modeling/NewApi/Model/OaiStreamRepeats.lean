import NewApi.Model.OaiStream

/-!
# Chunks that are sent twice

When data come, `OaiStreamHandler` first sends the chunk before them.  Empty data do not take the
place of that chunk, so that it is sent again with the data after them, and each time more data are
empty.
-/

namespace NewApi.Model

namespace OaiStreamRepeats

open OaiStreamState (handleData handleData_chunk sendStreamData)

/-- Data do not come empty once a chunk has come. -/
def NoneEmptyInside (stream : List String) : Prop :=
  ∀ data ∈ stream.dropWhile (· = ""), data ≠ ""

/-- The variables of the handler but for what has been sent. -/
def unsent (s : OaiStreamState) : OaiStreamState :=
  { s with sent := [] }

section

variable {s : OaiStreamState} {isAudioModel : Bool} {data : String} {stream : List String}

/-- With a chunk pending, all data send it, and take its place unless they are empty. -/
theorem handleData_pending (hlast : s.lastStreamData ≠ "") (data : String) :
    (s.handleData isAudioModel data).sent = s.sent ++ [s.lastStreamData] ∧
      (s.handleData isAudioModel data).lastStreamData ≠ "" := by
  rw [handleData, if_pos hlast, sendStreamData, if_neg hlast]
  split
  case isTrue hdata => exact ⟨rfl, hdata⟩
  case isFalse => exact ⟨rfl, hlast⟩

/-- What the data do to the other variables does not depend on what has been sent. -/
theorem unsent_handleData (s : OaiStreamState) (isAudioModel : Bool) (data : String) :
    unsent (s.handleData isAudioModel data) = unsent ((unsent s).handleData isAudioModel data) := by
  have hlast : (unsent s).lastStreamData = s.lastStreamData := rfl
  unfold handleData
  rw [hlast]
  by_cases hnone : s.lastStreamData = ""
  · rw [if_neg (not_not.2 hnone), if_neg (not_not.2 hnone)]
    split
    case isTrue => rfl
    case isFalse => rfl
  · rw [if_pos hnone, if_pos hnone, sendStreamData, if_neg hnone,
      sendStreamData, if_neg hnone]
    split
    case isTrue => rfl
    case isFalse => rfl

theorem unsent_handleData_empty (s : OaiStreamState) (isAudioModel : Bool) :
    unsent (s.handleData isAudioModel "") = unsent s := by
  rw [handleData, if_neg (not_not.2 rfl), sendStreamData]
  split
  case isTrue => rfl
  case isFalse => rfl

theorem unsent_foldl_filter (isAudioModel : Bool) (stream : List String)
    {s s' : OaiStreamState} (hs : unsent s = unsent s') :
    unsent (stream.foldl (handleData isAudioModel) s) =
      unsent ((stream.filter (· ≠ "")).foldl (handleData isAudioModel) s') := by
  induction stream generalizing s s' with
  | nil => exact hs
  | cons data stream ih =>
      rw [List.foldl_cons]
      by_cases hdata : data = ""
      · rw [List.filter_cons_of_neg (by simpa using hdata)]
        exact ih (hdata ▸ (unsent_handleData_empty s isAudioModel).trans hs)
      · rw [List.filter_cons_of_pos (by simpa using hdata), List.foldl_cons]
        refine ih ?_
        rw [unsent_handleData s, hs, ← unsent_handleData s']

/-- Empty data before the first chunk do nothing. -/
theorem foldl_filter (isAudioModel : Bool) (hnone : NoneEmptyInside stream) :
    (stream.filter (· ≠ "")).foldl (handleData isAudioModel) .start =
      stream.foldl (handleData isAudioModel) .start := by
  induction stream with
  | nil => rfl
  | cons data stream ih =>
      rw [NoneEmptyInside, List.dropWhile_cons] at hnone
      by_cases hdata : data = ""
      · rw [if_pos (decide_eq_true hdata)] at hnone
        rw [List.filter_cons_of_neg (by simpa using hdata), ih hnone, hdata]
        rfl
      · rw [if_neg fun h => hdata (of_decide_eq_true h)] at hnone
        rw [List.filter_eq_self.2 (by simpa using hnone)]

/-- With a chunk pending, something is sent for all data that come. -/
theorem length_sent (isAudioModel : Bool) (hlast : s.lastStreamData ≠ "") :
    (stream.foldl (handleData isAudioModel) s).sent.length =
      s.sent.length + stream.length := by
  induction stream generalizing s with
  | nil => rfl
  | cons data stream ih =>
      obtain ⟨hsent, hpending⟩ := @handleData_pending _ isAudioModel hlast data
      rw [List.foldl_cons, ih hpending, hsent, List.length_append, List.length_cons,
        List.length_cons, List.length_nil]
      omega

/-- As much is sent as data come behind the first chunk. -/
theorem length_sent_start (isAudioModel : Bool) (stream : List String) :
    (stream.foldl (handleData isAudioModel) .start).sent.length =
      (stream.dropWhile (· = "")).length - 1 := by
  induction stream with
  | nil => rfl
  | cons data stream ih =>
      rw [List.dropWhile_cons]
      by_cases hdata : data = ""
      · rw [if_pos (decide_eq_true hdata), hdata]
        exact ih
      · obtain ⟨hsent, hlast⟩ := handleData_chunk isAudioModel .start ⟨data, hdata⟩
        rw [if_neg fun h => hdata (of_decide_eq_true h), List.foldl_cons,
          length_sent isAudioModel (by rw [hlast]; exact hdata), hsent]
        exact Nat.zero_add _

/-! ## The same stream without its empty data -/

variable {F : Type}

/-- What the end of the stream decides. -/
def lastResponse (cfg : OaiStreamSettings F) (s : OaiStreamState) : LastResponse F :=
  cfg.handleLastResponse s.lastStreamData
    { responseId := ""
      createAt := 0
      systemFingerprint := ""
      model := cfg.upstreamModelName
      streamUsage := cfg.audioUsage s.secondLastStreamData
      shouldSendLastResp := true }

def finalUsage (cfg : OaiStreamSettings F) (s : OaiStreamState) : Usage F :=
  cfg.applyUsagePostProcessing
    ((lastResponse cfg s).streamUsage.getD (cfg.responseText2Usage s.streamItems)) s.lastStreamData

/-- What is sent at the end of the stream. -/
def ending (cfg : OaiStreamSettings F) (s : OaiStreamState) : List String :=
  (if (lastResponse cfg s).shouldSendLastResp ∧ s.lastStreamData ≠ "" then [s.lastStreamData]
    else []) ++ cfg.handleFinalResponse (lastResponse cfg s) (finalUsage cfg s)

/-- The end of the stream does not look at what has been sent. -/
theorem oaiStreamHandler_eq (cfg : OaiStreamSettings F) (stream : List String) :
    cfg.oaiStreamHandler stream =
      let s := stream.foldl (handleData cfg.isAudioModel) .start
      (s.sent ++ ending cfg (unsent s), finalUsage cfg (unsent s)) := by
  rw [OaiStreamSettings.oaiStreamHandler]
  generalize stream.foldl (handleData cfg.isAudioModel) .start = s
  refine Prod.ext ?_ rfl
  show (if (lastResponse cfg s).shouldSendLastResp then s.sendStreamData s.lastStreamData
    else s).sent ++ cfg.handleFinalResponse (lastResponse cfg s) (finalUsage cfg s) = _ ++
      ((if (lastResponse cfg s).shouldSendLastResp = true ∧ s.lastStreamData ≠ "" then _
        else []) ++ _)
  rw [← List.append_assoc]
  congr 1
  rw [sendStreamData]
  by_cases hsend : (lastResponse cfg s).shouldSendLastResp = true
  · by_cases hlast : s.lastStreamData = ""
    · rw [if_pos hsend, if_pos hlast, if_neg fun h => h.2 hlast, List.append_nil]
    · rw [if_pos hsend, if_neg hlast, if_pos ⟨hsend, hlast⟩]
      rfl
  · rw [if_neg hsend, if_neg fun h => hsend h.1, List.append_nil]

/-- Empty data make no difference to what the client gets and is billed exactly if none come once
a chunk has come. -/
theorem empty_data_make_no_difference_iff (cfg : OaiStreamSettings F) (stream : List String) :
    cfg.oaiStreamHandler stream = cfg.oaiStreamHandler (stream.filter (· ≠ "")) ↔
      NoneEmptyInside stream := by
  have hunsent := unsent_foldl_filter cfg.isAudioModel stream (rfl : unsent .start = unsent .start)
  constructor
  · intro hsame
    rw [oaiStreamHandler_eq, oaiStreamHandler_eq] at hsame
    dsimp only at hsame
    -- the same end follows, so that as much has been sent before it
    rw [hunsent, Prod.mk.injEq, and_iff_left rfl, List.append_cancel_right_eq] at hsame
    have hlength := congrArg List.length hsame
    have hempty : (fun data : String => !decide (data ≠ "") || decide (data = "")) =
        fun data => decide (data = "") := by
      funext data
      simp
    rw [length_sent_start, length_sent_start, List.dropWhile_filter, hempty] at hlength
    rw [NoneEmptyInside]
    cases hrest : stream.dropWhile (· = "") with
    | nil => exact List.forall_mem_nil _
    | cons first rest =>
        have hfirst := List.head?_dropWhile_not (fun data : String => decide (data = "")) stream
        rw [hrest] at hfirst hlength
        have hfirst : first ≠ "" := of_decide_eq_false hfirst
        rw [List.filter_cons_of_pos (by simpa using hfirst), List.length_cons, List.length_cons,
          Nat.add_sub_cancel, Nat.add_sub_cancel, eq_comm, List.length_filter_eq_length_iff]
          at hlength
        exact List.forall_mem_cons.2 ⟨hfirst, by simpa using hlength⟩
  · intro hnone
    rw [oaiStreamHandler_eq, oaiStreamHandler_eq, foldl_filter cfg.isAudioModel hnone]

end

end OaiStreamRepeats

end NewApi.Model
