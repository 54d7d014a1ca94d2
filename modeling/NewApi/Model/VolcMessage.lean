import NewApi.Lib.BigEndian

/-!
# Frames of the speech service

A message to or from the speech service of Volcengine is a header of nibbles, the fields that its
type and its flag call for, and a payload behind its length.  Writer and reader list the fields for
themselves: they put the event in front of an error code and behind it, and do not agree on which
events come with a session and which with a connection.
-/

namespace NewApi.Model.Volcengine

open NewApi.Lib.BigEndian

/-! ## Messages -/

def msgTypeFlagNoSeq : UInt8 := 0
def msgTypeFlagPositiveSeq : UInt8 := 1
def msgTypeFlagNegativeSeq : UInt8 := 3
def msgTypeFlagWithEvent : UInt8 := 4

def version1 : UInt8 := 1
def headerSize4 : UInt8 := 1
def serializationJSON : UInt8 := 1
def compressionNone : UInt8 := 0

def msgTypeFullClientRequest : UInt8 := 1
def msgTypeAudioOnlyClient : UInt8 := 2
def msgTypeFullServerResponse : UInt8 := 9
def msgTypeAudioOnlyServer : UInt8 := 11
def msgTypeFrontEndResultServer : UInt8 := 12
def msgTypeError : UInt8 := 15

def eventTypeStartConnection : Int32 := 1
def eventTypeFinishConnection : Int32 := 2
def eventTypeConnectionStarted : Int32 := 50
def eventTypeConnectionFailed : Int32 := 51
def eventTypeConnectionFinished : Int32 := 52

/-- `Message`, with texts as bytes. -/
structure Message where
  version : UInt8
  headerSize : UInt8
  msgType : UInt8
  msgTypeFlag : UInt8
  serialization : UInt8
  compression : UInt8
  eventType : Int32
  sessionID : List UInt8
  connectID : List UInt8
  sequence : Int32
  errorCode : UInt32
  payload : List UInt8
deriving DecidableEq

def newMessage (msgType flag : UInt8) : Message where
  version := version1
  headerSize := headerSize4
  msgType := msgType
  msgTypeFlag := flag
  serialization := serializationJSON
  compression := compressionNone
  eventType := 0
  sessionID := []
  connectID := []
  sequence := 0
  errorCode := 0
  payload := []

namespace Message

/-- The types that writer and reader treat alike. -/
def isPlain (m : Message) : Bool :=
  m.msgType ∈ [msgTypeFullClientRequest, msgTypeFullServerResponse, msgTypeFrontEndResultServer,
    msgTypeAudioOnlyClient, msgTypeAudioOnlyServer]

def hasSequence (m : Message) : Bool :=
  m.msgTypeFlag = msgTypeFlagPositiveSeq || m.msgTypeFlag = msgTypeFlagNegativeSeq

def hasEvent (m : Message) : Bool :=
  m.msgTypeFlag = msgTypeFlagWithEvent

/-! ## Writing -/

abbrev Writer := Message → Except String (List UInt8)

def maxUint32 : ℕ :=
  2 ^ 32 - 1

/-- Text behind its length, which has 32 bits. -/
def writeSized (name : String) (text : List UInt8) : Except String (List UInt8) :=
  if text.length > maxUint32 then
    .error s!"{name} size ({text.length}) exceeds max(uint32)"
  else .ok (sized 4 text)

def writeEvent : Writer := fun m =>
  .ok (bigEndian 4 m.eventType.toUInt32.toNat)

def writeSessionID : Writer := fun m =>
  if m.eventType ∈ [eventTypeStartConnection, eventTypeFinishConnection,
      eventTypeConnectionStarted, eventTypeConnectionFailed] then .ok []
  else writeSized "session ID" m.sessionID

def writeSequence : Writer := fun m =>
  .ok (bigEndian 4 m.sequence.toUInt32.toNat)

def writeErrorCode : Writer := fun m =>
  .ok (bigEndian 4 m.errorCode.toNat)

def writePayload : Writer := fun m =>
  writeSized "payload" m.payload

def writers (m : Message) : Except String (List Writer) :=
  let event := if m.hasEvent then [writeEvent, writeSessionID] else []
  if m.isPlain then
    .ok (event ++ (if m.hasSequence then [writeSequence] else []) ++ [writePayload])
  else if m.msgType = msgTypeError then .ok (event ++ [writeErrorCode] ++ [writePayload])
  else .error s!"unsupported message type: {m.msgType}"

def runWriters : List Writer → Writer
  | [], _ => .ok []
  | write :: writers, m =>
      match write m with
      | .error err => .error err
      | .ok bytes => (runWriters writers m).map (bytes ++ ·)

/-- The three bytes of nibbles, and zeros up to four bytes for each unit of the header size. -/
def header (m : Message) : List UInt8 :=
  [m.version <<< 4 ||| m.headerSize, m.msgType <<< 4 ||| m.msgTypeFlag,
    m.serialization <<< 4 ||| m.compression] ++ List.replicate (4 * m.headerSize.toNat - 3) 0

def marshal (m : Message) : Except String (List UInt8) :=
  match m.writers with
  | .error err => .error err
  | .ok writers => (runWriters writers m).map (m.header ++ ·)

/-! ## Reading -/

/-- A reader changes the message and leaves the rest of the buffer. -/
abbrev Reader := Message → List UInt8 → Except String (Message × List UInt8)

/-- `binary.Read` of 32 bits. -/
def binaryRead (buf : List UInt8) : Except String (ℕ × List UInt8) :=
  match readUint 4 buf with
  | some read => .ok read
  | none => .error (if buf = [] then "EOF" else "unexpected EOF")

/-- A text behind its length, or what the buffer has of it; an empty one is not set. -/
def readSized (set : Message → List UInt8 → Message) : Reader := fun m buf =>
  (binaryRead buf).map fun (size, rest) =>
    if 0 < size then (set m (rest.take size), rest.drop size) else (m, rest)

def readEvent : Reader := fun m buf =>
  (binaryRead buf).map fun (n, rest) => ({ m with eventType := (UInt32.ofNat n).toInt32 }, rest)

def readSessionID : Reader := fun m buf =>
  if m.eventType ∈ [eventTypeStartConnection, eventTypeFinishConnection,
      eventTypeConnectionStarted, eventTypeConnectionFailed, eventTypeConnectionFinished] then
    .ok (m, buf)
  else readSized (fun m text => { m with sessionID := text }) m buf

def readConnectID : Reader := fun m buf =>
  if m.eventType ∈ [eventTypeConnectionStarted, eventTypeConnectionFailed,
      eventTypeConnectionFinished] then
    readSized (fun m text => { m with connectID := text }) m buf
  else .ok (m, buf)

def readSequence : Reader := fun m buf =>
  (binaryRead buf).map fun (n, rest) => ({ m with sequence := (UInt32.ofNat n).toInt32 }, rest)

def readErrorCode : Reader := fun m buf =>
  (binaryRead buf).map fun (n, rest) => ({ m with errorCode := UInt32.ofNat n }, rest)

def readPayload : Reader :=
  readSized fun m text => { m with payload := text }

def readers (m : Message) : Except String (List Reader) :=
  let event := if m.hasEvent then [readEvent, readSessionID, readConnectID] else []
  if m.isPlain then
    .ok ((if m.hasSequence then [readSequence] else []) ++ event ++ [readPayload])
  else if m.msgType = msgTypeError then .ok ([readErrorCode] ++ event ++ [readPayload])
  else .error s!"unsupported message type: {m.msgType}"

def runReaders : List Reader → Reader
  | [], m, buf => .ok (m, buf)
  | read :: readers, m, buf =>
      match read m buf with
      | .error err => .error err
      | .ok (m, buf) => runReaders readers m buf

/-- The fields behind the header, and nothing behind them. -/
def unmarshalFields (m : Message) (buf : List UInt8) : Except String Message :=
  match m.readers with
  | .error err => .error err
  | .ok readers =>
      match runReaders readers m buf with
      | .error err => .error err
      | .ok (m, []) => .ok m
      | .ok (_, _ :: _) => .error "unexpected data after message: <nil>"

def unmarshal (m : Message) : List UInt8 → Except String Message
  | versionAndHeaderSize :: _ :: serializationCompression :: buf =>
      let m :=
        { m with
          version := versionAndHeaderSize >>> 4
          headerSize := versionAndHeaderSize &&& 0b00001111
          serialization := serializationCompression &&& 0b11110000
          compression := serializationCompression &&& 0b00001111 }
      let paddingSize := 4 * m.headerSize.toNat - 3
      if buf.length < paddingSize then
        .error s!"insufficient header bytes: expected {paddingSize}, got {buf.length}"
      else m.unmarshalFields (buf.drop paddingSize)
  | _ => .error "EOF"

end Message

open Volcengine.Message

def newMessageFromBytes (data : List UInt8) : Except String Message :=
  match data with
  | _ :: typeAndFlag :: _ :: _ =>
      (newMessage (typeAndFlag >>> 4) (typeAndFlag &&& 0b00001111)).unmarshal data
  | _ => .error s!"data too short: expected at least 3 bytes, got {data.length}"

/-! ## Messages that can be written -/

namespace Message

/-- A message in the ranges of the format.  An error message has no event. -/
structure Writable (m : Message) : Prop where
  version_lt : m.version < 16
  headerSize_lt : m.headerSize < 16
  msgTypeFlag_lt : m.msgTypeFlag < 16
  serialization_lt : m.serialization < 16
  compression_lt : m.compression < 16
  supported : m.isPlain = true ∨ m.msgType = msgTypeError ∧ m.hasEvent = false
  sessionID_le : m.sessionID.length ≤ maxUint32
  payload_le : m.payload.length ≤ maxUint32

/-- An event whose connection the reader looks for and the writer does not write. -/
def LosesConnection (m : Message) : Prop :=
  m.hasEvent = true ∧
    (m.eventType = eventTypeConnectionStarted ∨ m.eventType = eventTypeConnectionFailed)

instance (m : Message) : Decidable m.LosesConnection :=
  inferInstanceAs (Decidable (_ ∧ _))

/-- A new message with the header of this one, as it is read. -/
def fresh (m : Message) : Message :=
  { newMessage m.msgType m.msgTypeFlag with
    version := m.version
    headerSize := m.headerSize
    serialization := m.serialization <<< 4
    compression := m.compression }

/-- What is read of a message: its serialization is still in the high nibble, the session of a
finished connection has become a connection, and what the flag does not call for is missing. -/
def carried (m : Message) : Message :=
  { m.fresh with
    eventType := if m.hasEvent then m.eventType else 0
    sessionID :=
      if m.hasEvent ∧ m.eventType ∉ [eventTypeStartConnection, eventTypeFinishConnection,
        eventTypeConnectionFinished] then m.sessionID else []
    connectID :=
      if m.hasEvent ∧ m.eventType = eventTypeConnectionFinished then m.sessionID else []
    sequence := if m.isPlain ∧ m.hasSequence then m.sequence else 0
    errorCode := if m.isPlain then 0 else m.errorCode
    payload := m.payload }

/-- The session of an event, as it is written. -/
def session (m : Message) : List UInt8 :=
  if m.eventType ∈ [eventTypeStartConnection, eventTypeFinishConnection,
    eventTypeConnectionStarted, eventTypeConnectionFailed] then [] else sized 4 m.sessionID

/-- What has been read when the event has been. -/
def opened (m : Message) : Message :=
  { m.fresh with eventType := m.eventType }

/-- What has been read when the session of the event has been. -/
def attached (m : Message) : Message :=
  { m.opened with
    sessionID :=
      if m.eventType ∉ [eventTypeStartConnection, eventTypeFinishConnection,
        eventTypeConnectionFinished] then m.sessionID else []
    connectID := if m.eventType = eventTypeConnectionFinished then m.sessionID else [] }

/-- The bytes between the header and the payload. -/
def fields (m : Message) : List UInt8 :=
  (if m.hasEvent then bigEndian 4 m.eventType.toUInt32.toNat ++ m.session else []) ++
    if m.isPlain then if m.hasSequence then bigEndian 4 m.sequence.toUInt32.toNat else []
    else bigEndian 4 m.errorCode.toNat

section

variable {m : Message} {n : ℕ} {rest text : List UInt8}

theorem nibbles_fin : ∀ high low : Fin 16,
    (UInt8.ofNat high <<< 4 ||| UInt8.ofNat low) >>> 4 = UInt8.ofNat high ∧
      (UInt8.ofNat high <<< 4 ||| UInt8.ofNat low) &&& (0b00001111 : UInt8) = UInt8.ofNat low ∧
      (UInt8.ofNat high <<< 4 ||| UInt8.ofNat low) &&& (0b11110000 : UInt8) =
        UInt8.ofNat high <<< 4 := by decide

/-- Two nibbles of a byte are read back, the high one in place if it is not shifted. -/
theorem nibbles {high low : UInt8} (hhigh : high < 16) (hlow : low < 16) :
    (high <<< 4 ||| low) >>> 4 = high ∧ (high <<< 4 ||| low) &&& (0b00001111 : UInt8) = low ∧
      (high <<< 4 ||| low) &&& (0b11110000 : UInt8) = high <<< 4 := by
  have hfin := nibbles_fin ⟨high.toNat, UInt8.lt_iff_toNat_lt.1 hhigh⟩
    ⟨low.toNat, UInt8.lt_iff_toNat_lt.1 hlow⟩
  simpa using hfin

/-! ## The fields -/

theorem writeSized_eq {name : String} (htext : text.length ≤ maxUint32) :
    writeSized name text = .ok (sized 4 text) :=
  if_neg (not_lt.2 htext)

theorem writeSessionID_eq (hm : m.sessionID.length ≤ maxUint32) :
    writeSessionID m = .ok m.session := by
  rw [writeSessionID, writeSized_eq hm, session]
  split
  case isTrue => rfl
  case isFalse => rfl

theorem runWriters_cons {f : Writer} {writers : List Writer} {bytes bytes' : List UInt8}
    (hwrite : f m = .ok bytes) (hwriters : runWriters writers m = .ok bytes') :
    runWriters (f :: writers) m = .ok (bytes ++ bytes') := by
  rw [runWriters, hwrite]
  dsimp only
  rw [hwriters]
  rfl

theorem runWriters_event (hm : m.sessionID.length ≤ maxUint32) {writers : List Writer}
    {bytes : List UInt8} (hwriters : runWriters writers m = .ok bytes) :
    runWriters ((if m.hasEvent then [writeEvent, writeSessionID] else []) ++ writers) m =
      .ok ((if m.hasEvent then bigEndian 4 m.eventType.toUInt32.toNat ++ m.session else []) ++
        bytes) := by
  cases m.hasEvent with
  | true =>
      have hsession := runWriters_cons (writeSessionID_eq hm) hwriters
      rw [if_pos rfl, if_pos rfl, List.append_assoc]
      exact runWriters_cons (f := writeEvent) rfl hsession
  | false => exact hwriters

theorem isPlain_of_error (hm : m.msgType = msgTypeError) : m.isPlain = false := by
  rw [isPlain, hm]
  decide

/-- A message in range is written as its header, its fields and its payload behind the length. -/
theorem marshal_eq (hm : m.Writable) :
    m.marshal = .ok (m.header ++ (m.fields ++ sized 4 m.payload)) := by
  have hpayload : runWriters [writePayload] m = .ok (sized 4 m.payload) := by
    refine (runWriters_cons (writeSized_eq hm.payload_le) rfl).trans ?_
    rw [List.append_nil]
  unfold marshal writers fields
  dsimp only
  rcases hm.supported with hplain | ⟨herror, -⟩
  · have hsequence : runWriters ((if m.hasSequence then [writeSequence] else []) ++ [writePayload]) m =
        .ok ((if m.hasSequence then bigEndian 4 m.sequence.toUInt32.toNat else []) ++
          sized 4 m.payload) := by
      cases m.hasSequence with
      | true => exact runWriters_cons (f := writeSequence) rfl hpayload
      | false => exact hpayload
    rw [if_pos hplain, if_pos hplain]
    dsimp only
    rw [List.append_assoc, runWriters_event hm.sessionID_le hsequence, List.append_assoc]
    rfl
  · have herrorCode : runWriters ([writeErrorCode] ++ [writePayload]) m =
        .ok (bigEndian 4 m.errorCode.toNat ++ sized 4 m.payload) :=
      runWriters_cons (f := writeErrorCode) rfl hpayload
    rw [isPlain_of_error herror, if_neg Bool.false_ne_true, if_pos herror,
      if_neg Bool.false_ne_true]
    dsimp only
    rw [List.append_assoc, runWriters_event hm.sessionID_le herrorCode, List.append_assoc]
    rfl

/-! ## Reading the fields back -/

theorem binaryRead_append (hn : n < 2 ^ 32) (rest : List UInt8) :
    binaryRead (bigEndian 4 n ++ rest) = .ok (n, rest) := by
  rw [binaryRead, readUint_append hn]

theorem toInt32_ofNat (i : Int32) : (UInt32.ofNat i.toUInt32.toNat).toInt32 = i := by
  rw [UInt32.ofNat_toNat, Int32.toInt32_toUInt32]

theorem readEvent_append (m : Message) (rest : List UInt8) :
    readEvent m.fresh (bigEndian 4 m.eventType.toUInt32.toNat ++ rest) = .ok (m.opened, rest) := by
  rw [readEvent, binaryRead_append (UInt32.toNat_lt _), opened]
  show Except.ok ({ m.fresh with
    eventType := (UInt32.ofNat m.eventType.toUInt32.toNat).toInt32 }, rest) = _
  rw [toInt32_ofNat]

theorem readSequence_append (m : Message) (sequence : Int32) (rest : List UInt8) :
    readSequence m (bigEndian 4 sequence.toUInt32.toNat ++ rest) =
      .ok ({ m with sequence := sequence }, rest) := by
  rw [readSequence, binaryRead_append (UInt32.toNat_lt _)]
  show Except.ok ({ m with sequence := (UInt32.ofNat sequence.toUInt32.toNat).toInt32 }, rest) = _
  rw [toInt32_ofNat]

theorem readErrorCode_append (m : Message) (errorCode : UInt32) (rest : List UInt8) :
    readErrorCode m (bigEndian 4 errorCode.toNat ++ rest) =
      .ok ({ m with errorCode := errorCode }, rest) := by
  rw [readErrorCode, binaryRead_append (UInt32.toNat_lt _)]
  show Except.ok ({ m with errorCode := UInt32.ofNat errorCode.toNat }, rest) = _
  rw [UInt32.ofNat_toNat]

/-- A text is set, with what the buffer has of it. -/
theorem readSized_take {set : Message → List UInt8 → Message} (htext : text.length ≤ maxUint32)
    (hset : set m [] = m) (rest : List UInt8) :
    readSized set m (bigEndian 4 text.length ++ rest) =
      .ok (set m (rest.take text.length), rest.drop text.length) := by
  have hlength : text.length < 2 ^ 32 := Nat.lt_of_le_pred (by decide) htext
  rw [readSized, binaryRead_append hlength]
  show Except.ok (if 0 < text.length then _ else _) = _
  split
  case isTrue => rfl
  case isFalse hempty =>
    rw [Nat.eq_zero_of_not_pos hempty, List.take_zero, List.drop_zero, hset]

theorem readSized_sized {set : Message → List UInt8 → Message} (htext : text.length ≤ maxUint32)
    (hset : set m [] = m) (rest : List UInt8) :
    readSized set m (sized 4 text ++ rest) = .ok (set m text, rest) := by
  rw [sized, List.append_assoc, readSized_take htext hset, List.take_left, List.drop_left]

theorem runReaders_cons {read : Reader} {readers : List Reader} {m' : Message}
    {buf buf' : List UInt8} (hread : read m buf = .ok (m', buf')) :
    runReaders (read :: readers) m buf = runReaders readers m' buf' := by
  rw [runReaders, hread]

/-- The session of an event is read as a session, or as the connection of a finished one. -/
theorem runReaders_session {readers : List Reader} (hm : m.sessionID.length ≤ maxUint32)
    (hkeeps : m.eventType ≠ eventTypeConnectionStarted ∧ m.eventType ≠ eventTypeConnectionFailed)
    (rest : List UInt8) :
    runReaders (readSessionID :: readConnectID :: readers) m.opened (m.session ++ rest) =
      runReaders readers m.attached rest := by
  obtain ⟨hstarted, hfailed⟩ := hkeeps
  rw [session, attached]
  by_cases hfinished : m.eventType = eventTypeConnectionFinished
  · have hsession : readSessionID m.opened (sized 4 m.sessionID ++ rest) =
        .ok (m.opened, sized 4 m.sessionID ++ rest) :=
      if_pos (by simp [opened, hfinished])
    have hconnect : readConnectID m.opened (sized 4 m.sessionID ++ rest) =
        .ok ({ m.opened with connectID := m.sessionID }, rest) := by
      rw [readConnectID, if_pos (by simp [opened, hfinished]), readSized_sized hm rfl]
    rw [if_neg (by rw [hfinished]; decide), if_neg (by simp [hfinished]), if_pos hfinished]
    exact (runReaders_cons hsession).trans (runReaders_cons hconnect)
  · by_cases hconnection : m.eventType = eventTypeStartConnection ∨
        m.eventType = eventTypeFinishConnection
    · rw [opened]
      rcases hconnection with hevent | hevent
      · rw [hevent]
        exact (runReaders_cons rfl).trans (runReaders_cons rfl)
      · rw [hevent]
        exact (runReaders_cons rfl).trans (runReaders_cons rfl)
    · obtain ⟨hstart, hfinish⟩ := not_or.1 hconnection
      have hsession : readSessionID m.opened (sized 4 m.sessionID ++ rest) =
          .ok ({ m.opened with sessionID := m.sessionID }, rest) := by
        rw [readSessionID, if_neg (by simp [opened, *]), readSized_sized hm rfl]
      have hconnect : readConnectID { m.opened with sessionID := m.sessionID } rest =
          .ok ({ m.opened with sessionID := m.sessionID }, rest) :=
        if_neg (by simp [opened, *])
      rw [if_neg (by simp [*]), if_pos (by simp [*]), if_neg hfinished]
      exact (runReaders_cons hsession).trans (runReaders_cons hconnect)

/-- Up to the payload the reader gets what is carried, unless it looks for a connection that is not
there. -/
theorem runReaders_fields (hm : m.Writable) (hkeeps : ¬ m.LosesConnection) (rest : List UInt8) :
    ∃ readers, m.fresh.readers = .ok readers ∧
      runReaders readers m.fresh (m.fields ++ rest) =
        runReaders [readPayload] { m.carried with payload := [] } rest := by
  have hfreshEvent : m.fresh.hasEvent = m.hasEvent := rfl
  have hfreshSequence : m.fresh.hasSequence = m.hasSequence := rfl
  have hfreshPlain : m.fresh.isPlain = m.isPlain := rfl
  have hfreshType : m.fresh.msgType = m.msgType := rfl
  unfold readers fields
  rw [hfreshEvent, hfreshSequence, hfreshPlain, hfreshType]
  rcases hm.supported with hplain | ⟨herror, hevent⟩
  · refine ⟨_, if_pos hplain, ?_⟩
    rw [if_pos hplain]
    cases hevent : m.hasEvent with
    | true =>
        -- the flag is the one for an event, and not one for a sequence
        have hsequence : m.hasSequence = false := by
          rw [hasSequence, of_decide_eq_true hevent]
          decide
        have hkeeps : m.eventType ≠ eventTypeConnectionStarted ∧
            m.eventType ≠ eventTypeConnectionFailed :=
          not_or.1 fun hloses => hkeeps ⟨hevent, hloses⟩
        have hcarried : { m.carried with payload := [] } = m.attached := by
          simp only [carried, hevent, hsequence, hplain, true_and, if_true]
          rfl
        rw [hsequence, hcarried, ← runReaders_session hm.sessionID_le hkeeps]
        show runReaders (readEvent :: readSessionID :: readConnectID :: [readPayload]) m.fresh
          ((_ ++ _) ++ [] ++ rest) = _
        rw [List.append_nil, List.append_assoc]
        exact runReaders_cons (readEvent_append m _)
    | false =>
        cases hsequence : m.hasSequence with
        | true =>
            have hcarried : { m.carried with payload := [] } =
                { m.fresh with sequence := m.sequence } := by
              simp only [carried, hevent, hsequence, hplain, true_and, if_true]
              rfl
            rw [hcarried]
            exact runReaders_cons (readSequence_append m.fresh m.sequence rest)
        | false =>
            have hcarried : { m.carried with payload := [] } = m.fresh := by
              simp only [carried, hevent, hsequence, hplain, true_and, if_true]
              rfl
            rw [hcarried]
            rfl
  · have hplain := isPlain_of_error herror
    rw [hplain, hevent]
    refine ⟨_, (if_neg Bool.false_ne_true).trans (if_pos herror), ?_⟩
    have hcarried : { m.carried with payload := [] } =
        { m.fresh with errorCode := m.errorCode } := by
      simp only [carried, hevent, hplain]
      rfl
    rw [hcarried]
    exact runReaders_cons (readErrorCode_append m.fresh m.errorCode rest)

/-- A payload is read as far as it goes, but nothing may come behind it. -/
theorem unmarshalFields_payload (hm : m.Writable) (hkeeps : ¬ m.LosesConnection)
    (tail : List UInt8) :
    m.fresh.unmarshalFields (m.fields ++ (bigEndian 4 m.payload.length ++ tail)) =
      if tail.length ≤ m.payload.length then .ok { m.carried with payload := tail }
      else .error "unexpected data after message: <nil>" := by
  obtain ⟨readers, hreaders, hfields⟩ := runReaders_fields hm hkeeps
    (bigEndian 4 m.payload.length ++ tail)
  have hpayload : runReaders [readPayload] { m.carried with payload := [] }
      (bigEndian 4 m.payload.length ++ tail) =
        .ok ({ m.carried with payload := tail.take m.payload.length },
          tail.drop m.payload.length) :=
    runReaders_cons (readSized_take hm.payload_le rfl tail)
  rw [unmarshalFields, hreaders]
  dsimp only
  rw [hfields, hpayload]
  by_cases hle : tail.length ≤ m.payload.length
  · rw [if_pos hle, List.take_of_length_le hle, List.drop_of_length_le hle]
  · rw [if_neg hle]
    cases hrest : tail.drop m.payload.length with
    | nil => exact absurd (List.drop_eq_nil_iff.1 hrest) hle
    | cons byte rest => rfl

/-- The reader takes the payload for a connection, and then finds no payload. -/
theorem unmarshalFields_loses (hm : m.Writable) (hloses : m.LosesConnection) {tail : List UInt8}
    (htail : tail.length ≤ m.payload.length) :
    m.fresh.unmarshalFields (m.fields ++ (bigEndian 4 m.payload.length ++ tail)) =
      .error "EOF" := by
  obtain ⟨hevent, htype⟩ := hloses
  have hplain : m.isPlain = true := hm.supported.resolve_right fun herror => by
    rw [herror.2] at hevent
    cases hevent
  have hsequence : m.hasSequence = false := by
    rw [hasSequence, of_decide_eq_true hevent]
    decide
  have hreaders : m.fresh.readers = .ok [readEvent, readSessionID, readConnectID, readPayload] := by
    show (if m.isPlain = true then Except.ok ((if m.hasSequence = true then [readSequence] else []) ++
      (if m.hasEvent = true then [readEvent, readSessionID, readConnectID] else []) ++
        [readPayload]) else _) = _
    rw [if_pos hplain, hsequence, hevent]
    rfl
  have hfields : m.fields = bigEndian 4 m.eventType.toUInt32.toNat := by
    rw [fields, session, hevent, hplain, hsequence, if_pos rfl, if_pos rfl,
      if_neg Bool.false_ne_true, List.append_nil, if_pos (by rcases htype with h | h <;> simp [h]),
      List.append_nil]
  have hsession : ∀ buf, readSessionID m.opened buf = .ok (m.opened, buf) := fun buf =>
    if_pos (by rcases htype with h | h <;> simp [opened, h])
  have hconnect : readConnectID m.opened (bigEndian 4 m.payload.length ++ tail) =
      .ok ({ m.opened with connectID := tail }, []) := by
    rw [readConnectID, if_pos (by rcases htype with h | h <;> simp [opened, h]),
      readSized_take hm.payload_le rfl, List.take_of_length_le htail,
      List.drop_of_length_le htail]
  rw [unmarshalFields, hreaders, hfields]
  dsimp only
  rw [runReaders_cons (readEvent_append m _), runReaders_cons (hsession _),
    runReaders_cons hconnect]
  rfl

theorem msgType_lt (hm : m.Writable) : m.msgType < 16 := by
  rcases hm.supported with hplain | ⟨herror, -⟩
  · have hmem := of_decide_eq_true hplain
    simp only [List.mem_cons, List.not_mem_nil, or_false] at hmem
    rcases hmem with h | h | h | h | h <;> rw [h] <;> decide
  · rw [herror]
    decide

/-- The nibbles of the header are read back. -/
theorem newMessageFromBytes_header (hm : m.Writable) (buf : List UInt8) :
    newMessageFromBytes (m.header ++ buf) = m.fresh.unmarshalFields buf := by
  obtain ⟨hversion, hsize, -⟩ := nibbles hm.version_lt hm.headerSize_lt
  obtain ⟨htype, hflag, -⟩ := nibbles (msgType_lt hm) hm.msgTypeFlag_lt
  obtain ⟨-, hcompression, hserialization⟩ := nibbles hm.serialization_lt hm.compression_lt
  show (newMessage ((m.msgType <<< 4 ||| m.msgTypeFlag) >>> 4)
    ((m.msgType <<< 4 ||| m.msgTypeFlag) &&& 0b00001111)).unmarshal
      ((m.version <<< 4 ||| m.headerSize) :: (m.msgType <<< 4 ||| m.msgTypeFlag) ::
        (m.serialization <<< 4 ||| m.compression) ::
          (List.replicate (4 * m.headerSize.toNat - 3) 0 ++ buf)) = _
  rw [htype, hflag, unmarshal]
  dsimp only
  rw [hversion, hsize, hserialization, hcompression]
  have hlength : (List.replicate (4 * m.headerSize.toNat - 3) (0 : UInt8)).length =
      4 * m.headerSize.toNat - 3 := List.length_replicate
  rw [if_neg (by rw [List.length_append]; omega), List.drop_left' hlength]
  rfl

end

end Message

open Volcengine.Message

section

variable {m : Message}

/-- A frame whose payload has all its bytes. -/
theorem newMessageFromBytes_whole (hm : m.Writable) :
    newMessageFromBytes (m.header ++ (m.fields ++ sized 4 m.payload)) =
      if m.LosesConnection then .error "EOF" else .ok m.carried := by
  rw [newMessageFromBytes_header hm, sized]
  split
  case isTrue hloses => exact unmarshalFields_loses hm hloses (Nat.le_refl _)
  case isFalse hkeeps =>
    rw [unmarshalFields_payload hm hkeeps, if_pos (Nat.le_refl _)]
    rfl

/-- A message in range is read as what is carried of it, except that an event for which the reader
looks for a connection is refused. -/
theorem read_marshalled (hm : m.Writable) :
    ∃ frame, m.marshal = .ok frame ∧ newMessageFromBytes frame =
      if m.LosesConnection then .error "EOF" else .ok m.carried :=
  ⟨_, marshal_eq hm, newMessageFromBytes_whole hm⟩

/-- The end of a synthesis, with the last piece of audio. -/
def sampleAudio : Message :=
  { newMessage msgTypeAudioOnlyServer msgTypeFlagNegativeSeq with
    sequence := -2
    payload := [7, 8, 9] }

theorem sampleAudio_writable : sampleAudio.Writable where
  version_lt := by decide
  headerSize_lt := by decide
  msgTypeFlag_lt := by decide
  serialization_lt := by decide
  compression_lt := by decide
  supported := .inl (by decide)
  sessionID_le := by decide
  payload_le := by decide

theorem sampleAudio_is_read :
    ∃ frame, sampleAudio.marshal = .ok frame ∧
      newMessageFromBytes frame = .ok { sampleAudio with serialization := 16 } := by
  obtain ⟨frame, hframe, hread⟩ := read_marshalled sampleAudio_writable
  rw [if_neg (by decide)] at hread
  exact ⟨frame, hframe, hread⟩

/-- Whatever comes in place of the payload is taken for it, unless it is longer than announced: a
frame that is cut off in its payload is a message with less payload. -/
theorem read_other_payload (hm : m.Writable) (hkeeps : ¬ m.LosesConnection) (tail : List UInt8) :
    ∃ front, m.marshal = .ok (front ++ m.payload) ∧ newMessageFromBytes (front ++ tail) =
      if tail.length ≤ m.payload.length then .ok { m.carried with payload := tail }
      else .error "unexpected data after message: <nil>" := by
  refine ⟨m.header ++ (m.fields ++ bigEndian 4 m.payload.length), ?_, ?_⟩
  · rw [marshal_eq hm, sized, List.append_assoc, List.append_assoc]
  · rw [List.append_assoc, List.append_assoc, newMessageFromBytes_header hm,
      unmarshalFields_payload hm hkeeps]

theorem sampleAudio_cut_off :
    ∃ front, sampleAudio.marshal = .ok (front ++ [7, 8, 9]) ∧
      newMessageFromBytes (front ++ [7]) =
        .ok { sampleAudio with serialization := 16, payload := [7] } := by
  obtain ⟨front, hframe, hread⟩ := read_other_payload sampleAudio_writable (by decide) [7]
  exact ⟨front, hframe, hread.trans (if_pos (by decide))⟩

end

end NewApi.Model.Volcengine
