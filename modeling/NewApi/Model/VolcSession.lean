import NewApi.Model.VolcMessage

/-!
# A speech session

After its request the gateway reads messages from the socket and passes audio on to the client, until
a piece of audio has a negative sequence number, the service reports an error or the socket is
closed.  What the service sends goes over the wire as frames, and a sequence number only with the
flag for it.
-/

namespace NewApi.Model.Volcengine

open Volcengine.Message

/-! ## The code -/

def textMessage : ℤ := 1
def binaryMessage : ℤ := 2

/-- What `conn.ReadMessage` returns: a frame with its type, or an error that may be a close. -/
inductive Incoming
  | frame (messageType : ℤ) (data : List UInt8)
  | failed (err : String) (isClose : Bool)

structure ReceiveError where
  err : String
  isClose : Bool

def receiveMessage : Incoming → Except ReceiveError Message
  | .failed err isClose => .error ⟨err, isClose⟩
  | .frame messageType data =>
      if messageType ≠ binaryMessage ∧ messageType ≠ textMessage then
        .error ⟨s!"unexpected Websocket message type: {messageType}", false⟩
      else
        match newMessageFromBytes data with
        | .error err => .error ⟨err, false⟩
        | .ok msg => .ok msg

/-- `FullClientRequest`: the frame of a request. -/
def fullClientRequest (payload : List UInt8) : Except String (List UInt8) :=
  { newMessage msgTypeFullClientRequest msgTypeFlagNoSeq with payload := payload }.marshal

/-- How a session ends: with the usage, or with an error of the service, the socket or the client.
A session without an end waits for the next message. -/
inductive SessionEnd
  | usage
  | serverError (errorCode : UInt32) (payload : List UInt8)
  | receiveFailed (err : String)
  | writeFailed (err : String)
  | waiting
deriving DecidableEq

/-- The loop over the messages.  `write` tells which write to the client fails. -/
def receiveLoop (write : ℕ → Option String) : ℕ → List Incoming → List (List UInt8) × SessionEnd
  | _, [] => ([], .waiting)
  | n, incoming :: later =>
      match receiveMessage incoming with
      | .error recvErr =>
          if recvErr.isClose then ([], .usage) else ([], .receiveFailed recvErr.err)
      | .ok msg =>
          if msg.msgType = msgTypeError then ([], .serverError msg.errorCode msg.payload)
          else if msg.msgType = msgTypeFrontEndResultServer then receiveLoop write n later
          else if msg.msgType = msgTypeAudioOnlyServer then
            if msg.payload = [] then
              if msg.sequence < 0 then ([], .usage) else receiveLoop write n later
            else
              match write n with
              | some writeErr => ([], .writeFailed writeErr)
              | none =>
                  if msg.sequence < 0 then ([msg.payload], .usage)
                  else
                    let (chunks, result) := receiveLoop write (n + 1) later
                    (msg.payload :: chunks, result)
          else receiveLoop write n later

/-! ## What the service sends -/

/-- Messages that arrive: in range, and not refused by the reader. -/
def Arrives (m : Message) : Prop :=
  m.Writable ∧ ¬ m.LosesConnection

/-- A message in its frame. -/
def Sends (m : Message) (incoming : Incoming) : Prop :=
  ∃ frame, m.marshal = .ok frame ∧ incoming = .frame binaryMessage frame

/-- A message that ends the session: an error, or audio with a negative sequence number that the
flag sends along. -/
def ending (m : Message) : Option SessionEnd :=
  if m.msgType = msgTypeError then some (.serverError m.errorCode m.payload)
  else if m.msgType = msgTypeAudioOnlyServer ∧ m.hasSequence ∧ m.sequence < 0 then some .usage
  else none

/-- The messages up to the first that ends the session. -/
def upToEnd (messages : List Message) : List Message :=
  messages.takeWhile (fun m => (ending m).isNone) ++ (messages.find? fun m => (ending m).isSome).toList

/-- The audio of messages, in pieces. -/
def audio (messages : List Message) : List (List UInt8) :=
  (messages.filter (·.msgType = msgTypeAudioOnlyServer)).map (·.payload) |>.filter (· ≠ [])

section

variable {m : Message} {messages : List Message} {incoming : Incoming} {frames : List Incoming}
  {write : ℕ → Option String}

theorem receiveMessage_sent (hm : Arrives m) (hsends : Sends m incoming) :
    receiveMessage incoming = .ok m.carried := by
  obtain ⟨frame, hframe, rfl⟩ := hsends
  obtain rfl := Except.ok.inj (hframe.symm.trans (marshal_eq hm.1))
  rw [receiveMessage, if_neg fun hneither => hneither.1 rfl, newMessageFromBytes_whole hm.1,
    if_neg hm.2]

theorem audio_cons (m : Message) (messages : List Message) :
    audio (m :: messages) = audio [m] ++ audio messages := by
  unfold audio
  rw [← List.filter_append, ← List.map_append, ← List.filter_append]
  rfl

theorem upToEnd_ends {result : SessionEnd} (hend : ending m = some result)
    (messages : List Message) : upToEnd (m :: messages) = [m] := by
  unfold upToEnd
  rw [List.takeWhile_cons_of_neg (by rw [hend]; exact Bool.false_ne_true),
    List.find?_cons_of_pos (by rw [hend]; rfl)]
  rfl

theorem upToEnd_goes_on (hend : ending m = none) (messages : List Message) :
    upToEnd (m :: messages) = m :: upToEnd messages := by
  unfold upToEnd
  rw [List.takeWhile_cons_of_pos (by rw [hend]; rfl),
    List.find?_cons_of_neg (by rw [hend]; exact Bool.false_ne_true)]
  rfl

theorem audio_of_other (hm : m.msgType ≠ msgTypeAudioOnlyServer) : audio [m] = [] := by
  unfold audio
  rw [List.filter_cons_of_neg (by simpa using hm)]
  rfl

theorem audio_of_audio (hm : m.msgType = msgTypeAudioOnlyServer) :
    audio [m] = if m.payload = [] then [] else [m.payload] := by
  unfold audio
  rw [List.filter_cons_of_pos (by simpa using hm)]
  by_cases hpayload : m.payload = []
  · rw [if_pos hpayload, List.filter_nil, List.map_cons, List.filter_cons_of_neg (by simpa using hpayload)]
    rfl
  · rw [if_neg hpayload, List.filter_nil, List.map_cons, List.filter_cons_of_pos (by simpa using hpayload)]
    rfl

/-- A sequence number counts for the reader only with the flag for it. -/
theorem carried_sequence_neg (hm : m.isPlain = true) :
    m.carried.sequence < 0 ↔ m.hasSequence = true ∧ m.sequence < 0 := by
  show (if m.isPlain = true ∧ m.hasSequence = true then m.sequence else 0) < 0 ↔ _
  cases m.hasSequence with
  | true => rw [if_pos ⟨hm, rfl⟩, and_iff_right rfl]
  | false =>
      rw [if_neg fun h => Bool.false_ne_true h.2]
      exact iff_of_false (by decide) fun h => Bool.false_ne_true h.1

/-- One message: its audio is passed on, and the session ends or goes on. -/
theorem receiveLoop_sent (hwrite : ∀ n, write n = none) (hm : Arrives m)
    (hsends : Sends m incoming) (n : ℕ) (later : List Incoming) :
    receiveLoop write n (incoming :: later) =
      match ending m with
      | some result => (audio [m], result)
      | none =>
          (audio [m] ++ (receiveLoop write (n + (audio [m]).length) later).1,
            (receiveLoop write (n + (audio [m]).length) later).2) := by
  have htype : m.carried.msgType = m.msgType := rfl
  have hpayload : m.carried.payload = m.payload := rfl
  rw [receiveLoop, receiveMessage_sent hm hsends]
  dsimp only
  rw [htype, hpayload]
  unfold ending
  by_cases herror : m.msgType = msgTypeError
  · have hother : m.msgType ≠ msgTypeAudioOnlyServer := by
      rw [herror]
      decide
    have hcode : m.carried.errorCode = m.errorCode := by
      show (if m.isPlain = true then 0 else m.errorCode) = _
      rw [isPlain_of_error herror, if_neg Bool.false_ne_true]
    rw [if_pos herror, if_pos herror, hcode, audio_of_other hother]
  · rw [if_neg herror, if_neg herror]
    by_cases haudio : m.msgType = msgTypeAudioOnlyServer
    · have hfront : m.msgType ≠ msgTypeFrontEndResultServer := by
        rw [haudio]
        decide
      have hplain : m.isPlain = true := by
        rw [isPlain, haudio]
        decide
      rw [if_neg hfront, if_pos haudio, hwrite n, audio_of_audio haudio]
      simp only [carried_sequence_neg hplain, haudio, true_and]
      by_cases hlast : m.hasSequence = true ∧ m.sequence < 0
      · rw [if_pos hlast, if_pos hlast, if_pos hlast]
        split
        case isTrue => rfl
        case isFalse => rfl
      · rw [if_neg hlast, if_neg hlast, if_neg hlast]
        split
        case isTrue => rfl
        case isFalse => rfl
    · have hending : ¬ (m.msgType = msgTypeAudioOnlyServer ∧ m.hasSequence = true ∧
          m.sequence < 0) := fun h => haudio h.1
      rw [if_neg haudio, if_neg hending, audio_of_other haudio, ite_self]
      rfl

/-- A session with a service whose messages arrive: the client gets the audio up to the message that
ends the session, in its pieces and their order, and nothing that comes later; if no message ends
it, it goes on with what else comes. -/
theorem receiveLoop_messages (hwrite : ∀ n, write n = none) (n : ℕ)
    (hmessages : ∀ m ∈ messages, Arrives m) (hframes : List.Forall₂ Sends messages frames)
    (later : List Incoming) :
    receiveLoop write n (frames ++ later) =
      match messages.findSome? ending with
      | some result => (audio (upToEnd messages), result)
      | none =>
          (audio messages ++ (receiveLoop write (n + (audio messages).length) later).1,
            (receiveLoop write (n + (audio messages).length) later).2) := by
  induction hframes generalizing n with
  | nil => rfl
  | @cons m incoming messages frames hsends _ ih =>
      obtain ⟨hm, hmessages⟩ := List.forall_mem_cons.1 hmessages
      rw [List.cons_append, receiveLoop_sent hwrite hm hsends, List.findSome?_cons]
      cases hend : ending m with
      | some result => exact congrArg (audio · , result) (upToEnd_ends hend messages).symm
      | none =>
          dsimp only
          rw [ih _ hmessages, upToEnd_goes_on hend, audio_cons m messages,
            audio_cons m (upToEnd messages), List.length_append, Nat.add_assoc]
          cases messages.findSome? ending with
          | some result => rfl
          | none => rw [List.append_assoc]

end

/-- A result, a piece of audio whose sequence number is not sent, and the last piece. -/
def sampleMessages : List Message :=
  [newMessage msgTypeFrontEndResultServer msgTypeFlagNoSeq,
    { newMessage msgTypeAudioOnlyServer msgTypeFlagNoSeq with sequence := -1, payload := [5] },
    sampleAudio]

def sampleFrame (m : Message) : Incoming :=
  .frame binaryMessage (m.marshal.toOption.getD [])

theorem sampleMessages_are_received :
    receiveLoop (fun _ => none) 0 (sampleMessages.map sampleFrame ++ [.failed "reset" false]) =
      ([[5], [7, 8, 9]], .usage) := by
  have harrives : ∀ m ∈ sampleMessages, Arrives m := by
    have hnibbles : ∀ m ∈ sampleMessages, m.version < 16 ∧ m.headerSize < 16 ∧
        m.msgTypeFlag < 16 ∧ m.serialization < 16 ∧ m.compression < 16 ∧ m.isPlain = true ∧
        m.sessionID.length ≤ maxUint32 ∧ m.payload.length ≤ maxUint32 ∧ ¬ m.LosesConnection := by
      decide
    intro m hm
    obtain ⟨hversion, hsize, hflag, hserialization, hcompression, hplain, hsession, hpayload,
      hkeeps⟩ := hnibbles m hm
    exact ⟨⟨hversion, hsize, hflag, hserialization, hcompression, .inl hplain, hsession, hpayload⟩,
      hkeeps⟩
  have hframes : List.Forall₂ Sends sampleMessages (sampleMessages.map sampleFrame) :=
    .cons ⟨_, rfl, rfl⟩ (.cons ⟨_, rfl, rfl⟩ (.cons ⟨_, rfl, rfl⟩ .nil))
  rw [receiveLoop_messages (fun _ => rfl) 0 harrives hframes]
  decide

end NewApi.Model.Volcengine
