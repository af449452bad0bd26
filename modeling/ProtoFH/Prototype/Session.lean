import ProtoFH.Foundation.Decimal
import ProtoFH.Foundation.Execution
import ProtoFH.Foundation.Resume
import ProtoFH.Prototype.Soup

/-! # The prototype's session over its connections

The encoders of SoupBinTCP packets, and the client session as it is used again after a
connection is lost: `reset` throws away what was framed and queued but keeps the session
id and the next sequence number, and `start` logs in with them. -/

namespace ProtoFH.Prototype

/-! ## Encoding packets -/

/-- The exceptions of `encode`, with what their texts report. -/
inductive PacketEncodeError where
  | unicodeEncode (value : Text)
  | fieldWidth (value : Text) (width : Nat)
  | rejectCode
  | packLength (length : Nat)
deriving DecidableEq

def toBytes (value : Text) : Except PacketEncodeError Bytes :=
  if IsAscii value then .ok value else .error (.unicodeEncode value)

/-- `_pad_right` and `_pad_left`, which differ in where they put the spaces. -/
def padded (pad : Nat → Bytes → Bytes) (value : Text) (width : Nat) :
    Except PacketEncodeError Bytes := do
  let raw ← toBytes value
  if width < raw.length then .error (.fieldWidth value width) else return pad width raw

/-- `_frame`, with the `struct.error` of a length that two bytes cannot hold. -/
def frame (type : UInt8) (payload : Bytes) : Except PacketEncodeError Bytes :=
  if 1 + payload.length < 65536 then .ok (bePut 2 (1 + payload.length) ++ type :: payload)
  else .error (.packLength (1 + payload.length))

namespace Packet

def type : Packet → UInt8
  | .loginAccepted .. => ascii 'A'
  | .loginRejected .. => ascii 'J'
  | .sequencedData .. => ascii 'S'
  | .serverHeartbeat => ascii 'H'
  | .endOfSession => ascii 'Z'
  | .debugPacket .. => ascii '+'
  | .loginRequest .. => ascii 'L'
  | .unsequencedData .. => ascii 'U'
  | .clientHeartbeat => ascii 'R'
  | .logoutRequest => ascii 'O'

def payload : Packet → Except PacketEncodeError Bytes
  | .loginAccepted session sequence => do
      let session ← padded padLeft session sessionWidth
      let sequence ← padded padLeft (decimal sequence) sequenceWidth
      return session ++ sequence
  | .loginRejected code => do
      let payload ← toBytes code
      if payload.length ≠ 1 then .error .rejectCode else return payload
  | .sequencedData message | .unsequencedData message => .ok message
  | .debugPacket payload => .ok payload
  | .loginRequest username password session sequence => do
      let username ← padded putAlpha username usernameWidth
      let password ← padded putAlpha password passwordWidth
      let session ← padded padLeft session sessionWidth
      let sequence ← padded padLeft (decimal sequence) sequenceWidth
      return username ++ password ++ session ++ sequence
  | .serverHeartbeat | .endOfSession | .clientHeartbeat | .logoutRequest => .ok []

def encode (packet : Packet) : Except PacketEncodeError Bytes := do
  frame packet.type (← packet.payload)

def EncodesAs (packet : Packet) (payload : Bytes) : Prop :=
  packet.payload = .ok payload ∧ 1 + payload.length < 65536

theorem EncodesAs.encode_eq {packet : Packet} {payload : Bytes}
    (encodes : packet.EncodesAs payload) :
    packet.encode = .ok (bePut 2 (1 + payload.length) ++ packet.type :: payload) := by
  rw [encode, encodes.1]
  exact if_pos encodes.2

theorem exists_encodesAs {packet : Packet} {bytes : Bytes} (encoded : packet.encode = .ok bytes) :
    ∃ payload, packet.EncodesAs payload ∧
      bytes = bePut 2 (1 + payload.length) ++ packet.type :: payload := by
  rw [encode] at encoded
  cases built : packet.payload with
  | error error => rw [built] at encoded; cases encoded
  | ok payload =>
      rw [built] at encoded
      change frame packet.type payload = .ok bytes at encoded
      rw [frame] at encoded
      split at encoded
      · next fits =>
          cases encoded
          exact ⟨payload, ⟨built, fits⟩, rfl⟩
      · cases encoded

def notice : Packet → Notice Bytes
  | .loginAccepted _ sequence => .restart sequence
  | .sequencedData message => .item message
  | _ => .other

end Packet

theorem FrameBuffer.step_framed (type : UInt8) (payload rest : Bytes)
    (fits : 1 + payload.length < 65536) :
    framing.step (bePut 2 (1 + payload.length) ++ type :: payload ++ rest) =
      .frame (type :: payload) rest := by
  let wire := bePut 2 (1 + payload.length) ++ type :: payload
  have length : wire.length = 2 + (1 + payload.length) := by
    rw [List.length_append, bePut_length, List.length_cons, Nat.add_comm _ 1]
  have plen : (beGetU16 (wire ++ rest)).toNat = 1 + payload.length := by
    rw [beGetU16_toNat, List.append_assoc, take_append_of_length _ 2 (bePut_length 2 _),
      beNat_bePut]
    exact Nat.mod_eq_of_lt fits
  have total : 2 + (1 + payload.length) ≤ (wire ++ rest).length := by
    rw [List.length_append, length]
    omega
  have found := step_of_length (plen.symm ▸ total)
  rw [plen, ← length, List.take_left, List.drop_left,
    drop_append_of_length _ 2 (bePut_length 2 _)] at found
  exact found

/-! ## Sequence numbers on the wire -/

theorem padded_eq_ok {pad : Nat → Bytes → Bytes} {value field : Text} {width : Nat}
    (done : padded pad value width = .ok field) :
    IsAscii value ∧ value.length ≤ width ∧ field = pad width value := by
  rw [padded, toBytes] at done
  split at done
  · next isAscii =>
      change (if width < value.length then _ else _) = _ at done
      split at done
      · cases done
      · next fits =>
          cases done
          exact ⟨isAscii, Nat.not_lt.mp fits, rfl⟩
  · cases done

theorem isSpace_of_isDigit {char : UInt8} (isDigit : IsDigit char) : isSpace char = false := by
  have low : 48 ≤ char.toNat := UInt8.le_iff_toNat_le.mp isDigit.1
  simp only [isSpace, Bool.or_eq_false_iff, Bool.and_eq_false_iff, decide_eq_false_iff_not,
    UInt8.le_iff_toNat_le]
  exact ⟨.inr (show ¬char.toNat ≤ 13 by omega), .inr (show ¬char.toNat ≤ 32 by omega)⟩

theorem strip_padLeft_decimal (width value : Nat) :
    strip (padLeft width (decimal value)) = decimal value := by
  have kept : ∀ char ∈ decimal value, isSpace char = false :=
    fun char member => isSpace_of_isDigit (isDigit_of_mem_decimal member)
  rw [strip, dropWhile_padLeft width (by decide) kept, List.rdropWhile_eq_self_iff]
  intro nonempty
  rw [kept _ (List.getLast_mem nonempty)]
  exact Bool.false_ne_true

theorem isDigits_decimal (value : Nat) : isDigits (decimal value) = true := by
  rw [isDigits, Bool.and_eq_true, List.all_eq_true]
  refine ⟨by simpa using decimal_ne_nil value, fun char member => ?_⟩
  have isDigit := isDigit_of_mem_decimal member
  simpa using ⟨isDigit.1, isDigit.2⟩

theorem digitsValue_decimal (value : Nat) : digitsValue (decimal value) = value := by
  rw [digitsValue, List.foldl_eq_foldlM]
  apply foldlM_decimal id
  intro value last small
  change 10 * value + ((digit last).toNat - 48) = 10 * value + last
  rw [digit_toNat small, Nat.add_sub_cancel_left]

theorem isAscii_decimal (value : Nat) : IsAscii (decimal value) := by
  intro char member
  have high : char.toNat ≤ 57 := UInt8.le_iff_toNat_le.mp (isDigit_of_mem_decimal member).2
  exact UInt8.lt_iff_toNat_lt.mpr (show char.toNat < 128 by omega)

theorem isAscii_padLeft {text : Text} (width : Nat) (isAscii : IsAscii text) :
    IsAscii (padLeft width text) := by
  intro char member
  rcases List.mem_append.mp member with member | member
  · rw [List.eq_of_mem_replicate member]
    decide
  · exact isAscii char member

theorem decodeSessionSequence_eq (type : UInt8) {session : Bytes} {sequence : Nat}
    (width : session.length = sessionWidth) (fits : (decimal sequence).length ≤ sequenceWidth) :
    decodeSessionSequence type (session ++ padLeft sequenceWidth (decimal sequence)) =
      if IsAscii session then .ok (strip session, sequence)
      else .error (.unicodeDecode session) := by
  have length := padLeft_length fits
  have isAscii := isAscii_padLeft sequenceWidth (isAscii_decimal sequence)
  rw [decodeSessionSequence, take_append_of_length _ _ width, drop_append_of_length _ _ width,
    List.take_of_length_le length.le, decodeAscii, decodeAscii, if_pos isAscii]
  split
  · change (if isDigits (strip _) then _ else _) = _
    rw [strip_padLeft_decimal, if_pos (isDigits_decimal sequence), digitsValue_decimal]
    rfl
  · rfl

namespace Packet

theorem EncodesAs.decodeFrame_notice {packet : Packet} {payload : Bytes}
    (encodes : packet.EncodesAs payload) (server : packet.type ≠ ascii 'L') :
    ∃ decoded, decodeFrame (packet.type :: payload) = .ok decoded ∧
      decoded.notice = packet.notice := by
  have built := encodes.1
  cases packet with
  | loginAccepted session sequence =>
      obtain ⟨sessionField, padding, built⟩ := except_bind_eq_ok.mp built
      obtain ⟨sequenceField, digits, built⟩ := except_bind_eq_ok.mp built
      cases built
      obtain ⟨isAscii, sessionFits, rfl⟩ := padded_eq_ok padding
      obtain ⟨-, sequenceFits, rfl⟩ := padded_eq_ok digits
      have width := padLeft_length sessionFits
      have read := decodeSessionSequence_eq (ascii 'A') width sequenceFits
      rw [if_pos (isAscii_padLeft sessionWidth isAscii)] at read
      refine ⟨.loginAccepted (strip (padLeft sessionWidth session)) sequence, ?_, rfl⟩
      change decodeLoginAccepted _ = _
      rw [decodeLoginAccepted, checkLength, List.length_append, width,
        padLeft_length sequenceFits, if_neg (by simp), read]
      rfl
  | loginRejected code =>
      obtain ⟨raw, isAscii, built⟩ := except_bind_eq_ok.mp built
      rw [toBytes] at isAscii
      split at isAscii
      · next plain =>
          cases isAscii
          split at built
          · cases built
          · next one =>
              cases built
              refine ⟨.loginRejected payload, ?_, rfl⟩
              change decodeLoginRejected payload = _
              rw [decodeLoginRejected, checkLength, if_neg one, decodeAscii, if_pos plain]
              rfl
      · cases isAscii
  | sequencedData message | serverHeartbeat | endOfSession | debugPacket message =>
      cases built; exact ⟨_, rfl, rfl⟩
  | loginRequest username password session sequence => exact absurd rfl server
  | unsequencedData message | clientHeartbeat | logoutRequest => cases built; exact ⟨_, rfl, rfl⟩

end Packet

/-! ## The session -/

/-- `SoupSession` with its credentials and what it has queued for sending. -/
structure LoginSession extends SoupSession where
  username : Text
  password : Text
  out : Bytes := []

inductive StartError where
  | notConnected (state : SessionState)
  | encode (error : PacketEncodeError)

namespace SoupSession

def handlePackets (session : SoupSession) : List Packet → SoupSession × List SessionEvent
  | [] => (session, [])
  | packet :: packets =>
      let (handled, event) := session.handlePacket packet
      let (after, events) := handlePackets handled packets
      (after, event.toList ++ events)

def onBytes (session : SoupSession) (data : Bytes) :
    SoupSession × Except PacketError (List SessionEvent) :=
  let (frames, packets) := FrameBuffer.feed session.frames data
  match packets with
  | .error error => ({ session with frames }, .error error)
  | .ok packets =>
      let (after, events) := handlePackets { session with frames } packets
      (after, .ok events)

/-- A connection that delivers chunks. An exception leaves the reactor, and nothing more is
read. -/
def receive (session : SoupSession) : List Bytes → SoupSession × List SessionEvent
  | [] => (session, [])
  | data :: chunks =>
      match session.onBytes data with
      | (after, .error _) => (after, [])
      | (after, .ok events) =>
          let (last, later) := receive after chunks
          (last, events ++ later)

end SoupSession

namespace LoginSession

def reset (session : LoginSession) : LoginSession :=
  { session with frames := [], out := [], state := .connected, rejectCode := none }

/-- `start`, at the resume point that the session keeps. -/
def start (session : LoginSession) : Except StartError LoginSession :=
  if session.state ≠ .connected then .error (.notConnected session.state)
  else
    let login := Packet.loginRequest session.username session.password session.sessionId
      session.nextSeq
    match login.encode with
    | .error error => .error (.encode error)
    | .ok bytes => .ok { session with out := session.out ++ bytes, state := .loginSent }

end LoginSession

/-! ## What a connection delivers -/

def SessionEvent.message? : SessionEvent → Option (Nat × Bytes)
  | .message seq payload => some (seq, payload)
  | _ => none

namespace SoupSession

theorem handlePackets_count (session : SoupSession) (packets : List Packet)
    (read : List (Nat × Bytes)) :
    ((session.handlePackets packets).1.nextSeq,
        read ++ (session.handlePackets packets).2.filterMap SessionEvent.message?) =
      (packets.map Packet.notice).foldl Notice.count (session.nextSeq, read) := by
  induction packets generalizing session read with
  | nil => rw [handlePackets, List.filterMap_nil, List.append_nil]; rfl
  | cons packet packets induction =>
      rw [List.map_cons, List.foldl_cons]
      cases packet with
      | sequencedData message =>
          have rest := induction { session with nextSeq := session.nextSeq + 1 }
            (read ++ [(session.nextSeq, message)])
          rw [List.append_assoc] at rest
          exact rest
      | loginAccepted sessionId sequence | loginRejected code | endOfSession | serverHeartbeat
      | debugPacket payload | loginRequest username password requested sequence
      | unsequencedData message | clientHeartbeat | logoutRequest =>
          exact induction _ read

private theorem handlePackets_frames (session : SoupSession) (packets : List Packet) :
    (session.handlePackets packets).1.frames = session.frames := by
  induction packets generalizing session with
  | nil => rfl
  | cons packet packets induction =>
      have kept : (session.handlePacket packet).1.frames = session.frames := by
        cases packet <;> rfl
      rw [← kept]
      exact induction _

private theorem onBytes_ok {session : SoupSession} {data : Bytes} {packets : List Packet}
    (decoded : (FrameBuffer.framing.drain (session.frames ++ data)).1.mapM decodeFrame =
      .ok packets) :
    session.onBytes data =
      let fed := { session with frames := (FrameBuffer.framing.drain (session.frames ++ data)).2 }
      ((fed.handlePackets packets).1, .ok (fed.handlePackets packets).2) := by
  obtain ⟨found, left⟩ := FrameBuffer.feed_eq session.frames data
  rw [decoded] at found left
  have fed : FrameBuffer.feed session.frames data =
      ((FrameBuffer.framing.drain (session.frames ++ data)).2, .ok packets) :=
    Prod.ext (left rfl) found
  rw [onBytes, fed]

/-- Over a connection whose frames can all be decoded the session counts the messages of
the stream, in whatever chunks it arrives. -/
theorem receive_count {chunks : List Bytes} {session : SoupSession} {packets : List Packet}
    (stuck : FrameBuffer.framing.Stuck session.frames)
    (decoded : (FrameBuffer.framing.drain (session.frames ++ chunks.flatten)).1.mapM decodeFrame =
      .ok packets) (read : List (Nat × Bytes)) :
    ((session.receive chunks).1.nextSeq,
        read ++ (session.receive chunks).2.filterMap SessionEvent.message?) =
      (packets.map Packet.notice).foldl Notice.count (session.nextSeq, read) := by
  induction chunks generalizing session packets read with
  | nil =>
      rw [List.flatten_nil, List.append_nil, FrameBuffer.framing.drain_stuck stuck] at decoded
      cases decoded
      rw [receive, List.filterMap_nil, List.append_nil]
      rfl
  | cons data chunks induction =>
      -- The frames of the first chunk are the first frames of the stream.
      rw [List.flatten_cons, ← List.append_assoc, FrameBuffer.framing.drain_append,
        List.mapM_append] at decoded
      obtain ⟨first, decodedFirst, decoded⟩ := except_bind_eq_ok.mp decoded
      obtain ⟨later, decodedLater, same⟩ := except_bind_eq_ok.mp decoded
      cases same
      let fed := { session with frames := (FrameBuffer.framing.drain (session.frames ++ data)).2 }
      let after := (fed.handlePackets first).1
      have frames : after.frames = (FrameBuffer.framing.drain (session.frames ++ data)).2 :=
        handlePackets_frames fed first
      have rest := @induction after later (frames ▸ FrameBuffer.framing.stuck_drain _)
        (by rw [frames]; exact decodedLater)
        (read ++ (fed.handlePackets first).2.filterMap SessionEvent.message?)
      have head := handlePackets_count fed first read
      rw [receive, onBytes_ok decodedFirst, List.map_append, List.foldl_append, ← head]
      dsimp only
      rw [List.filterMap_append, ← List.append_assoc]
      exact rest

end SoupSession

end ProtoFH.Prototype
