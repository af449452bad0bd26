import ProtoFH.Foundation.Framing
import ProtoFH.Foundation.Text

/-! # The prototype's SoupBinTCP session

The Python codec of SoupBinTCP packets, the buffer that cuts a stream into frames, and
the client session that is driven by them. `feed` decodes all frames that are complete
before any of them is handled. -/

namespace ProtoFH.Prototype

/-! ## Packets -/

inductive Packet where
  | loginAccepted (session : Text) (sequence : Nat)
  | loginRejected (rejectCode : Text)
  | sequencedData (message : Bytes)
  | serverHeartbeat
  | endOfSession
  | debugPacket (payload : Bytes)
  | loginRequest (username password requestedSession : Text) (requestedSequence : Nat)
  | unsequencedData (message : Bytes)
  | clientHeartbeat
  | logoutRequest
deriving DecidableEq

/-- The exceptions of `decode_frame`, with what their texts report. -/
inductive PacketError where
  | emptyFrame
  | unknownType (type : UInt8)
  | wrongLength (type : UInt8) (expected got : Nat)
  | unexpectedPayload (type : UInt8) (got : Nat)
  | notDigits (type : UInt8) (text : Text)
  | unicodeDecode (raw : Bytes)
deriving DecidableEq

/-- `raw.decode("ascii")` -/
def decodeAscii (raw : Bytes) : Except PacketError Text :=
  if IsAscii raw then .ok raw else .error (.unicodeDecode raw)

/-- The ASCII characters that `str.strip` takes for white space. -/
def isSpace (char : UInt8) : Bool :=
  (9 ≤ char && char ≤ 13) || (28 ≤ char && char ≤ 32)

def strip (text : Text) : Text := (text.dropWhile isSpace).rdropWhile isSpace

def isDigits (text : Text) : Bool := !text.isEmpty && text.all fun char => 48 ≤ char && char ≤ 57

def digitsValue (text : Text) : Nat :=
  text.foldl (fun value char => 10 * value + (char.toNat - 48)) 0

def sessionWidth : Nat := 10

def sequenceWidth : Nat := 20

def usernameWidth : Nat := 6

def passwordWidth : Nat := 10

def checkLength (type : UInt8) (payload : Bytes) (expected : Nat) : Except PacketError Unit :=
  if payload.length ≠ expected then .error (.wrongLength type expected payload.length) else .ok ()

def requireEmptyPayload (type : UInt8) (payload : Bytes) : Except PacketError Unit :=
  if payload ≠ [] then .error (.unexpectedPayload type payload.length) else .ok ()

def decodeSessionSequence (type : UInt8) (payload : Bytes) : Except PacketError (Text × Nat) := do
  let session ← decodeAscii (payload.take sessionWidth)
  let sequence ← decodeAscii ((payload.drop sessionWidth).take sequenceWidth)
  if isDigits (strip sequence) then return (strip session, digitsValue (strip sequence))
  else .error (.notDigits type (strip sequence))

def decodeLoginAccepted (payload : Bytes) : Except PacketError Packet := do
  checkLength (ascii 'A') payload (sessionWidth + sequenceWidth)
  let (session, sequence) ← decodeSessionSequence (ascii 'A') payload
  return .loginAccepted session sequence

def decodeLoginRejected (payload : Bytes) : Except PacketError Packet := do
  checkLength (ascii 'J') payload 1
  let rejectCode ← decodeAscii payload
  return .loginRejected rejectCode

def decodeLoginRequest (payload : Bytes) : Except PacketError Packet := do
  checkLength (ascii 'L') payload
    (usernameWidth + passwordWidth + sessionWidth + sequenceWidth)
  let username ← decodeAscii (payload.take usernameWidth)
  let password ← decodeAscii ((payload.drop usernameWidth).take passwordWidth)
  let (session, sequence) ←
    decodeSessionSequence (ascii 'L') (payload.drop (usernameWidth + passwordWidth))
  return .loginRequest (stripRight username) (stripRight password) session sequence

def decodeEmpty (type : UInt8) (packet : Packet) (payload : Bytes) : Except PacketError Packet := do
  requireEmptyPayload type payload
  return packet

/-- `decode_frame`: the type byte and the payload, without the length. -/
def decodeFrame : Bytes → Except PacketError Packet
  | [] => .error .emptyFrame
  | type :: payload =>
      if type = ascii 'A' then decodeLoginAccepted payload
      else if type = ascii 'J' then decodeLoginRejected payload
      else if type = ascii 'S' then .ok (.sequencedData payload)
      else if type = ascii 'H' then decodeEmpty type .serverHeartbeat payload
      else if type = ascii 'Z' then decodeEmpty type .endOfSession payload
      else if type = ascii '+' then .ok (.debugPacket payload)
      else if type = ascii 'L' then decodeLoginRequest payload
      else if type = ascii 'U' then .ok (.unsequencedData payload)
      else if type = ascii 'R' then decodeEmpty type .clientHeartbeat payload
      else if type = ascii 'O' then decodeEmpty type .logoutRequest payload
      else .error (.unknownType type)

/-! ## Frames -/

namespace FrameBuffer

/-- The loop of `feed`, cut off after `fuel` rounds: what is left in the buffer, and the
packets or the exception. -/
def feedUpTo : (fuel : Nat) → Bytes → List Packet → Bytes × Except PacketError (List Packet)
  | 0, buf, packets => (buf, .ok packets)
  | fuel + 1, buf, packets =>
      if buf.length < 2 then (buf, .ok packets)
      else
        let total := 2 + (beGetU16 buf).toNat
        if buf.length < total then (buf, .ok packets)
        else
          match decodeFrame ((buf.take total).drop 2) with
          | .error error => (buf.drop total, .error error)
          | .ok packet => feedUpTo fuel (buf.drop total) (packets ++ [packet])

/-- `feed`. Every round but the last takes two bytes, so the length bounds them. -/
def feed (buf data : Bytes) : Bytes × Except PacketError (List Packet) :=
  feedUpTo (buf ++ data).length (buf ++ data) []

def step (buf : Bytes) : FrameStep Bytes :=
  if buf.length < 2 then .more
  else
    let total := 2 + (beGetU16 buf).toNat
    if buf.length < total then .more else .frame ((buf.take total).drop 2) (buf.drop total)

variable {buf frame rest : Bytes}

theorem step_eq_frame (found : step buf = .frame frame rest) :
    2 + (beGetU16 buf).toNat ≤ buf.length ∧
      frame = (buf.take (2 + (beGetU16 buf).toNat)).drop 2 ∧
      rest = buf.drop (2 + (beGetU16 buf).toNat) := by
  unfold step at found
  split at found
  · cases found
  · dsimp only at found
    split at found
    · cases found
    · next long =>
        cases found
        exact ⟨Nat.not_lt.mp long, rfl, rfl⟩

theorem step_of_length {buf : Bytes} (long : 2 + (beGetU16 buf).toNat ≤ buf.length) :
    step buf = .frame ((buf.take (2 + (beGetU16 buf).toNat)).drop 2)
      (buf.drop (2 + (beGetU16 buf).toNat)) := by
  rw [step, if_neg (by omega)]
  exact if_neg (Nat.not_lt.mpr long)

def framing : Framing Bytes where
  step := step
  shrinks := by
    intro buf frame rest found
    rcases step_eq_frame found with ⟨long, -, rfl⟩
    rw [List.length_drop]
    omega
  frame_append := by
    intro buf frame rest later found
    rcases step_eq_frame found with ⟨long, rfl, rfl⟩
    have plen := beGetU16_append later (show 2 ≤ buf.length by omega)
    rw [step_of_length (by rw [plen, List.length_append]; omega), plen,
      List.take_append_of_le_length long, List.drop_append_of_le_length long]

theorem exists_piece (found : framing.step buf = .frame frame rest) :
    ∃ piece, buf = piece ++ rest ∧ framing.step piece = .frame frame [] := by
  rcases step_eq_frame found with ⟨long, rfl, rfl⟩
  let total := 2 + (beGetU16 buf).toNat
  have length : (buf.take total).length = total := List.length_take_of_le long
  have plen : beGetU16 (buf.take total) = beGetU16 buf := by
    have same := beGetU16_append (buf.drop total) (show 2 ≤ (buf.take total).length by omega)
    rw [List.take_append_drop] at same
    exact same.symm
  refine ⟨buf.take total, (List.take_append_drop _ _).symm, ?_⟩
  have whole := step_of_length (show 2 + (beGetU16 (buf.take total)).toNat ≤ _ by
    rw [plen, length])
  have nothing : (buf.take total).drop total = [] := List.drop_of_length_le length.le
  rw [plen, List.take_take, Nat.min_self, nothing] at whole
  exact whole

private theorem feedUpTo_frame (found : framing.step buf = .frame frame rest) (fuel : Nat)
    (packets : List Packet) :
    feedUpTo (fuel + 1) buf packets =
      match decodeFrame frame with
      | .error error => (rest, .error error)
      | .ok packet => feedUpTo fuel rest (packets ++ [packet]) := by
  rcases step_eq_frame found with ⟨long, rfl, rfl⟩
  rw [feedUpTo, if_neg (by omega)]
  exact if_neg (Nat.not_lt.mpr long)

private theorem feedUpTo_stuck {buf : Bytes} (stuck : framing.Stuck buf) (fuel : Nat)
    (packets : List Packet) : feedUpTo fuel buf packets = (buf, .ok packets) := by
  cases fuel with
  | zero => rfl
  | succ fuel =>
      rw [feedUpTo]
      split
      · rfl
      · dsimp only
        split
        · rfl
        · next long => exact absurd (step_of_length (Nat.not_lt.mp long)) (stuck _ _)

private theorem feedUpTo_eq (buf : Bytes) (fuel : Nat) (packets : List Packet)
    (enough : buf.length ≤ fuel) :
    (feedUpTo fuel buf packets).2 =
        ((framing.drain buf).1.mapM decodeFrame).map (packets ++ ·) ∧
      (((framing.drain buf).1.mapM decodeFrame).isOk = true →
        (feedUpTo fuel buf packets).1 = (framing.drain buf).2) := by
  induction buf using framing.frame_induction generalizing fuel packets with
  | stuck buf stuck =>
      rw [feedUpTo_stuck stuck, framing.drain_stuck stuck]
      exact ⟨congrArg Except.ok (List.append_nil packets).symm, fun _ => rfl⟩
  | frame buf frame rest found induction =>
      have shorter := framing.shrinks found
      cases fuel with
      | zero => omega
      | succ fuel =>
          rw [feedUpTo_frame found, framing.drain_frame found, List.mapM_cons]
          cases decoded : decodeFrame frame with
          | error error => exact ⟨rfl, nofun⟩
          | ok packet =>
              obtain ⟨result, left⟩ := induction fuel (packets ++ [packet]) (by omega)
              dsimp only
              rw [result]
              cases rest : (framing.drain rest).1.mapM decodeFrame with
              | error error => exact ⟨rfl, nofun⟩
              | ok later =>
                  rw [rest] at left
                  refine ⟨?_, fun _ => left rfl⟩
                  exact congrArg Except.ok (List.append_assoc packets [packet] later)

theorem feed_eq (buf data : Bytes) :
    (feed buf data).2 = (framing.drain (buf ++ data)).1.mapM decodeFrame ∧
      (((framing.drain (buf ++ data)).1.mapM decodeFrame).isOk = true →
        (feed buf data).1 = (framing.drain (buf ++ data)).2) := by
  have whole := feedUpTo_eq (buf ++ data) (buf ++ data).length [] (Nat.le_refl _)
  rw [feed]
  refine ⟨whole.1.trans ?_, whole.2⟩
  cases (framing.drain (buf ++ data)).1.mapM decodeFrame <;> rfl

end FrameBuffer

/-! ## The session -/

inductive SessionState where
  | connected
  | loginSent
  | live
  | ended
  | failed
deriving DecidableEq

/-- `SoupSession`, without the clock and what it has queued for sending. -/
structure SoupSession where
  sessionId : Text := []
  nextSeq : Nat := 1
  state : SessionState := .connected
  rejectCode : Option Text := none
  frames : Bytes := []

inductive SessionEvent where
  | loginAccepted (sessionId : Text) (nextSeq : Nat)
  | loginRejected (rejectCode : Text)
  | message (seq : Nat) (payload : Bytes)
  | endOfSession
deriving DecidableEq

namespace SoupSession

/-- `_handle_packet`, with the callback it makes. -/
def handlePacket (session : SoupSession) : Packet → SoupSession × Option SessionEvent
  | .loginAccepted sessionId sequence =>
      ({ session with sessionId, nextSeq := sequence, state := .live },
        some (.loginAccepted sessionId sequence))
  | .loginRejected code =>
      ({ session with state := .failed, rejectCode := some code }, some (.loginRejected code))
  | .sequencedData payload =>
      ({ session with nextSeq := session.nextSeq + 1 }, some (.message session.nextSeq payload))
  | .endOfSession => ({ session with state := .ended }, some .endOfSession)
  | _ => (session, none)

end SoupSession

end ProtoFH.Prototype
