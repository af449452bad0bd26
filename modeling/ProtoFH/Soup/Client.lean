import ProtoFH.Foundation.Decimal
import ProtoFH.Foundation.Resume
import ProtoFH.Soup.Framer

/-! # The SoupBinTCP client session

The session is given bytes and makes callbacks. The sequence numbers are its own count:
the server names the first, and none is on the wire with a message. `reset` prepares the
session for another connection and keeps the resume point. -/

namespace ProtoFH

/-! ## Login packets -/

structure SoupLoginRequest where
  username : CStr 6
  password : CStr 10
  requestedSession : CStr 10
  requestedSequence : UInt64

structure SoupLoginAccepted where
  session : CStr 10
  sequence : UInt64

structure SoupLoginRejected where
  rejectCode : UInt8

/-- `get_padded_str`: spaces are stripped on both sides. -/
def getPaddedStr (width : Nat) (p : Bytes) : CStr width :=
  CStr.copy width (stripRight ((p.take width).dropWhile (· = space)))

def putRightPadded (width : Nat) (s : Bytes) : Bytes := putAlpha width s

def putLeftPadded (width : Nat) (s : Bytes) : Bytes := padLeft width (s.take width)

/-- The loop of `parse_seq_field`: the value so far and the next character. -/
def parseSeqDigit (v : UInt64) (char : UInt8) : Option UInt64 :=
  if char < ascii '0' ∨ char > ascii '9' then none
  else some (v * 10 + UInt64.ofNat (char - ascii '0').toNat)

def parseSeqField (width : Nat) (p : Bytes) : Option UInt64 :=
  match (p.take width).dropWhile (· = space) with
  | [] => none
  | digits => digits.foldlM parseSeqDigit 0

def putSeqField (width : Nat) (v : UInt64) : Bytes := putLeftPadded width (decimal v.toNat)

def soupParseLoginAccepted (payload : Bytes) : Except String SoupLoginAccepted :=
  if payload.length ≠ 10 + 20 then .error "LoginAccepted payload must be 30 bytes"
  else
    match parseSeqField 20 (payload.drop 10) with
    | none => .error "LoginAccepted bad sequence"
    | some sequence => .ok { session := getPaddedStr 10 payload, sequence }

def soupParseLoginRejected (payload : Bytes) : Except String SoupLoginRejected :=
  if payload.length ≠ 1 then .error "LoginRejected payload must be 1 byte"
  else .ok ⟨beGetU8 payload⟩

def soupBuildLoginRequest (request : SoupLoginRequest) : Bytes :=
  bePutU16 (1 + 46) ++ ascii 'L' ::
    (putRightPadded 6 request.username.bytes ++ putRightPadded 10 request.password.bytes ++
      putLeftPadded 10 request.requestedSession.bytes ++
      putSeqField 20 request.requestedSequence)

/-! ## The session -/

inductive SoupState where
  | connected
  | loginSent
  | live
  | ended
  | failed
deriving DecidableEq

inductive SoupEvent where
  | loginAccepted (sessionId : Bytes) (nextSeq : UInt64)
  | loginRejected (rejectCode : UInt8)
  | message (seq : UInt64) (payload : Bytes)
  | endOfSession
deriving DecidableEq

structure SoupClientSession where
  username : Bytes
  password : Bytes
  sessionId : Bytes := []
  nextSeq : UInt64 := 1
  state : SoupState := .connected
  rejectCode : UInt8 := 0
  framer : SoupFramer := {}
  out : Bytes := []

namespace SoupClientSession

def reset (client : SoupClientSession) : SoupClientSession :=
  { client with framer := {}, out := [], state := .connected, rejectCode := 0 }

def start (client : SoupClientSession) : SoupClientSession :=
  let req : SoupLoginRequest :=
    { username := CStr.copy 6 client.username
      password := CStr.copy 10 client.password
      requestedSession := CStr.copy 10 client.sessionId
      requestedSequence := client.nextSeq }
  { client with out := client.out ++ soupBuildLoginRequest req, state := .loginSent }

/-- A packet that is not understood is ignored, and so is a login acceptance that cannot
be parsed. -/
def handlePacket (client : SoupClientSession) (pkt : SoupPacket) :
    SoupClientSession × Option SoupEvent :=
  if pkt.type = ascii 'A' then
    match soupParseLoginAccepted pkt.payload with
    | .error _ => (client, none)
    | .ok la =>
        ({ client with sessionId := la.session.bytes, nextSeq := la.sequence, state := .live },
          some (.loginAccepted la.session.bytes la.sequence))
  else if pkt.type = ascii 'J' then
    let rejectCode :=
      match soupParseLoginRejected pkt.payload with
      | .error _ => client.rejectCode
      | .ok rj => rj.rejectCode
    ({ client with rejectCode, state := .failed }, some (.loginRejected rejectCode))
  else if pkt.type = ascii 'S' then
    ({ client with nextSeq := client.nextSeq + 1 }, some (.message client.nextSeq pkt.payload))
  else if pkt.type = ascii 'Z' then ({ client with state := .ended }, some .endOfSession)
  else (client, none)

def handlePackets (client : SoupClientSession) :
    List SoupPacket → SoupClientSession × List SoupEvent
  | [] => (client, [])
  | pkt :: packets =>
      let (handled, event) := client.handlePacket pkt
      let (after, events) := handlePackets handled packets
      (after, event.toList ++ events)

/-- `on_bytes`. Handling a packet does not touch the framer, so that all packets may be
taken from it first. -/
def onBytes (client : SoupClientSession) (data : Bytes) : SoupClientSession × List SoupEvent :=
  let (packets, framer) := SoupFramer.reader.drained (client.framer.feed data)
  handlePackets { client with framer } packets

def receive (client : SoupClientSession) : List Bytes → SoupClientSession × List SoupEvent
  | [] => (client, [])
  | data :: chunks =>
      let (after, events) := client.onBytes data
      let (last, later) := receive after chunks
      (last, events ++ later)

end SoupClientSession

/-! ## Sequence numbers on the wire -/

theorem parseSeqDigit_digit (value last : Nat) (small : last < 10) :
    parseSeqDigit (UInt64.ofNat value) (digit last) = some (UInt64.ofNat (10 * value + last)) := by
  have isDigit := isDigit_digit small
  have inside : ¬(digit last < ascii '0' ∨ digit last > ascii '9') := by
    rw [not_or]
    exact ⟨UInt8.not_lt.mpr isDigit.1, UInt8.not_lt.mpr isDigit.2⟩
  have low : (digit last - ascii '0').toNat = last := by
    have zero : ascii '0' ≤ digit last := isDigit.1
    rw [UInt8.toNat_sub_of_le _ _ zero, digit_toNat small]
    exact Nat.add_sub_cancel_left 48 last
  rw [parseSeqDigit, if_neg inside, low, UInt64.ofNat_add, UInt64.ofNat_mul, UInt64.mul_comm]
  rfl

theorem dropWhile_padLeft_decimal (width value : Nat) :
    (padLeft width (decimal value)).dropWhile (· = space) = decimal value := by
  apply dropWhile_padLeft width (by decide)
  intro char member
  have isDigit := isDigit_of_mem_decimal member
  rw [decide_eq_false_iff_not]
  rintro rfl
  exact absurd isDigit (by decide)

private theorem parseSeqField_padLeft {value : Nat} (fits : (decimal value).length ≤ 20) :
    parseSeqField 20 (padLeft 20 (decimal value)) = some (UInt64.ofNat value) := by
  rw [parseSeqField, List.take_of_length_le (padLeft_length fits).le, dropWhile_padLeft_decimal]
  split
  · next empty => exact absurd empty (decimal_ne_nil value)
  · exact foldlM_decimal UInt64.ofNat parseSeqDigit_digit value

theorem soupParseLoginAccepted_eq {session : Bytes} {sequence : Nat}
    (width : session.length = 10) (fits : (decimal sequence).length ≤ 20) :
    soupParseLoginAccepted (session ++ padLeft 20 (decimal sequence)) =
      .ok { session := getPaddedStr 10 (session ++ padLeft 20 (decimal sequence))
            sequence := UInt64.ofNat sequence } := by
  rw [soupParseLoginAccepted, List.length_append, width, padLeft_length fits,
    if_neg (by decide), drop_append_of_length _ 10 width, parseSeqField_padLeft fits]

/-! ## What a connection delivers -/

def SoupEvent.message? : SoupEvent → Option (Nat × Bytes)
  | .message seq payload => some (seq.toNat, payload)
  | _ => none

def SoupPacket.notice (pkt : SoupPacket) : Notice Bytes :=
  if pkt.type = ascii 'A' then
    match soupParseLoginAccepted pkt.payload with
    | .error _ => .other
    | .ok la => .restart la.sequence.toNat
  else if pkt.type = ascii 'S' then .item pkt.payload
  else .other

theorem SoupPacket.notice_accepted {payload : Bytes} {la : SoupLoginAccepted}
    (parsed : soupParseLoginAccepted payload = .ok la) :
    notice ⟨ascii 'A', payload⟩ = .restart la.sequence.toNat := by
  rw [notice, if_pos rfl, parsed]

def wrapped (read : List (Nat × Bytes)) : List (Nat × Bytes) :=
  read.map fun (seq, payload) => (seq % 2 ^ 64, payload)

namespace SoupClientSession

theorem handlePacket_count (client : SoupClientSession) (pkt : SoupPacket) {next : Nat}
    (counts : client.nextSeq = UInt64.ofNat next) (read : List (Nat × Bytes)) :
    (client.handlePacket pkt).1.nextSeq = UInt64.ofNat (pkt.notice.count (next, read)).1 ∧
      wrapped read ++ (client.handlePacket pkt).2.toList.filterMap SoupEvent.message? =
        wrapped (pkt.notice.count (next, read)).2 := by
  have same : wrapped read ++ [] = wrapped read := List.append_nil _
  rw [handlePacket, SoupPacket.notice]
  by_cases accepted : pkt.type = ascii 'A'
  · rw [if_pos accepted, if_pos accepted]
    cases soupParseLoginAccepted pkt.payload with
    | error err => exact ⟨counts, same⟩
    | ok la => exact ⟨(UInt64.ofNat_toNat).symm, same⟩
  · rw [if_neg accepted, if_neg accepted]
    by_cases rejected : pkt.type = ascii 'J'
    · rw [if_pos rejected, if_neg (by rw [rejected]; decide)]
      exact ⟨counts, same⟩
    · rw [if_neg rejected]
      by_cases data : pkt.type = ascii 'S'
      · rw [if_pos data, if_pos data]
        have number : client.nextSeq.toNat = next % 2 ^ 64 := by
          rw [counts, UInt64.toNat_ofNat']
        refine ⟨?_, ?_⟩
        · change client.nextSeq + 1 = UInt64.ofNat (next + 1)
          rw [counts, UInt64.ofNat_add]
          rfl
        · change wrapped read ++ [(client.nextSeq.toNat, pkt.payload)] =
            wrapped (read ++ [(next, pkt.payload)])
          rw [number, wrapped, wrapped, List.map_append]
          rfl
      · rw [if_neg data, if_neg data]
        by_cases ended : pkt.type = ascii 'Z'
        · rw [if_pos ended]
          exact ⟨counts, same⟩
        · rw [if_neg ended]
          exact ⟨counts, same⟩

theorem handlePackets_count (packets : List SoupPacket) (client : SoupClientSession) {next : Nat}
    (counts : client.nextSeq = UInt64.ofNat next) (read : List (Nat × Bytes)) :
    let reader := (packets.map SoupPacket.notice).foldl Notice.count (next, read)
    (client.handlePackets packets).1.nextSeq = UInt64.ofNat reader.1 ∧
      wrapped read ++ (client.handlePackets packets).2.filterMap SoupEvent.message? =
        wrapped reader.2 := by
  induction packets generalizing client next read with
  | nil => exact ⟨counts, List.append_nil _⟩
  | cons pkt packets induction =>
      obtain ⟨counted, told⟩ := handlePacket_count client pkt counts read
      have rest := induction (client.handlePacket pkt).1 counted
        (pkt.notice.count (next, read)).2
      rw [← told, List.append_assoc, ← List.filterMap_append] at rest
      exact rest

private theorem handlePackets_framer (packets : List SoupPacket) (client : SoupClientSession) :
    (client.handlePackets packets).1.framer = client.framer := by
  induction packets generalizing client with
  | nil => rfl
  | cons pkt packets induction =>
      have kept : (client.handlePacket pkt).1.framer = client.framer := by
        rw [handlePacket]
        split
        · split <;> rfl
        · split
          · rfl
          · split
            · rfl
            · split <;> rfl
      rw [← kept]
      exact induction _

theorem receive_count (chunks : List Bytes) {client : SoupClientSession} {next : Nat}
    (stuck : SoupFramer.framing.Stuck client.framer.buf)
    (counts : client.nextSeq = UInt64.ofNat next) (read : List (Nat × Bytes)) :
    let packets := (SoupFramer.framing.drain (client.framer.buf ++ chunks.flatten)).1.filterMap id
    let reader := (packets.map SoupPacket.notice).foldl Notice.count (next, read)
    (client.receive chunks).1.nextSeq = UInt64.ofNat reader.1 ∧
      wrapped read ++ (client.receive chunks).2.filterMap SoupEvent.message? =
        wrapped reader.2 := by
  induction chunks generalizing client next read with
  | nil =>
      rw [List.flatten_nil, List.append_nil, SoupFramer.framing.drain_stuck stuck]
      exact ⟨counts, List.append_nil _⟩
  | cons data chunks induction =>
      have drained := SoupFramer.drained_eq (client.framer.buf ++ data) client.framer.badFrames
      let first := (SoupFramer.framing.drain (client.framer.buf ++ data)).1.filterMap id
      let fed := { client with framer := (SoupFramer.reader.drained (client.framer.feed data)).2 }
      have onBytes_eq : client.onBytes data = fed.handlePackets first := by
        have packets : (SoupFramer.reader.drained (client.framer.feed data)).1 = first :=
          congrArg Prod.fst drained
        exact congrArg fed.handlePackets packets
      have framer : (fed.handlePackets first).1.framer.buf =
          (SoupFramer.framing.drain (client.framer.buf ++ data)).2 := by
        rw [handlePackets_framer]
        exact congrArg (·.2.buf) drained
      obtain ⟨counted, told⟩ := handlePackets_count first fed counts read
      have rest := induction (framer ▸ SoupFramer.framing.stuck_drain _) counted
        ((first.map SoupPacket.notice).foldl Notice.count (next, read)).2
      rw [← told, framer, List.append_assoc, ← List.filterMap_append] at rest
      dsimp only
      rw [List.flatten_cons, ← List.append_assoc, SoupFramer.framing.drain_append,
        List.filterMap_append, List.map_append, List.foldl_append, receive, onBytes_eq]
      exact rest

end SoupClientSession

end ProtoFH
