import ProtoFH.Prototype.Session

/-! # The exchange simulator's ITCH server

`_handle_itch` answers each connection on its own: it reads a login, and replays the
messages from the requested sequence number on. -/

namespace ProtoFH.Prototype

/-! ## Logins -/

structure Login where
  username : Text
  password : Text
  requestedSession : Text
  requestedSequence : Nat
deriving DecidableEq

def Packet.login? : Packet → Option Login
  | .loginRequest username password requestedSession requestedSequence =>
      some { username, password, requestedSession, requestedSequence }
  | _ => none

/-- `_read_login`, with what it has buffered and the chunks that arrive before the client
closes. Nothing is returned for a frame that cannot be decoded: the exception ends the
connection. -/
def readLogin (buf : Bytes) : List Bytes → Option Login
  | [] => none
  | data :: chunks =>
      match FrameBuffer.feed buf data with
      | (_, .error _) => none
      | (left, .ok packets) =>
          match packets.findSome? Packet.login? with
          | some login => some login
          | none => readLogin left chunks

variable {chunks : List Bytes} {login : Login}

private theorem readLogin_mem {buf : Bytes} (read : readLogin buf chunks = some login) :
    ∃ body ∈ (FrameBuffer.framing.drain (buf ++ chunks.flatten)).1,
      ∃ packet, decodeFrame body = .ok packet ∧ packet.login? = some login := by
  induction chunks generalizing buf with
  | nil => cases read
  | cons data chunks induction =>
      obtain ⟨found, left⟩ := FrameBuffer.feed_eq buf data
      rw [List.flatten_cons, ← List.append_assoc, FrameBuffer.framing.drain_append]
      rw [readLogin] at read
      rcases fed : FrameBuffer.feed buf data with ⟨after, error | packets⟩
      · rw [fed] at read
        cases read
      · rw [fed] at read found left
        dsimp only at read found left
        rw [← found] at left
        cases first : packets.findSome? Packet.login? with
        | none =>
            rw [first] at read
            obtain ⟨body, member, packet⟩ := induction read
            exact ⟨body, List.mem_append_right _ (left rfl ▸ member), packet⟩
        | some other =>
            rw [first] at read
            cases read
            obtain ⟨packet, member, isLogin⟩ := List.exists_of_findSome?_eq_some first
            obtain ⟨body, framed, decoded⟩ := exists_mem_of_mapM_eq_ok found.symm member
            exact ⟨body, List.mem_append_left _ framed, packet, decoded, isLogin⟩

private theorem decodeFrame_of_readLogin {type : UInt8} {payload : Bytes}
    (fits : 1 + payload.length < 65536)
    (sent : chunks.flatten <+: bePut 2 (1 + payload.length) ++ type :: payload)
    (read : readLogin [] chunks = some login) :
    ∃ packet, decodeFrame (type :: payload) = .ok packet ∧ packet.login? = some login := by
  have alone := FrameBuffer.step_framed type payload [] fits
  rw [List.append_nil] at alone
  have frames := FrameBuffer.framing.drain_isPrefix sent
  rw [FrameBuffer.framing.drain_frame alone,
    FrameBuffer.framing.drain_stuck FrameBuffer.framing.stuck_nil] at frames
  obtain ⟨body, member, holds⟩ := readLogin_mem read
  rw [List.mem_singleton.mp (frames.subset member)] at holds
  exact holds

theorem requestedSequence_of_readLogin {username password session : Bytes} {sequence : Nat}
    (usernameLength : username.length = usernameWidth)
    (passwordLength : password.length = passwordWidth)
    (sessionLength : session.length = sessionWidth)
    (fits : (decimal sequence).length ≤ sequenceWidth)
    (sent : chunks.flatten <+: bePut 2 47 ++ ascii 'L' ::
      (username ++ password ++ session ++ padLeft sequenceWidth (decimal sequence)))
    (read : readLogin [] chunks = some login) : login.requestedSequence = sequence := by
  let fields := username ++ password ++ session ++ padLeft sequenceWidth (decimal sequence)
  have length : fields.length = 46 := by
    rw [List.length_append, List.length_append, List.length_append, usernameLength,
      passwordLength, sessionLength, padLeft_length fits]
    rfl
  have size : 1 + fields.length = 47 := by rw [length]
  obtain ⟨packet, decoded, isLogin⟩ :=
    decodeFrame_of_readLogin (by omega) (size.symm ▸ sent) read
  change decodeLoginRequest fields = .ok packet at decoded
  rw [decodeLoginRequest] at decoded
  obtain ⟨-, -, decoded⟩ := except_bind_eq_ok.mp decoded
  obtain ⟨name, -, decoded⟩ := except_bind_eq_ok.mp decoded
  obtain ⟨word, -, decoded⟩ := except_bind_eq_ok.mp decoded
  obtain ⟨⟨sessionId, number⟩, found, decoded⟩ := except_bind_eq_ok.mp decoded
  have rest : fields.drop (usernameWidth + passwordWidth) =
      session ++ padLeft sequenceWidth (decimal sequence) := by
    have front : (username ++ password).length = usernameWidth + passwordWidth := by
      rw [List.length_append, usernameLength, passwordLength]
    have split : fields = username ++ password ++
        (session ++ padLeft sequenceWidth (decimal sequence)) := List.append_assoc ..
    rw [split, drop_append_of_length _ _ front]
  rw [rest, decodeSessionSequence_eq _ sessionLength fits] at found
  split at found
  · cases found
    cases decoded
    cases isLogin
    rfl
  · cases found

/-! ## The server -/

/-- The simulator as its ITCH server uses it. A list has fewer than `2 ^ 63` elements. -/
structure ExchangeSimulator where
  messages : List Bytes
  username : Text
  password : Text
  sessionId : Text
  indexed : messages.length < 2 ^ 63

namespace ExchangeSimulator

/-- What `_handle_itch` sends from a sequence number on. -/
def replay (server : ExchangeSimulator) (seq : Nat) : List Packet :=
  .loginAccepted server.sessionId seq ::
    (server.messages.drop (seq - 1)).map .sequencedData ++ [.endOfSession]

/-- What `_handle_itch` sends after it has read a login. -/
def answer (server : ExchangeSimulator) (login : Login) : List Packet :=
  -- `_validate_credentials`
  if login.username ≠ server.username ∨ login.password ≠ server.password then
    [.loginRejected [ascii 'A']]
  else if login.requestedSession ≠ [] ∧ login.requestedSession ≠ server.sessionId then
    [.loginRejected [ascii 'S']]
  else
    let requested := if login.requestedSequence = 0 then server.messages.length + 1
      else login.requestedSequence
    server.replay (max requested 1)

/-- `_handle_itch`, on a connection on which the client sends these chunks. -/
def handleItch (server : ExchangeSimulator) (chunks : List Bytes) : List Packet :=
  match readLogin [] chunks with
  | none => []
  | some login => server.answer login

end ExchangeSimulator

def Packet.isIdle : Packet → Bool
  | .serverHeartbeat | .debugPacket _ => true
  | _ => false

/-- The packets are those of an answer with heartbeats and debug packets between them. -/
def Interleaves (packets answer : List Packet) : Prop := packets.filter (!·.isIdle) = answer

instance (packets answer : List Packet) : Decidable (Interleaves packets answer) :=
  inferInstanceAs (Decidable (_ = _))

/-- The bytes of packets that are sent one after the other. The exception of a packet that
cannot be encoded ends the connection. -/
def transmit : List Packet → Bytes
  | [] => []
  | packet :: packets =>
      match packet.encode with
      | .ok bytes => bytes ++ transmit packets
      | .error _ => []

/-! ## What an answer tells -/

private theorem relevant_replay (server : ExchangeSimulator) (seq : Nat) :
    Notice.relevant ((server.replay seq).map Packet.notice) =
      .restart seq :: (server.messages.drop (seq - 1)).map .item := by
  have data : Notice.relevant (((server.messages.drop (seq - 1)).map .sequencedData).map
      Packet.notice) = (server.messages.drop (seq - 1)).map .item := by
    rw [List.map_map]
    refine List.filter_eq_self.mpr fun notice member => ?_
    obtain ⟨message, -, rfl⟩ := List.mem_map.mp member
    rfl
  rw [ExchangeSimulator.replay, List.cons_append, List.map_cons, List.map_append, ← data,
    Notice.relevant, List.filter_cons_of_pos rfl, List.filter_append]
  exact congrArg (_ :: ·) (List.append_nil _)

theorem relevant_answer (server : ExchangeSimulator) (positive : 1 ≤ login.requestedSequence) :
    Notice.relevant ((server.answer login).map Packet.notice) <+:
      .restart login.requestedSequence ::
        (server.messages.drop (login.requestedSequence - 1)).map .item := by
  rw [ExchangeSimulator.answer]
  split
  · exact List.nil_prefix
  · split
    · exact List.nil_prefix
    · rw [if_neg (Nat.ne_of_gt positive)]
      dsimp only
      rw [Nat.max_eq_left positive, relevant_replay]

theorem Interleaves.relevant_eq {packets answer : List Packet}
    (interleaves : Interleaves packets answer) :
    Notice.relevant (packets.map Packet.notice) = Notice.relevant (answer.map Packet.notice) := by
  rw [← show packets.filter (!·.isIdle) = answer from interleaves, Notice.relevant,
    Notice.relevant, List.filter_map, List.filter_map, List.filter_filter]
  congr 2
  funext packet
  cases packet <;> rfl

theorem Interleaves.type_ne {packets : List Packet} {server : ExchangeSimulator}
    (interleaves : Interleaves packets (server.handleItch chunks)) :
    ∀ packet ∈ packets, packet.type ≠ ascii 'L' := by
  have answered : ∀ packet ∈ server.handleItch chunks, packet.type ≠ ascii 'L' := by
    rw [ExchangeSimulator.handleItch]
    split
    · exact fun packet member => absurd member List.not_mem_nil
    · rw [ExchangeSimulator.answer]
      split
      · exact List.forall_mem_singleton.mpr (by decide)
      · split
        · exact List.forall_mem_singleton.mpr (by decide)
        · refine List.forall_mem_append.mpr
            ⟨List.forall_mem_cons.mpr ⟨?_, ?_⟩, List.forall_mem_singleton.mpr (by decide)⟩
          · change ascii 'A' ≠ ascii 'L'
            decide
          · intro packet member
            obtain ⟨message, -, rfl⟩ := List.mem_map.mp member
            change ascii 'S' ≠ ascii 'L'
            decide
  intro packet member
  cases idle : packet.isIdle with
  | false =>
      apply answered
      rw [← show packets.filter (!·.isIdle) = _ from interleaves, List.mem_filter]
      exact ⟨member, by rw [idle]; rfl⟩
  | true =>
      cases packet with
      | serverHeartbeat => decide
      | debugPacket payload =>
          change ascii '+' ≠ ascii 'L'
          decide
      | _ => cases idle

/-! ## Packets on the wire -/

structure SentPacket where
  packet : Packet
  payload : Bytes
  encodes : packet.EncodesAs payload

namespace SentPacket

def wire (sent : SentPacket) : Bytes :=
  bePut 2 (1 + sent.payload.length) ++ sent.packet.type :: sent.payload

def body (sent : SentPacket) : Bytes := sent.packet.type :: sent.payload

theorem step_wire (sent : SentPacket) (rest : Bytes) :
    FrameBuffer.framing.step (sent.wire ++ rest) = .frame sent.body rest :=
  FrameBuffer.step_framed _ _ rest sent.encodes.2

theorem mapM_decodeFrame {sent : List SentPacket}
    (server : ∀ item ∈ sent, item.packet.type ≠ ascii 'L') :
    ∃ decoded, (sent.map body).mapM decodeFrame = .ok decoded ∧
      decoded.map Packet.notice = sent.map (·.packet.notice) := by
  induction sent with
  | nil => exact ⟨[], rfl, rfl⟩
  | cons item sent induction =>
      rw [List.forall_mem_cons] at server
      obtain ⟨first, decodedFirst, notice⟩ := item.encodes.decodeFrame_notice server.1
      obtain ⟨later, decodedLater, notices⟩ := induction server.2
      refine ⟨first :: later, ?_, ?_⟩
      · rw [List.map_cons, List.mapM_cons, body, decodedFirst, decodedLater]
        rfl
      · rw [List.map_cons, List.map_cons, notice, notices]

end SentPacket

private theorem exists_sent (packets : List Packet) :
    ∃ sent : List SentPacket, sent.map (·.packet) <+: packets ∧
      transmit packets = sent.flatMap SentPacket.wire := by
  induction packets with
  | nil => exact ⟨[], List.nil_prefix, rfl⟩
  | cons packet packets induction =>
      rw [transmit]
      cases encoded : packet.encode with
      | error error => exact ⟨[], List.nil_prefix, rfl⟩
      | ok bytes =>
          obtain ⟨payload, encodes, rfl⟩ := Packet.exists_encodesAs encoded
          obtain ⟨sent, front, rest⟩ := induction
          refine ⟨⟨packet, payload, encodes⟩ :: sent, ?_, ?_⟩
          · exact List.cons_prefix_cons.mpr ⟨rfl, front⟩
          · rw [List.flatMap_cons, ← rest]
            rfl

private theorem transmit_sent (sent : List SentPacket) :
    transmit (sent.map (·.packet)) = sent.flatMap SentPacket.wire := by
  induction sent with
  | nil => rfl
  | cons first sent induction =>
      rw [List.map_cons, transmit, first.encodes.encode_eq, List.flatMap_cons, induction]
      rfl

theorem exists_delivered {framing : Framing φ} {value : SentPacket → φ}
    (found : ∀ sent rest, framing.step (SentPacket.wire sent ++ rest) = .frame (value sent) rest)
    {packets : List Packet} {delivered : Bytes} (cut : delivered <+: transmit packets) :
    ∃ got : List SentPacket, got.map (·.packet) <+: packets ∧
      (framing.drain delivered).1 = got.map value ∧
      ∀ front : List SentPacket, front.map (·.packet) <+: packets →
        transmit (front.map (·.packet)) <+: delivered →
        front.map (·.packet) <+: got.map (·.packet) := by
  obtain ⟨sent, front, wire⟩ := exists_sent packets
  have drained : framing.drain (sent.flatMap SentPacket.wire) = (sent.map value, []) :=
    framing.drain_flatMap fun item _ => found item
  have frames := framing.drain_isPrefix (wire ▸ cut)
  rw [drained, List.prefix_map_iff] at frames
  obtain ⟨got, shorter, frames⟩ := frames
  refine ⟨got, (shorter.map _).trans front, frames, fun whole first arrived => ?_⟩
  -- A front that has arrived has no more packets than were found.
  have arrived := framing.drain_isPrefix arrived
  rw [transmit_sent, framing.drain_flatMap fun item _ => found item, frames] at arrived
  apply List.prefix_of_prefix_length_le first ((shorter.map _).trans front)
  have fewer := arrived.length_le
  rw [List.length_map, List.length_map] at fewer
  rwa [List.length_map, List.length_map]

end ProtoFH.Prototype
