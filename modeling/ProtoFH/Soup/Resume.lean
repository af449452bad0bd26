import ProtoFH.Prototype.Exchange
import ProtoFH.Soup.Client

/-! # Resuming over lost connections

A client logs in at its resume point, a connection brings some of what the server sends
and is lost, and the client starts again. Over all connections the messages that it
reports are one stretch of the server's list, each reported as soon as its packet has
arrived. -/

namespace ProtoFH

open Prototype

/-! ## Clients and connections -/

structure Endpoint (σ : Type) where
  start : σ → Option σ
  /-- What is queued for the server. -/
  out : σ → Bytes
  /-- The chunks of a connection, with the calls of `on_message`. -/
  receive : σ → List Bytes → σ × List (Nat × Bytes)
  reset : σ → σ

def soupClientSession : Endpoint SoupClientSession where
  start client := some client.start
  out client := client.out
  receive client chunks :=
    let (after, events) := client.receive chunks
    (after, events.filterMap SoupEvent.message?)
  reset := SoupClientSession.reset

def soupSession : Endpoint LoginSession where
  start session := session.start.toOption
  out session := session.out
  receive session chunks :=
    let (after, events) := session.toSoupSession.receive chunks
    ({ session with toSoupSession := after }, events.filterMap SessionEvent.message?)
  reset := LoginSession.reset

/-- A connection: the chunks in which the login arrives at the server, the packets that
the server would send, and the chunks that arrive at the client. -/
structure Connection where
  asked : List Bytes
  packets : List Packet
  chunks : List Bytes

structure Connection.Served (connection : Connection) (server : ExchangeSimulator)
    (out : Bytes) : Prop where
  asked_isPrefix : connection.asked.flatten <+: out
  interleaves : Interleaves connection.packets (server.handleItch connection.asked)
  chunks_isPrefix : connection.chunks.flatten <+: transmit connection.packets

/-- The states that a client may be in after a number of connections, with the calls it has
made over all of them. -/
inductive Runs (server : ExchangeSimulator) (endpoint : Endpoint σ) (initial : σ) :
    σ → List (Nat × Bytes) → Prop
  | initial : Runs server endpoint initial initial []
  | connection (run : Runs server endpoint initial client calls)
      (started : endpoint.start client = some opened)
      (served : Connection.Served connection server (endpoint.out opened)) :
      Runs server endpoint initial
        (endpoint.reset (endpoint.receive opened connection.chunks).1)
        (calls ++ (endpoint.receive opened connection.chunks).2)

/-- A client that asks for number `start` first reports the messages from there on, in
order and without a gap, each once. A message is reported on a connection that brings its
packet, and so are all before it. -/
structure Lossless (server : ExchangeSimulator) (endpoint : Endpoint σ) (initial : σ)
    (start : Nat) : Prop where
  in_order : ∀ {client calls}, Runs server endpoint initial client calls →
    calls <+: numbered server.messages start
  reported : ∀ {client calls opened connection}, Runs server endpoint initial client calls →
    endpoint.start client = some opened →
    Connection.Served connection server (endpoint.out opened) →
    ∀ front : List SentPacket, front.map (·.packet) <+: connection.packets →
      transmit (front.map (·.packet)) <+: connection.chunks.flatten →
      numberFrom (start + calls.length)
          (Notice.items (front.map (·.packet.notice))) <+:
        (endpoint.receive opened connection.chunks).2

/-! ## One connection -/

/-- What is to be shown of one connection of a client that rests at number `next`: it
reports the messages of the packets that have arrived. -/
def Resumes (server : ExchangeSimulator) (endpoint : Endpoint σ) (rests : σ → Nat → Prop) : Prop :=
  ∀ {client next opened connection}, rests client next → 1 ≤ next →
    endpoint.start client = some opened →
    Connection.Served connection server (endpoint.out opened) →
    ∃ got : List SentPacket,
      let values := Notice.items (got.map (·.packet.notice))
      values <+: server.messages.drop (next - 1) ∧
      (endpoint.receive opened connection.chunks).2 = numberFrom next values ∧
      rests (endpoint.reset (endpoint.receive opened connection.chunks).1)
        (next + values.length) ∧
      ∀ front : List SentPacket, front.map (·.packet) <+: connection.packets →
        transmit (front.map (·.packet)) <+: connection.chunks.flatten →
        front.map (·.packet) <+: got.map (·.packet)

namespace Resumes

variable {server : ExchangeSimulator} {endpoint : Endpoint σ} {rests : σ → Nat → Prop}

theorem run (resumes : Resumes server endpoint rests) {initial client : σ} {start : Nat}
    (positive : 1 ≤ start) (resting : rests initial start) {calls : List (Nat × Bytes)}
    (runs : Runs server endpoint initial client calls) :
    rests client (start + calls.length) ∧
      Stretch server.messages start (start + calls.length) calls := by
  induction runs with
  | initial => exact ⟨resting, Stretch.refl _ _⟩
  | connection run started served induction =>
      obtain ⟨rested, stretch⟩ := induction
      obtain ⟨got, front, calls_eq, after, -⟩ :=
        resumes rested (Nat.le_add_right_of_le positive) started served
      rw [calls_eq, List.length_append, numberFrom_length, ← Nat.add_assoc]
      exact ⟨after, stretch.trans positive (Stretch.of_isPrefix front)⟩

theorem lossless (resumes : Resumes server endpoint rests) {initial : σ} {start : Nat}
    (positive : 1 ≤ start) (resting : rests initial start) :
    Lossless server endpoint initial start where
  in_order runs := (resumes.run positive resting runs).2.read_isPrefix
  reported := by
    intro client calls opened connection runs started served front first arrived
    have rested := (resumes.run positive resting runs).1
    obtain ⟨got, -, calls_eq, -, whole⟩ :=
      resumes rested (Nat.le_add_right_of_le positive) started served
    have fewer := ((whole front first arrived).map Packet.notice).filterMap Notice.item?
    rw [List.map_map, List.map_map] at fewer
    rw [calls_eq]
    exact numberFrom_isPrefix _ fewer

end Resumes

theorem Connection.Served.relevant_isPrefix {connection : Connection} {server : ExchangeSimulator}
    {out : Bytes} {next : Nat} (served : connection.Served server out) (positive : 1 ≤ next)
    (asks : ∀ login, readLogin [] connection.asked = some login →
      login.requestedSequence = next) :
    Notice.relevant (connection.packets.map Packet.notice) <+:
      .restart next :: (server.messages.drop (next - 1)).map .item := by
  rw [served.interleaves.relevant_eq, ExchangeSimulator.handleItch]
  cases read : readLogin [] connection.asked with
  | none => exact List.nil_prefix
  | some login =>
      obtain rfl := asks login read
      exact relevant_answer server positive

theorem foldl_count_delivered {packets : List Packet} {messages : List Bytes} {next : Nat}
    (told : Notice.relevant (packets.map Packet.notice) <+: .restart next :: messages.map .item)
    {got : List SentPacket} (first : got.map (·.packet) <+: packets) :
    let values := Notice.items (got.map (·.packet.notice))
    values <+: messages ∧
      (got.map (·.packet.notice)).foldl Notice.count (next, []) =
        (next + values.length, numberFrom next values) := by
  have front := Notice.relevant_isPrefix (first.map Packet.notice)
  rw [List.map_map] at front
  exact Notice.foldl_count (front.trans told)

private theorem wrapped_numberFrom {next : Nat} {values : List Bytes}
    (small : next + values.length ≤ 2 ^ 64) :
    wrapped (numberFrom next values) = numberFrom next values := by
  induction values generalizing next with
  | nil => rfl
  | cons value values induction =>
      rw [List.length_cons] at small
      have rest := @induction (next + 1) (by omega)
      have first : next % 2 ^ 64 = next := Nat.mod_eq_of_lt (by omega)
      exact congrArg₂ List.cons (congrArg (·, value) first) rest

/-! ## The C++ client -/

namespace SoupClientSession

/-- The session is ready for a connection and will ask for number `next`. -/
structure Rests (client : SoupClientSession) (next : Nat) : Prop where
  next_lt : next < 2 ^ 64
  nextSeq_eq : client.nextSeq = UInt64.ofNat next
  buf_eq : client.framer.buf = []
  out_eq : client.out = []

end SoupClientSession

def Prototype.SentPacket.soup (sent : SentPacket) : SoupPacket :=
  ⟨sent.packet.type, sent.payload⟩

private theorem step_wire_soup (sent : SentPacket) (rest : Bytes) :
    SoupFramer.framing.step (sent.wire ++ rest) = .frame (some sent.soup) rest := by
  have fits : 1 + sent.payload.length < 65536 := sent.encodes.2
  have length : (UInt16.ofNat (1 + sent.payload.length)).toNat = 1 + sent.payload.length := by
    rw [UInt16.toNat_ofNat']
    exact Nat.mod_eq_of_lt fits
  have built : sent.wire = soupBuildPacket sent.soup := by
    rw [soupBuildPacket, bePutU16, SentPacket.soup, length]
    rfl
  have bound : sent.soup.Fits := show sent.payload.length ≤ 65534 by omega
  rw [built]
  exact SoupFramer.step_build bound rest

private theorem notice_soup (sent : SentPacket)
    (small : ∀ seq, sent.packet.notice = .restart seq → seq < 2 ^ 64) :
    sent.soup.notice = sent.packet.notice := by
  obtain ⟨packet, payload, encodes⟩ := sent
  have built := encodes.1
  cases packet with
  | loginAccepted session sequence =>
      obtain ⟨sessionField, padding, built⟩ := except_bind_eq_ok.mp built
      obtain ⟨sequenceField, digits, built⟩ := except_bind_eq_ok.mp built
      cases built
      obtain ⟨-, sessionFits, rfl⟩ := padded_eq_ok padding
      obtain ⟨-, sequenceFits, rfl⟩ := padded_eq_ok digits
      have parsed := soupParseLoginAccepted_eq (padLeft_length sessionFits) sequenceFits
      exact (SoupPacket.notice_accepted parsed).trans
        (congrArg Notice.restart (UInt64.toNat_ofNat_of_lt' (small sequence rfl)))
  | sequencedData message => cases built; rfl
  | loginRejected code | serverHeartbeat | endOfSession | debugPacket message
  | loginRequest username password session sequence | unsequencedData message | clientHeartbeat
  | logoutRequest =>
      rfl

namespace SoupClientSession

theorem Rests.asks {client : SoupClientSession} {next : Nat} (rests : client.Rests next)
    {chunks : List Bytes} {login : Login} (sent : chunks.flatten <+: client.start.out)
    (read : readLogin [] chunks = some login) : login.requestedSequence = next := by
  have number : client.nextSeq.toNat = next := by
    rw [rests.nextSeq_eq]
    exact UInt64.toNat_ofNat_of_lt' rests.next_lt
  have fits : (decimal next).length ≤ 20 :=
    decimal_length_le (by decide) (Nat.lt_trans rests.next_lt (by decide))
  have field : putSeqField 20 client.nextSeq = padLeft 20 (decimal next) := by
    rw [putSeqField, putLeftPadded, number, List.take_of_length_le fits]
  let session := putLeftPadded 10 (CStr.copy 10 client.sessionId).bytes
  have out : client.start.out = bePut 2 47 ++ ascii 'L' ::
      (putAlpha 6 (CStr.copy 6 client.username).bytes ++
        putAlpha 10 (CStr.copy 10 client.password).bytes ++ session ++
        padLeft 20 (decimal next)) := by
    rw [← field, start, rests.out_eq]
    rfl
  rw [out] at sent
  exact requestedSequence_of_readLogin (putAlpha_length 6 _) (putAlpha_length 10 _)
    (padLeft_length (List.length_take_le 10 _)) fits sent read

theorem resumes (server : ExchangeSimulator) : Resumes server soupClientSession Rests := by
  intro client next opened connection rests positive started served
  cases started
  obtain ⟨got, first, frames, whole⟩ := exists_delivered step_wire_soup served.chunks_isPrefix
  have told := served.relevant_isPrefix positive fun _ read => rests.asks served.asked_isPrefix read
  -- The only number that the server names is the one that was asked for.
  have small : ∀ sent ∈ got, ∀ seq, sent.packet.notice = .restart seq → seq < 2 ^ 64 := by
    intro sent member seq isRestart
    have listed : sent.packet ∈ connection.packets := first.subset (List.mem_map_of_mem member)
    have heard : Notice.restart seq ∈ Notice.relevant (connection.packets.map Packet.notice) :=
      List.mem_filter.mpr ⟨isRestart ▸ List.mem_map_of_mem listed, rfl⟩
    rcases List.mem_cons.mp (told.subset heard) with same | item
    · cases same
      exact rests.next_lt
    · obtain ⟨_, _, same⟩ := List.mem_map.mp item
      cases same
  have packets : (SoupFramer.framing.drain connection.chunks.flatten).1.filterMap id =
      got.map SentPacket.soup := by
    rw [frames, List.filterMap_map]
    exact List.filterMap_eq_map ▸ rfl
  have notices : (got.map SentPacket.soup).map SoupPacket.notice =
      got.map (·.packet.notice) := by
    rw [List.map_map]
    exact List.map_congr_left fun sent member => notice_soup sent (small sent member)
  obtain ⟨values, counted⟩ := foldl_count_delivered told first
  have buf : client.start.framer.buf = [] := rests.buf_eq
  have stuck : SoupFramer.framing.Stuck client.start.framer.buf :=
    buf ▸ SoupFramer.framing.stuck_nil
  obtain ⟨after, calls⟩ := receive_count connection.chunks stuck rests.nextSeq_eq []
  rw [buf, List.nil_append, packets, notices, counted] at after calls
  -- A message has a place in the server's list, so its number fits.
  have bound : next + (Notice.items (got.map (·.packet.notice))).length < 2 ^ 64 := by
    have fewer := values.length_le
    have listed := server.indexed
    have asked := rests.next_lt
    rw [List.length_drop] at fewer
    omega
  refine ⟨got, values, ?_, ⟨bound, after, rfl, rfl⟩, whole⟩
  rw [wrapped_numberFrom bound.le] at calls
  exact calls

end SoupClientSession

/-! ## The prototype's client -/

namespace Prototype.LoginSession

/-- The session is ready for a connection and will ask for number `next`. -/
structure Rests (session : LoginSession) (next : Nat) : Prop where
  nextSeq_eq : session.nextSeq = next
  frames_eq : session.frames = []
  out_eq : session.out = []

private theorem start_eq_some {session opened : LoginSession}
    (started : soupSession.start session = some opened) :
    ∃ bytes, (Packet.loginRequest session.username session.password session.sessionId
        session.nextSeq).encode = .ok bytes ∧
      opened = { session with out := session.out ++ bytes, state := .loginSent } := by
  change (start session).toOption = some opened at started
  rw [start] at started
  split at started
  · cases started
  · dsimp only at started
    split at started
    · cases started
    · next bytes encoded =>
        cases started
        exact ⟨bytes, encoded, rfl⟩

theorem Rests.asks {session : LoginSession} {next : Nat} (rests : session.Rests next)
    {bytes : Bytes} (encoded : (Packet.loginRequest session.username session.password
      session.sessionId session.nextSeq).encode = .ok bytes)
    {chunks : List Bytes} {login : Login} (sent : chunks.flatten <+: session.out ++ bytes)
    (read : readLogin [] chunks = some login) : login.requestedSequence = next := by
  obtain ⟨payload, encodes, rfl⟩ := Packet.exists_encodesAs encoded
  obtain ⟨name, paddedName, built⟩ := except_bind_eq_ok.mp encodes.1
  obtain ⟨word, paddedWord, built⟩ := except_bind_eq_ok.mp built
  obtain ⟨requested, paddedSession, built⟩ := except_bind_eq_ok.mp built
  obtain ⟨number, digits, built⟩ := except_bind_eq_ok.mp built
  cases built
  obtain ⟨-, -, rfl⟩ := padded_eq_ok paddedName
  obtain ⟨-, -, rfl⟩ := padded_eq_ok paddedWord
  obtain ⟨-, sessionFits, rfl⟩ := padded_eq_ok paddedSession
  obtain ⟨-, fits, rfl⟩ := padded_eq_ok digits
  have length : (putAlpha usernameWidth session.username ++ putAlpha passwordWidth session.password
      ++ padLeft sessionWidth session.sessionId ++
        padLeft sequenceWidth (decimal session.nextSeq)).length = 46 := by
    rw [List.length_append, List.length_append, List.length_append, putAlpha_length,
      putAlpha_length, padLeft_length sessionFits, padLeft_length fits]
    rfl
  rw [rests.out_eq, List.nil_append, length] at sent
  rw [← rests.nextSeq_eq]
  exact requestedSequence_of_readLogin (putAlpha_length usernameWidth _)
    (putAlpha_length passwordWidth _) (padLeft_length sessionFits) fits sent read

theorem resumes (server : ExchangeSimulator) : Resumes server soupSession Rests := by
  intro session next opened connection rests positive started served
  obtain ⟨bytes, encoded, rfl⟩ := start_eq_some started
  obtain ⟨got, first, frames, whole⟩ :=
    exists_delivered SentPacket.step_wire served.chunks_isPrefix
  have told := served.relevant_isPrefix positive
    fun _ read => rests.asks encoded served.asked_isPrefix read
  obtain ⟨values, counted⟩ := foldl_count_delivered told first
  obtain ⟨packets, decoded, notices⟩ := SentPacket.mapM_decodeFrame fun sent member =>
    served.interleaves.type_ne sent.packet (first.subset (List.mem_map_of_mem member))
  let opened : SoupSession := { session.toSoupSession with state := .loginSent }
  have empty : opened.frames = [] := rests.frames_eq
  have stuck : FrameBuffer.framing.Stuck opened.frames :=
    empty ▸ FrameBuffer.framing.stuck_nil
  have received := SoupSession.receive_count stuck
    (by rw [empty, List.nil_append, frames]; exact decoded) []
  have next_eq : opened.nextSeq = next := rests.nextSeq_eq
  rw [notices, next_eq, counted] at received
  refine ⟨got, values, congrArg Prod.snd received, ⟨congrArg Prod.fst received, rfl, rfl⟩, whole⟩

end Prototype.LoginSession

/-! ## Both clients -/

/-- Whatever the pattern of connections, the C++ client and the prototype's report the
messages from the number they first asked for on: in order, each once, none left out. -/
theorem resume_lossless (server : ExchangeSimulator) (username password requestedSession : Bytes) :
    (∀ requestedSeq : UInt64, 1 ≤ requestedSeq →
      Lossless server soupClientSession
        { username, password, sessionId := requestedSession, nextSeq := requestedSeq }
        requestedSeq.toNat) ∧
    ∀ requestedSeq : Nat, 1 ≤ requestedSeq →
      Lossless server soupSession
        { username, password, sessionId := requestedSession, nextSeq := requestedSeq }
        requestedSeq := by
  refine ⟨fun requestedSeq positive => ?_, fun requestedSeq positive => ?_⟩
  · exact Resumes.lossless (SoupClientSession.resumes server)
      (UInt64.le_iff_toNat_le.mp positive)
      ⟨requestedSeq.toNat_lt, UInt64.ofNat_toNat.symm, rfl, rfl⟩
  · exact Resumes.lossless (LoginSession.resumes server) positive ⟨rfl, rfl, rfl⟩

/-! A connection that is lost within the second of two messages, and one that brings the
rest. -/

def twoMessages : ExchangeSimulator where
  messages := [[ascii 'M'], [ascii 'N']]
  username := [ascii 'U']
  password := [ascii 'P']
  sessionId := [ascii 'S']
  indexed := of_decide_eq_true rfl

/-- All that the server sends, behind a heartbeat, in two chunks and up to `length` bytes. -/
def connectionTo (server : ExchangeSimulator) (out : Bytes) (length : Nat) : Connection :=
  let packets := .serverHeartbeat :: server.handleItch [out]
  { asked := [out], packets
    chunks := [(transmit packets).take 20, ((transmit packets).take length).drop 20] }

def freshClient : SoupClientSession := { username := [ascii 'U'], password := [ascii 'P'] }

def firstConnection : Connection := connectionTo twoMessages freshClient.start.out 42

def resumedClient : SoupClientSession :=
  ((freshClient.start.receive firstConnection.chunks).1).reset

def secondConnection : Connection := connectionTo twoMessages resumedClient.start.out 47

theorem soupClientSession_start (client : SoupClientSession) :
    soupClientSession.start client = some client.start := rfl

theorem soupClientSession_reset (client : SoupClientSession) (chunks : List Bytes) :
    soupClientSession.reset (soupClientSession.receive client chunks).1 =
      (client.receive chunks).1.reset := rfl

private theorem resumedClient_eq :
    (freshClient.start.receive firstConnection.chunks).1.reset = resumedClient := rfl

private theorem runs_twoMessages :
    Runs twoMessages soupClientSession freshClient
      (resumedClient.start.receive secondConnection.chunks).1.reset
      [(1, [ascii 'M']), (2, [ascii 'N'])] := by
  have first : firstConnection.Served twoMessages freshClient.start.out :=
    ⟨by decide +kernel, by decide +kernel, by decide +kernel⟩
  have second : secondConnection.Served twoMessages resumedClient.start.out :=
    ⟨by decide +kernel, by decide +kernel, by decide +kernel⟩
  have start : Runs twoMessages soupClientSession freshClient freshClient [] := .initial
  have lost := Runs.connection start (soupClientSession_start _) first
  rw [soupClientSession_reset, resumedClient_eq] at lost
  have run := Runs.connection lost (soupClientSession_start _) second
  rw [soupClientSession_reset] at run
  have calls : [] ++ (soupClientSession.receive freshClient.start firstConnection.chunks).2 ++
      (soupClientSession.receive resumedClient.start secondConnection.chunks).2 =
        [(1, [ascii 'M']), (2, [ascii 'N'])] := by decide +kernel
  rw [calls] at run
  exact run

theorem resume_lossless_twoMessages :
    [(1, [ascii 'M']), (2, [ascii 'N'])] <+: numbered twoMessages.messages 1 :=
  ((resume_lossless twoMessages [ascii 'U'] [ascii 'P'] []).1 1 (by decide)).in_order
    runs_twoMessages

end ProtoFH
