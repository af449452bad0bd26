import ProtoFH.Fh.Recover

/-! # The live feed handler

The feed handler's state, what it does with one exchange message, and a run in
which the database stays connected and receives every update. -/

namespace ProtoFH

structure Fh where
  market : Market := {}
  ctx : PubContext := {}
  epoch : UInt64 := 0
  pubSeq : UInt64 := 0
  lastExchSeq : UInt64 := 0
  session : Bytes := []
  dbConnected : Bool := false

namespace Fh

/-- The records of `push_full_sync`: a reset and a dump of the own market. -/
def fullSync (fh : Fh) : List Record :=
  .reset :: syncRecords fh.market fh.ctx fh.session fh.lastExchSeq fh.epoch

def resume (recovered : RecoveryState) : Fh where
  market := recovered.market
  ctx := recovered.ctx
  epoch := recovered.recovered.epoch
  lastExchSeq := recovered.recovered.lastExchSeq
  session := recovered.recovered.session
  dbConnected := true

/-- The publisher context after a message: `note_event` for an `S`, then `note`. -/
def noted (ctx : PubContext) (msg : ItchMsg) (res : ApplyResult) (exchNs : UInt64) :
    PubContext :=
  match msg with
  | .systemEvent _ _ event => (ctx.noteEvent res.group event).note res exchNs
  | _ => ctx.note res exchNs

/-- `on_message` for a decoded message: the state after it and the update it
publishes. A `T` moves the clock and publishes nothing. -/
def onDecoded (fh : Fh) (seq : UInt64) (msg : ItchMsg) : Fh × Option UpdateRecord :=
  let (market, res) := fh.market.apply msg
  let applied := { fh with market, lastExchSeq := seq }
  if res.trigger = ascii 'T' then (applied, none)
  else
    let exchNs := makeTimestamp market.seconds msg.ns
    let ctx := noted fh.ctx msg res exchNs
    let pubSeq := fh.pubSeq + 1
    let env : Envelope :=
      { epoch := fh.epoch, pubSeq, session := fh.session, exchSeq := seq, exchNs
        trigger := res.trigger }
    ({ applied with ctx, pubSeq }, some (makeUpdate market ctx res env))

theorem onDecoded_clock (fh : Fh) (seq : UInt64) {msg : ItchMsg} (clock : msg.isClock = true) :
    fh.onDecoded seq msg =
      ({ fh with market := (fh.market.apply msg).1, lastExchSeq := seq }, none) := by
  have trigger : (fh.market.apply msg).2.trigger = ascii 'T' := by
    rw [Market.apply_trigger, ItchMsg.type_eq_T_iff, clock]
  simp only [onDecoded, trigger, if_true]

def contextAfter (fh : Fh) (msg : ItchMsg) : PubContext :=
  noted fh.ctx msg (fh.market.apply msg).2
    (makeTimestamp (fh.market.apply msg).1.seconds msg.ns)

def updateFor (fh : Fh) (seq : UInt64) (msg : ItchMsg) : UpdateRecord :=
  makeUpdate (fh.market.apply msg).1 (fh.contextAfter msg) (fh.market.apply msg).2
    { epoch := fh.epoch, pubSeq := fh.pubSeq + 1, session := fh.session, exchSeq := seq
      exchNs := makeTimestamp (fh.market.apply msg).1.seconds msg.ns
      trigger := (fh.market.apply msg).2.trigger }

theorem onDecoded_update (fh : Fh) (seq : UInt64) {msg : ItchMsg} (clock : msg.isClock = false) :
    fh.onDecoded seq msg =
      ({ fh with
          market := (fh.market.apply msg).1
          ctx := fh.contextAfter msg
          pubSeq := fh.pubSeq + 1
          lastExchSeq := seq },
        some (fh.updateFor seq msg)) := by
  have trigger : (fh.market.apply msg).2.trigger ≠ ascii 'T' := by
    rw [Market.apply_trigger, ne_eq, ItchMsg.type_eq_T_iff, clock]
    decide
  simp only [onDecoded, trigger, if_false]
  rfl

/-- `on_message`: a payload that does not decode is skipped. -/
def onMessage (fh : Fh) (seq : UInt64) (payload : Bytes) : Fh × Option UpdateRecord :=
  match decode payload with
  | .error _ => (fh, none)
  | .ok msg => fh.onDecoded seq msg

theorem onMessage_cases (fh : Fh) (seq : UInt64) (payload : Bytes) :
    (∃ reason, decode payload = .error reason ∧ fh.onMessage seq payload = (fh, none)) ∨
      ∃ msg, decode payload = .ok msg ∧
        ((msg.isClock = true ∧ fh.onMessage seq payload =
            ({ fh with market := (fh.market.apply msg).1, lastExchSeq := seq }, none)) ∨
          (msg.isClock = false ∧ fh.onMessage seq payload =
            ({ fh with
                market := (fh.market.apply msg).1
                ctx := fh.contextAfter msg
                pubSeq := fh.pubSeq + 1
                lastExchSeq := seq }, some (fh.updateFor seq msg)))) := by
  cases decoded : decode payload with
  | error reason => exact .inl ⟨reason, rfl, by simp [onMessage, decoded]⟩
  | ok msg =>
      refine .inr ⟨msg, rfl, ?_⟩
      cases clock : msg.isClock with
      | true => exact .inl ⟨rfl, by simp only [onMessage, decoded, fh.onDecoded_clock seq clock]⟩
      | false => exact .inr ⟨rfl, by simp only [onMessage, decoded, fh.onDecoded_update seq clock]⟩

end Fh

/-- The exchange's messages of one session. Their sequence numbers start at 1 and
are `uint64_t`. -/
structure ExchangeLog where
  payloads : List Bytes
  numbered : payloads.length < 2 ^ 64

def messages (payloads : List Bytes) : List ItchMsg :=
  payloads.filterMap fun payload => (decode payload).toOption

theorem messages_cons (payload : Bytes) (payloads : List Bytes) :
    messages (payload :: payloads) =
      match decode payload with
      | .error _ => messages payloads
      | .ok msg => msg :: messages payloads := by
  rw [messages, List.filterMap_cons]
  cases decode payload <;> rfl

theorem mem_messages {payloads : List Bytes} {msg : ItchMsg} :
    msg ∈ messages payloads ↔ ∃ payload ∈ payloads, decode payload = .ok msg := by
  rw [messages, List.mem_filterMap]
  constructor
  · rintro ⟨payload, member, found⟩
    refine ⟨payload, member, ?_⟩
    cases decoded : decode payload with
    | error reason => rw [decoded] at found; cases found
    | ok other => rw [decoded] at found; cases found; rfl
  · rintro ⟨payload, member, decoded⟩
    exact ⟨payload, member, by rw [decoded]; rfl⟩

theorem messages_take_succ {payloads : List Bytes} {count : Nat} {payload : Bytes}
    (next : payloads[count]? = some payload) :
    messages (payloads.take (count + 1)) =
      messages (payloads.take count) ++ (decode payload).toOption.toList := by
  rw [List.take_add_one, next, messages, List.filterMap_append]
  cases decoded : decode payload <;> simp [messages, decoded, Except.toOption]

/-! ## A connected run -/

structure LiveState where
  fh : Fh
  db : IngestServer

namespace LiveState

/-- One message applied by the feed handler and its update received by the database. -/
def onMessage (state : LiveState) (seq : UInt64) (payload : Bytes) : LiveState :=
  match state.fh.onMessage seq payload with
  | (fh, none) => { state with fh }
  | (fh, some rec) => { fh, db := state.db.onData (encodeUpdate rec) }

/-- The messages of a log, numbered from `first` on. -/
def deliver (state : LiveState) : (first : Nat) → List Bytes → LiveState
  | _, [] => state
  | first, payload :: later =>
      (state.onMessage (UInt64.ofNat first) payload).deliver (first + 1) later

/-- A cold start with `bootstrap=replay`: the database, whatever it held, is rebased
from the empty market, and the login names the session. -/
def coldStart (prior : Tables) (epoch : UInt64) (session : Bytes) : LiveState :=
  let fh : Fh := { epoch, dbConnected := true }
  let db := ({ tables := prior } : IngestServer).accept
  { fh := { fh with session }, db := db.onData (encodeAll fh.fullSync) }

/-- The state after the first `count` messages of a log, none of them lost. -/
def run (prior : Tables) (epoch : UInt64) (session : Bytes) (log : ExchangeLog) (count : Nat) :
    LiveState :=
  (coldStart prior epoch session).deliver 1 (log.payloads.take count)

end LiveState

/-- The reply a restarted feed handler gets: the old connection is gone, the new one
says `HELLO` and asks for the state. -/
def IngestServer.stateReply (db : IngestServer) : Bytes :=
  let greeted := db.dropConnection.accept.onData (encodeHello {})
  ({ greeted with outbuf := [] }.onData (encodeControl .getState)).outbuf

/-! ## What the database records -/

def Tables.record (tables : Tables) (rec : UpdateRecord) : Tables :=
  { tables.store rec with
    dbMeta := { (tables.store rec).dbMeta with
      session := rec.envelope.session
      epoch := rec.envelope.epoch
      lastExchSeq := rec.envelope.exchSeq } }

theorem Tables.applyUpdate_live {tables : Tables} {rec : UpdateRecord}
    (newer : tables.dbMeta.lastExchSeq < rec.envelope.exchSeq) :
    tables.applyUpdate rec false = tables.record rec := by
  have fresh : ¬ tables.isDup rec := by
    intro dup
    exact absurd newer (UInt64.not_lt.mpr dup.2.1)
  simp [Tables.applyUpdate, fresh, Tables.record]

def Tables.receive (tables : Tables) : Option UpdateRecord → Tables
  | none => tables
  | some rec => tables.record rec.wired

theorem IngestServer.onData_encodeAll {db : IngestServer} (connected : db.connected)
    (idle : db.framer = {}) {records : List Record}
    (sound : ∀ record ∈ records, record.Sound) :
    db.onData (encodeAll records) = db.handleAll records := by
  have drained := drain_encodeAll records []
  have nothing : RecordFramer.framing.drain [] = ([], []) := rfl
  rw [nothing, List.append_nil, List.append_nil] at drained
  have same (server : IngestServer) (empty : server.framer = {}) :
      server.withBuffer [] = server := by
    cases server
    cases empty
    rfl
  have framer : (db.handleAll records).framer = {} := by
    rw [← same db idle, IngestServer.handleAll_withBuffer]
    rfl
  have handled := IngestServer.onData_drain sound connected
    (show RecordFramer.framing.drain ([] ++ encodeAll records) = _ from drained) rfl
  rw [same db idle, same _ framer] at handled
  exact handled

namespace LiveState

/-- The database waits for the next update, having recorded nothing from `next` on. -/
structure Settled (state : LiveState) (next : Nat) : Prop where
  connected : state.db.connected = true
  idle : state.db.framer = {}
  outside : state.db.inSync = false
  behind : state.db.tables.dbMeta.lastExchSeq.toNat < next

variable {seq : UInt64} {msg : ItchMsg}

private theorem onDecoded_exchSeq {fh : Fh} {rec : UpdateRecord}
    (published : (fh.onDecoded seq msg).2 = some rec) : rec.envelope.exchSeq = seq := by
  cases clock : msg.isClock with
  | true => rw [fh.onDecoded_clock seq clock] at published; cases published
  | false => rw [fh.onDecoded_update seq clock] at published; cases published; rfl

theorem onDecoded_shallow {fh : Fh} {rec : UpdateRecord}
    (published : (fh.onDecoded seq msg).2 = some rec) : rec.Shallow := by
  cases clock : msg.isClock with
  | true => rw [fh.onDecoded_clock seq clock] at published; cases published
  | false =>
      rw [fh.onDecoded_update seq clock] at published
      cases published
      exact makeUpdate_shallow _ _ _ _

variable {state : LiveState} {payload : Bytes}

theorem onMessage_error {reason : String} (failed : decode payload = .error reason) :
    state.onMessage seq payload = state := by
  simp [LiveState.onMessage, Fh.onMessage, failed]

theorem Settled.onMessage {next : Nat} (settled : state.Settled next) (bound : next < 2 ^ 64)
    (decoded : decode payload = .ok msg) :
    let after := state.onMessage (UInt64.ofNat next) payload
    after.Settled (next + 1) ∧ after.fh = (state.fh.onDecoded (UInt64.ofNat next) msg).1 ∧
      after.db.tables =
        state.db.tables.receive (state.fh.onDecoded (UInt64.ofNat next) msg).2 := by
  have small : (UInt64.ofNat next).toNat = next := UInt64.toNat_ofNat_of_lt bound
  cases published : (state.fh.onDecoded (UInt64.ofNat next) msg).2 with
  | none =>
      have stepped : state.onMessage (UInt64.ofNat next) payload =
          { state with fh := (state.fh.onDecoded (UInt64.ofNat next) msg).1 } := by
        simp only [LiveState.onMessage, Fh.onMessage, decoded]
        split
        · next fh equal => rw [equal]
        · next fh rec equal => rw [equal] at published; cases published
      rw [stepped]
      exact ⟨⟨settled.connected, settled.idle, settled.outside,
        Nat.lt_succ_of_lt settled.behind⟩, rfl, rfl⟩
  | some rec =>
      have seq := onDecoded_exchSeq published
      have sound : ∀ record ∈ [Record.update rec], record.Sound := by
        intro record member
        rw [List.mem_singleton] at member
        subst member
        exact onDecoded_shallow published
      have data : encodeUpdate rec = encodeAll [Record.update rec] := by
        simp [encodeAll, Record.encode]
      have newer : state.db.tables.dbMeta.lastExchSeq < rec.wired.envelope.exchSeq := by
        change _ < rec.envelope.exchSeq
        rw [seq, UInt64.lt_iff_toNat_lt, small]
        exact settled.behind
      have received : state.db.onData (encodeUpdate rec) =
          { state.db with tables := state.db.tables.record rec.wired } := by
        rw [data, IngestServer.onData_encodeAll settled.connected settled.idle sound]
        change { state.db with tables := state.db.tables.applyUpdate rec.wired state.db.inSync } = _
        rw [settled.outside, Tables.applyUpdate_live newer]
      have stepped : state.onMessage (UInt64.ofNat next) payload =
          { fh := (state.fh.onDecoded (UInt64.ofNat next) msg).1
            db := { state.db with tables := state.db.tables.record rec.wired } } := by
        simp only [LiveState.onMessage, Fh.onMessage, decoded]
        split
        · next fh equal => rw [equal] at published; cases published
        · next fh other equal =>
            rw [equal] at published
            cases published
            rw [equal, received]
      rw [stepped]
      refine ⟨⟨settled.connected, settled.idle, settled.outside, ?_⟩, rfl, rfl⟩
      change rec.envelope.exchSeq.toNat < next + 1
      rw [seq, small]
      exact Nat.lt_succ_self next

/-- The invariant rule of a connected run: what every decoded message preserves,
from the feed handler and the tables to those after it, holds after a log. -/
theorem Settled.deliver {invariant : Fh → Tables → Prop} {payloads : List Bytes}
    (preserved : ∀ fh tables seq payload msg, payload ∈ payloads → decode payload = .ok msg →
      invariant fh tables → invariant (fh.onDecoded seq msg).1
        (tables.receive (fh.onDecoded seq msg).2))
    {first : Nat} (settled : state.Settled first) (bound : first + payloads.length ≤ 2 ^ 64)
    (holds : invariant state.fh state.db.tables) :
    (state.deliver first payloads).Settled (first + payloads.length) ∧
      invariant (state.deliver first payloads).fh (state.deliver first payloads).db.tables := by
  induction payloads generalizing state first with
  | nil => exact ⟨settled, holds⟩
  | cons payload later induction =>
      have shift : first + (payload :: later).length = first + 1 + later.length := by
        rw [List.length_cons]
        omega
      have inLater (fh : Fh) (tables : Tables) (seq : UInt64) (other : Bytes) (msg : ItchMsg)
          (member : other ∈ later) := preserved fh tables seq other msg
            (List.mem_cons_of_mem _ member)
      rw [shift] at bound ⊢
      rw [LiveState.deliver]
      cases decoded : decode payload with
      | error reason =>
          rw [onMessage_error decoded]
          exact induction inLater
            { settled with behind := Nat.lt_succ_of_lt settled.behind } bound holds
      | ok msg =>
          obtain ⟨next, fh, tables⟩ := settled.onMessage (by omega) decoded
          apply induction inLater next bound
          rw [fh, tables]
          exact preserved _ _ _ payload msg List.mem_cons_self decoded holds

private theorem deliver_append (state : LiveState) (first : Nat) (earlier later : List Bytes) :
    state.deliver first (earlier ++ later) =
      (state.deliver first earlier).deliver (first + earlier.length) later := by
  induction earlier generalizing state first with
  | nil => rfl
  | cons payload earlier induction =>
      rw [List.cons_append, LiveState.deliver, LiveState.deliver, induction, List.length_cons]
      congr 1
      omega

/-! ## The market of a run -/

theorem onDecoded_market (fh : Fh) (seq : UInt64) (msg : ItchMsg) :
    (fh.onDecoded seq msg).1.market = (fh.market.apply msg).1 := by
  cases clock : msg.isClock with
  | true => rw [fh.onDecoded_clock seq clock]
  | false => rw [fh.onDecoded_update seq clock]

private theorem deliver_market (state : LiveState) (first : Nat) (payloads : List Bytes) :
    (state.deliver first payloads).fh.market = state.fh.market.run (messages payloads) := by
  induction payloads generalizing state first with
  | nil => rfl
  | cons payload later induction =>
      rw [LiveState.deliver, induction, messages_cons]
      cases decoded : decode payload with
      | error reason => rw [onMessage_error decoded]
      | ok msg =>
          have market : (state.onMessage (UInt64.ofNat first) payload).fh.market =
              (state.fh.market.apply msg).1 := by
            rw [← onDecoded_market state.fh (UInt64.ofNat first) msg]
            simp only [LiveState.onMessage, Fh.onMessage, decoded]
            split <;> next equal => rw [equal]
          rw [market]
          rfl

/-! ## The cold start -/

def rebased (prior : Tables) (epoch : UInt64) : Tables :=
  { dbMeta :=
      { epoch
        syncsCompleted := prior.dbMeta.syncsCompleted + 1
        syncsDiscarded := prior.dbMeta.syncsDiscarded } }

theorem fullSync_empty (epoch : UInt64) :
    ({ epoch, dbConnected := true } : Fh).fullSync =
      [.reset, .syncBegin, .syncEnd { epoch }] := by
  have values : (∅ : OrderMap).values = [] := by
    change (∅ : OrderedMap UInt64 Order).toList.map Prod.snd = []
    simp
  simp [Fh.fullSync, syncRecords, values, tickRows, knownTickers]
  rfl

theorem coldStart_settled (prior : Tables) (epoch : UInt64) (session : Bytes) :
    (coldStart prior epoch session).Settled 1 ∧
      (coldStart prior epoch session).fh = { epoch, session, dbConnected := true } ∧
      (coldStart prior epoch session).db.tables = rebased prior epoch := by
  have sound : ∀ record ∈ ({ epoch, dbConnected := true } : Fh).fullSync, record.Sound := by
    rw [fullSync_empty]
    simp [Record.Sound]
  have db : (coldStart prior epoch session).db =
      ({ tables := prior } : IngestServer).accept.handleAll
        [.reset, .syncBegin, .syncEnd { epoch }] := by
    simp only [coldStart]
    rw [IngestServer.onData_encodeAll rfl rfl sound, fullSync_empty]
  refine ⟨⟨?_, ?_, ?_, ?_⟩, rfl, ?_⟩ <;> rw [db]
  case refine_4 => exact Nat.zero_lt_one
  all_goals rfl

theorem run_market (prior : Tables) (epoch : UInt64) (session : Bytes) (log : ExchangeLog)
    (count : Nat) :
    (run prior epoch session log count).fh.market =
      Market.run {} (messages (log.payloads.take count)) := by
  rw [run, deliver_market, (coldStart_settled prior epoch session).2.1]

variable {log : ExchangeLog}

theorem run_settled (invariant : Fh → Tables → Prop) {prior : Tables} {epoch : UInt64}
    {session : Bytes}
    (preserved : ∀ fh tables seq payload msg, payload ∈ log.payloads → decode payload = .ok msg →
      invariant fh tables → invariant (fh.onDecoded seq msg).1
        (tables.receive (fh.onDecoded seq msg).2))
    (start : invariant { epoch, session, dbConnected := true } (rebased prior epoch))
    (count : Nat) :
    (run prior epoch session log count).Settled (1 + min count log.payloads.length) ∧
      invariant (run prior epoch session log count).fh
        (run prior epoch session log count).db.tables := by
  obtain ⟨settled, fh, tables⟩ := coldStart_settled prior epoch session
  have length : (log.payloads.take count).length = min count log.payloads.length :=
    List.length_take
  rw [← length]
  apply settled.deliver
  · intro fh tables seq payload msg member
    exact preserved fh tables seq payload msg (List.mem_of_mem_take member)
  · have := log.numbered
    omega
  · rw [fh, tables]
    exact start

private theorem settled_run (prior : Tables) (epoch : UInt64) (session : Bytes) {count : Nat}
    (within : count ≤ log.payloads.length) :
    (run prior epoch session log count).Settled (count + 1) := by
  obtain ⟨settled, -⟩ :
      (run prior epoch session log count).Settled (1 + min count log.payloads.length) ∧ True :=
    run_settled (fun _ _ => True) (fun _ _ _ _ _ _ _ _ => trivial) trivial count
  rwa [Nat.min_eq_left within, Nat.add_comm] at settled

theorem run_past (prior : Tables) (epoch : UInt64) (session : Bytes) {count : Nat}
    (ended : log.payloads[count]? = none) :
    run prior epoch session log (count + 1) = run prior epoch session log count := by
  rw [run, List.take_add_one, ended, Option.toList_none, List.append_nil]
  rfl

/-- One more message of the log: nothing happens if it does not decode, else the
feed handler applies it and the database records what it published. -/
theorem run_succ (prior : Tables) (epoch : UInt64) (session : Bytes) {count : Nat}
    (next : log.payloads[count]? = some payload) :
    match decode payload with
    | .error _ => run prior epoch session log (count + 1) = run prior epoch session log count
    | .ok msg =>
        let state := run prior epoch session log count
        let later := run prior epoch session log (count + 1)
        let seq := UInt64.ofNat (count + 1)
        later.fh = (state.fh.onDecoded seq msg).1 ∧
          later.db.tables = state.db.tables.receive (state.fh.onDecoded seq msg).2 := by
  have within : count < log.payloads.length := (List.getElem?_eq_some_iff.mp next).1
  have stepped : run prior epoch session log (count + 1) =
      (run prior epoch session log count).onMessage (UInt64.ofNat (count + 1)) payload := by
    have length : (log.payloads.take count).length = count := by
      rw [List.length_take]
      omega
    rw [run, List.take_add_one, next, deliver_append, length, Nat.add_comm 1 count]
    rfl
  have settled := settled_run prior epoch session (Nat.le_of_lt within)
  have bound : count + 1 < 2 ^ 64 := by
    have := log.numbered
    omega
  cases decoded : decode payload with
  | error reason => rw [stepped, onMessage_error decoded]
  | ok msg =>
      rw [stepped]
      exact (settled.onMessage bound decoded).2

end LiveState

/-! ## The reply to a restarted feed handler -/

theorem IngestServer.stateReply_eq {db : IngestServer} (outside : db.inSync = false) :
    db.stateReply = db.tables.dumpState := by
  have kept : db.dropConnection.tables = db.tables := by
    unfold dropConnection
    split
    · rw [outside]
      rfl
    · rfl
  have hello : encodeHello {} = encodeAll [Record.hello {}] := by
    simp [encodeAll, Record.encode]
  have ask : encodeControl .getState = encodeAll [Record.getState] := by
    simp [encodeAll, Record.encode]
  have greeted : db.dropConnection.accept.onData (encodeHello {}) =
      db.dropConnection.accept.handleAll [Record.hello {}] := by
    rw [hello]
    exact onData_encodeAll rfl rfl (by simp [Record.Sound])
  have tables : (db.dropConnection.accept.handleAll [Record.hello {}]).tables = db.tables := by
    rw [← kept]
    unfold accept dropConnection
    split <;> (try split) <;> rfl
  simp only [stateReply]
  rw [greeted, ask]
  rw [onData_encodeAll (by rfl) (by rfl) (by simp [Record.Sound])]
  rw [← tables]
  rfl

end ProtoFH
