import ProtoFH.Mirror.InFlight

/-! # The mirror under failures

The invariant of the system of feed handler, link and database, one lemma per action,
and what it says about every reachable state. -/

namespace ProtoFH

/-! ## The feed handler -/

/-- The orders are those after the messages given so far, and `last_exch_seq` has missed
nothing that changes them. -/
structure Fh.Replays (log : ExchangeLog) (fh : Fh) (position : Nat) : Prop where
  within : position ≤ log.payloads.length
  orders : fh.market.books.orders = ordersAfter log position
  last : fh.lastExchSeq.toNat ≤ position
  settled : ordersAfter log fh.lastExchSeq.toNat = ordersAfter log position

theorem Fh.Replays.connect {log : ExchangeLog} {fh : Fh} {position : Nat}
    (replays : fh.Replays log position) (dbConnected : Bool) :
    ({ fh with dbConnected } : Fh).Replays log position :=
  ⟨replays.within, replays.orders, replays.last, replays.settled⟩

section Message

variable {log : ExchangeLog} {fh : Fh} {position : Nat} {payload : Bytes}
  (next : log.payloads[position]? = some payload)

include next

theorem toNat_seq : (UInt64.ofNat (position + 1)).toNat = position + 1 := by
  have inside := (List.getElem?_eq_some_iff.mp next).1
  have numbered := log.numbered
  exact UInt64.toNat_ofNat_of_lt (show position + 1 < 2 ^ 64 by omega)

theorem Fh.Replays.onMessage (replays : fh.Replays log position) :
    (fh.onMessage (UInt64.ofNat (position + 1)) payload).1.Replays log (position + 1) := by
  have inside := (List.getElem?_eq_some_iff.mp next).1
  have after := ordersAfter_succ next
  rcases fh.onMessage_cases (UInt64.ofNat (position + 1)) payload with
    ⟨reason, decoded, result⟩ | ⟨msg, decoded, applied⟩
  · rw [decoded] at after
    rw [result]
    exact ⟨inside, replays.orders.trans after.symm, Nat.le_succ_of_le replays.last,
      replays.settled.trans after.symm⟩
  · rw [decoded] at after
    have orders : (fh.market.apply msg).1.books.orders = ordersAfter log (position + 1) := by
      rw [Market.apply_orders, replays.orders, after]
    have seq := toNat_seq next
    rcases applied with ⟨-, result⟩ | ⟨-, result⟩ <;>
      · rw [result]
        exact ⟨inside, orders, seq.le, by rw [seq]⟩

end Message

/-! ## The database and what is on its way -/

structure Current (orders : OrderMap) (position : Nat) (server : IngestServer) : Prop where
  outside : server.inSync = false
  agree : Agree true orders server.tables.orders
  behind : server.tables.dbMeta.lastExchSeq.toNat ≤ position

theorem Current.update {log : ExchangeLog} (clean : log.Clean) {fh : Fh} {position : Nat}
    {payload : Bytes} {msg : ItchMsg} {server : IngestServer}
    (replays : fh.Replays log position)
    (current : Current fh.market.books.orders position server) (good : server.Good log)
    (next : log.payloads[position]? = some payload) (decoded : decode payload = .ok msg) :
    let update := Record.update (fh.updateFor (UInt64.ofNat (position + 1)) msg)
    Current (fh.market.apply msg).1.books.orders (position + 1) (server.handle update.wired) ∧
      (server.handle update.wired).Good log := by
  intro update
  have member := List.mem_of_getElem? next
  have inside := (List.getElem?_eq_some_iff.mp next).1
  have seq := toNat_seq next
  have newer : server.tables.dbMeta.lastExchSeq < UInt64.ofNat (position + 1) := by
    rw [UInt64.lt_iff_toNat_lt, seq]
    exact Nat.lt_succ_of_le current.behind
  have handled : server.handle update.wired =
      { server with
        tables := server.tables.record
          (fh.updateFor (UInt64.ofNat (position + 1)) msg).wired } := by
    change { server with tables := server.tables.applyUpdate _ server.inSync } = _
    rw [current.outside, Tables.applyUpdate_live newer]
  have recordable : fh.market.books.orders.Recordable := by
    rw [replays.orders]
    exact clean.recordable position
  have reports := updateFor_reports recordable (fun _ => clean.added member decoded)
    (UInt64.ofNat (position + 1))
  have agree := (current.agree.apply_iff reports).mpr (clean.harmless member decoded _)
  have orders : (fh.market.apply msg).1.books.orders = ordersAfter log (position + 1) := by
    rw [Market.apply_orders, replays.orders, ordersAfter_succ next, decoded]
  rw [handled]
  refine ⟨⟨current.outside, agree, seq.le⟩, ⟨?_, seq.le.trans inside, fun _ => ?_⟩⟩
  · exact good.shallow.store (UpdateRecord.Shallow.wired (makeUpdate_shallow _ _ _ _))
  · change Agree true (ordersAfter log (UInt64.ofNat (position + 1)).toNat) _
    rw [seq, ← orders]
    exact agree

namespace System

structure Safe (log : ExchangeLog) (system : System) : Prop where
  good : system.db.Good log
  idle : system.db.connected = false → system.db.inSync = false
  inFlight : system.db.connected = true →
    ∃ lost records, InFlight log system.db system.wire lost records

/-- The invariant. While the link is up, all that was sent is in flight, and handling it
makes the database current. -/
structure Mirrored (log : ExchangeLog) (system : System) : Prop extends Safe log system where
  replays : ∀ running, system.fh = some running → running.fh.Replays log running.position
  current : system.linkUp = true → system.db.connected = true ∧
    ∃ records, InFlight log system.db system.wire [] records ∧
      ∀ running, system.fh = some running → running.fh.dbConnected = true ∧
        Current running.fh.market.books.orders running.position (system.db.handleAll records)

/-- A connection on which nothing has been sent after the `HELLO`. -/
structure Fresh (log : ExchangeLog) (system : System) : Prop where
  connected : system.db.connected = true
  outside : system.db.inSync = false
  unread : system.db.framer = {}
  answered : system.db.outbuf = []
  drained : system.wire = []
  up : system.linkUp = true
  good : system.db.Good log

variable {log : ExchangeLog} {system : System}

theorem Fresh.inFlight (fresh : system.Fresh log) :
    InFlight log system.db system.wire [] [] := by
  rw [fresh.drained]
  exact .empty fresh.unread fresh.good

theorem Fresh.safe (fresh : system.Fresh log) : system.Safe log where
  good := fresh.good
  idle := fun _ => fresh.outside
  inFlight := fun _ => ⟨[], [], fresh.inFlight⟩

theorem Safe.mirrored (safe : system.Safe log) (down : system.linkUp = false)
    (replays : ∀ running, system.fh = some running →
      running.fh.Replays log running.position) : system.Mirrored log where
  toSafe := safe
  replays := replays
  current up := by
    rw [down] at up
    cases up

/-! ## Sending -/

private theorem send_failed {records later : List Record} (safe : system.Safe log)
    (flight : InFlight log system.db system.wire [] records)
    (sound : ∀ record ∈ later, record.Sound)
    (good : (system.db.handleAll records).GoodThroughout log later) (written : Nat) :
    (system.send (encodeAll later) (.failed written)).Safe log where
  good := safe.good
  idle := safe.idle
  inFlight connected := by
    cases up : system.linkUp with
    | true =>
        refine ⟨(encodeAll later).drop written, records ++ later, ?_⟩
        simp only [send, up, if_true]
        exact flight.send sound good (List.take_append_drop written _)
    | false =>
        simp only [send, up, Bool.false_eq_true, if_false]
        exact ⟨[], records, flight⟩

private theorem send_down (safe : system.Safe log) (down : system.linkUp = false) (data : Bytes)
    (result : SendResult) :
    (system.send data result).Safe log ∧ (system.send data result).linkUp = false := by
  cases result with
  | sent =>
      simp only [send, down, Bool.false_eq_true, if_false]
      exact ⟨safe, trivial⟩
  | failed written =>
      simp only [send, down, Bool.false_eq_true, if_false]
      exact ⟨⟨safe.good, safe.idle, safe.inFlight⟩, trivial⟩

theorem mirrored_send {records later : List Record} (safe : system.Safe log)
    (connected : system.db.connected = true) (up : system.linkUp = true)
    (flight : InFlight log system.db system.wire [] records)
    (sound : ∀ record ∈ later, record.Sound)
    (good : (system.db.handleAll records).GoodThroughout log later)
    {fh : Fh} {position : Nat} (replays : fh.Replays log position)
    (current : Current fh.market.books.orders position
      ((system.db.handleAll records).handleAll later))
    {result : SendResult} (online : fh.dbConnected = decide (result = .sent)) :
    ({ system.send (encodeAll later) result with fh := some { fh, position } } :
      System).Mirrored log := by
  have replaying (other : Running) (same : some { fh, position } = some other) :
      other.fh.Replays log other.position := by
    cases same
    exact replays
  cases result with
  | failed written =>
      have failed := send_failed safe flight sound good written
      exact Safe.mirrored ⟨failed.good, failed.idle, failed.inFlight⟩ rfl replaying
  | sent =>
      have sent := flight.send sound good (List.append_nil (encodeAll later))
      rw [show system.send (encodeAll later) .sent =
        { system with wire := system.wire ++ encodeAll later } from if_pos up]
      refine ⟨⟨safe.good, safe.idle, fun _ => ⟨[], _, sent⟩⟩, replaying,
        fun _ => ⟨connected, records ++ later, sent, ?_⟩⟩
      rintro other ⟨⟩
      refine ⟨online, ?_⟩
      rw [IngestServer.handleAll_append]
      exact current

/-! ## Messages -/

section Message

variable (mirrored : system.Mirrored log) {running : Running}
  (present : system.fh = some running)

include mirrored present

theorem mirrored_silent {fh : Fh} (replays : fh.Replays log (running.position + 1))
    (orders : fh.market.books.orders = running.fh.market.books.orders)
    (connected : fh.dbConnected = running.fh.dbConnected) :
    ({ system with fh := some { fh, position := running.position + 1 } } :
      System).Mirrored log where
  good := mirrored.good
  idle := mirrored.idle
  inFlight := mirrored.inFlight
  replays := by
    rintro other ⟨⟩
    exact replays
  current up := by
    rcases mirrored.current up with ⟨open', records, flight, current⟩
    refine ⟨open', records, flight, ?_⟩
    rintro other ⟨⟩
    rcases current running present with ⟨online, here⟩
    refine ⟨connected.trans online, here.outside, ?_, Nat.le_succ_of_le here.behind⟩
    change Agree true fh.market.books.orders _
    rw [orders]
    exact here.agree

private theorem link_down (offline : running.fh.dbConnected = false) : system.linkUp = false := by
  cases up : system.linkUp with
  | false => rfl
  | true =>
      rcases mirrored.current up with ⟨-, records, -, current⟩
      rw [(current running present).1] at offline
      cases offline

end Message

theorem mirrored_message (clean : log.Clean) (mirrored : system.Mirrored log)
    {running : Running} (present : system.fh = some running) {payload : Bytes}
    (next : log.payloads[running.position]? = some payload) (result : SendResult) :
    (system.onMessage running payload result).Mirrored log := by
  have before := mirrored.replays running present
  have replays := before.onMessage next
  unfold onMessage
  simp only
  rcases running.fh.onMessage_cases (UInt64.ofNat (running.position + 1)) payload with
    ⟨reason, -, silent⟩ | ⟨msg, decoded, ⟨clock, silent⟩ | ⟨-, published⟩⟩
  · rw [silent] at replays ⊢
    exact mirrored_silent mirrored present replays rfl rfl
  · rw [silent] at replays ⊢
    refine mirrored_silent mirrored present replays ?_ rfl
    change (running.fh.market.apply msg).1.books.orders = _
    rw [Market.apply_orders]
    cases msg with
    | seconds seconds => rfl
    | _ => cases clock
  · rw [published] at replays ⊢
    simp only
    split
    · -- The database seems connected, whether or not the link is up.
      have data : encodeUpdate (running.fh.updateFor (UInt64.ofNat (running.position + 1)) msg) =
          encodeAll [.update (running.fh.updateFor
            (UInt64.ofNat (running.position + 1)) msg)] := by
        simp [encodeAll, Record.encode]
      rw [data]
      cases up : system.linkUp with
      | false =>
          rcases send_down mirrored.toSafe up (encodeAll [.update (running.fh.updateFor
            (UInt64.ofNat (running.position + 1)) msg)]) result with ⟨safe, down⟩
          refine Safe.mirrored ⟨safe.good, safe.idle, safe.inFlight⟩ down ?_
          rintro other ⟨⟩
          exact replays.connect _
      | true =>
          rcases mirrored.current up with ⟨connected, records, flight, current⟩
          have good := flight.last
          rcases (current running present).2.update clean before good next decoded with
            ⟨later, goodLater⟩
          have throughout : (system.db.handleAll records).GoodThroughout log [.update
              (running.fh.updateFor (UInt64.ofNat (running.position + 1)) msg)] :=
            ⟨good, goodLater⟩
          refine mirrored_send mirrored.toSafe connected up flight ?_ throughout
            (replays.connect (result = .sent)) later rfl
          intro record member
          rw [List.mem_singleton.mp member]
          exact makeUpdate_shallow _ _ _ _
    · next offline =>
        have down := link_down mirrored present (by simpa using offline)
        refine Safe.mirrored ⟨mirrored.good, mirrored.idle, mirrored.inFlight⟩ down ?_
        rintro other ⟨⟩
        exact replays

/-! ## Connecting -/

theorem connectHello_greeted (system : System) (mine : HelloRecord) :
    system.connectHello mine .greeted =
      ({ system with db := system.db.accept, wire := [], linkUp := true },
        some
          { epoch := system.db.accept.tables.dbMeta.epoch
            lastExchSeq := system.db.accept.tables.dbMeta.lastExchSeq }) := by
  have hello : encodeHello mine = encodeAll [Record.hello mine] := by
    simp [encodeAll, Record.encode]
  have handled : system.db.accept.onData (encodeHello mine) =
      { system.db.accept with
        outbuf := encodeHello (HelloRecord.mk system.db.accept.tables.dbMeta.epoch
          system.db.accept.tables.dbMeta.lastExchSeq) } := by
    rw [hello, IngestServer.onData_encodeAll rfl rfl (by simp [Record.Sound])]
    rfl
  have decoded (reply : HelloRecord) : decodeHello (encodeHello reply) = .ok reply :=
    decodeRecord_put rfl (HelloRecord.read_put reply [])
  unfold connectHello
  simp only [handled, decoded]
  rfl

theorem Safe.accept (safe : system.Safe log) : system.db.accept.Good log :=
  safe.good.accept safe.idle

theorem Safe.greeted (safe : system.Safe log) :
    ({ system with db := system.db.accept, wire := [], linkUp := true } : System).Fresh log :=
  ⟨rfl, rfl, rfl, rfl, rfl, rfl, safe.accept⟩

theorem Safe.cut (safe : system.Safe log) (mine : HelloRecord) (written : Nat) :
    ({ system with
        db := system.db.accept
        wire := (encodeHello mine).take written
        linkUp := false } : System).Safe log := by
  have hello : (encodeHello mine).take written ++ (encodeHello mine).drop written =
      encodeAll [Record.hello mine] := by
    rw [List.take_append_drop]
    simp [encodeAll, Record.encode]
  have throughout : (system.db.accept.handleAll []).GoodThroughout log [.hello mine] :=
    ⟨safe.accept, safe.accept.congr rfl rfl⟩
  have idle : system.db.accept.framer = {} := rfl
  have flight := (InFlight.empty idle safe.accept).send (by simp [Record.Sound]) throughout hello
  exact ⟨safe.accept, fun _ => rfl, fun _ => ⟨_, _, flight⟩⟩

theorem Safe.connectHello (safe : system.Safe log) (mine : HelloRecord)
    (connect : ConnectResult) :
    (system.connectHello mine connect).1.fh = system.fh ∧
      match (system.connectHello mine connect).2 with
      | none => (system.connectHello mine connect).1.Safe log ∧
          (system.connectHello mine connect).1.linkUp = false
      | some reply => (system.connectHello mine connect).1.Fresh log ∧
          reply.lastExchSeq =
            (system.connectHello mine connect).1.db.tables.dbMeta.lastExchSeq := by
  cases connect with
  | refused => exact ⟨rfl, ⟨safe.good, safe.idle, safe.inFlight⟩, rfl⟩
  | cut written => exact ⟨rfl, safe.cut mine written, rfl⟩
  | greeted =>
      rw [connectHello_greeted]
      exact ⟨rfl, safe.greeted, rfl⟩

/-! ## Syncing -/

section Sync

variable (clean : log.Clean) (fresh : system.Fresh log) {fh : Fh} {position : Nat}
  (replays : fh.Replays log position) (connected : fh.dbConnected = true)

include clean fresh replays connected

theorem mirrored_pushFullSync (result : SendResult) :
    ({ (system.pushFullSync fh result).1 with
        fh := some { fh := (system.pushFullSync fh result).2, position } } :
      System).Mirrored log := by
  have orders : fh.market.books.orders = ordersAfter log fh.lastExchSeq.toNat := by
    rw [replays.orders, replays.settled]
  have recordable : fh.market.books.orders.Recordable := by
    rw [replays.orders]
    exact clean.recordable position
  have good := Fh.fullSync_goodThroughout recordable (replays.last.trans replays.within) orders
    fresh.good
  refine mirrored_send fresh.safe fresh.connected fresh.up fresh.inFlight fh.fullSync_sound good
    (replays.connect (fh.dbConnected && result = .sent)) ?_ ?_
  · rw [IngestServer.handleAll_nil, Fh.handleAll_fullSync]
    exact ⟨rfl, synced_agree recordable _, replays.last⟩
  · change (fh.dbConnected && decide (result = .sent)) = _
    rw [connected, Bool.true_and]

omit clean in
theorem mirrored_matching
    (same : system.db.tables.dbMeta.lastExchSeq = fh.lastExchSeq) :
    ({ system with fh := some { fh, position } } : System).Mirrored log where
  toSafe := ⟨fresh.good, fun _ => fresh.outside, fun _ => ⟨[], [], fresh.inFlight⟩⟩
  replays := by
    rintro other ⟨⟩
    exact replays
  current := by
    intro _
    refine ⟨fresh.connected, [], fresh.inFlight, ?_⟩
    rintro other ⟨⟩
    refine ⟨connected, fresh.outside, ?_, ?_⟩
    · have agree := fresh.good.mirror fresh.outside
      rw [same, replays.settled, ← replays.orders] at agree
      exact agree
    · change system.db.tables.dbMeta.lastExchSeq.toNat ≤ position
      rw [same]
      exact replays.last

end Sync

private theorem mirrored_tryDbConnect (clean : log.Clean) (mirrored : system.Mirrored log)
    {running : Running} (present : system.fh = some running) (connect : ConnectResult)
    (result : SendResult) : (system.tryDbConnect running connect result).Mirrored log := by
  have replays := mirrored.replays running present
  have spec := mirrored.toSafe.connectHello
    { epoch := running.fh.epoch, lastExchSeq := running.fh.lastExchSeq } connect
  unfold tryDbConnect
  simp only
  split
  · next after equal =>
      rw [equal] at spec
      refine Safe.mirrored spec.2.1 spec.2.2 ?_
      rw [spec.1]
      exact mirrored.replays
  · next after dbHello equal =>
      rw [equal] at spec
      split
      · exact mirrored_pushFullSync clean spec.2.1 (replays.connect true) rfl result
      · next exact_match =>
          have same : dbHello.lastExchSeq = running.fh.lastExchSeq := by
            by_contra different
            exact exact_match (.inr different)
          exact mirrored_matching spec.2.1 (replays.connect true) rfl (spec.2.2.symm.trans same)

/-! ## Starting -/

theorem replays_start (fh : Fh) (empty : fh.market.books.orders = ∅)
    (zero : fh.lastExchSeq = 0) : fh.Replays log 0 := by
  refine ⟨Nat.zero_le _, empty, ?_, ?_⟩
  · rw [zero]
    exact Nat.le_refl 0
  · rw [zero]
    rfl

theorem mirrored_bootstrap (clean : log.Clean) {fh : Fh}
    (empty : fh.market.books.orders = ∅) {dbUp : Bool}
    (up : dbUp = true → system.Fresh log)
    (down : dbUp = false → system.Safe log ∧ system.linkUp = false) (result : SendResult) :
    (system.bootstrap fh dbUp result).Mirrored log := by
  cases dbUp with
  | true =>
      exact mirrored_pushFullSync clean (up rfl)
        ((replays_start { fh with lastExchSeq := 0 } empty rfl).connect true) rfl result
  | false =>
      rcases down rfl with ⟨safe, noLink⟩
      refine Safe.mirrored ⟨safe.good, safe.idle, safe.inFlight⟩ noLink ?_
      rintro other ⟨⟩
      exact replays_start _ empty rfl

theorem Fresh.getState (fresh : system.Fresh log) :
    system.db.onData (encodeControl .getState) =
      { system.db with outbuf := system.db.tables.dumpState } := by
  have ask : encodeControl .getState = encodeAll [Record.getState] := by
    simp [encodeAll, Record.encode]
  rw [ask, IngestServer.onData_encodeAll fresh.connected fresh.unread (by simp [Record.Sound])]
  change system.db.queueWrite system.db.tables.dumpState = _
  rw [IngestServer.queueWrite, if_pos fresh.connected, fresh.answered, List.nil_append]

theorem Fresh.resume (clean : log.Clean) (fresh : system.Fresh log) :
    (Fh.resume system.db.tables.restored).Replays log
      system.db.tables.dbMeta.lastExchSeq.toNat where
  within := fresh.good.within
  orders := restored_orders (clean.recordable _) (fresh.good.mirror fresh.outside)
  last := Nat.le_refl _
  settled := rfl

theorem mirrored_start (clean : log.Clean) (safe : system.Safe log) (startup : Startup) :
    (system.start startup).Mirrored log := by
  have spec := safe.connectHello {} startup.connect
  unfold start
  simp only
  split
  · next after equal =>
      rw [equal] at spec
      exact mirrored_bootstrap clean rfl (fun up => by cases up) (fun _ => spec.2) _
  · next after dbHello equal =>
      rw [equal] at spec
      have fresh : after.Fresh log := spec.2.1
      split
      · -- The database has state: what arrives of it is all of it or nothing.
        have kept : ({ after.db with outbuf := [] } : IngestServer) = after.db := by
          rw [← fresh.answered]
        simp only [fresh.getState, kept]
        split
        · next recovered arrived =>
            rw [Tables.recoverFromDb_take fresh.good.shallow arrived]
            have replays := fresh.resume clean
            split
            · next blank =>
                have zero : after.db.tables.dbMeta.lastExchSeq = 0 := by
                  have wrapped := blank.1
                  change after.db.tables.dbMeta.lastExchSeq + 1 = 1 at wrapped
                  simpa using wrapped
                have empty := replays.orders
                rw [zero] at empty
                exact mirrored_bootstrap clean empty (fun _ => fresh) (fun down => by cases down) _
            · exact mirrored_matching fresh replays rfl rfl
        · have again := fresh.safe.connectHello { epoch := startup.epoch, lastExchSeq := 0 }
            startup.reconnect
          refine mirrored_bootstrap clean rfl ?_ ?_ _
          · intro up
            rcases Option.isSome_iff_exists.mp up with ⟨reply, answered⟩
            rw [answered] at again
            exact again.2.1
          · intro down
            have refused := Option.isNone_iff_eq_none.mp (by simpa using down)
            rw [refused] at again
            exact again.2
      · exact mirrored_bootstrap clean rfl (fun _ => fresh) (fun down => by cases down) _

/-! ## Every event -/

theorem mirrored_read (mirrored : system.Mirrored log) (connected : system.db.connected = true)
    (count : Nat) :
    ({ system with
        db := system.db.onData (system.wire.take count)
        wire := system.wire.drop count } : System).Mirrored log := by
  have kept {records : List Record} {lost : Bytes}
      (flight : InFlight log system.db system.wire lost records) :
      (system.db.onData (system.wire.take count)).connected = true := by
    rcases flight.read connected count with ⟨whole, left, handled, -⟩
    rw [handled]
    change (system.db.handleAll _).connected = true
    rw [IngestServer.handleAll_connected, connected]
  rcases mirrored.inFlight connected with ⟨lost, records, flight⟩
  refine ⟨⟨?_, ?_, ?_⟩, mirrored.replays, ?_⟩
  · rcases flight.read connected count with ⟨whole, left, -, rest⟩
    exact rest.good.first
  · intro closed
    rw [kept flight] at closed
    cases closed
  · intro _
    rcases flight.read connected count with ⟨whole, left, -, rest⟩
    exact ⟨lost, _, rest⟩
  · intro up
    rcases mirrored.current up with ⟨-, sent, whole, current⟩
    rcases whole.read connected count with ⟨done, left, handled, rest⟩
    refine ⟨kept whole, _, rest, ?_⟩
    intro running present
    rcases current running present with ⟨online, here⟩
    refine ⟨online, ?_⟩
    have after : (system.db.onData (system.wire.take count)).handleAll (sent.drop done) =
        (system.db.handleAll sent).withBuffer left := by
      rw [handled, IngestServer.handleAll_withBuffer, ← IngestServer.handleAll_append,
        List.take_append_drop]
    change Current _ _ ((system.db.onData (system.wire.take count)).handleAll (sent.drop done))
    rw [after]
    exact ⟨here.outside, here.agree, here.behind⟩

theorem mirrored_initial : ({} : System).Mirrored log where
  good := .of_reset rfl rfl rfl
  idle := fun _ => rfl
  inFlight := by
    intro connected
    cases connected
  replays := by
    intro running present
    cases present
  current := by
    intro up
    cases up

theorem mirrored_step (clean : log.Clean) (mirrored : system.Mirrored log) {event : Event}
    {later : System} (stepped : system.step log event = some later) : later.Mirrored log := by
  cases event with
  | message result =>
      rcases Option.bind_eq_some_iff.mp stepped with ⟨running, present, found⟩
      rcases Option.bind_eq_some_iff.mp found with ⟨payload, next, same⟩
      cases same
      exact mirrored_message clean mirrored present next result
  | read count =>
      unfold step at stepped
      simp only at stepped
      split at stepped
      · next connected =>
          cases stepped
          exact mirrored_read mirrored connected count
      · cases stepped
  | linkBreaks =>
      cases stepped
      have closed : system.db.dropConnection.connected = false := by
        unfold IngestServer.dropConnection
        split
        · rfl
        · next down => simpa using down
      refine Safe.mirrored ⟨mirrored.good.dropConnection, ?_, ?_⟩ rfl mirrored.replays
      · intro _
        unfold IngestServer.dropConnection
        split
        · rfl
        · next down => exact mirrored.idle (by simpa using down)
      · intro connected
        rw [closed] at connected
        cases connected
  | dbRestarts =>
      cases stepped
      have empty : ({} : System).Mirrored log := mirrored_initial
      exact Safe.mirrored ⟨empty.good, empty.idle, empty.inFlight⟩ rfl mirrored.replays
  | login session =>
      rcases Option.bind_eq_some_iff.mp stepped with ⟨running, present, same⟩
      cases same
      refine ⟨⟨mirrored.good, mirrored.idle, mirrored.inFlight⟩, ?_, ?_⟩
      · rintro other ⟨⟩
        have replays := mirrored.replays running present
        exact ⟨replays.within, replays.orders, replays.last, replays.settled⟩
      · intro up
        rcases mirrored.current up with ⟨connected, records, flight, current⟩
        refine ⟨connected, records, flight, ?_⟩
        rintro other ⟨⟩
        exact current running present
  | reconnect connect result =>
      rcases Option.bind_eq_some_iff.mp stepped with ⟨running, present, found⟩
      split at found
      · cases found
      · cases found
        exact mirrored_tryDbConnect clean mirrored present connect result
  | crash =>
      rcases Option.bind_eq_some_iff.mp stepped with ⟨running, -, same⟩
      cases same
      refine Safe.mirrored ⟨mirrored.good, mirrored.idle, mirrored.inFlight⟩ rfl ?_
      intro other present
      cases present
  | start startup =>
      unfold step at stepped
      simp only at stepped
      split at stepped
      · cases stepped
      · cases stepped
        exact mirrored_start clean mirrored.toSafe startup

private theorem mirrored_run (clean : log.Clean) {events : List Event}
    (reached : run log {} events = some system) : system.Mirrored log :=
  foldlM_invariant (Mirrored log) (fun _ _ _ mirrored => mirrored_step clean mirrored)
    mirrored_initial reached

/-- Whatever happens to the two processes and the link between them: the feed handler's
orders are those of the messages it was given; the database's, outside a bracket, are
those of the position it reports; and with nothing left in flight on a link that is up
they are the feed handler's. -/
theorem mirror_under_failures (clean : log.Clean) {events : List Event}
    (reached : run log {} events = some system) :
    (∀ running, system.fh = some running →
        running.fh.market.books.orders = ordersAfter log running.position) ∧
      (system.db.inSync = false →
        Agree true (ordersAfter log system.db.tables.dbMeta.lastExchSeq.toNat)
          system.db.tables.orders) ∧
      ∀ running, system.fh = some running → system.linkUp = true → system.wire = [] →
        system.db.inSync = false ∧
          Agree true running.fh.market.books.orders system.db.tables.orders := by
  have mirrored := mirrored_run clean reached
  refine ⟨fun running present => (mirrored.replays running present).orders,
    mirrored.good.mirror, ?_⟩
  intro running present up drained
  rcases mirrored.current up with ⟨-, records, flight, current⟩
  rw [drained] at flight
  rcases current running present with ⟨-, here⟩
  rw [flight.drained] at here
  exact ⟨here.outside, here.agree⟩

def twoOrders : ExchangeLog where
  payloads :=
    [[ascii 'A', 0, 0, 0, 7, 0, 0, 0, 0, 0, 0, 0, 1, ascii 'B', 0, 0, 0, 100,
        ascii '1', ascii '3', ascii '0', ascii '1', ascii 'D', ascii 'A', ascii 'Y', space,
        0, 0, 3, 232],
      [ascii 'A', 0, 0, 0, 9, 0, 0, 0, 0, 0, 0, 0, 2, ascii 'S', 0, 0, 0, 50,
        ascii '1', ascii '3', ascii '0', ascii '1', ascii 'D', ascii 'A', ascii 'Y', space,
        0, 0, 3, 242]]
  numbered := by decide

/-- The link breaks inside the first update, and the feed handler notices with the
second one. -/
def brokenUpdate : List Event :=
  [.start ⟨1, .greeted, 0, .refused, .sent⟩, .read 1000, .message .sent, .read 200, .linkBreaks,
    .message (.failed 0), .reconnect .greeted .sent, .read 10000]

private theorem twoOrders_clean : twoOrders.Clean where
  nulFree := by decide
  grouped := by
    have checked : ∀ msg ∈ messages twoOrders.payloads, ∀ order ∈ msg.added,
        order.group ≠ .empty := by decide
    exact checked
  numbered := by
    have checked : ∀ msg ∈ messages twoOrders.payloads, msg.type = ascii 'A' := by decide
    rintro msg member order attribution orderType rfl
    exact absurd (checked _ member) (show ascii 'F' ≠ ascii 'A' by decide)

theorem mirror_after_brokenUpdate :
    ∃ system running, run twoOrders {} brokenUpdate = some system ∧
      system.fh = some running ∧ system.db.inSync = false ∧
        Agree true running.fh.market.books.orders system.db.tables.orders := by
  have ended : (run twoOrders {} brokenUpdate).map (fun system =>
      (system.fh.isSome, system.linkUp, system.wire)) = some (true, true, []) := by
    decide +kernel
  rcases Option.map_eq_some_iff.mp ended with ⟨system, reached, same⟩
  cases present : system.fh with
  | none =>
      rw [present] at same
      cases same
  | some running =>
      rw [present] at same
      rcases Prod.mk.inj (Prod.mk.inj same).2 with ⟨up, drained⟩
      exact ⟨system, running, reached, present,
        (mirror_under_failures twoOrders_clean reached).2.2 running present up drained⟩

end System

end ProtoFH
