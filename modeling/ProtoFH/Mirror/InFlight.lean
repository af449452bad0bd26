import ProtoFH.Mirror.Position
import ProtoFH.Mirror.System
import ProtoFH.Recovery.Dump

/-! # What is in flight

A database is good when its orders are those of the position it reports, unless it is
inside a bracket. The stream towards it is safe when it stays good after every record,
so that the stream may be cut anywhere. -/

namespace ProtoFH

/-- Outside a bracket the orders are those after as many messages as `last_exch_seq`. -/
structure IngestServer.Good (log : ExchangeLog) (server : IngestServer) : Prop where
  shallow : server.tables.Shallow
  within : server.tables.dbMeta.lastExchSeq.toNat ≤ log.payloads.length
  mirror : server.inSync = false →
    Agree true (ordersAfter log server.tables.dbMeta.lastExchSeq.toNat) server.tables.orders

namespace IngestServer.Good

variable {log : ExchangeLog} {server : IngestServer}

theorem congr (good : server.Good log) {other : IngestServer}
    (tables : other.tables = server.tables) (inSync : other.inSync = server.inSync) :
    other.Good log := by
  refine ⟨?_, ?_, ?_⟩
  · rw [tables]
    exact good.shallow
  · rw [tables]
    exact good.within
  · rw [tables, inSync]
    exact good.mirror

theorem of_reset (books : server.tables.books = ∅)
    (orders : server.tables.orders = ∅) (start : server.tables.dbMeta.lastExchSeq = 0) :
    server.Good log := by
  refine ⟨?_, ?_, ?_⟩
  · intro key row stored
    rw [books] at stored
    simp at stored
  · rw [start]
    exact Nat.zero_le _
  · intro _
    rw [start, orders]
    exact Agree.empty

theorem dropConnection (good : server.Good log) : server.dropConnection.Good log := by
  unfold IngestServer.dropConnection
  split
  · by_cases bracket : server.inSync = true
    · simp only [bracket, if_true]
      exact of_reset rfl rfl rfl
    · have outside : server.inSync = false := by simpa using bracket
      exact good.congr (by simp [outside]) outside.symm
  · exact good

theorem accept (good : server.Good log) (idle : server.connected = false →
    server.inSync = false) : server.accept.Good log := by
  have kept : server.accept.tables = server.dropConnection.tables := rfl
  refine good.dropConnection.congr kept ?_
  change false = server.dropConnection.inSync
  unfold IngestServer.dropConnection
  split
  · rfl
  · next closed => exact (idle (by simpa using closed)).symm

end IngestServer.Good

def IngestServer.GoodThroughout (log : ExchangeLog) : IngestServer → List Record → Prop :=
  Throughout (fun server record => server.handle record.wired) (IngestServer.Good log)

namespace IngestServer.GoodThroughout

variable {log : ExchangeLog} {server : IngestServer}

theorem append {earlier later : List Record} :
    server.GoodThroughout log (earlier ++ later) ↔
      server.GoodThroughout log earlier ∧
        (server.handleAll earlier).GoodThroughout log later :=
  throughout_append earlier later

theorem withBuffer {records : List Record} (good : server.GoodThroughout log records)
    (buf : Bytes) : (server.withBuffer buf).GoodThroughout log records := by
  apply Throughout.transfer (fun left right => right = left.withBuffer buf) good rfl
  · rintro left right record rfl
    exact handle_withBuffer _ _ _
  · rintro left right rfl here
    exact here.congr rfl rfl

end IngestServer.GoodThroughout

/-! ## A full sync -/

structure IngestServer.Inside (server : IngestServer) : Prop where
  bracket : server.inSync = true
  shallow : server.tables.Shallow
  start : server.tables.dbMeta.lastExchSeq = 0

def Record.IsRow : Record → Prop
  | .tick _ => True
  | .order _ => True
  | .update rec => rec.Shallow
  | _ => False

variable {server : IngestServer}

theorem IngestServer.Inside.good {log : ExchangeLog} (inside : server.Inside) :
    server.Good log := by
  refine ⟨inside.shallow, ?_, ?_⟩
  · rw [inside.start]
    exact Nat.zero_le _
  · intro outside
    rw [inside.bracket] at outside
    cases outside

theorem IngestServer.Inside.handle (inside : server.Inside) {record : Record} (row : record.IsRow) :
    (server.handle record.wired).Inside := by
  cases record with
  | tick rec | order rec => exact ⟨inside.bracket, inside.shallow, inside.start⟩
  | update rec =>
      have stored : server.handle (Record.update rec).wired =
          { server with tables := server.tables.store rec.wired } := by
        change { server with tables := server.tables.applyUpdate rec.wired server.inSync } = _
        rw [inside.bracket]
        rfl
      rw [stored]
      exact ⟨inside.bracket, inside.shallow.store (UpdateRecord.Shallow.wired row), inside.start⟩
  | _ => cases row

def Fh.syncBody (fh : Fh) : List Record :=
  fh.syncTicks.map Record.tick ++
    (fh.market.books.orders.values.map Order.toRecord).map Record.order ++
    fh.syncRows.map Record.update

theorem Fh.syncBody_row {fh : Fh} {record : Record} (member : record ∈ fh.syncBody) :
    record.IsRow := by
  simp only [syncBody, List.mem_append, List.mem_map] at member
  rcases member with (⟨tick, -, rfl⟩ | ⟨order, -, rfl⟩) | ⟨rec, inRows, rfl⟩
  · trivial
  · trivial
  · exact syncRows_shallow inRows

theorem Fh.fullSync_body (fh : Fh) :
    fh.fullSync = [Record.reset, Record.syncBegin] ++ fh.syncBody ++
      [Record.syncEnd
        { session := CStr.copy 10 fh.session, lastExchSeq := fh.lastExchSeq
          epoch := fh.epoch }] := by
  rw [fullSync_eq, syncBody]
  simp only [List.append_assoc]

theorem Fh.fullSync_goodThroughout {log : ExchangeLog} {fh : Fh}
    (recordable : fh.market.books.orders.Recordable)
    (within : fh.lastExchSeq.toNat ≤ log.payloads.length)
    (orders : fh.market.books.orders = ordersAfter log fh.lastExchSeq.toNat)
    (good : server.Good log) : server.GoodThroughout log fh.fullSync := by
  have last : (server.handleAll fh.fullSync).Good log := by
    rw [handleAll_fullSync]
    refine ⟨fh.synced_shallow _, within, fun _ => ?_⟩
    change Agree true (ordersAfter log fh.lastExchSeq.toNat) _
    rw [← orders]
    exact synced_agree recordable _
  have wiped : (server.handle .reset).Good log := .of_reset rfl rfl rfl
  have begun : ((server.handle .reset).handle .syncBegin).Inside :=
    ⟨rfl, wiped.shallow, rfl⟩
  rw [fullSync_body, IngestServer.GoodThroughout.append, IngestServer.GoodThroughout.append]
  refine ⟨⟨⟨good, wiped, begun.good⟩, ?_⟩, ?_, ?_⟩
  · exact throughout_of_invariant (fun _ _ member inside => inside.handle (syncBody_row member))
      (fun _ inside => inside.good) begun
  · have inside : (((server.handle .reset).handle .syncBegin).handleAll fh.syncBody).Inside :=
      foldl_invariant IngestServer.Inside
        (fun _ _ member inside => inside.handle (syncBody_row member)) begun
    rw [IngestServer.handleAll_append]
    exact inside.good
  · rw [fullSync_body, IngestServer.handleAll_append] at last
    exact last

/-! ## The stream -/

/-- What the database has buffered and what is on the wire, together with bytes that
were never sent, are records that it may handle. -/
structure InFlight (log : ExchangeLog) (db : IngestServer) (wire lost : Bytes)
    (records : List Record) : Prop where
  intact : db.framer.corrupt = none
  incomplete : RecordFramer.step db.framer.buf = .more
  stream : db.framer.buf ++ wire ++ lost = encodeAll records
  sound : ∀ record ∈ records, record.Sound
  good : db.GoodThroughout log records

namespace InFlight

variable {log : ExchangeLog} {db : IngestServer} {wire lost : Bytes} {records : List Record}

theorem empty (idle : db.framer = {}) (good : db.Good log) : InFlight log db [] [] [] where
  intact := by rw [idle]
  incomplete := by rw [idle]; rfl
  stream := by rw [idle]; rfl
  sound := by simp
  good := good

theorem send (flight : InFlight log db wire [] records) {later : List Record}
    (sound : ∀ record ∈ later, record.Sound)
    (good : (db.handleAll records).GoodThroughout log later) {written unsent : Bytes}
    (data : written ++ unsent = encodeAll later) :
    InFlight log db (wire ++ written) unsent (records ++ later) where
  intact := flight.intact
  incomplete := flight.incomplete
  stream := by
    have before := flight.stream
    rw [List.append_nil] at before
    rw [encodeAll_append, ← data, ← before]
    simp only [List.append_assoc]
  sound record member := by
    rcases List.mem_append.mp member with earlier | isLater
    · exact flight.sound record earlier
    · exact sound record isLater
  good := IngestServer.GoodThroughout.append.mpr ⟨flight.good, good⟩

theorem drained (flight : InFlight log db [] [] records) : records = [] := by
  have stream := flight.stream
  rw [List.append_nil, List.append_nil] at stream
  cases records with
  | nil => rfl
  | cons record later =>
      have whole : db.framer.buf = record.encode ++ encodeAll later := by
        rw [stream]
        rfl
      have more := flight.incomplete
      rw [whole, RecordFramer.step_encode] at more
      cases more

private theorem withBuffer_self (flight : InFlight log db wire lost records) :
    db.withBuffer db.framer.buf = db := by
  have intact := flight.intact
  rcases db with ⟨tables, connected, inSync, ⟨buf, corrupt⟩, outbuf⟩
  cases intact
  rfl

theorem last (flight : InFlight log db wire lost records) : (db.handleAll records).Good log := by
  have all : db.GoodThroughout log (records ++ []) := by
    rw [List.append_nil]
    exact flight.good
  exact (IngestServer.GoodThroughout.append.mp all).2

theorem read (flight : InFlight log db wire lost records) (connected : db.connected = true)
    (count : Nat) :
    ∃ whole left,
      db.onData (wire.take count) = (db.handleAll (records.take whole)).withBuffer left ∧
        InFlight log (db.onData (wire.take count)) (wire.drop count) lost
          (records.drop whole) := by
  have stream : db.framer.buf ++ wire.take count ++ (wire.drop count ++ lost) =
      encodeAll records := by
    rw [← flight.stream]
    simp only [List.append_assoc, List.take_append_drop, ← List.append_assoc (wire.take count)]
  rcases IngestServer.onData_front flight.sound connected stream with
    ⟨whole, left, handled, rest, more⟩
  rw [flight.withBuffer_self] at handled
  have split : db.GoodThroughout log (records.take whole ++ records.drop whole) := by
    rw [List.take_append_drop]
    exact flight.good
  refine ⟨whole, left, handled, ?_⟩
  rw [handled]
  exact
    { intact := rfl
      incomplete := more
      stream := by
        rw [← rest]
        exact List.append_assoc left _ _
      sound := fun record member => flight.sound record (List.mem_of_mem_drop member)
      good := (IngestServer.GoodThroughout.append.mp split).2.withBuffer left }

end InFlight

end ProtoFH
