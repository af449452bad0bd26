import ProtoFH.Db.Tables

/-! # Ingest

The database's end of the link: one connection at a time, whose records go into
the tables. `outbuf` holds the bytes written for the peer to read. -/

namespace ProtoFH

structure IngestServer where
  tables : Tables := {}
  connected : Bool := false
  inSync : Bool := false
  framer : RecordFramer := {}
  outbuf : Bytes := []

def assemble (kind : RecordKind) (body : Bytes) : Bytes :=
  putHeader kind (UInt16.ofNat body.length) ++ body

namespace IngestServer

/-- `drop_connection`: a bracket that is still open takes the tables with it. -/
def dropConnection (server : IngestServer) : IngestServer :=
  if server.connected then
    { tables :=
        if server.inSync then server.tables.reset.countSyncDiscarded else server.tables
      connected := false
      inSync := false
      framer := {}
      outbuf := [] }
  else server

/-- `on_listen_ready`: a new connection kicks the existing one. -/
def accept (server : IngestServer) : IngestServer :=
  { server.dropConnection with connected := true, inSync := false, framer := {}, outbuf := [] }

def queueWrite (server : IngestServer) (data : Bytes) : IngestServer :=
  if server.connected then { server with outbuf := server.outbuf ++ data } else server

def decodeOrDrop (server : IngestServer) (decoded : Except String α)
    (handle : α → IngestServer) : IngestServer :=
  match decoded with
  | .error _ => server.dropConnection
  | .ok rec => handle rec

def handleHello (server : IngestServer) (_ : HelloRecord) : IngestServer :=
  server.queueWrite (encodeHello
    { epoch := server.tables.dbMeta.epoch, lastExchSeq := server.tables.dbMeta.lastExchSeq })

def handleSyncEnd (server : IngestServer) (rec : SyncEndRecord) : IngestServer :=
  if server.inSync then
    { server with
      tables := (server.tables.adoptMeta rec).countSyncCompleted
      inSync := false }
  else server

def handleRecord (server : IngestServer) (raw : RawRecord) : IngestServer :=
  let whole := assemble raw.kind raw.body
  match raw.kind with
  | .hello => server.decodeOrDrop (decodeHello whole) server.handleHello
  | .getState => server.queueWrite server.tables.dumpState
  | .reset => { server with tables := server.tables.reset }
  | .syncBegin => { server with inSync := true }
  | .syncEnd => server.decodeOrDrop (decodeSyncEnd whole) server.handleSyncEnd
  | .update =>
      server.decodeOrDrop (decodeUpdate whole) fun rec =>
        { server with tables := server.tables.applyUpdate rec server.inSync }
  | .order =>
      server.decodeOrDrop (decodeOrder whole) fun rec =>
        { server with tables := server.tables.applyOrder rec }
  | .tick =>
      server.decodeOrDrop (decodeTick whole) fun rec =>
        { server with tables := server.tables.applyTick rec }

/-- `while (conn_fd_ >= 0 && framer_.next(rec)) handle_record(rec);` Every record
takes bytes off the buffer, so its length is fuel enough. -/
def handleBuffered : (fuel : Nat) → IngestServer → IngestServer
  | 0, server => server
  | fuel + 1, server =>
      if server.connected then
        match server.framer.next with
        | (framer, some raw) => handleBuffered fuel ({ server with framer }.handleRecord raw)
        | (framer, none) => { server with framer }
      else server

def dropIfCorrupt (server : IngestServer) : IngestServer :=
  if server.connected ∧ server.framer.corrupt.isSome then server.dropConnection else server

/-- `on_conn_readable` for one chunk that `recv` returned. -/
def onData (server : IngestServer) (data : Bytes) : IngestServer :=
  let fed := { server with framer := server.framer.feed data }
  (handleBuffered (fed.framer.buf.length + 1) fed).dropIfCorrupt

end IngestServer

theorem decodeRecord_assemble {kind : RecordKind} {reader : Reader α} {body : Bytes} {value : α}
    (length : body.length = kind.bodyLen) (read : reader (body ++ []) = .ok (value, [])) :
    decodeRecord kind reader (assemble kind body) = .ok value := by
  rw [assemble, length, decodeRecord_put length read]

namespace IngestServer

/-- What a decoded record does to the tables and the bracket flag; the reply it
may cause is left aside. -/
def handle (server : IngestServer) : Record → IngestServer
  | .hello rec => server.handleHello rec
  | .getState => server.queueWrite server.tables.dumpState
  | .reset => { server with tables := server.tables.reset }
  | .syncBegin => { server with inSync := true }
  | .syncEnd rec => server.handleSyncEnd rec
  | .update rec => { server with tables := server.tables.applyUpdate rec server.inSync }
  | .order rec => { server with tables := server.tables.applyOrder rec }
  | .tick rec => { server with tables := server.tables.applyTick rec }

theorem handleRecord_raw (server : IngestServer) {record : Record} (sound : record.Sound) :
    server.handleRecord record.raw = server.handle record.wired := by
  have length := record.body_length
  cases record with
  | update rec =>
      have decoded : decodeUpdate (assemble .update rec.put) = .ok rec.wired :=
        decodeRecord_assemble length (UpdateRecord.read_put sound [])
      simp only [handleRecord, Record.raw, Record.kind, Record.body, decoded, decodeOrDrop,
        handle, Record.wired]
  | order rec =>
      have decoded : decodeOrder (assemble .order rec.put) = .ok rec.wired :=
        decodeRecord_assemble length (OrderRecord.read_put rec [])
      simp only [handleRecord, Record.raw, Record.kind, Record.body, decoded, decodeOrDrop,
        handle, Record.wired]
  | tick rec =>
      have decoded : decodeTick (assemble .tick rec.put) = .ok rec :=
        decodeRecord_assemble length (TickRecord.read_put rec [])
      simp only [handleRecord, Record.raw, Record.kind, Record.body, decoded, decodeOrDrop,
        handle, Record.wired]
  | syncEnd rec =>
      have decoded : decodeSyncEnd (assemble .syncEnd rec.put) = .ok rec.wired :=
        decodeRecord_assemble length (SyncEndRecord.read_put rec [])
      simp only [handleRecord, Record.raw, Record.kind, Record.body, decoded, decodeOrDrop,
        handle, Record.wired]
  | hello rec =>
      have decoded : decodeHello (assemble .hello rec.put) = .ok rec :=
        decodeRecord_assemble length (HelloRecord.read_put rec [])
      simp only [handleRecord, Record.raw, Record.kind, Record.body, decoded, decodeOrDrop,
        handle, Record.wired]
  | syncBegin | getState | reset => rfl

def handleAll (server : IngestServer) (records : List Record) : IngestServer :=
  records.foldl (fun server record => server.handle record.wired) server

@[simp] theorem handleAll_nil (server : IngestServer) : server.handleAll [] = server := rfl

@[simp] theorem handleAll_cons (server : IngestServer) (record : Record)
    (records : List Record) :
    server.handleAll (record :: records) = (server.handle record.wired).handleAll records := rfl

theorem handleAll_append (server : IngestServer) (first second : List Record) :
    server.handleAll (first ++ second) = (server.handleAll first).handleAll second :=
  List.foldl_append

@[simp] theorem queueWrite_connected (server : IngestServer) (data : Bytes) :
    (server.queueWrite data).connected = server.connected := by
  unfold queueWrite
  split <;> rfl

@[simp] theorem handle_connected (server : IngestServer) (record : Record) :
    (server.handle record).connected = server.connected := by
  cases record with
  | syncEnd rec =>
      change (server.handleSyncEnd rec).connected = _
      unfold handleSyncEnd
      split <;> rfl
  | hello rec | getState => exact queueWrite_connected _ _
  | _ => rfl

@[simp] theorem handleAll_connected (server : IngestServer) (records : List Record) :
    (server.handleAll records).connected = server.connected := by
  induction records generalizing server with
  | nil => rfl
  | cons record records induction => rw [handleAll_cons, induction, handle_connected]

def withBuffer (server : IngestServer) (buf : Bytes) : IngestServer :=
  { server with framer := { buf } }

theorem handle_withBuffer (server : IngestServer) (buf : Bytes) (record : Record) :
    (server.withBuffer buf).handle record = (server.handle record).withBuffer buf := by
  cases record with
  | syncEnd rec =>
      change (server.withBuffer buf).handleSyncEnd rec = (server.handleSyncEnd rec).withBuffer buf
      unfold handleSyncEnd withBuffer
      split <;> rfl
  | hello rec | getState =>
      change (server.withBuffer buf).queueWrite _ = (server.queueWrite _).withBuffer buf
      unfold queueWrite withBuffer
      split <;> rfl
  | _ => rfl

theorem handleAll_withBuffer (server : IngestServer) (buf : Bytes) (records : List Record) :
    (server.withBuffer buf).handleAll records = (server.handleAll records).withBuffer buf := by
  induction records generalizing server with
  | nil => rfl
  | cons record records induction =>
      rw [handleAll_cons, handleAll_cons, handle_withBuffer, induction]

variable {server : IngestServer}

section Buffered

variable {buf : Bytes} (connected : server.connected) (fuel : Nat)
include connected

theorem handleBuffered_succ :
    handleBuffered (fuel + 1) (server.withBuffer buf) =
      match RecordFramer.next { buf } with
      | (framer, some raw) => handleBuffered fuel ({ server with framer }.handleRecord raw)
      | (framer, none) => { server with framer } :=
  if_pos connected

private theorem handleBuffered_frame {rest : Bytes} {raw : RawRecord}
    (step : RecordFramer.step buf = .frame raw rest) :
    handleBuffered (fuel + 1) (server.withBuffer buf) =
      handleBuffered fuel ((server.withBuffer rest).handleRecord raw) := by
  rw [handleBuffered_succ connected, RecordFramer.next_eq_step, step]
  rfl

private theorem handleBuffered_more (step : RecordFramer.step buf = .more) :
    handleBuffered (fuel + 1) (server.withBuffer buf) = server.withBuffer buf := by
  rw [handleBuffered_succ connected, RecordFramer.next_eq_step, step]
  rfl

end Buffered

variable {records : List Record}

private theorem handleBuffered_drain (sound : ∀ record ∈ records, record.Sound)
    (connected : server.connected) {buf left : Bytes} {fuel : Nat} (enough : buf.length < fuel)
    (drained : RecordFramer.framing.drain buf = (records.map Record.raw, left))
    (incomplete : RecordFramer.step left = .more) :
    handleBuffered fuel (server.withBuffer buf) = (server.handleAll records).withBuffer left := by
  induction records generalizing server buf fuel with
  | nil =>
      obtain ⟨rfl, -⟩ := RecordFramer.framing.drain_eq_nil drained
      cases fuel with
      | zero => omega
      | succ fuel => exact handleBuffered_more connected fuel incomplete
  | cons record records induction =>
      obtain ⟨rest, step, later⟩ := RecordFramer.framing.drain_eq_cons drained
      have shorter := RecordFramer.framing.shrinks step
      rw [List.forall_mem_cons] at sound
      cases fuel with
      | zero => omega
      | succ fuel =>
          rw [handleBuffered_frame connected fuel step, handleRecord_raw _ sound.1,
            handle_withBuffer, handleAll_cons]
          exact induction sound.2 (by rw [handle_connected, connected]) (by omega) later

theorem onData_drain (sound : ∀ record ∈ records, record.Sound) (connected : server.connected)
    {buf data left : Bytes}
    (drained : RecordFramer.framing.drain (buf ++ data) = (records.map Record.raw, left))
    (incomplete : RecordFramer.step left = .more) :
    (server.withBuffer buf).onData data = (server.handleAll records).withBuffer left := by
  have handled := handleBuffered_drain sound connected
    (Nat.lt_succ_self (buf ++ data).length) drained incomplete
  change (handleBuffered (buf ++ data).length.succ
    (server.withBuffer (buf ++ data))).dropIfCorrupt = _
  rw [handled, dropIfCorrupt, if_neg]
  intro corrupt
  cases corrupt.2

theorem onData_front (sound : ∀ record ∈ records, record.Sound) (connected : server.connected)
    {buf data tail : Bytes} (stream : buf ++ data ++ tail = encodeAll records) :
    ∃ whole left,
      (server.withBuffer buf).onData data =
          (server.handleAll (records.take whole)).withBuffer left ∧
        left ++ tail = encodeAll (records.drop whole) ∧ RecordFramer.step left = .more := by
  rcases drain_front stream with ⟨whole, left, drained, rest, more⟩
  have taken : ∀ record ∈ records.take whole, record.Sound :=
    fun record member => sound record (List.mem_of_mem_take member)
  exact ⟨whole, left, onData_drain taken connected drained more, rest, more⟩

theorem onData_chunks (sound : ∀ record ∈ records, record.Sound) (connected : server.connected)
    {buf : Bytes} {chunks : List Bytes} (more : RecordFramer.step buf = .more)
    (stream : buf ++ chunks.flatten = encodeAll records) :
    chunks.foldl onData (server.withBuffer buf) = (server.handleAll records).withBuffer [] := by
  induction chunks generalizing server records buf with
  | nil =>
      cases records with
      | nil =>
          have empty : buf = [] := by simpa [encodeAll] using stream
          rw [empty]
          rfl
      | cons record records =>
          have split : buf = record.encode ++ encodeAll records := by
            simpa [encodeAll] using stream
          rw [split, RecordFramer.step_encode] at more
          cases more
  | cons chunk chunks induction =>
      rw [List.flatten_cons, ← List.append_assoc] at stream
      rcases onData_front sound connected stream with ⟨whole, left, read, rest, stuck⟩
      rw [List.foldl_cons, read]
      conv_rhs => rw [← List.take_append_drop whole records, handleAll_append]
      apply induction _ (by rw [handleAll_connected, connected]) stuck rest
      exact fun record member => sound record (List.mem_of_mem_drop member)

end IngestServer

end ProtoFH
