import ProtoFH.Db.Ingest
import ProtoFH.Foundation.Execution

/-! # Ingest over a socket

The ingest server with everything its socket can do: reads of any size, an end of
file or an error at any point, writes that are taken in part, refused for now or
failed. Beside the server runs a journal of the records it completed and of the
connections it lost. -/

namespace ProtoFH

inductive SendOutcome where
  | took (count : Nat)
  | again
  | interrupted
  | failed
deriving DecidableEq

/-- What `recv` returns; no bytes at all is the end of the stream. -/
inductive RecvOutcome where
  | data (bytes : Bytes)
  | again
  | interrupted
  | failed
deriving DecidableEq

inductive JournalEntry where
  | record (record : Record)
  | drop
deriving DecidableEq

def Tables.dumpRows (tables : Tables) : List Record :=
  (tickRows tables.ticks.toList).map Record.tick ++
    tables.orders.values.map Record.order ++
    tables.books.toList.map fun entry => Record.update (tables.makeDumpUpdate entry.1 entry.2)

def Tables.dumpEnd (tables : Tables) : Record :=
  .syncEnd
    { session := tables.dbMeta.session
      lastExchSeq := tables.dbMeta.lastExchSeq
      epoch := tables.dbMeta.epoch }

/-- What `handle_record` decodes a framed record to. -/
def RawRecord.decode (raw : RawRecord) : Except String Record :=
  let whole := assemble raw.kind raw.body
  match raw.kind with
  | .hello => (decodeHello whole).map .hello
  | .getState => .ok .getState
  | .reset => .ok .reset
  | .syncBegin => .ok .syncBegin
  | .syncEnd => (decodeSyncEnd whole).map .syncEnd
  | .update => (decodeUpdate whole).map .update
  | .order => (decodeOrder whole).map .order
  | .tick => (decodeTick whole).map .tick

structure Ingest where
  server : IngestServer := {}
  journal : List JournalEntry := []

namespace Ingest

/-- What is left once a call has run, and the send results still to come. An error is
a loop over a map that was emptied under it: nothing is known of what follows. -/
abbrev Outcome := Except Ingest (Ingest × List SendOutcome)

def dropConnection (ingest : Ingest) : Ingest :=
  if ingest.server.connected then
    { server := ingest.server.dropConnection, journal := ingest.journal ++ [.drop] }
  else ingest

/-- `on_listen_ready` -/
def accept (ingest : Ingest) : Ingest :=
  { ingest.dropConnection with
    server := { ingest.dropConnection.server with
      connected := true, inSync := false, framer := {}, outbuf := [] } }

def withOutbuf (ingest : Ingest) (outbuf : Bytes) : Ingest :=
  { ingest with server := { ingest.server with outbuf } }

/-- `try_drain`. When no further result is given, the socket is not ready. -/
def tryDrain (ingest : Ingest) : List SendOutcome → Ingest × List SendOutcome
  | [] => (ingest, [])
  | result :: rest =>
      if ingest.server.connected ∧ ingest.server.outbuf ≠ [] then
        match result with
        | .took count =>
            if count = 0 then (ingest.dropConnection, rest)
            else (ingest.withOutbuf (ingest.server.outbuf.drop count)).tryDrain rest
        | .again => (ingest, rest)
        | .interrupted => ingest.tryDrain rest
        | .failed => (ingest.dropConnection, rest)
      else (ingest, result :: rest)

def queueWrite (ingest : Ingest) (data : Bytes) (sends : List SendOutcome) :
    Ingest × List SendOutcome :=
  if ingest.server.connected then
    (ingest.withOutbuf (ingest.server.outbuf ++ data)).tryDrain sends
  else (ingest, sends)

/-- The loops of `dump_state`, one row at a time. If the write of a row loses the
connection inside a bracket, the maps are emptied and the loop's iterator is invalid. -/
def dumpRows (ingest : Ingest) (sends : List SendOutcome) : List Record → Outcome
  | [] => .ok (ingest, sends)
  | row :: rows =>
      let written := ingest.queueWrite row.encode sends
      if ingest.server.inSync ∧ ingest.server.connected ∧ ¬ written.1.server.connected then
        .error written.1
      else written.1.dumpRows written.2 rows

def dumpState (ingest : Ingest) (sends : List SendOutcome) : Outcome := do
  let begun := ingest.queueWrite Record.syncBegin.encode sends
  let dumped ← begun.1.dumpRows begun.2 begun.1.server.tables.dumpRows
  return dumped.1.queueWrite dumped.1.server.tables.dumpEnd.encode dumped.2

def helloReply (ingest : Ingest) : Bytes :=
  encodeHello
    { epoch := ingest.server.tables.dbMeta.epoch
      lastExchSeq := ingest.server.tables.dbMeta.lastExchSeq }

def handle (ingest : Ingest) (sends : List SendOutcome) : Record → Outcome
  | .hello _ => .ok (ingest.queueWrite ingest.helloReply sends)
  | .getState => ingest.dumpState sends
  | record => .ok ({ ingest with server := ingest.server.handle record }, sends)

def note (ingest : Ingest) (record : Record) : Ingest :=
  { ingest with journal := ingest.journal ++ [.record record] }

def handleRecord (ingest : Ingest) (raw : RawRecord) (sends : List SendOutcome) : Outcome :=
  match raw.decode with
  | .error _ => .ok (ingest.dropConnection, sends)
  | .ok record => (ingest.note record).handle sends record

def withFramer (ingest : Ingest) (framer : RecordFramer) : Ingest :=
  { ingest with server := { ingest.server with framer } }

/-- `while (conn_fd_ >= 0 && framer_.next(rec)) handle_record(rec);` -/
def handleBuffered : (fuel : Nat) → Ingest → List SendOutcome → Outcome
  | 0, ingest, sends => .ok (ingest, sends)
  | fuel + 1, ingest, sends =>
      if ingest.server.connected then
        match ingest.server.framer.next with
        | (framer, some raw) => do
            let handled ← (ingest.withFramer framer).handleRecord raw sends
            handleBuffered fuel handled.1 handled.2
        | (framer, none) => .ok (ingest.withFramer framer, sends)
      else .ok (ingest, sends)

def onChunk (ingest : Ingest) (bytes : Bytes) (sends : List SendOutcome) : Outcome := do
  let fed := ingest.withFramer (ingest.server.framer.feed bytes)
  let handled ← fed.handleBuffered (fed.server.framer.buf.length + 1) sends
  if handled.1.server.connected ∧ handled.1.server.framer.corrupt.isSome then
    return (handled.1.dropConnection, handled.2)
  else return handled

/-- `on_conn_readable`. Once the connection is lost, `recv` fails on the closed
descriptor and the call returns. -/
def onConnReadable (ingest : Ingest) (sends : List SendOutcome) :
    List RecvOutcome → Except Ingest Ingest
  | [] => .ok ingest
  | result :: rest =>
      if ingest.server.connected then
        match result with
        | .data [] => .ok ingest.dropConnection
        | .data bytes => do
            let handled ← ingest.onChunk bytes sends
            handled.1.onConnReadable handled.2 rest
        | .again => .ok ingest
        | .interrupted => ingest.onConnReadable sends rest
        | .failed => .ok ingest.dropConnection
      else .ok ingest

end Ingest

/-- What the poll loop may find: a new connection, the connection readable or
writable, or an error on it. -/
inductive IngestEvent where
  | accept
  | readable (recvs : List RecvOutcome) (sends : List SendOutcome)
  | writable (sends : List SendOutcome)
  | error
deriving DecidableEq

namespace Ingest

def step (ingest : Ingest) : IngestEvent → Except Ingest Ingest
  | .accept => .ok ingest.accept
  | .readable recvs sends => ingest.onConnReadable sends recvs
  | .writable sends => .ok (ingest.tryDrain sends).1
  | .error => .ok ingest.dropConnection

def run (ingest : Ingest) (events : List IngestEvent) : Except Ingest Ingest :=
  events.foldlM step ingest

/-! ## What the calls can do -/

/-- A call that writes leaves everything but the buffered output alone, or loses the
connection. -/
inductive Wrote (ingest : Ingest) : Ingest → Prop where
  | kept (outbuf : Bytes) : Wrote ingest (ingest.withOutbuf outbuf)
  | lost (connected : ingest.server.connected = true) (outbuf : Bytes) :
      Wrote ingest (ingest.dropConnection.withOutbuf outbuf)

theorem Wrote.refl (ingest : Ingest) : Wrote ingest ingest := .kept ingest.server.outbuf

theorem dropConnection_connected (ingest : Ingest) :
    ingest.dropConnection.server.connected = false := by
  rw [dropConnection]
  split
  · next connected => rw [IngestServer.dropConnection, if_pos connected]
  · next closed => simpa using closed

private theorem dropConnection_withOutbuf (ingest : Ingest) (outbuf : Bytes)
    (connected : ingest.server.connected = true) :
    (ingest.withOutbuf outbuf).dropConnection = ingest.dropConnection := by
  simp [dropConnection, withOutbuf, IngestServer.dropConnection, connected]

theorem Wrote.drop {ingest : Ingest} (connected : ingest.server.connected = true) :
    Wrote ingest ingest.dropConnection :=
  .lost connected ingest.dropConnection.server.outbuf

theorem Wrote.trans {ingest middle after : Ingest} (first : Wrote ingest middle)
    (second : Wrote middle after) : Wrote ingest after := by
  cases first with
  | kept outbuf =>
      cases second with
      | kept other => exact .kept other
      | lost connected other =>
          rw [dropConnection_withOutbuf ingest outbuf connected]
          exact Wrote.lost (show ingest.server.connected = true from connected) other
  | lost connected outbuf =>
      cases second with
      | kept other => exact .lost connected other
      | lost again other =>
          change ingest.dropConnection.server.connected = true at again
          rw [dropConnection_connected] at again
          cases again

theorem wrote_tryDrain (ingest : Ingest) (sends : List SendOutcome) :
    Wrote ingest (ingest.tryDrain sends).1 := by
  induction sends generalizing ingest with
  | nil => exact .refl ingest
  | cons result rest induction =>
      unfold tryDrain
      split
      · next ready =>
          cases result with
          | took count =>
              dsimp only
              split
              · exact .drop ready.1
              · exact Wrote.trans (.kept _) (induction _)
          | again => exact .refl ingest
          | interrupted => exact induction ingest
          | failed => exact .drop ready.1
      · exact .refl ingest

theorem wrote_queueWrite (ingest : Ingest) (data : Bytes) (sends : List SendOutcome) :
    Wrote ingest (ingest.queueWrite data sends).1 := by
  rw [queueWrite]
  split
  · exact Wrote.trans (.kept _) (wrote_tryDrain _ sends)
  · exact .refl ingest

theorem Wrote.inSync {ingest after : Ingest} (wrote : Wrote ingest after)
    (connected : after.server.connected = true) :
    after.server.inSync = ingest.server.inSync ∧ ingest.server.connected = true := by
  cases wrote with
  | kept outbuf => exact ⟨rfl, connected⟩
  | lost before outbuf =>
      change ingest.dropConnection.server.connected = true at connected
      rw [dropConnection_connected] at connected
      cases connected

structure CutShort (ingest after : Ingest) : Prop where
  wrote : Wrote ingest after
  connected : ingest.server.connected = true
  inSync : ingest.server.inSync = true
  closed : after.server.connected = false

theorem CutShort.journal {ingest after : Ingest} (cut : CutShort ingest after) :
    after.journal = ingest.journal ++ [.drop] := by
  have closed := cut.closed
  cases cut.wrote with
  | kept outbuf =>
      change ingest.server.connected = false at closed
      rw [cut.connected] at closed
      cases closed
  | lost connected outbuf =>
      change ingest.dropConnection.journal = _
      rw [dropConnection, if_pos connected]

theorem Wrote.cutShort {ingest middle after : Ingest} (wrote : Wrote ingest middle)
    (cut : CutShort middle after) : CutShort ingest after := by
  have before := wrote.inSync cut.connected
  exact ⟨wrote.trans cut.wrote, before.2, before.1 ▸ cut.inSync, cut.closed⟩

private theorem wrote_dumpRows (ingest : Ingest) (sends : List SendOutcome) (rows : List Record) :
    Ensures (fun written => Wrote ingest written.1) (CutShort ingest)
      (ingest.dumpRows sends rows) := by
  induction rows generalizing ingest sends with
  | nil => exact Wrote.refl ingest
  | cons row rows induction =>
      have wrote := wrote_queueWrite ingest row.encode sends
      rw [dumpRows]
      split
      · next cut => exact ⟨wrote, cut.2.1, cut.1, by simpa using cut.2.2⟩
      · exact (induction _ _).mono (fun _ => wrote.trans) fun _ => wrote.cutShort

theorem wrote_dumpState (ingest : Ingest) (sends : List SendOutcome) :
    Ensures (fun written => Wrote ingest written.1) (CutShort ingest)
      (ingest.dumpState sends) := by
  have begun := wrote_queueWrite ingest Record.syncBegin.encode sends
  rw [dumpState]
  refine Ensures.bind (fun written => Wrote ingest written.1) ?_ ?_
  · exact (wrote_dumpRows _ _ _).mono (fun _ => begun.trans) fun _ => begun.cutShort
  · intro written wrote
    exact wrote.trans (wrote_queueWrite _ _ _)

/-! ## The loop over the buffered records -/

theorem next_shrinks {framer rest : RecordFramer} {raw : RawRecord}
    (next : framer.next = (rest, some raw)) : rest.buf.length < framer.buf.length := by
  rw [RecordFramer.next] at next
  split at next
  · cases next
  · next ready =>
      split at next
      · cases next
      · next kind bodyLen decoded =>
          have header : recordHeaderSize = 8 := rfl
          dsimp only at next
          split at next
          · cases next
          · cases next
            rw [List.length_drop]
            omega

private theorem next_idle {framer rest : RecordFramer} (next : framer.next = (rest, none)) :
    rest.next.2 = none := by
  have idle := next
  rw [RecordFramer.next] at next
  split at next
  · cases next
    rw [idle]
  · split at next
    · cases next
      rfl
    · dsimp only at next
      split at next
      · cases next
        rw [idle]
      · cases next

private theorem framer_handleRecord (ingest : Ingest) (raw : RawRecord) (sends : List SendOutcome) :
    Ensures (fun handled => handled.1.server.connected = true →
        handled.1.server.framer = ingest.server.framer) (fun _ => True)
      (ingest.handleRecord raw sends) := by
  have written {before after : Ingest} (wrote : Wrote before after)
      (connected : after.server.connected = true) :
      after.server.framer = before.server.framer := by
    cases wrote with
    | kept outbuf => rfl
    | lost stays outbuf =>
        change before.dropConnection.server.connected = true at connected
        rw [dropConnection_connected] at connected
        cases connected
  rw [handleRecord]
  cases raw.decode with
  | error reason =>
      intro connected
      rw [dropConnection_connected] at connected
      cases connected
  | ok record =>
      cases record with
      | hello rec =>
          have kept := written (wrote_queueWrite (ingest.note (.hello rec)) ingest.helloReply sends)
          exact kept
      | getState =>
          have dumped := wrote_dumpState (ingest.note .getState) sends
          refine dumped.mono (fun _ wrote => ?_) fun _ _ => trivial
          have kept := written wrote
          exact kept
      | syncEnd rec =>
          intro _
          change (ingest.server.handleSyncEnd rec).framer = _
          rw [IngestServer.handleSyncEnd]
          split <;> rfl
      | _ => exact fun _ => rfl

theorem handleBuffered_ends {fuel : Nat} {ingest : Ingest}
    (enough : ingest.server.framer.buf.length < fuel) (sends : List SendOutcome) :
    Ensures (fun handled => handled.1.server.connected = true →
        handled.1.server.framer.next.2 = none) (fun _ => True)
      (ingest.handleBuffered fuel sends) := by
  induction fuel generalizing ingest sends with
  | zero => omega
  | succ fuel induction =>
      rw [handleBuffered]
      split
      · next connected =>
          rcases next : ingest.server.framer.next with ⟨framer, _ | raw⟩
          · exact fun _ => next_idle next
          · have shorter := next_shrinks next
            refine Ensures.bind _ (framer_handleRecord (ingest.withFramer framer) raw sends) ?_
            intro handled kept
            by_cases stays : handled.1.server.connected = true
            · apply induction
              rw [kept stays]
              change framer.buf.length < fuel
              omega
            · cases fuel with
              | zero => exact fun connected => absurd connected stays
              | succ fuel =>
                  rw [handleBuffered, if_neg stays]
                  exact fun connected => absurd connected stays
      · next closed => exact fun connected => absurd connected closed

/-! ## A socket that takes nothing for now -/

def withServer (ingest : Ingest) (server : IngestServer) : Ingest := { ingest with server }

theorem queueWrite_quiet (ingest : Ingest) (data : Bytes) :
    ingest.queueWrite data [] = (ingest.withServer (ingest.server.queueWrite data), []) := by
  rw [queueWrite, IngestServer.queueWrite]
  split <;> rfl

private theorem dumpRows_quiet (ingest : Ingest) (rows : List Record) :
    ingest.dumpRows [] rows =
      .ok (ingest.withServer (ingest.server.queueWrite (encodeAll rows)), []) := by
  induction rows generalizing ingest with
  | nil =>
      rw [dumpRows, IngestServer.queueWrite, encodeAll]
      split <;> simp [withServer]
  | cons row rows induction =>
      rw [dumpRows, queueWrite_quiet]
      have unchanged :
          (ingest.withServer (ingest.server.queueWrite row.encode)).server.connected =
            ingest.server.connected := IngestServer.queueWrite_connected _ _
      rw [if_neg (by simp [unchanged]), induction]
      by_cases connected : ingest.server.connected
      · simp [withServer, IngestServer.queueWrite, connected, encodeAll]
      · simp [withServer, IngestServer.queueWrite, connected]

private theorem dumpState_quiet (ingest : Ingest) :
    ingest.dumpState [] =
      .ok (ingest.withServer (ingest.server.queueWrite ingest.server.tables.dumpState), []) := by
  have records : ingest.server.tables.dumpRecords =
      Record.syncBegin :: (ingest.server.tables.dumpRows ++ [ingest.server.tables.dumpEnd]) := by
    simp [Tables.dumpRecords, Tables.dumpRows, Tables.dumpEnd]
  have tables (data : Bytes) : (ingest.server.queueWrite data).tables = ingest.server.tables := by
    rw [IngestServer.queueWrite]
    split <;> rfl
  rw [dumpState, queueWrite_quiet, Tables.dumpState, records]
  change (Ingest.dumpRows _ [] _ >>= _) = _
  rw [dumpRows_quiet]
  change Except.ok (queueWrite _ _ []) = _
  rw [queueWrite_quiet]
  by_cases connected : ingest.server.connected
  · simp [withServer, IngestServer.queueWrite, connected, encodeAll]
  · simp [withServer, IngestServer.queueWrite, connected]

private theorem handle_quiet (ingest : Ingest) (record : Record) :
    ingest.handle [] record = .ok (ingest.withServer (ingest.server.handle record), []) := by
  cases record with
  | hello rec => exact congrArg Except.ok (queueWrite_quiet ingest _)
  | getState => exact dumpState_quiet ingest
  | _ => rfl

private theorem IngestServer.handleRecord_decode (server : IngestServer) (raw : RawRecord) :
    server.handleRecord raw =
      match raw.decode with
      | .error _ => server.dropConnection
      | .ok record => server.handle record := by
  rcases raw with ⟨kind, body⟩
  rw [IngestServer.handleRecord, RawRecord.decode]
  cases kind with
  | hello =>
      dsimp only
      cases decodeHello (assemble .hello body) <;> rfl
  | syncEnd =>
      dsimp only
      cases decodeSyncEnd (assemble .syncEnd body) <;> rfl
  | update =>
      dsimp only
      cases decodeUpdate (assemble .update body) <;> rfl
  | order =>
      dsimp only
      cases decodeOrder (assemble .order body) <;> rfl
  | tick =>
      dsimp only
      cases decodeTick (assemble .tick body) <;> rfl
  | _ => rfl

theorem dropConnection_server (ingest : Ingest) :
    ingest.dropConnection.server = ingest.server.dropConnection := by
  rw [dropConnection]
  split
  · rfl
  · next closed => rw [IngestServer.dropConnection, if_neg closed]

private theorem handleRecord_quiet (ingest : Ingest) (raw : RawRecord) :
    ∃ after, ingest.handleRecord raw [] = .ok (after, []) ∧
      after.server = ingest.server.handleRecord raw := by
  rw [handleRecord, IngestServer.handleRecord_decode]
  cases raw.decode with
  | error reason => exact ⟨_, rfl, dropConnection_server ingest⟩
  | ok record => exact ⟨_, handle_quiet (ingest.note record) record, rfl⟩

private theorem handleBuffered_quiet (fuel : Nat) (ingest : Ingest) :
    ∃ after, handleBuffered fuel ingest [] = .ok (after, []) ∧
      after.server = ingest.server.handleBuffered fuel := by
  induction fuel generalizing ingest with
  | zero => exact ⟨ingest, rfl, rfl⟩
  | succ fuel induction =>
      rw [handleBuffered, IngestServer.handleBuffered]
      split
      · rcases next : ingest.server.framer.next with ⟨framer, _ | raw⟩
        · exact ⟨_, rfl, rfl⟩
        · rcases handleRecord_quiet (ingest.withFramer framer) raw with ⟨handled, done, server⟩
          rcases induction handled with ⟨after, rest, last⟩
          refine ⟨after, ?_, ?_⟩
          · change (handleRecord _ raw [] >>= _) = _
            rw [done]
            exact rest
          · rw [last, server]
            rfl
      · exact ⟨ingest, rfl, rfl⟩

theorem onChunk_quiet (ingest : Ingest) (bytes : Bytes) :
    ∃ after, ingest.onChunk bytes [] = .ok (after, []) ∧
      after.server = ingest.server.onData bytes := by
  have quiet (fed : Ingest) := handleBuffered_quiet (fed.server.framer.buf.length + 1) fed
  rcases quiet (ingest.withFramer (ingest.server.framer.feed bytes)) with
    ⟨handled, done, server⟩
  have fed : ingest.server.onData bytes = handled.server.dropIfCorrupt := by
    rw [server]
    rfl
  rw [onChunk, done, fed, IngestServer.dropIfCorrupt]
  by_cases corrupt : handled.server.connected ∧ handled.server.framer.corrupt.isSome
  · rw [if_pos corrupt]
    exact ⟨handled.dropConnection, if_pos corrupt, dropConnection_server handled⟩
  · rw [if_neg corrupt]
    exact ⟨handled, if_neg corrupt, rfl⟩

end Ingest

end ProtoFH
