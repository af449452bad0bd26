import ProtoFH.Db.Connection

/-! # Sync brackets

The tables are at every point the fold of the journal, in which a lost connection
empties them if a bracket is open. -/

namespace ProtoFH

structure SyncState where
  tables : Tables := {}
  inSync : Bool := false

namespace SyncState

def replay (state : SyncState) : JournalEntry → SyncState
  | .drop =>
      { tables :=
          if state.inSync then state.tables.reset.countSyncDiscarded else state.tables
        inSync := false }
  | .record (.update rec) => { state with tables := state.tables.applyUpdate rec state.inSync }
  | .record (.order rec) => { state with tables := state.tables.applyOrder rec }
  | .record (.tick rec) => { state with tables := state.tables.applyTick rec }
  | .record .syncBegin => { state with inSync := true }
  | .record (.syncEnd rec) =>
      if state.inSync then
        { tables := (state.tables.adoptMeta rec).countSyncCompleted, inSync := false }
      else state
  | .record .reset => { state with tables := state.tables.reset }
  | .record .getState => state
  | .record (.hello _) => state

def replayAll (journal : List JournalEntry) : SyncState := journal.foldl replay {}

theorem replayAll_concat (journal : List JournalEntry) (entry : JournalEntry) :
    replayAll (journal ++ [entry]) = (replayAll journal).replay entry := by
  rw [replayAll, List.foldl_append]
  rfl

end SyncState

/-- Some `SYNC_BEGIN` of the current connection has no `SYNC_END`. -/
def Unmatched (journal : List JournalEntry) : Prop :=
  ∃ earlier later, journal = earlier ++ .record .syncBegin :: later ∧
    ∀ entry ∈ later, entry ≠ .drop ∧ ∀ rec, entry ≠ .record (.syncEnd rec)

private theorem unmatched_concat (journal : List JournalEntry) (entry : JournalEntry) :
    Unmatched (journal ++ [entry]) ↔
      entry = .record .syncBegin ∨
        Unmatched journal ∧ entry ≠ .drop ∧ ∀ rec, entry ≠ .record (.syncEnd rec) := by
  constructor
  · rintro ⟨earlier, later, split, closed⟩
    rcases List.eq_nil_or_concat later with rfl | ⟨init, last, rfl⟩
    · have := List.append_inj' split rfl
      left
      simpa using this.2
    · rw [List.concat_eq_append, ← List.cons_append, ← List.append_assoc] at split
      have parts := List.append_inj' split rfl
      right
      have same : entry = last := by simpa using parts.2
      rw [List.concat_eq_append] at closed
      refine ⟨⟨earlier, init, parts.1, fun other member => closed other (by simp [member])⟩, ?_⟩
      rw [same]
      exact closed last (by simp)
  · rintro (rfl | ⟨⟨earlier, later, rfl, closed⟩, kept⟩)
    · exact ⟨journal, [], rfl, by simp⟩
    · refine ⟨earlier, later ++ [entry], by simp, ?_⟩
      intro other member
      rcases List.mem_append.mp member with inLater | isEntry
      · exact closed other inLater
      · rw [List.mem_singleton.mp isEntry]
        exact kept

theorem inSync_iff_unmatched (journal : List JournalEntry) :
    (SyncState.replayAll journal).inSync = true ↔ Unmatched journal := by
  induction journal using List.reverseRecOn with
  | nil =>
      refine ⟨nofun, ?_⟩
      rintro ⟨earlier, later, split, -⟩
      simp at split
  | append_singleton journal entry induction =>
      rw [SyncState.replayAll_concat, unmatched_concat, ← induction]
      cases entry with
      | drop => simp [SyncState.replay]
      | record record =>
          cases record with
          | syncEnd rec =>
              rw [SyncState.replay]
              split
              · simp
              · next closed => simp [closed]
          | _ => simp [SyncState.replay]

namespace Ingest

def syncState (ingest : Ingest) : SyncState := ⟨ingest.server.tables, ingest.server.inSync⟩

/-- Without a connection no bracket is open, and its loss was the last thing that
happened. -/
structure Idle (ingest : Ingest) : Prop where
  inSync : ingest.server.inSync = false
  last : ingest.journal = [] ∨ ∃ earlier, ingest.journal = earlier ++ [.drop]

structure Accounted (ingest : Ingest) : Prop where
  replayed : ingest.syncState = SyncState.replayAll ingest.journal
  idle : ingest.server.connected = false → ingest.Idle

/-- The journal of a run that ends in a dump whose connection was lost inside a
bracket. -/
def CutDump (ingest : Ingest) : Prop :=
  ∃ earlier, ingest.journal = earlier ++ [.record .getState] ++ [.drop] ∧ Unmatched earlier

theorem accounted_empty : Accounted {} := ⟨rfl, fun _ => ⟨rfl, .inl rfl⟩⟩

section Steps

variable {ingest after : Ingest} (accounted : ingest.Accounted)
include accounted

theorem Accounted.withServer {server : IngestServer} (tables : server.tables = ingest.server.tables)
    (inSync : server.inSync = ingest.server.inSync)
    (connected : server.connected = ingest.server.connected) :
    (ingest.withServer server).Accounted where
  replayed := by
    change SyncState.mk server.tables server.inSync = _
    rw [tables, inSync]
    exact accounted.replayed
  idle closed := by
    have idle := accounted.idle (connected.symm.trans closed)
    exact ⟨inSync.trans idle.inSync, idle.last⟩

theorem Accounted.dropConnection : ingest.dropConnection.Accounted := by
  rw [Ingest.dropConnection]
  split
  · next connected =>
      refine ⟨?_, fun _ => ?_⟩
      · rw [SyncState.replayAll_concat, ← accounted.replayed, syncState,
          IngestServer.dropConnection, if_pos connected]
        rfl
      · refine ⟨?_, .inr ⟨ingest.journal, rfl⟩⟩
        rw [IngestServer.dropConnection, if_pos connected]
  · exact accounted

theorem Accounted.wrote (wrote : Wrote ingest after) : after.Accounted := by
  cases wrote with
  | kept outbuf => exact accounted.withServer rfl rfl rfl
  | lost connected outbuf => exact accounted.dropConnection.withServer rfl rfl rfl

theorem Accounted.accept : ingest.accept.Accounted := by
  have dropped := accounted.dropConnection
  have idle := dropped.idle (dropConnection_connected ingest)
  refine ⟨?_, nofun⟩
  rw [Ingest.accept, ← dropped.replayed, syncState, syncState, idle.inSync]

theorem Accounted.handleRecord (connected : ingest.server.connected = true) (raw : RawRecord)
    (sends : List SendOutcome) :
    Ensures (fun handled => handled.1.Accounted) (fun last => last.Accounted ∧ last.CutDump)
      (ingest.handleRecord raw sends) := by
  rw [Ingest.handleRecord]
  cases raw.decode with
  | error reason => exact accounted.dropConnection
  | ok record =>
      have noted : SyncState.replayAll (ingest.note record).journal =
          ingest.syncState.replay (.record record) := by
        rw [note, SyncState.replayAll_concat, ← accounted.replayed]
      have busy {server : IngestServer} (still : server.connected = true) :
          server.connected = false → ((ingest.note record).withServer server).Idle := by
        intro closed
        rw [still] at closed
        cases closed
      cases record with
      | hello rec =>
          have current : (ingest.note (.hello rec)).Accounted := ⟨noted.symm, busy connected⟩
          exact current.wrote (wrote_queueWrite _ _ _)
      | getState =>
          have current : (ingest.note .getState).Accounted := ⟨noted.symm, busy connected⟩
          refine (wrote_dumpState (ingest.note .getState) sends).mono
            (fun _ => current.wrote) fun last cut => ⟨current.wrote cut.wrote, ?_⟩
          refine ⟨ingest.journal, cut.journal, ?_⟩
          rw [← inSync_iff_unmatched, ← accounted.replayed]
          exact cut.inSync
      | syncEnd rec =>
          refine ⟨?_, busy ?_⟩
          · change SyncState.mk (ingest.server.handleSyncEnd rec).tables
              (ingest.server.handleSyncEnd rec).inSync = SyncState.replayAll _
            rw [noted, SyncState.replay, IngestServer.handleSyncEnd]
            by_cases inSync : ingest.server.inSync = true
            · rw [if_pos inSync, if_pos (show ingest.syncState.inSync = true from inSync)]
              rfl
            · rw [if_neg inSync, if_neg (show ¬ ingest.syncState.inSync = true from inSync)]
              rfl
          · exact (IngestServer.handle_connected ingest.server (.syncEnd rec)).trans connected
      | _ => exact ⟨noted.symm, busy connected⟩

theorem Accounted.handleBuffered (fuel : Nat) (sends : List SendOutcome) :
    Ensures (fun handled => handled.1.Accounted) (fun last => last.Accounted ∧ last.CutDump)
      (ingest.handleBuffered fuel sends) := by
  induction fuel generalizing ingest sends with
  | zero => exact accounted
  | succ fuel induction =>
      rw [Ingest.handleBuffered]
      split
      · next connected =>
          rcases ingest.server.framer.next with ⟨framer, _ | raw⟩
          · exact accounted.withServer rfl rfl rfl
          · have unframed : (ingest.withFramer framer).Accounted := accounted.withServer rfl rfl rfl
            exact Ensures.bind (fun handled => handled.1.Accounted)
              (unframed.handleRecord connected raw sends)
              fun handled kept => induction kept handled.2
      · exact accounted

theorem Accounted.onChunk (bytes : Bytes) (sends : List SendOutcome) :
    Ensures (fun handled => handled.1.Accounted) (fun last => last.Accounted ∧ last.CutDump)
      (ingest.onChunk bytes sends) := by
  have fed : (ingest.withFramer (ingest.server.framer.feed bytes)).Accounted :=
    accounted.withServer rfl rfl rfl
  refine Ensures.bind (fun handled => handled.1.Accounted) (fed.handleBuffered _ sends) ?_
  intro handled kept
  split
  · exact kept.dropConnection
  · exact kept

theorem Accounted.onConnReadable (recvs : List RecvOutcome) (sends : List SendOutcome) :
    Ensures Accounted (fun last => last.Accounted ∧ last.CutDump)
      (ingest.onConnReadable sends recvs) := by
  induction recvs generalizing ingest sends with
  | nil => exact accounted
  | cons result rest induction =>
      unfold Ingest.onConnReadable
      split
      · split
        · exact accounted.dropConnection
        · exact Ensures.bind (fun handled => handled.1.Accounted) (accounted.onChunk _ sends)
            fun handled kept => induction kept handled.2
        · exact accounted
        · exact induction accounted sends
        · exact accounted.dropConnection
      · exact accounted

theorem Accounted.step (event : IngestEvent) :
    Ensures Accounted (fun last => last.Accounted ∧ last.CutDump) (ingest.step event) := by
  cases event with
  | accept => exact accounted.accept
  | readable recvs sends => exact accounted.onConnReadable recvs sends
  | writable sends => exact accounted.wrote (wrote_tryDrain ingest sends)
  | error => exact accounted.dropConnection

end Steps

private theorem accounted_run (events : List IngestEvent) :
    Ensures Accounted (fun last => last.Accounted ∧ last.CutDump) (run {} events) :=
  Ensures.foldlM (fun _ event accounted => accounted.step event) accounted_empty

end Ingest

/-! ## Partial syncs -/

structure Tables.Wiped (tables : Tables) : Prop where
  books : tables.books = ∅
  orders : tables.orders = ∅
  ticks : tables.ticks = ∅
  epoch : tables.dbMeta.epoch = 0
  lastExchSeq : tables.dbMeta.lastExchSeq = 0

private theorem Tables.wiped_reset (tables : Tables) : tables.reset.countSyncDiscarded.Wiped :=
  ⟨rfl, rfl, rfl, rfl, rfl⟩

/-- The tables right after a connection was lost: what the completed records made
them, or nothing and one more discarded sync. -/
structure Tables.Discarded (tables : Tables) (earlier : List JournalEntry) : Prop where
  kept : ¬ Unmatched earlier → tables = (SyncState.replayAll earlier).tables
  wiped : Unmatched earlier → tables.Wiped ∧
    tables.dbMeta.syncsDiscarded =
      (SyncState.replayAll earlier).tables.dbMeta.syncsDiscarded + 1

private theorem discarded_replay (earlier : List JournalEntry) :
    ((SyncState.replayAll earlier).replay .drop).tables.Discarded earlier := by
  constructor
  · intro matched
    rw [← inSync_iff_unmatched] at matched
    exact if_neg matched
  · intro unmatched
    rw [← inSync_iff_unmatched] at unmatched
    rw [SyncState.replay, if_pos unmatched]
    exact ⟨Tables.wiped_reset _, rfl⟩

namespace Ingest

theorem Accounted.discarded {ingest : Ingest} (accounted : ingest.Accounted)
    {earlier : List JournalEntry} (dropped : ingest.journal = earlier ++ [.drop]) :
    ingest.server.tables.Discarded earlier := by
  have replayed := accounted.replayed
  rw [dropped, SyncState.replayAll_concat] at replayed
  have tables : ingest.server.tables = ((SyncState.replayAll earlier).replay .drop).tables :=
    congrArg SyncState.tables replayed
  rw [tables]
  exact discarded_replay earlier

/-- A partial sync never survives the loss of its connection. The run stays defined
unless a dump asked for inside a bracket loses its connection between two rows. -/
theorem partial_sync_never_survives (events : List IngestEvent) :
    (∀ ingest, run {} events = .ok ingest →
      ingest.server.tables = (SyncState.replayAll ingest.journal).tables ∧
      (ingest.server.connected = false →
        ingest.journal = [] ∨ ∃ earlier, ingest.journal = earlier ++ [.drop]) ∧
      ∀ earlier, ingest.journal = earlier ++ [.drop] →
        ingest.server.tables.Discarded earlier) ∧
    (∀ ingest, run {} events = .error ingest → ingest.CutDump ∧
      ∀ earlier, ingest.journal = earlier ++ [.drop] →
        ingest.server.tables.Discarded earlier) ∧
    ∀ (ingest : Ingest) (raw : RawRecord) (sends : List SendOutcome),
      ingest.server.inSync = false → (∀ record, raw.decode ≠ .ok record) →
      ∃ after, ingest.handleRecord raw sends = .ok (after, sends) ∧
        after.server.tables = ingest.server.tables := by
  have ran := accounted_run events
  refine ⟨?_, ?_, ?_⟩
  · intro ingest reached
    rw [reached] at ran
    have tables : ingest.server.tables = (SyncState.replayAll ingest.journal).tables :=
      congrArg SyncState.tables ran.replayed
    exact ⟨tables, fun closed => (ran.idle closed).last, fun earlier => ran.discarded⟩
  · intro ingest failed
    rw [failed] at ran
    exact ⟨ran.2, fun earlier => ran.1.discarded⟩
  · intro ingest raw sends outside refused
    refine ⟨ingest.dropConnection, ?_, ?_⟩
    · rw [handleRecord]
      cases decoded : raw.decode with
      | error reason => rfl
      | ok record => exact absurd decoded (refused record)
    · rw [dropConnection_server, IngestServer.dropConnection]
      split
      · simp [outside]
      · rfl

/-- A dump asked for inside a bracket, whose peer is gone once the first record is
sent. -/
def cutDumpEvents : List IngestEvent :=
  let order : OrderRecord := { orderNumber := 7, qtyRemaining := 5 }
  [.accept,
    .readable [.data (encodeAll [.syncBegin, .order order, .getState])] [.took 8, .failed]]

/-- The write that fails empties the order map in the middle of the loop over it. -/
theorem cutDump_undefined :
    (match run {} cutDumpEvents with
      | .ok _ => none
      | .error ingest => some ingest.journal) =
      some [.record .syncBegin, .record (.order { orderNumber := 7, qtyRemaining := 5 }),
        .record .getState, .drop] := by
  decide +kernel

end Ingest

end ProtoFH
