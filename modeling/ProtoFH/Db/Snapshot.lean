import ProtoFH.Db.Brackets

/-! # Snapshot queries

A `SNAP` query is answered from the tables as they stand between two ingest events.
Outside a bracket the reply describes what the handler published, under its epoch.
Inside a bracket it shows the rows that have arrived so far. -/

namespace ProtoFH

/-- The reply to `SNAP`: the header line's values and one encoded record per row. -/
structure SnapReply where
  epoch : UInt64
  lastExchSeq : UInt64
  session : CStr 10
  count : Nat
  rows : List Bytes
deriving DecidableEq

/-- `respond("SNAP")` -/
def Tables.snap (tables : Tables) : SnapReply where
  epoch := tables.dbMeta.epoch
  lastExchSeq := tables.dbMeta.lastExchSeq
  session := tables.dbMeta.session
  count := tables.books.size
  rows := tables.books.toList.map fun entry =>
    encodeUpdate (tables.makeDumpUpdate entry.1 entry.2)

inductive DbEvent where
  | ingest (event : IngestEvent)
  | snap
deriving DecidableEq

structure Served where
  history : List JournalEntry
  reply : SnapReply
deriving DecidableEq

structure Db where
  ingest : Ingest := {}
  served : List Served := []

namespace Db

def step (db : Db) : DbEvent → Except Ingest Db
  | .ingest event => do
      let ingest ← db.ingest.step event
      return { db with ingest }
  | .snap =>
      .ok { db with
        served := db.served ++ [⟨db.ingest.journal, db.ingest.server.tables.snap⟩] }

def run (db : Db) (events : List DbEvent) : Except Ingest Db := events.foldlM step db

end Db

/-! ## The epoch of the tables -/

def JournalEntry.epoch? : JournalEntry → Option UInt64
  | .record (.update rec) => some rec.envelope.epoch
  | .record (.syncEnd rec) => some rec.epoch
  | _ => none

def FromOneFh (epoch : UInt64) (history : List JournalEntry) : Prop :=
  ∀ entry ∈ history, entry.epoch?.getD epoch = epoch

instance (epoch : UInt64) (history : List JournalEntry) : Decidable (FromOneFh epoch history) :=
  inferInstanceAs (Decidable (∀ entry ∈ history, entry.epoch?.getD epoch = epoch))

/-- The handler opens a bracket right after a `RESET` only. -/
def SyncsAfterReset (history : List JournalEntry) : Prop :=
  ∀ earlier later, history = earlier ++ .record .syncBegin :: later →
    ∃ before, earlier = before ++ [.record .reset]

theorem SyncsAfterReset.init {history : List JournalEntry} {entry : JournalEntry}
    (resets : SyncsAfterReset (history ++ [entry])) : SyncsAfterReset history :=
  fun earlier later split => resets earlier (later ++ [entry]) (by rw [split]; simp)

namespace SyncState

private theorem epoch_outside {epoch : UInt64} (history : List JournalEntry)
    (oneFh : FromOneFh epoch history) (outside : (replayAll history).inSync = false) :
    (replayAll history).tables.books = ∅ ∨
      (replayAll history).tables.dbMeta.epoch = epoch := by
  induction history using List.reverseRecOn with
  | nil => exact .inl rfl
  | append_singleton history entry induction =>
      have earlier := induction fun other member => oneFh other (by simp [member])
      have last := oneFh entry (by simp)
      rw [replayAll_concat] at outside ⊢
      generalize replayAll history = state at earlier outside ⊢
      cases entry with
      | drop =>
          rw [replay]
          dsimp only
          split
          · exact .inl rfl
          · next closed => exact earlier (by simpa using closed)
      | record record =>
          cases record with
          | update rec =>
              have closed : state.inSync = false := outside
              rw [replay, Tables.applyUpdate, closed]
              dsimp only
              rw [if_neg (by simp)]
              split
              · exact earlier closed
              · exact .inr last
          | syncEnd rec =>
              rw [replay]
              split
              · exact .inr last
              · next closed => exact earlier (by simpa using closed)
          | syncBegin => cases outside
          | reset => exact .inl rfl
          | order rec | tick rec | getState | hello rec => exact earlier outside

private theorem epoch_inside (history : List JournalEntry) (resets : SyncsAfterReset history)
    (inside : (replayAll history).inSync = true) :
    (replayAll history).tables.dbMeta.epoch = 0 := by
  induction history using List.reverseRecOn with
  | nil => cases inside
  | append_singleton history entry induction =>
      have earlier := induction resets.init
      rw [replayAll_concat] at inside ⊢
      cases entry with
      | drop => cases inside
      | record record =>
          cases record with
          | syncBegin =>
              obtain ⟨before, rfl⟩ := resets history [] rfl
              rw [replayAll_concat]
              rfl
          | update rec =>
              have opened : (replayAll history).inSync = true := inside
              rw [replay, opened]
              exact earlier opened
          | syncEnd rec =>
              rw [replay] at inside
              split at inside
              · cases inside
              · next closed => exact absurd inside closed
          | reset => rfl
          | order rec | tick rec | getState | hello rec => exact earlier inside

end SyncState

/-! ## What a reader sees -/

/-- No rows, or the tables after a prefix of the history with every bracket closed,
under the handler's epoch. -/
def Served.Consistent (served : Served) (epoch : UInt64) : Prop :=
  served.reply.rows = [] ∨
    served.reply.epoch = epoch ∧
      ∃ completed, completed <+: served.history ∧ ¬ Unmatched completed ∧
        served.reply = (SyncState.replayAll completed).tables.snap

def Served.Current (served : Served) : Prop :=
  served.reply = (SyncState.replayAll served.history).tables.snap

private theorem Tables.snap_rows_eq_nil {tables : Tables} (empty : tables.books = ∅) :
    tables.snap.rows = [] := by
  simp [snap, empty]

theorem Served.Current.consistent {served : Served} {epoch : UInt64} (current : served.Current)
    (oneFh : FromOneFh epoch served.history) (outside : ¬ Unmatched served.history) :
    served.Consistent epoch := by
  have closed : (SyncState.replayAll served.history).inSync = false := by
    rw [← inSync_iff_unmatched] at outside
    simpa using outside
  rcases SyncState.epoch_outside served.history oneFh closed with empty | known
  · left
    rw [current]
    exact Tables.snap_rows_eq_nil empty
  · right
    refine ⟨?_, served.history, List.prefix_refl _, outside, current⟩
    rw [current]
    exact known

private theorem Served.Current.not_consistent {served : Served} {epoch : UInt64}
    (current : served.Current) (known : epoch ≠ 0) (resets : SyncsAfterReset served.history)
    (inside : Unmatched served.history) (rows : served.reply.rows ≠ []) :
    ¬ served.Consistent epoch := by
  rintro (empty | ⟨header, -⟩)
  · exact rows empty
  · rw [current] at header
    rw [← inSync_iff_unmatched] at inside
    have unknown := SyncState.epoch_inside served.history resets inside
    exact known (header.symm.trans unknown)

namespace Db

structure Answers (db : Db) : Prop where
  accounted : db.ingest.Accounted
  current : ∀ served ∈ db.served, served.Current

theorem Answers.step {db : Db} (answers : db.Answers) (event : DbEvent) :
    Ensures Answers (fun _ => True) (db.step event) := by
  cases event with
  | ingest event =>
      have stepped := (answers.accounted.step event).mono (fun _ => id) fun _ _ => trivial
      exact Ensures.bind Ingest.Accounted stepped
        fun ingest accounted => ⟨accounted, answers.current⟩
  | snap =>
      refine ⟨answers.accounted, ?_⟩
      intro served member
      rcases List.mem_append.mp member with earlier | last
      · exact answers.current served earlier
      · rw [List.mem_singleton.mp last, Served.Current, ← answers.accounted.replayed]
        rfl

theorem answers_run (events : List DbEvent) : Ensures Answers (fun _ => True) (run {} events) :=
  Ensures.foldlM (fun _ event answers => answers.step event) ⟨Ingest.accounted_empty, nofun⟩

/-- A reply given outside a bracket never shows half a sync. For a handler that resets
before it syncs, the replies that do are exactly those with rows inside a bracket. -/
theorem snap_consistent_iff (events : List DbEvent) (db : Db) (ran : run {} events = .ok db)
    (served : Served) (member : served ∈ db.served) (epoch : UInt64)
    (oneFh : FromOneFh epoch served.history) :
    (¬ Unmatched served.history → served.Consistent epoch) ∧
    (epoch ≠ 0 → SyncsAfterReset served.history →
      (served.Consistent epoch ↔ served.reply.rows = [] ∨ ¬ Unmatched served.history)) := by
  have answers := answers_run events
  rw [ran] at answers
  have current := answers.current served member
  refine ⟨current.consistent oneFh, fun known resets => ⟨?_, ?_⟩⟩
  · intro consistent
    by_contra neither
    rw [not_or, not_not] at neither
    exact current.not_consistent known resets neither.2 neither.1 consistent
  · rintro (empty | outside)
    · exact .inl empty
    · exact current.consistent oneFh outside

def syncedEvents : List DbEvent :=
  let row : UpdateRecord := { envelope := { epoch := 1, trigger := ascii '#' } }
  let live : UpdateRecord := { envelope := { epoch := 1, exchSeq := 3, trigger := ascii 'A' } }
  [.ingest .accept,
    .ingest (.readable [.data (encodeAll [.reset, .syncBegin, .update row,
      .syncEnd { lastExchSeq := 2, epoch := 1 }, .update live])] []),
    .snap]

theorem syncedEvents_consistent :
    ∃ db, run {} syncedEvents = .ok db ∧
      ∃ served ∈ db.served, served.reply.rows ≠ [] ∧ served.Consistent 1 := by
  have answered : ∃ db, run {} syncedEvents = .ok db ∧
      ∃ served ∈ db.served, served.reply.rows ≠ [] ∧ FromOneFh 1 served.history ∧
        (SyncState.replayAll served.history).inSync = false :=
    Ensures.exists_ok (by decide +kernel)
  obtain ⟨db, ran, served, member, rows, oneFh, closed⟩ := answered
  refine ⟨db, ran, served, member, rows, ?_⟩
  apply (snap_consistent_iff syncedEvents db ran served member 1 oneFh).1
  rw [← inSync_iff_unmatched, closed]
  simp

def halfSyncEvents : List DbEvent :=
  let row : UpdateRecord := { envelope := { epoch := 1, trigger := ascii '#' } }
  [.ingest .accept,
    .ingest (.readable [.data (encodeAll [.reset, .syncBegin, .update row])] []),
    .snap]

/-- The reply has the row under epoch 0, which no completed sync ever had. -/
theorem halfSyncEvents_inconsistent :
    ∃ db, run {} halfSyncEvents = .ok db ∧
      ∃ served ∈ db.served, FromOneFh 1 served.history ∧ ¬ served.Consistent 1 := by
  have answered : ∃ db, run {} halfSyncEvents = .ok db ∧
      ∃ served ∈ db.served, served.reply.rows ≠ [] ∧ FromOneFh 1 served.history ∧
        served.reply.epoch ≠ 1 :=
    Ensures.exists_ok (by decide +kernel)
  obtain ⟨db, ran, served, member, rows, oneFh, header⟩ := answered
  refine ⟨db, ran, served, member, oneFh, ?_⟩
  rintro (empty | ⟨epoch, -⟩)
  · exact rows empty
  · exact header epoch

end Db

end ProtoFH
