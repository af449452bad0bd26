import ProtoFH.Fh.Live

/-! # Recovering from a dump

What `recover_from_db` rebuilds from the dump of given tables: tick rows, orders and
book rows each restore their own part of the market, in the order of the dump. -/

namespace ProtoFH

namespace UpdateRecord

def rowRefdata (refdata : RefData) (rec : UpdateRecord) : RefData :=
  if rec.envelope.ticker = .empty then refdata else rec.restoreInstrument refdata

def rowTape (tape : TradeTape) (rec : UpdateRecord) : TradeTape :=
  if rec.envelope.ticker = .empty then tape else rec.restoreTrades tape

def rowContext (ctx : PubContext) (rec : UpdateRecord) : PubContext :=
  if rec.envelope.ticker = .empty then ctx else rec.restoreContext ctx

end UpdateRecord

def RefData.tickRecord (refdata : RefData) (rec : TickRecord) : RefData :=
  refdata.addTick rec.tableId rec.priceStart rec.tickSize

def OrderBookStore.orderRecord (store : OrderBookStore) (rec : OrderRecord) : OrderBookStore :=
  store.restoreOrder rec.wired.toOrder

namespace Tables

def rows (tables : Tables) : List UpdateRecord :=
  tables.books.toList.map fun entry => (tables.makeDumpUpdate entry.1 entry.2).wired

def restored (tables : Tables) : RecoveryState where
  market :=
    { refdata := tables.rows.foldl UpdateRecord.rowRefdata
        ((tickRows tables.ticks.toList).foldl RefData.tickRecord {})
      books := tables.orders.values.foldl OrderBookStore.orderRecord {}
      tape := tables.rows.foldl UpdateRecord.rowTape {} }
  ctx := tables.rows.foldl UpdateRecord.rowContext {}
  recovered :=
    { session := tables.dbMeta.session.trimmed.bytes
      lastExchSeq := tables.dbMeta.lastExchSeq
      epoch := tables.dbMeta.epoch }
  sawBegin := true
  sawEnd := true

/-- A row of the dump, as far as its restoration looks at it: the position of the
tables plays no part. -/
def dumpRow (entry : RowKey × BookRow) : UpdateRecord :=
  (({} : Tables).makeDumpUpdate entry.1 entry.2).wired

theorem restored_ctx (tables : Tables) :
    tables.restored.ctx =
      tables.books.toList.foldl (fun ctx entry => (dumpRow entry).rowContext ctx) {} := by
  change (tables.books.toList.map _).foldl UpdateRecord.rowContext {} = _
  rw [List.foldl_map]
  rfl

theorem restored_tape (tables : Tables) :
    tables.restored.market.tape =
      tables.books.toList.foldl (fun tape entry => (dumpRow entry).rowTape tape) {} := by
  change (tables.books.toList.map _).foldl UpdateRecord.rowTape {} = _
  rw [List.foldl_map]
  rfl

theorem restored_refdata (tables : Tables) :
    tables.restored.market.refdata =
      tables.books.toList.foldl (fun refdata entry => (dumpRow entry).rowRefdata refdata)
        ((tickRows tables.ticks.toList).foldl RefData.tickRecord {}) := by
  change (tables.books.toList.map _).foldl UpdateRecord.rowRefdata _ = _
  rw [List.foldl_map]
  rfl

/-- The level counts of every row are within the depth, so that its dump record is
one the decoder accepts. -/
def Shallow (tables : Tables) : Prop :=
  ∀ (key : RowKey) (row : BookRow), tables.books[key]? = some row →
    row.book.levelCountBid.toNat ≤ bookDepth ∧ row.book.levelCountAsk.toNat ≤ bookDepth

theorem Shallow.store {tables : Tables} (shallow : tables.Shallow) {rec : UpdateRecord}
    (arrived : rec.Shallow) : (tables.store rec).Shallow := by
  intro key row stored
  change (tables.books.insert rec.key _)[key]? = some row at stored
  rw [OrderedMap.lookup_insert] at stored
  split at stored
  · rw [← Option.some.inj stored]
    exact arrived
  · exact shallow key row stored

end Tables

namespace RecoveryState

@[simp] theorem restore_error (st : RecoveryState) (record : Record) :
    (st.restore record).error = st.error := by
  cases record with
  | update rec =>
      change (st.restoreRow rec).error = st.error
      unfold restoreRow
      split <;> rfl
  | _ => rfl

private theorem restoreRow_eq (st : RecoveryState) (rec : UpdateRecord) :
    st.restoreRow rec =
      { st with
        market :=
          { st.market with
            refdata := rec.rowRefdata st.market.refdata
            tape := rec.rowTape st.market.tape }
        ctx := rec.rowContext st.ctx } := by
  unfold restoreRow UpdateRecord.rowRefdata UpdateRecord.rowTape UpdateRecord.rowContext
  split <;> rfl

theorem restoreAll_append (st : RecoveryState) (first second : List Record) :
    st.restoreAll (first ++ second) = (st.restoreAll first).restoreAll second :=
  List.foldl_append

private theorem restoreAll_ticks (st : RecoveryState) (ticks : List TickRecord) :
    st.restoreAll (ticks.map Record.tick) =
      { st with
        market := { st.market with
          refdata := ticks.foldl RefData.tickRecord st.market.refdata } } := by
  induction ticks generalizing st with
  | nil => rfl
  | cons tick ticks induction =>
      change (st.restoreTick tick).restoreAll (ticks.map Record.tick) = _
      rw [induction]
      rfl

private theorem restoreAll_orders (st : RecoveryState) (orders : List OrderRecord) :
    st.restoreAll (orders.map Record.order) =
      { st with
        market := { st.market with
          books := orders.foldl OrderBookStore.orderRecord st.market.books } } := by
  induction orders generalizing st with
  | nil => rfl
  | cons order orders induction =>
      change (st.restoreOrder order.wired).restoreAll (orders.map Record.order) = _
      rw [induction]
      rfl

private theorem restoreAll_rows (st : RecoveryState) (rows : List UpdateRecord) :
    st.restoreAll (rows.map Record.update) =
      { st with
        market :=
          { st.market with
            refdata := (rows.map UpdateRecord.wired).foldl UpdateRecord.rowRefdata
              st.market.refdata
            tape := (rows.map UpdateRecord.wired).foldl UpdateRecord.rowTape st.market.tape }
        ctx := (rows.map UpdateRecord.wired).foldl UpdateRecord.rowContext st.ctx } := by
  induction rows generalizing st with
  | nil => rfl
  | cons row rows induction =>
      change (st.restoreRow row.wired).restoreAll (rows.map Record.update) = _
      rw [induction, restoreRow_eq]
      rfl

private theorem getState_raw {st : RecoveryState} (fine : st.error = false) {records : List Record}
    (sound : ∀ record ∈ records, record.Sound)
    (inside : ∀ record ∈ records, record.kind ≠ .syncEnd) (last : SyncEndRecord)
    (later : List RawRecord) :
    st.getState (records.map Record.raw ++ (Record.syncEnd last).raw :: later) =
      ((st.restoreAll records).restoreEnd last.wired, true) := by
  induction records generalizing st with
  | nil =>
      have applied := st.applyRecord_raw (show (Record.syncEnd last).Sound from trivial)
      change (let st := if st.error then st else st.applyRecord (Record.syncEnd last).raw
        if (Record.syncEnd last).kind = .syncEnd then (st, true) else st.getState later) = _
      rw [fine, applied]
      rfl
  | cons record records induction =>
      rw [List.forall_mem_cons] at sound inside
      have applied := st.applyRecord_raw sound.1
      have different : record.raw.kind ≠ .syncEnd := inside.1
      rw [List.map_cons, List.cons_append, getState]
      simp only [fine, Bool.false_eq_true, if_false, applied, different]
      exact induction (by rw [restore_error, fine]) sound.2 inside.2

end RecoveryState

def Tables.dumpBody (tables : Tables) : List Record :=
  [Record.syncBegin] ++ (tickRows tables.ticks.toList).map Record.tick ++
    tables.orders.values.map Record.order ++
    (tables.books.toList.map fun entry => tables.makeDumpUpdate entry.1 entry.2).map
      Record.update

private theorem Tables.restoreAll_dumpBody (tables : Tables) :
    RecoveryState.restoreAll {} tables.dumpBody =
      { tables.restored with recovered := {}, sawEnd := false } := by
  rw [dumpBody, RecoveryState.restoreAll_append, RecoveryState.restoreAll_append,
    RecoveryState.restoreAll_append, RecoveryState.restoreAll_ticks,
    RecoveryState.restoreAll_orders, RecoveryState.restoreAll_rows, List.map_map]
  rfl

variable {tables : Tables}

theorem Tables.dumpBody_kind {record : Record} (member : record ∈ tables.dumpBody) :
    record.kind ≠ .syncEnd := by
  simp only [dumpBody, List.mem_append, List.mem_map, List.mem_singleton] at member
  rcases member with ((rfl | ⟨tick, -, rfl⟩) | ⟨order, -, rfl⟩) | ⟨rec, -, rfl⟩ <;>
    simp [Record.kind]

theorem Tables.dumpState_eq (tables : Tables) :
    tables.dumpState = encodeAll (tables.dumpBody ++ [Record.syncEnd
      { session := tables.dbMeta.session, lastExchSeq := tables.dbMeta.lastExchSeq
        epoch := tables.dbMeta.epoch }]) := by
  rw [dumpState, dumpRecords, dumpBody, List.map_map]
  rfl

theorem Tables.dumpBody_sound (shallow : tables.Shallow) :
    ∀ record ∈ tables.dumpBody, record.Sound := by
  intro record member
  simp only [dumpBody, List.mem_append, List.mem_map, List.mem_singleton] at member
  rcases member with ((rfl | ⟨tick, -, rfl⟩) | ⟨order, -, rfl⟩) | ⟨rec, ⟨entry, stored, rfl⟩, rfl⟩
  · trivial
  · trivial
  · trivial
  · exact shallow entry.1 entry.2 (OrderedMap.mem_toList.mp stored)

theorem Tables.recoverFromDb_dumpState (shallow : tables.Shallow) :
    recoverFromDb tables.dumpState = some tables.restored := by
  rw [recoverFromDb, dumpState_eq, ← List.append_nil (encodeAll _), drain_encodeAll,
    List.map_append]
  simp only [List.map_cons, List.map_nil, List.append_assoc, List.cons_append]
  rw [RecoveryState.getState_raw rfl (dumpBody_sound shallow) fun _ => dumpBody_kind,
    restoreAll_dumpBody]
  rfl

private theorem RecoveryState.getState_cut {st : RecoveryState} {raws : List RawRecord}
    (inside : ∀ raw ∈ raws, raw.kind ≠ .syncEnd) : (st.getState raws).2 = false := by
  induction raws generalizing st with
  | nil => rfl
  | cons raw raws induction =>
      rw [List.forall_mem_cons] at inside
      rw [getState]
      simp only [inside.1, if_false]
      exact induction inside.2

theorem Tables.recoverFromDb_take (shallow : tables.Shallow) {count : Nat}
    {recovered : RecoveryState}
    (succeeded : recoverFromDb (tables.dumpState.take count) = some recovered) :
    recovered = tables.restored := by
  have stream := List.take_append_drop count tables.dumpState
  conv at stream => rhs; rw [dumpState_eq]
  rcases drain_front stream with ⟨whole, left, drained, rest, -⟩
  by_cases within : whole ≤ tables.dumpBody.length
  · rw [List.take_append_of_le_length within] at drained
    have cut : (RecoveryState.getState {}
        ((tables.dumpBody.take whole).map Record.raw)).2 = false := by
      apply RecoveryState.getState_cut
      intro raw member
      rcases List.mem_map.mp member with ⟨record, inBody, rfl⟩
      exact dumpBody_kind (List.mem_of_mem_take inBody)
    rw [recoverFromDb, drained] at succeeded
    simp only [cut, Bool.false_eq_true, false_and, if_false] at succeeded
    cases succeeded
  · have all : tables.dumpBody.length + 1 ≤ whole := by omega
    have ended (last : Record) : (tables.dumpBody ++ [last]).drop whole = [] := by
      rw [List.drop_eq_nil_of_le]
      rwa [List.length_append, List.length_singleton]
    rw [ended] at rest
    have nothing : tables.dumpState.drop count = [] := (List.append_eq_nil_iff.mp rest).2
    have whole := List.take_append_drop count tables.dumpState
    rw [nothing, List.append_nil] at whole
    rw [whole, recoverFromDb_dumpState shallow] at succeeded
    exact (Option.some.inj succeeded).symm

end ProtoFH
