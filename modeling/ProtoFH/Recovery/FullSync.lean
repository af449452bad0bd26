import ProtoFH.Recovery.Restored

/-! # A full sync

What `RESET` and the records of `build_sync_dump` leave in a database, whatever it
held before. -/

namespace ProtoFH

namespace IngestServer

theorem handleAll_ticks (server : IngestServer) (ticks : List TickRecord) :
    server.handleAll (ticks.map Record.tick) =
      { server with tables := ticks.foldl Tables.applyTick server.tables } := by
  induction ticks generalizing server with
  | nil => rfl
  | cons tick ticks induction =>
      change IngestServer.handleAll { server with tables := server.tables.applyTick tick }
        (ticks.map Record.tick) = _
      rw [induction]
      rfl

theorem handleAll_orders (server : IngestServer) (orders : List OrderRecord) :
    server.handleAll (orders.map Record.order) =
      { server with
        tables := orders.foldl (fun tables rec => tables.applyOrder rec.wired) server.tables } := by
  induction orders generalizing server with
  | nil => rfl
  | cons order orders induction =>
      change IngestServer.handleAll { server with tables := server.tables.applyOrder order.wired }
        (orders.map Record.order) = _
      rw [induction]
      rfl

theorem handleAll_rows {server : IngestServer} (bracket : server.inSync = true)
    (rows : List UpdateRecord) :
    server.handleAll (rows.map Record.update) =
      { server with
        tables := rows.foldl (fun tables rec => tables.store rec.wired) server.tables } := by
  induction rows generalizing server with
  | nil => rfl
  | cons row rows induction =>
      have stored : server.handle (Record.update row).wired =
          { server with tables := server.tables.store row.wired } := by
        change { server with tables := server.tables.applyUpdate row.wired server.inSync } = _
        rw [bracket]
        rfl
      rw [List.map_cons, handleAll_cons, stored]
      have later : ({ server with tables := server.tables.store row.wired } :
          IngestServer).inSync = true := bracket
      rw [induction later]
      rfl

end IngestServer

namespace Fh

def syncTicks (fh : Fh) : List TickRecord :=
  tickRows (fh.market.refdata.tickTables.toList.map fun table => (table.1, table.2.rows))

def syncEnvelope (fh : Fh) : Envelope where
  epoch := fh.epoch
  pubSeq := 0
  session := fh.session
  exchSeq := fh.lastExchSeq
  exchNs := fh.market.seconds * 1000000000
  trigger := ascii '#'

/-- The rows of a full sync: one per ticker with a known group, then one per group
with a system event. -/
def syncRows (fh : Fh) : List UpdateRecord :=
  ((knownTickers fh.market).filterMap (dumpResult fh.market)).map
      (makeUpdate fh.market fh.ctx · fh.syncEnvelope) ++
    fh.ctx.lastSysEvent.toList.map fun entry =>
      makeUpdate fh.market fh.ctx { group := entry.1 } fh.syncEnvelope

def syncedOrders (fh : Fh) (prior : Tables) : Tables :=
  fh.market.books.orders.values.foldl (fun tables order => tables.applyOrder order.toRecord.wired)
    (fh.syncTicks.foldl Tables.applyTick prior.reset)

def syncedRows (fh : Fh) (prior : Tables) : Tables :=
  fh.syncRows.foldl (fun tables rec => tables.store rec.wired) (fh.syncedOrders prior)

def synced (fh : Fh) (prior : Tables) : Tables :=
  ((fh.syncedRows prior).adoptMeta
    { session := (CStr.copy 10 fh.session).trimmed
      lastExchSeq := fh.lastExchSeq
      epoch := fh.epoch }).countSyncCompleted

theorem fullSync_eq (fh : Fh) :
    fh.fullSync =
      [Record.reset, Record.syncBegin] ++ fh.syncTicks.map Record.tick ++
        (fh.market.books.orders.values.map Order.toRecord).map Record.order ++
        fh.syncRows.map Record.update ++
        [Record.syncEnd
          { session := CStr.copy 10 fh.session, lastExchSeq := fh.lastExchSeq
            epoch := fh.epoch }] := by
  simp only [fullSync, syncRecords, syncTicks, syncRows, syncEnvelope, List.map_append,
    List.map_map, List.cons_append, List.nil_append, List.append_assoc]
  rfl

theorem handleAll_fullSync (fh : Fh) (server : IngestServer) :
    server.handleAll fh.fullSync =
      { server with tables := fh.synced server.tables, inSync := false } := by
  rw [fullSync_eq, IngestServer.handleAll_append, IngestServer.handleAll_append,
    IngestServer.handleAll_append, IngestServer.handleAll_append, IngestServer.handleAll_ticks,
    IngestServer.handleAll_orders, IngestServer.handleAll_rows (by rfl), List.foldl_map]
  rfl

variable {rec : UpdateRecord}

theorem syncRows_shallow {fh : Fh} (member : rec ∈ fh.syncRows) : rec.Shallow := by
  rcases List.mem_append.mp member with row | event
  · rcases List.mem_map.mp row with ⟨res, -, rfl⟩
    exact makeUpdate_shallow _ _ _ _
  · rcases List.mem_map.mp event with ⟨entry, -, rfl⟩
    exact makeUpdate_shallow _ _ _ _

theorem fullSync_sound (fh : Fh) : ∀ record ∈ fh.fullSync, record.Sound := by
  intro record member
  rw [fullSync_eq] at member
  simp only [List.mem_append, List.mem_cons, List.not_mem_nil, or_false, List.mem_map] at member
  rcases member with ((((rfl | rfl) | ⟨tick, -, rfl⟩) | ⟨order, -, rfl⟩) | ⟨rec, inRows, rfl⟩) | rfl
  · trivial
  · trivial
  · trivial
  · trivial
  · exact syncRows_shallow inRows
  · trivial

/-! ## The tables after it -/

theorem syncRows_delta {fh : Fh} (member : rec ∈ fh.syncRows) : rec.delta.op = ascii '#' := by
  have noDelta {market : Market} {ticker : CStr 4} {res : ApplyResult}
      (dumped : dumpResult market ticker = some res) : res.delta = none := by
    unfold dumpResult at dumped
    simp only at dumped
    split at dumped
    · rw [← Option.some.inj dumped]
    · rcases Option.map_eq_some_iff.mp dumped with ⟨order, -, rfl⟩
      rfl
  rcases List.mem_append.mp member with row | event
  · rcases List.mem_map.mp row with ⟨res, inResults, rfl⟩
    rcases List.mem_filterMap.mp inResults with ⟨ticker, -, dumped⟩
    change (deltaSection _ res.delta).op = _
    rw [noDelta dumped]
    rfl
  · rcases List.mem_map.mp event with ⟨entry, -, rfl⟩
    rfl

theorem store_orders (noDelta : rec.delta.op = ascii '#') (tables : Tables) :
    (tables.store rec).orders = tables.orders := by
  change applyDelta tables.orders rec = tables.orders
  simp only [applyDelta, noDelta]
  rfl

theorem syncedOrders_books (fh : Fh) (prior : Tables) : (fh.syncedOrders prior).books = ∅ := by
  have ticks : (fh.syncTicks.foldl Tables.applyTick prior.reset).books = ∅ := by
    rw [foldl_frame Tables.books]
    · rfl
    · exact fun _ _ _ => rfl
  rw [syncedOrders, foldl_frame Tables.books, ticks]
  exact fun _ _ _ => rfl

-- over any tables: with the tables of a sync in their place, Lean would compute them

private theorem completed_orders (tables : Tables) (rec : SyncEndRecord) :
    (tables.adoptMeta rec).countSyncCompleted.orders = tables.orders := rfl

private theorem completed_ticks (tables : Tables) (rec : SyncEndRecord) :
    (tables.adoptMeta rec).countSyncCompleted.ticks = tables.ticks := rfl

theorem completed_books (tables : Tables) (rec : SyncEndRecord) :
    (tables.adoptMeta rec).countSyncCompleted.books = tables.books := rfl

theorem synced_order (fh : Fh) (prior : Tables) (orderNumber : UInt64) :
    (fh.synced prior).orders.find? orderNumber =
      (fh.market.books.orders.find? orderNumber).map fun order => order.toRecord.wired := by
  have rows : (fh.syncedRows prior).orders = (fh.syncedOrders prior).orders := by
    rw [syncedRows, foldl_frame Tables.orders]
    intro tables rec member
    have noDelta := syncRows_delta member
    exact store_orders (show rec.wired.delta.op = ascii '#' from noDelta) tables
  have orders (orders : List Order) (tables : Tables) :
      (orders.foldl (fun tables order => tables.applyOrder order.toRecord.wired) tables).orders =
        orders.foldl (fun map order => map.insert order.toRecord.wired) tables.orders := by
    induction orders generalizing tables with
    | nil => rfl
    | cons order orders induction => exact induction _
  have ticks : (fh.syncTicks.foldl Tables.applyTick prior.reset).orders = ∅ := by
    rw [foldl_frame Tables.orders]
    · rfl
    · exact fun _ _ _ => rfl
  rw [synced, completed_orders, rows, syncedOrders, orders, ticks]
  exact KeyedMap.find?_foldl_values fh.market.books.orders (fun order => order.toRecord.wired)
    (fun _ => rfl) orderNumber

theorem applyTick_tickRow (tables : Tables) (rec : TickRecord) (table start : UInt32) :
    (tables.applyTick rec).tickRow table start =
      if rec.tableId = table ∧ rec.priceStart = start then some rec.tickSize
      else tables.tickRow table start := by
  simp only [Tables.tickRow, Tables.applyTick, OrderedMap.lookup_insert]
  by_cases sameTable : rec.tableId = table
  · subst sameTable
    by_cases sameStart : rec.priceStart = start
    · simp [sameStart]
    · cases tables.ticks[rec.tableId]? <;> simp [OrderedMap.lookup_insert, sameStart]
  · simp [sameTable]

theorem synced_tickRow (fh : Fh) (prior : Tables) (table start : UInt32) :
    (fh.synced prior).tickRow table start = fh.market.refdata.tickRow table start := by
  have same : (fh.synced prior).ticks =
      (fh.syncTicks.foldl Tables.applyTick prior.reset).ticks := by
    rw [synced, completed_ticks, syncedRows, foldl_frame Tables.ticks, syncedOrders,
      foldl_frame Tables.ticks]
    · exact fun _ _ _ => rfl
    · exact fun _ _ _ => rfl
  have listed (id : UInt32) (rows : OrderedMap UInt32 UInt32) :
      (id, rows) ∈ fh.market.refdata.tickTables.toList.map (fun table => (table.1, table.2.rows)) ↔
        fh.market.refdata.tickTables[id]?.map TickTable.rows = some rows := by
    rw [List.mem_map, Option.map_eq_some_iff]
    constructor
    · rintro ⟨⟨other, ticks⟩, member, equal⟩
      cases equal
      exact ⟨ticks, OrderedMap.mem_toList.mp member, rfl⟩
    · rintro ⟨ticks, found, rfl⟩
      exact ⟨(id, ticks), OrderedMap.mem_toList.mpr found, rfl⟩
  have written := read_tickRows listed table start
    (fun tables : Tables => tables.tickRow table start)
    (fun tables rec => applyTick_tickRow tables rec table start) prior.reset
  have empty : prior.reset.tickRow table start = none := by
    simp [Tables.tickRow, Tables.reset]
  rw [empty, Option.or_none] at written
  rw [Tables.tickRow, same]
  refine written.trans ?_
  rw [RefData.tickRow]
  cases fh.market.refdata.tickTables[table]? <;> rfl

theorem synced_trade (fh : Fh) (prior : Tables) (key : RowKey) :
    (fh.synced prior).books[key]?.map BookRow.trade =
      lastWrite (fun rec : UpdateRecord => if rec.wired.key = key then some rec.trade else none)
        fh.syncRows := by
  have steps (tables : Tables) (rec : UpdateRecord) :
      (tables.store rec.wired).books[key]?.map BookRow.trade =
        (if rec.wired.key = key then some rec.trade else none).or
          (tables.books[key]?.map BookRow.trade) := by
    change ((tables.books.insert rec.wired.key _)[key]?).map BookRow.trade = _
    rw [OrderedMap.lookup_insert]
    split <;> rfl
  rw [synced, completed_books, syncedRows,
    read_foldl (fun tables : Tables => tables.books[key]?.map BookRow.trade) steps,
    syncedOrders_books]
  simp

theorem synced_shallow (fh : Fh) (prior : Tables) : (fh.synced prior).Shallow := by
  have start : (fh.syncedOrders prior).Shallow := by
    intro key row stored
    rw [syncedOrders_books] at stored
    simp at stored
  have rows : (fh.syncedRows prior).Shallow := by
    apply foldl_invariant Tables.Shallow _ start
    intro tables rec member shallow
    exact shallow.store (syncRows_shallow member).wired
  rw [synced, Tables.Shallow, completed_books]
  exact rows

end Fh

end ProtoFH
