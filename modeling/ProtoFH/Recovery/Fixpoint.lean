import ProtoFH.Recovery.FullSync

/-! # A dump read back

The bytes of `dump_state` are one complete bracket. An empty database that reads them
holds the same orders, ticks, position and rows, and dumps the same bytes again. Only the
rings of trades and the level slots beyond the counts are not carried over. -/

namespace ProtoFH

/-! ## Decoded records -/

def RecordKind.alphaFields : RecordKind → List (Nat × Nat)
  | .update => [(24, 10), (51, 4), (55, 4), (59, 12)]
  | .order => [(16, 4), (20, 4)]
  | .syncEnd => [(8, 10)]
  | .hello | .getState | .reset | .syncBegin | .tick => []

def RecordKind.NulFree (kind : RecordKind) (buf : Bytes) : Prop :=
  ∀ field ∈ kind.alphaFields, (0 : UInt8) ∉ (buf.drop field.1).take field.2

instance (kind : RecordKind) (buf : Bytes) : Decidable (kind.NulFree buf) :=
  inferInstanceAs (Decidable (∀ field ∈ _, _))

variable {buf : Bytes}

theorem decodeRecord_eq_ok {kind : RecordKind} {reader : Reader α} {value : α}
    (decoded : decodeRecord kind reader buf = .ok value) :
    ∃ rest, reader (buf.drop recordHeaderSize) = .ok (value, rest) := by
  unfold decodeRecord at decoded
  split at decoded
  · cases decoded
  · cases read : reader (buf.drop recordHeaderSize) with
    | error reason =>
        rw [read] at decoded
        cases decoded
    | ok result =>
        rw [read] at decoded
        cases decoded
        exact ⟨result.2, rfl⟩

variable {p rest : Bytes}

theorem RecordEnvelope.wired_of_read {envelope : RecordEnvelope}
    (read : RecordEnvelope.read p = .ok (envelope, rest))
    (session : (0 : UInt8) ∉ (p.drop 16).take 10) (ticker : (0 : UInt8) ∉ (p.drop 43).take 4)
    (group : (0 : UInt8) ∉ (p.drop 47).take 4) : envelope.wired = envelope ∧ rest = p.drop 51 := by
  simp only [RecordEnvelope.read, Reader.bind_apply, Reader.pure_apply, Reader.u64, Reader.u8,
    Reader.alpha, List.drop_drop] at read
  cases read
  exact ⟨by simp [wired, getAlpha_trimmed, session, ticker, group], rfl⟩

theorem StaticSection.wired_of_read {static : StaticSection}
    (read : StaticSection.read p = .ok (static, rest)) (isin : (0 : UInt8) ∉ p.take 12) :
    static.wired = static := by
  simp only [StaticSection.read, Reader.bind_apply, Reader.pure_apply, Reader.u32, Reader.u8,
    Reader.alpha] at read
  cases read
  simp [wired, getAlpha_trimmed isin]

private theorem BookSection.shallow_of_read {book : BookSection}
    (read : BookSection.read p = .ok (book, rest)) :
    book.levelCountBid.toNat ≤ bookDepth ∧ book.levelCountAsk.toNat ≤ bookDepth := by
  unfold BookSection.read at read
  obtain ⟨bidCount, rest, -, read⟩ := Reader.bind_eq_ok read
  obtain ⟨askCount, rest, -, read⟩ := Reader.bind_eq_ok read
  split at read
  · cases read
  · next within =>
      rw [not_or, Nat.not_lt, Nat.not_lt] at within
      obtain ⟨bids, rest, -, read⟩ := Reader.bind_eq_ok read
      obtain ⟨asks, rest, -, read⟩ := Reader.bind_eq_ok read
      obtain ⟨totalBidQty, rest, -, read⟩ := Reader.bind_eq_ok read
      obtain ⟨totalAskQty, rest, -, read⟩ := Reader.bind_eq_ok read
      obtain ⟨totalBidOrders, rest, -, read⟩ := Reader.bind_eq_ok read
      obtain ⟨totalAskOrders, rest, -, read⟩ := Reader.bind_eq_ok read
      cases read
      exact within

/-- A decoded update survives another trip over the wire, up to the level slots it does
not use. -/
structure UpdateRecord.Decoded (rec : UpdateRecord) : Prop where
  envelope : rec.envelope.wired = rec.envelope
  static : rec.static.wired = rec.static
  shallow : rec.Shallow

private theorem decodeUpdate_decoded {rec : UpdateRecord} (decoded : decodeUpdate buf = .ok rec)
    (nulFree : RecordKind.update.NulFree buf) : rec.Decoded := by
  obtain ⟨rest, read⟩ := decodeRecord_eq_ok decoded
  unfold UpdateRecord.read at read
  obtain ⟨envelope, rest, readEnvelope, read⟩ := Reader.bind_eq_ok read
  obtain ⟨static, later, readStatic, read⟩ := Reader.bind_eq_ok read
  obtain ⟨state, later, -, read⟩ := Reader.bind_eq_ok read
  obtain ⟨book, later, readBook, read⟩ := Reader.bind_eq_ok read
  obtain ⟨trade, later, -, read⟩ := Reader.bind_eq_ok read
  obtain ⟨delta, later, -, read⟩ := Reader.bind_eq_ok read
  cases read
  simp only [RecordKind.NulFree, RecordKind.alphaFields, List.forall_mem_cons] at nulFree
  obtain ⟨session, ticker, group, isin, -⟩ := nulFree
  have text := RecordEnvelope.wired_of_read readEnvelope
    (by rwa [List.drop_drop]) (by rwa [List.drop_drop]) (by rwa [List.drop_drop])
  refine ⟨text.1, StaticSection.wired_of_read readStatic ?_, BookSection.shallow_of_read readBook⟩
  rwa [text.2, List.drop_drop]

private theorem decodeOrder_wired {rec : OrderRecord} (decoded : decodeOrder buf = .ok rec)
    (nulFree : RecordKind.order.NulFree buf) : rec.wired = rec := by
  obtain ⟨rest, read⟩ := decodeRecord_eq_ok decoded
  simp only [RecordKind.NulFree, RecordKind.alphaFields, List.forall_mem_cons] at nulFree
  obtain ⟨ticker, group, -⟩ := nulFree
  simp only [OrderRecord.read, Reader.bind_apply, Reader.pure_apply, Reader.u64, Reader.u32,
    Reader.u8, Reader.alpha, List.drop_drop] at read
  cases read
  simp [OrderRecord.wired, getAlpha_trimmed, recordHeaderSize, ticker, group]

private theorem decodeSyncEnd_wired {rec : SyncEndRecord} (decoded : decodeSyncEnd buf = .ok rec)
    (nulFree : RecordKind.syncEnd.NulFree buf) : rec.wired = rec := by
  obtain ⟨rest, read⟩ := decodeRecord_eq_ok decoded
  simp only [RecordKind.NulFree, RecordKind.alphaFields, List.forall_mem_cons] at nulFree
  simp only [SyncEndRecord.read, Reader.bind_apply, Reader.pure_apply, Reader.u64,
    Reader.alpha] at read
  cases read
  simp [SyncEndRecord.wired, getAlpha_trimmed, recordHeaderSize, nulFree.1]

/-! ## Tables fed by decoded records -/

namespace Tables

/-- The tables that applying decoded records can lead to, in any order, inside and
outside brackets. -/
inductive Fed : Tables → Prop where
  | empty : Fed {}
  | update {tables : Tables} {buf : Bytes} {rec : UpdateRecord} (inSync : Bool)
      (decoded : decodeUpdate buf = .ok rec) (nulFree : RecordKind.update.NulFree buf)
      (fed : Fed tables) : Fed (tables.applyUpdate rec inSync)
  | order {tables : Tables} {buf : Bytes} {rec : OrderRecord}
      (decoded : decodeOrder buf = .ok rec) (nulFree : RecordKind.order.NulFree buf)
      (fed : Fed tables) : Fed (tables.applyOrder rec)
  | tick {tables : Tables} {buf : Bytes} {rec : TickRecord}
      (decoded : decodeTick buf = .ok rec) (fed : Fed tables) : Fed (tables.applyTick rec)
  | syncEnd {tables : Tables} {buf : Bytes} {rec : SyncEndRecord}
      (decoded : decodeSyncEnd buf = .ok rec) (nulFree : RecordKind.syncEnd.NulFree buf)
      (fed : Fed tables) : Fed (tables.adoptMeta rec)

structure Clean (tables : Tables) : Prop where
  shallow : tables.Shallow
  named : ∀ (key : RowKey) (row : BookRow), tables.books[key]? = some row →
    key.ticker.trimmed = key.ticker ∧ key.group.trimmed = key.group ∧ row.static.wired = row.static
  orders : ∀ (orderNumber : UInt64) (order : OrderRecord),
    tables.orders.find? orderNumber = some order → order.wired = order
  ticks : ∀ (table : UInt32) (rows : OrderedMap UInt32 UInt32),
    tables.ticks[table]? = some rows → ∃ start : UInt32, rows[start]?.isSome
  session : tables.dbMeta.session.trimmed = tables.dbMeta.session

theorem clean_empty : ({} : Tables).Clean where
  shallow key row stored := by simp at stored
  named key row stored := by simp at stored
  orders orderNumber order stored := by
    rw [show ({} : Tables).orders = ∅ from rfl, KeyedMap.find?_empty] at stored
    cases stored
  ticks table rows stored := by simp at stored
  session := rfl

variable {rec : UpdateRecord}

private theorem applyDelta_wired {orders : OrderTable}
    (stored : ∀ orderNumber order, orders.find? orderNumber = some order → order.wired = order)
    (decoded : rec.Decoded) :
    ∀ orderNumber order, (applyDelta orders rec).find? orderNumber = some order →
      order.wired = order := by
  have inserted : rec.deltaOrder.wired = rec.deltaOrder := by
    have ticker := congrArg RecordEnvelope.ticker decoded.envelope
    have group := congrArg RecordEnvelope.group decoded.envelope
    change { rec.deltaOrder with
      ticker := rec.envelope.wired.ticker, group := rec.envelope.wired.group } = _
    rw [ticker, group]
    rfl
  unfold applyDelta
  split
  · exact KeyedMap.forall_find?_insert stored inserted
  split
  · cases found : orders.find? rec.delta.orderNumber with
    | none => exact stored
    | some order =>
        dsimp only
        split
        · exact KeyedMap.forall_find?_erase stored _
        · apply KeyedMap.forall_find?_insert stored
          have kept := stored _ order found
          have ticker := congrArg OrderRecord.ticker kept
          have group := congrArg OrderRecord.group kept
          change { order with
            qtyRemaining := rec.delta.qty, price := rec.delta.price
            ticker := order.wired.ticker, group := order.wired.group } = _
          rw [ticker, group]
  split
  · exact KeyedMap.forall_find?_erase stored _
  split
  · exact KeyedMap.forall_find?_insert (KeyedMap.forall_find?_erase stored _) inserted
  · exact stored

variable {tables : Tables}

theorem Clean.store (clean : tables.Clean) (decoded : rec.Decoded) : (tables.store rec).Clean where
  shallow := clean.shallow.store decoded.shallow
  named key row stored := by
    change (tables.books.insert rec.key _)[key]? = some row at stored
    rw [OrderedMap.lookup_insert] at stored
    split at stored
    · next equal =>
        rw [← Option.some.inj stored, ← equal]
        exact ⟨congrArg RecordEnvelope.ticker decoded.envelope,
          congrArg RecordEnvelope.group decoded.envelope, decoded.static⟩
    · exact clean.named key row stored
  orders := applyDelta_wired clean.orders decoded
  ticks := clean.ticks
  session := clean.session

theorem Clean.applyUpdate (clean : tables.Clean) (decoded : rec.Decoded) (inSync : Bool) :
    (tables.applyUpdate rec inSync).Clean := by
  have stored := clean.store decoded
  unfold Tables.applyUpdate
  split
  · exact stored
  split
  · exact ⟨clean.shallow, clean.named, clean.orders, clean.ticks, clean.session⟩
  · exact ⟨stored.shallow, stored.named, stored.orders, stored.ticks,
      congrArg RecordEnvelope.session decoded.envelope⟩

theorem Clean.applyTick (clean : tables.Clean) (rec : TickRecord) :
    (tables.applyTick rec).Clean where
  shallow := clean.shallow
  named := clean.named
  orders := clean.orders
  ticks table rows stored := by
    change (tables.ticks.insert rec.tableId _)[table]? = some rows at stored
    rw [OrderedMap.lookup_insert] at stored
    split at stored
    · rw [← Option.some.inj stored]
      exact ⟨rec.priceStart, by simp⟩
    · exact clean.ticks table rows stored
  session := clean.session

theorem Fed.clean (fed : tables.Fed) : tables.Clean := by
  induction fed with
  | empty => exact clean_empty
  | update inSync decoded nulFree fed clean =>
      exact clean.applyUpdate (decodeUpdate_decoded decoded nulFree) inSync
  | order decoded nulFree fed clean =>
      exact ⟨clean.shallow, clean.named,
        KeyedMap.forall_find?_insert clean.orders (decodeOrder_wired decoded nulFree),
        clean.ticks, clean.session⟩
  | tick decoded fed clean => exact clean.applyTick _
  | syncEnd decoded nulFree fed clean =>
      exact ⟨clean.shallow, clean.named, clean.orders, clean.ticks,
        congrArg SyncEndRecord.session (decodeSyncEnd_wired decoded nulFree)⟩

end Tables

theorem UpdateRecord.toRow_tape (rec : UpdateRecord) (snapshot : rec.envelope.trigger = ascii '#')
    (tape : List TapeEntry) : (rec.toRow tape).tape = tape := by
  change (if rec.envelope.trigger = ascii 'E' then _ else tape) = tape
  rw [snapshot, if_neg (by decide)]

/-! ## Reading the dump -/

namespace Tables

def rereadTicks (tables : Tables) : Tables :=
  (tickRows tables.ticks.toList).foldl Tables.applyTick {}

def rereadOrders (tables : Tables) : Tables :=
  tables.orders.values.foldl (fun again order => again.applyOrder order.wired) tables.rereadTicks

def rereadRows (tables : Tables) : Tables := tables.rows.foldl Tables.store tables.rereadOrders

def reread (tables : Tables) : Tables :=
  (tables.rereadRows.adoptMeta
    { session := tables.dbMeta.session.trimmed
      lastExchSeq := tables.dbMeta.lastExchSeq
      epoch := tables.dbMeta.epoch }).countSyncCompleted

private theorem handleAll_dumpBody (tables : Tables) :
    ({} : IngestServer).accept.handleAll tables.dumpBody =
      { ({} : IngestServer).accept with tables := tables.rereadRows, inSync := true } := by
  rw [dumpBody, IngestServer.handleAll_append, IngestServer.handleAll_append,
    IngestServer.handleAll_append, IngestServer.handleAll_ticks, IngestServer.handleAll_orders,
    IngestServer.handleAll_rows (by rfl), List.foldl_map, rereadRows, rows, List.foldl_map]
  rfl

variable {tables : Tables}

private theorem onData_dumpState (shallow : tables.Shallow) {chunks : List Bytes}
    (stream : chunks.flatten = tables.dumpState) :
    (chunks.foldl IngestServer.onData ({} : IngestServer).accept).tables = tables.reread := by
  let last : Record := .syncEnd
    { session := tables.dbMeta.session
      lastExchSeq := tables.dbMeta.lastExchSeq
      epoch := tables.dbMeta.epoch }
  have sound : ∀ record ∈ tables.dumpBody ++ [last], record.Sound := by
    intro record member
    rcases List.mem_append.mp member with inside | isLast
    · exact dumpBody_sound shallow record inside
    · rw [List.mem_singleton.mp isLast]
      trivial
  rw [dumpState_eq] at stream
  have read : chunks.foldl IngestServer.onData (({} : IngestServer).accept.withBuffer []) =
      (({} : IngestServer).accept.handleAll (tables.dumpBody ++ [last])).withBuffer [] :=
    IngestServer.onData_chunks sound rfl rfl stream
  rw [show ({} : IngestServer).accept = ({} : IngestServer).accept.withBuffer [] from rfl, read,
    IngestServer.handleAll_append, handleAll_dumpBody]
  rfl

/-! ## What comes back -/

private theorem ticks_ext {left right : Tables} (leftClean : left.Clean) (rightClean : right.Clean)
    (same : ∀ table start, left.tickRow table start = right.tickRow table start) :
    left.ticks = right.ticks := by
  apply OrderedMap.ext_lookup
  intro table
  have rows := same table
  simp only [tickRow] at rows
  cases inLeft : left.ticks[table]? with
  | none =>
      cases inRight : right.ticks[table]? with
      | none => rfl
      | some other =>
          obtain ⟨start, present⟩ := rightClean.ticks table other inRight
          have absent := rows start
          rw [inLeft, inRight, Option.bind_none, Option.bind_some] at absent
          rw [← absent] at present
          cases present
  | some found =>
      cases inRight : right.ticks[table]? with
      | none =>
          obtain ⟨start, present⟩ := leftClean.ticks table found inLeft
          have absent := rows start
          rw [inLeft, inRight, Option.bind_none, Option.bind_some] at absent
          rw [absent] at present
          cases present
      | some other =>
          rw [inLeft, inRight] at rows
          rw [OrderedMap.ext_lookup rows]

theorem rereadTicks_ticks (clean : tables.Clean) : tables.rereadTicks.ticks = tables.ticks := by
  have again : tables.rereadTicks.Clean :=
    foldl_invariant Clean (fun _ rec _ before => before.applyTick rec) clean_empty
  apply ticks_ext again clean
  intro table start
  have listed (id : UInt32) (rows : OrderedMap UInt32 UInt32) :
      (id, rows) ∈ tables.ticks.toList ↔ tables.ticks[id]? = some rows := OrderedMap.mem_toList
  have written := read_tickRows listed table start
    (fun again : Tables => again.tickRow table start)
    (fun again rec => Fh.applyTick_tickRow again rec table start) {}
  have nothing : ({} : Tables).tickRow table start = none := by simp [tickRow]
  rw [nothing, Option.or_none] at written
  exact written

theorem reread_ticks (clean : tables.Clean) : tables.reread.ticks = tables.ticks := by
  change tables.rereadRows.ticks = tables.ticks
  rw [rereadRows, foldl_frame Tables.ticks, rereadOrders, foldl_frame Tables.ticks,
    rereadTicks_ticks clean]
  · exact fun _ _ _ => rfl
  · exact fun _ _ _ => rfl

private theorem rereadOrders_orders (clean : tables.Clean) :
    tables.rereadOrders.orders = tables.orders := by
  have inserted (orders : List OrderRecord) (again : Tables) :
      (orders.foldl (fun again order => again.applyOrder order.wired) again).orders =
        orders.foldl (fun map order => map.insert order.wired) again.orders := by
    induction orders generalizing again with
    | nil => rfl
    | cons order orders induction => exact induction _
  have start : tables.rereadTicks.orders = ∅ := by
    rw [rereadTicks, foldl_frame Tables.orders]
    exact fun _ _ _ => rfl
  apply KeyedMap.ext_find?
  intro orderNumber
  rw [rereadOrders, inserted, start,
    KeyedMap.find?_foldl_values tables.orders OrderRecord.wired fun _ => rfl]
  cases found : tables.orders.find? orderNumber with
  | none => rfl
  | some order => rw [Option.map_some, clean.orders orderNumber order found]

theorem reread_orders (clean : tables.Clean) : tables.reread.orders = tables.orders := by
  change tables.rereadRows.orders = tables.orders
  rw [rereadRows, foldl_frame Tables.orders, rereadOrders_orders clean]
  intro again rec member
  obtain ⟨entry, -, rfl⟩ := List.mem_map.mp member
  exact Fh.store_orders rfl again

private theorem rereadOrders_books (tables : Tables) : tables.rereadOrders.books = ∅ := by
  rw [rereadOrders, foldl_frame Tables.books, rereadTicks, foldl_frame Tables.books]
  · exact fun _ _ _ => rfl
  · exact fun _ _ _ => rfl

theorem foldl_store_books {again : Tables} (fresh : again.books = ∅) {recs : List UpdateRecord}
    (snapshot : ∀ rec ∈ recs, rec.envelope.trigger = ascii '#') (key : RowKey) :
    (recs.foldl Tables.store again).books[key]? =
      lastWrite (fun rec => if rec.key = key then some (rec.toRow []) else none) recs := by
  induction recs using List.reverseRecOn generalizing key with
  | nil =>
      rw [List.foldl_nil, fresh]
      simp
  | append_singleton recs last induction =>
      have earlier : ∀ rec ∈ recs, rec.envelope.trigger = ascii '#' :=
        fun rec member => snapshot rec (List.mem_append_left _ member)
      have ringless : (((recs.foldl Tables.store again).books[last.key]?).map
          BookRow.tape).getD [] = [] := by
        rw [induction earlier]
        cases found : lastWrite _ recs with
        | none => rfl
        | some row =>
            obtain ⟨rec, member, written⟩ := exists_of_lastWrite_eq_some found
            split at written
            · cases written
              exact rec.toRow_tape (earlier rec member) []
            · cases written
      rw [List.foldl_append, List.foldl_cons, List.foldl_nil, lastWrite_concat, ← induction earlier]
      change ((recs.foldl Tables.store again).books.insert last.key _)[key]? = _
      rw [OrderedMap.lookup_insert, ringless]
      split <;> rfl

end Tables

/-- The row as its dump record carries it: without its ring, and with the level slots
beyond the counts cleared. -/
def BookRow.dumped (row : BookRow) : BookRow := { row with book := row.book.wired, tape := [] }

namespace Tables

variable {tables : Tables}

theorem reread_row (clean : tables.Clean) (key : RowKey) :
    tables.reread.books[key]? = tables.books[key]?.map BookRow.dumped := by
  have snapshot : ∀ rec ∈ tables.rows, rec.envelope.trigger = ascii '#' := by
    intro rec member
    obtain ⟨entry, -, rfl⟩ := List.mem_map.mp member
    rfl
  change (tables.rows.foldl Tables.store tables.rereadOrders).books[key]? = _
  rw [foldl_store_books tables.rereadOrders_books snapshot, rows, lastWrite_map]
  apply OrderedMap.lastWrite_toList
  intro k row stored
  obtain ⟨ticker, group, static⟩ := clean.named k row stored
  have sameKey : (tables.makeDumpUpdate k row).wired.key = k := by
    change RowKey.mk k.ticker.trimmed k.group.trimmed = k
    rw [ticker, group]
  have sameRow : (tables.makeDumpUpdate k row).wired.toRow [] = row.dumped := by
    change { row with static := row.static.wired, book := row.book.wired, tape := _ } = _
    rw [static]
    rfl
  rw [sameKey, sameRow]

/-! ## The same bytes -/

private theorem encode_dumped {tables again : Tables}
    (session : again.dbMeta.session = tables.dbMeta.session)
    (epoch : again.dbMeta.epoch = tables.dbMeta.epoch) (key : RowKey) (row : BookRow) :
    (Record.update (again.makeDumpUpdate key row.dumped)).encode =
      (Record.update (tables.makeDumpUpdate key row)).encode := by
  have envelope : (again.makeDumpUpdate key row.dumped).envelope =
      (tables.makeDumpUpdate key row).envelope := by
    rw [makeDumpUpdate, session, epoch]
    rfl
  change putHeader .update 429 ++ ((again.makeDumpUpdate key row.dumped).envelope.put ++
    row.static.put ++ row.state.put ++ row.book.wired.put ++ row.trade.put ++ _) = _
  rw [envelope, BookSection.put_wired]
  rfl

theorem reread_session (clean : tables.Clean) :
    tables.reread.dbMeta.session = tables.dbMeta.session := clean.session

theorem reread_dumpState (clean : tables.Clean) : tables.reread.dumpState = tables.dumpState := by
  have rows : tables.reread.books.toList.flatMap
        (fun entry => (Record.update (tables.reread.makeDumpUpdate entry.1 entry.2)).encode) =
      tables.books.toList.flatMap
        (fun entry => (Record.update (tables.makeDumpUpdate entry.1 entry.2)).encode) := by
    rw [OrderedMap.toList_of_lookup_map (reread_row clean), List.flatMap_map]
    simp only [encode_dumped (reread_session clean) (show tables.reread.dbMeta.epoch = _ from rfl)]
  simp only [dumpState, dumpRecords, encodeAll, List.flatMap_append, List.flatMap_map, rows,
    reread_ticks clean, reread_orders clean, reread_session clean]
  rfl

/-- Reading the dump of fed tables into an empty database, in whatever chunks it arrives,
gives back the orders, the ticks, the position and every row but for its ring and its
unused level slots, and what is then dumped are the same bytes. -/
theorem dumpState_fixpoint {tables : Tables} (fed : tables.Fed) {chunks : List Bytes}
    (stream : chunks.flatten = tables.dumpState) :
    let again := (chunks.foldl IngestServer.onData ({} : IngestServer).accept).tables
    again.dumpState = tables.dumpState ∧
      again.orders = tables.orders ∧ again.ticks = tables.ticks ∧
      again.dbMeta.session = tables.dbMeta.session ∧
      again.dbMeta.epoch = tables.dbMeta.epoch ∧
      again.dbMeta.lastExchSeq = tables.dbMeta.lastExchSeq ∧
      ∀ key : RowKey, again.books[key]? = tables.books[key]?.map BookRow.dumped := by
  have clean := fed.clean
  simp only [onData_dumpState clean.shallow stream]
  exact ⟨reread_dumpState clean, reread_orders clean, reread_ticks clean, reread_session clean,
    rfl, rfl, reread_row clean⟩

def tradedUpdate : UpdateRecord where
  envelope := { epoch := 1, exchSeq := 7, trigger := ascii 'E' }
  book := { levelCountBid := 1 }
  trade := { lastPrice := 1000, lastQty := 5, tradeCount := 1 }

def tradedOrder : OrderRecord where
  orderNumber := 3
  side := ascii 'B'
  price := 1000
  qtyRemaining := 2

def tradedTables : Tables :=
  ((({} : Tables).applyUpdate tradedUpdate.wired false).applyOrder tradedOrder.wired).applyTick
    { tableId := 1, priceStart := 0, tickSize := 10 }

theorem tradedTables_fed : tradedTables.Fed := by
  have shallow : tradedUpdate.Shallow := ⟨by decide, by decide⟩
  have update : decodeUpdate (encodeUpdate tradedUpdate) = .ok tradedUpdate.wired :=
    decodeRecord_put (UpdateRecord.put_length _) (UpdateRecord.read_put shallow [])
  have order : decodeOrder (encodeOrder tradedOrder) = .ok tradedOrder.wired :=
    decodeRecord_put (by rfl) (OrderRecord.read_put _ [])
  have tick (rec : TickRecord) : decodeTick (encodeTick rec) = .ok rec :=
    decodeRecord_put (by rfl) (TickRecord.read_put _ [])
  have plainUpdate : RecordKind.update.NulFree (encodeUpdate tradedUpdate) := by decide +kernel
  have plainOrder : RecordKind.order.NulFree (encodeOrder tradedOrder) := by decide +kernel
  exact .tick (tick _) (.order order plainOrder (.update false update plainUpdate .empty))

theorem dumpState_fixpoint_traded :
    tradedTables.Fed ∧
      let chunks := [tradedTables.dumpState]
      (chunks.foldl IngestServer.onData ({} : IngestServer).accept).tables.dumpState =
        tradedTables.dumpState :=
  ⟨tradedTables_fed, (dumpState_fixpoint tradedTables_fed List.flatten_singleton).1⟩

end Tables

end ProtoFH
