import ProtoFH.Wire.Framer

/-! # Database tables

The in-memory state of the database: one merged row per (ticker, group), the live
orders, the tick tables and the position in the exchange's stream. -/

namespace ProtoFH

structure TapeEntry where
  ns : UInt64
  price : UInt32
  qty : UInt32
  matchNumber : UInt64
deriving DecidableEq

def tapeCap : Nat := 50

structure RowKey where
  ticker : CStr 4
  group : CStr 4
deriving DecidableEq

namespace RowKey

instance : Ord RowKey where
  compare := compareLex (compareOn RowKey.ticker) (compareOn RowKey.group)

instance : Std.TransOrd RowKey :=
  inferInstanceAs (Std.TransCmp (compareLex (compareOn RowKey.ticker) (compareOn RowKey.group)))

instance : Std.LawfulEqOrd RowKey where
  eq_of_compare {left right} equal := by
    have both := Ordering.then_eq_eq.mp equal
    have ticker : left.ticker = right.ticker := Std.LawfulEqOrd.eq_of_compare both.1
    have group : left.group = right.group := Std.LawfulEqOrd.eq_of_compare both.2
    cases left
    cases right
    cases ticker
    cases group
    rfl

end RowKey

/-- The merged row of one (ticker, group): the sections of its last update, the
position and time of that update, and the ring of its last trades. -/
structure BookRow where
  static : StaticSection := {}
  state : StateSection := {}
  lastExchSeq : UInt64 := 0
  lastUpdateNs : UInt64 := 0
  book : BookSection := {}
  trade : TradeSection := {}
  tape : List TapeEntry := []
deriving DecidableEq

structure Meta where
  session : CStr 10 := .empty
  lastExchSeq : UInt64 := 0
  epoch : UInt64 := 0
  updatesApplied : UInt64 := 0
  dupsDropped : UInt64 := 0
  ordersApplied : UInt64 := 0
  ticksApplied : UInt64 := 0
  syncsCompleted : UInt64 := 0
  syncsDiscarded : UInt64 := 0
deriving DecidableEq

abbrev OrderTable := KeyedMap OrderRecord.orderNumber

structure Tables where
  books : OrderedMap RowKey BookRow := ∅
  orders : OrderTable := ∅
  ticks : OrderedMap UInt32 (OrderedMap UInt32 UInt32) := ∅
  dbMeta : Meta := {}

/-! ## Applying records -/

def UpdateRecord.deltaOrder (rec : UpdateRecord) : OrderRecord where
  orderNumber := rec.delta.orderNumber
  ticker := rec.envelope.ticker
  group := rec.envelope.group
  side := rec.delta.side
  price := rec.delta.price
  qtyRemaining := rec.delta.qty
  orderType := rec.delta.orderType

def applyDelta (orders : OrderTable) (rec : UpdateRecord) : OrderTable :=
  if rec.delta.op = ascii 'A' then orders.insert rec.deltaOrder
  else if rec.delta.op = ascii 'E' then
    match orders.find? rec.delta.orderNumber with
    | none => orders
    | some order =>
        if rec.delta.qty = 0 then orders.erase rec.delta.orderNumber
        else orders.insert
          { order with qtyRemaining := rec.delta.qty, price := rec.delta.price }
  else if rec.delta.op = ascii 'D' then orders.erase rec.delta.orderNumber
  else if rec.delta.op = ascii 'U' then
    (orders.erase rec.delta.origOrderNumber).insert rec.deltaOrder
  else orders

def UpdateRecord.tapeEntry (rec : UpdateRecord) : TapeEntry where
  ns := rec.trade.lastTradeNs
  price := rec.trade.lastPrice
  qty := rec.trade.lastQty
  matchNumber := rec.trade.lastMatchNumber

def pushTape (tape : List TapeEntry) (entry : TapeEntry) : List TapeEntry :=
  (tape ++ [entry]).drop (tape.length + 1 - tapeCap)

def UpdateRecord.toRow (rec : UpdateRecord) (tape : List TapeEntry) : BookRow where
  static := rec.static
  state := rec.state
  lastExchSeq := rec.envelope.exchSeq
  lastUpdateNs := rec.envelope.exchNs
  book := rec.book
  trade := rec.trade
  tape := if rec.envelope.trigger = ascii 'E' then pushTape tape rec.tapeEntry else tape

def UpdateRecord.key (rec : UpdateRecord) : RowKey := ⟨rec.envelope.ticker, rec.envelope.group⟩

namespace Tables

def isDup (tables : Tables) (rec : UpdateRecord) : Prop :=
  rec.envelope.epoch = tables.dbMeta.epoch ∧
    rec.envelope.exchSeq ≤ tables.dbMeta.lastExchSeq ∧ tables.dbMeta.updatesApplied > 0

instance (tables : Tables) (rec : UpdateRecord) : Decidable (tables.isDup rec) :=
  inferInstanceAs (Decidable (_ ∧ _ ∧ _))

def store (tables : Tables) (rec : UpdateRecord) : Tables :=
  let tape := (tables.books[rec.key]?.map BookRow.tape).getD []
  { tables with
    books := tables.books.insert rec.key (rec.toRow tape)
    orders := applyDelta tables.orders rec
    dbMeta := { tables.dbMeta with updatesApplied := tables.dbMeta.updatesApplied + 1 } }

/-- `apply_update`. Inside a bracket there is no guard and no position to adopt. -/
def applyUpdate (tables : Tables) (rec : UpdateRecord) (inSync : Bool) : Tables :=
  if inSync then tables.store rec
  else if tables.isDup rec then
    { tables with dbMeta := { tables.dbMeta with dupsDropped := tables.dbMeta.dupsDropped + 1 } }
  else
    let stored := tables.store rec
    { stored with
      dbMeta := { stored.dbMeta with
        session := rec.envelope.session
        epoch := rec.envelope.epoch
        lastExchSeq := rec.envelope.exchSeq } }

def applyOrder (tables : Tables) (rec : OrderRecord) : Tables :=
  { tables with
    orders := tables.orders.insert rec
    dbMeta := { tables.dbMeta with ordersApplied := tables.dbMeta.ordersApplied + 1 } }

def applyTick (tables : Tables) (rec : TickRecord) : Tables :=
  { tables with
    ticks := tables.ticks.insert rec.tableId
      ((tables.ticks[rec.tableId]?.getD ∅).insert rec.priceStart rec.tickSize)
    dbMeta := { tables.dbMeta with ticksApplied := tables.dbMeta.ticksApplied + 1 } }

def adoptMeta (tables : Tables) (rec : SyncEndRecord) : Tables :=
  { tables with
    dbMeta := { tables.dbMeta with
      session := rec.session, lastExchSeq := rec.lastExchSeq, epoch := rec.epoch } }

/-- `reset`: everything is wiped but the two sync counters. -/
def reset (tables : Tables) : Tables :=
  { dbMeta :=
      { syncsCompleted := tables.dbMeta.syncsCompleted
        syncsDiscarded := tables.dbMeta.syncsDiscarded } }

def countSyncCompleted (tables : Tables) : Tables :=
  { tables with
    dbMeta := { tables.dbMeta with syncsCompleted := tables.dbMeta.syncsCompleted + 1 } }

def countSyncDiscarded (tables : Tables) : Tables :=
  { tables with
    dbMeta := { tables.dbMeta with syncsDiscarded := tables.dbMeta.syncsDiscarded + 1 } }

/-! ## Dumping -/

/-- `make_dump_update`: the snapshot record of one row. -/
def makeDumpUpdate (tables : Tables) (key : RowKey) (row : BookRow) : UpdateRecord where
  envelope :=
    { epoch := tables.dbMeta.epoch
      pubSeq := 0
      session := tables.dbMeta.session
      exchSeq := row.lastExchSeq
      exchNs := row.lastUpdateNs
      trigger := ascii '#'
      ticker := key.ticker
      group := key.group }
  static := row.static
  state := row.state
  book := row.book
  trade := row.trade
  delta := { op := ascii '#' }

def dumpRecords (tables : Tables) : List Record :=
  [Record.syncBegin] ++
    (tickRows tables.ticks.toList).map Record.tick ++
    tables.orders.values.map Record.order ++
    tables.books.toList.map (fun entry => Record.update (tables.makeDumpUpdate entry.1 entry.2)) ++
    [Record.syncEnd
      { session := tables.dbMeta.session
        lastExchSeq := tables.dbMeta.lastExchSeq
        epoch := tables.dbMeta.epoch }]

def dumpState (tables : Tables) : Bytes := encodeAll tables.dumpRecords

end Tables

end ProtoFH
