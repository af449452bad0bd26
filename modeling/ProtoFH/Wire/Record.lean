import ProtoFH.Foundation.OrderedMap
import ProtoFH.Foundation.Reader

/-! # Wire records

The record format of the feed handler's stream to the database and of the
database's recovery stream. A record is an 8-byte header and a body of the fixed
size of its kind. -/

namespace ProtoFH

def recordMagic : UInt16 := 0x4A58
def recordVersion : UInt8 := 2
def recordHeaderSize : Nat := 8

inductive RecordKind where
  | update | order | tick | syncBegin | syncEnd | getState | hello | reset
deriving DecidableEq

namespace RecordKind

def toByte : RecordKind → UInt8
  | update => ascii 'U'
  | order => ascii 'O'
  | tick => ascii 'K'
  | syncBegin => ascii 'B'
  | syncEnd => ascii 'E'
  | getState => ascii 'G'
  | hello => ascii 'H'
  | reset => ascii 'R'

def ofByte? (kind : UInt8) : Option RecordKind :=
  if kind = ascii 'U' then some update
  else if kind = ascii 'O' then some order
  else if kind = ascii 'K' then some tick
  else if kind = ascii 'E' then some syncEnd
  else if kind = ascii 'H' then some hello
  else if kind = ascii 'B' then some syncBegin
  else if kind = ascii 'G' then some getState
  else if kind = ascii 'R' then some reset
  else none

/-- `record_body_len`: the fixed body size of a kind. -/
def bodyLen : RecordKind → Nat
  | update => 429
  | order => 26
  | tick => 12
  | syncEnd => 26
  | hello => 16
  | syncBegin | getState | reset => 0

@[simp] theorem ofByte?_toByte (kind : RecordKind) : ofByte? kind.toByte = some kind := by
  cases kind <;> decide

theorem bodyLen_lt (kind : RecordKind) : kind.bodyLen < 2 ^ 16 := by
  cases kind <;> decide

end RecordKind

/-! ## Record contents -/

def bookDepth : Nat := 10

structure BookLevel where
  price : UInt32 := 0
  qty : UInt32 := 0
  orderCount : UInt32 := 0
deriving DecidableEq

def flagDirectorySeen : UInt8 := 0x01
def flagOrderCollisionSeen : UInt8 := 0x02

structure RecordEnvelope where
  epoch : UInt64 := 0
  pubSeq : UInt64 := 0
  session : CStr 10 := .empty
  exchSeq : UInt64 := 0
  exchNs : UInt64 := 0
  trigger : UInt8 := 0
  ticker : CStr 4 := .empty
  group : CStr 4 := .empty
deriving DecidableEq

structure StaticSection where
  isin : CStr 12 := .empty
  roundLot : UInt32 := 0
  tickTableId : UInt32 := 0
  priceDecimals : UInt8 := 0
  upperLimit : UInt32 := 0
  lowerLimit : UInt32 := 0
  flags : UInt8 := 0
deriving DecidableEq

structure StateSection where
  tradingState : UInt8 := 0
  shortSellRestriction : UInt8 := 0
  referencePrice : UInt32 := 0
  lastSystemEvent : UInt8 := 0
  shortSellPrice : UInt32 := 0
deriving DecidableEq

structure BookSection where
  levelCountBid : UInt8 := 0
  levelCountAsk : UInt8 := 0
  bids : Vector BookLevel bookDepth := .replicate bookDepth {}
  asks : Vector BookLevel bookDepth := .replicate bookDepth {}
  totalBidQty : UInt64 := 0
  totalAskQty : UInt64 := 0
  totalBidOrders : UInt32 := 0
  totalAskOrders : UInt32 := 0
deriving DecidableEq

structure TradeSection where
  lastPrice : UInt32 := 0
  lastQty : UInt32 := 0
  lastMatchNumber : UInt64 := 0
  lastTradeNs : UInt64 := 0
  cumQty : UInt64 := 0
  cumTurnover : UInt64 := 0
  tradeCount : UInt32 := 0
deriving DecidableEq

structure DeltaSection where
  op : UInt8 := 0
  orderNumber : UInt64 := 0
  origOrderNumber : UInt64 := 0
  side : UInt8 := 0
  price : UInt32 := 0
  qty : UInt32 := 0
  orderType : UInt8 := 0
deriving DecidableEq

structure UpdateRecord where
  envelope : RecordEnvelope := {}
  static : StaticSection := {}
  state : StateSection := {}
  book : BookSection := {}
  trade : TradeSection := {}
  delta : DeltaSection := {}
deriving DecidableEq

structure OrderRecord where
  orderNumber : UInt64 := 0
  ticker : CStr 4 := .empty
  group : CStr 4 := .empty
  side : UInt8 := 0
  price : UInt32 := 0
  qtyRemaining : UInt32 := 0
  orderType : UInt8 := 0
deriving DecidableEq

structure TickRecord where
  tableId : UInt32 := 0
  priceStart : UInt32 := 0
  tickSize : UInt32 := 0
deriving DecidableEq

def tickRows (tables : List (UInt32 × OrderedMap UInt32 UInt32)) : List TickRecord :=
  tables.flatMap fun table =>
    table.2.toList.map fun row =>
      { tableId := table.1, priceStart := row.1, tickSize := row.2 }

structure HelloRecord where
  epoch : UInt64 := 0
  lastExchSeq : UInt64 := 0
deriving DecidableEq

structure SyncEndRecord where
  session : CStr 10 := .empty
  lastExchSeq : UInt64 := 0
  epoch : UInt64 := 0
deriving DecidableEq

/-! ## Encoding -/

def putHeader (kind : RecordKind) (bodyLen : UInt16) : Bytes :=
  bePutU16 recordMagic ++ bePutU8 recordVersion ++ bePutU8 kind.toByte ++
    bePutU16 bodyLen ++ bePutU16 0

def RecordEnvelope.put (envelope : RecordEnvelope) : Bytes :=
  bePutU64 envelope.epoch ++ bePutU64 envelope.pubSeq ++
    putAlpha 10 envelope.session.bytes ++ bePutU64 envelope.exchSeq ++
    bePutU64 envelope.exchNs ++ bePutU8 envelope.trigger ++
    putAlpha 4 envelope.ticker.bytes ++ putAlpha 4 envelope.group.bytes

def StaticSection.put (static : StaticSection) : Bytes :=
  putAlpha 12 static.isin.bytes ++ bePutU32 static.roundLot ++
    bePutU32 static.tickTableId ++ bePutU8 static.priceDecimals ++
    bePutU32 static.upperLimit ++ bePutU32 static.lowerLimit ++ bePutU8 static.flags

def StateSection.put (state : StateSection) : Bytes :=
  bePutU8 state.tradingState ++ bePutU8 state.shortSellRestriction ++
    bePutU32 state.referencePrice ++ bePutU8 state.lastSystemEvent ++
    bePutU32 state.shortSellPrice

def BookLevel.put (level : BookLevel) : Bytes :=
  bePutU32 level.price ++ bePutU32 level.qty ++ bePutU32 level.orderCount

/-- The level slots; those at or beyond `count` go out as zeros whatever they hold. -/
def putLevels (count : UInt8) : (depth : Nat) → Vector BookLevel depth → Bytes
  | 0, _ => []
  | depth + 1, levels =>
      putLevels count depth levels.pop ++
        if depth < count.toNat then levels.back.put else List.replicate 12 0

def BookSection.put (book : BookSection) : Bytes :=
  bePutU8 book.levelCountBid ++ bePutU8 book.levelCountAsk ++
    putLevels book.levelCountBid bookDepth book.bids ++
    putLevels book.levelCountAsk bookDepth book.asks ++
    bePutU64 book.totalBidQty ++ bePutU64 book.totalAskQty ++
    bePutU32 book.totalBidOrders ++ bePutU32 book.totalAskOrders

def TradeSection.put (trade : TradeSection) : Bytes :=
  bePutU32 trade.lastPrice ++ bePutU32 trade.lastQty ++ bePutU64 trade.lastMatchNumber ++
    bePutU64 trade.lastTradeNs ++ bePutU64 trade.cumQty ++ bePutU64 trade.cumTurnover ++
    bePutU32 trade.tradeCount

def DeltaSection.put (delta : DeltaSection) : Bytes :=
  bePutU8 delta.op ++ bePutU64 delta.orderNumber ++ bePutU64 delta.origOrderNumber ++
    bePutU8 delta.side ++ bePutU32 delta.price ++ bePutU32 delta.qty ++
    bePutU8 delta.orderType

def UpdateRecord.put (rec : UpdateRecord) : Bytes :=
  rec.envelope.put ++ rec.static.put ++ rec.state.put ++ rec.book.put ++
    rec.trade.put ++ rec.delta.put

def OrderRecord.put (rec : OrderRecord) : Bytes :=
  bePutU64 rec.orderNumber ++ putAlpha 4 rec.ticker.bytes ++ putAlpha 4 rec.group.bytes ++
    bePutU8 rec.side ++ bePutU32 rec.price ++ bePutU32 rec.qtyRemaining ++
    bePutU8 rec.orderType

def TickRecord.put (rec : TickRecord) : Bytes :=
  bePutU32 rec.tableId ++ bePutU32 rec.priceStart ++ bePutU32 rec.tickSize

def HelloRecord.put (rec : HelloRecord) : Bytes :=
  bePutU64 rec.epoch ++ bePutU64 rec.lastExchSeq

def SyncEndRecord.put (rec : SyncEndRecord) : Bytes :=
  putAlpha 10 rec.session.bytes ++ bePutU64 rec.lastExchSeq ++ bePutU64 rec.epoch

def encodeUpdate (rec : UpdateRecord) : Bytes := putHeader .update 429 ++ rec.put
def encodeOrder (rec : OrderRecord) : Bytes := putHeader .order 26 ++ rec.put
def encodeTick (rec : TickRecord) : Bytes := putHeader .tick 12 ++ rec.put
def encodeHello (rec : HelloRecord) : Bytes := putHeader .hello 16 ++ rec.put
def encodeSyncEnd (rec : SyncEndRecord) : Bytes := putHeader .syncEnd 26 ++ rec.put

/-- `encode_control`: nothing is written for a kind that has a body. -/
def encodeControl (kind : RecordKind) : Bytes :=
  match kind with
  | .syncBegin | .getState | .reset => putHeader kind 0
  | _ => []

/-! ## Decoding -/

def decodeHeader (buf : Bytes) : Except String (RecordKind × UInt16) :=
  if buf.length < recordHeaderSize then .error "buffer shorter than record header"
  else if beGetU16 buf ≠ recordMagic then .error "bad record magic (want 0x4A58)"
  else if beGetU8 (buf.drop 2) ≠ recordVersion then
    .error "unsupported record version (want 2)"
  else
    match RecordKind.ofByte? (beGetU8 (buf.drop 3)) with
    | none => .error "unknown record kind"
    | some kind =>
        if beGetU16 (buf.drop 4) ≠ UInt16.ofNat kind.bodyLen then
          .error "body_len does not match record kind"
        else .ok (kind, beGetU16 (buf.drop 4))

def checkRecord (buf : Bytes) (wantKind : RecordKind) (wantBody : Nat) : Except String Unit :=
  match decodeHeader buf with
  | .error reason => .error reason
  | .ok (kind, _) =>
      if kind ≠ wantKind then .error "record kind mismatch"
      else if buf.length ≠ recordHeaderSize + wantBody then
        .error "buffer length != record wire size"
      else .ok ()

def RecordEnvelope.read : Reader RecordEnvelope := do
  let epoch ← Reader.u64
  let pubSeq ← Reader.u64
  let session ← Reader.alpha 10
  let exchSeq ← Reader.u64
  let exchNs ← Reader.u64
  let trigger ← Reader.u8
  let ticker ← Reader.alpha 4
  let group ← Reader.alpha 4
  pure { epoch, pubSeq, session, exchSeq, exchNs, trigger, ticker, group }

def StaticSection.read : Reader StaticSection := do
  let isin ← Reader.alpha 12
  let roundLot ← Reader.u32
  let tickTableId ← Reader.u32
  let priceDecimals ← Reader.u8
  let upperLimit ← Reader.u32
  let lowerLimit ← Reader.u32
  let flags ← Reader.u8
  pure { isin, roundLot, tickTableId, priceDecimals, upperLimit, lowerLimit, flags }

def StateSection.read : Reader StateSection := do
  let tradingState ← Reader.u8
  let shortSellRestriction ← Reader.u8
  let referencePrice ← Reader.u32
  let lastSystemEvent ← Reader.u8
  let shortSellPrice ← Reader.u32
  pure { tradingState, shortSellRestriction, referencePrice, lastSystemEvent, shortSellPrice }

def BookLevel.read : Reader BookLevel := do
  let price ← Reader.u32
  let qty ← Reader.u32
  let orderCount ← Reader.u32
  pure { price, qty, orderCount }

def readLevels : (depth : Nat) → Reader (Vector BookLevel depth)
  | 0 => pure #v[]
  | depth + 1 => do
      let levels ← readLevels depth
      let level ← BookLevel.read
      pure (levels.push level)

def BookSection.read : Reader BookSection := do
  let levelCountBid ← Reader.u8
  let levelCountAsk ← Reader.u8
  if levelCountBid.toNat > bookDepth ∨ levelCountAsk.toNat > bookDepth then
    throw "level count exceeds book depth 10"
  let bids ← readLevels bookDepth
  let asks ← readLevels bookDepth
  let totalBidQty ← Reader.u64
  let totalAskQty ← Reader.u64
  let totalBidOrders ← Reader.u32
  let totalAskOrders ← Reader.u32
  pure { levelCountBid, levelCountAsk, bids, asks, totalBidQty, totalAskQty,
         totalBidOrders, totalAskOrders }

def TradeSection.read : Reader TradeSection := do
  let lastPrice ← Reader.u32
  let lastQty ← Reader.u32
  let lastMatchNumber ← Reader.u64
  let lastTradeNs ← Reader.u64
  let cumQty ← Reader.u64
  let cumTurnover ← Reader.u64
  let tradeCount ← Reader.u32
  pure { lastPrice, lastQty, lastMatchNumber, lastTradeNs, cumQty, cumTurnover, tradeCount }

def DeltaSection.read : Reader DeltaSection := do
  let op ← Reader.u8
  let orderNumber ← Reader.u64
  let origOrderNumber ← Reader.u64
  let side ← Reader.u8
  let price ← Reader.u32
  let qty ← Reader.u32
  let orderType ← Reader.u8
  pure { op, orderNumber, origOrderNumber, side, price, qty, orderType }

def UpdateRecord.read : Reader UpdateRecord := do
  let envelope ← RecordEnvelope.read
  let static ← StaticSection.read
  let state ← StateSection.read
  let book ← BookSection.read
  let trade ← TradeSection.read
  let delta ← DeltaSection.read
  pure { envelope, static, state, book, trade, delta }

def OrderRecord.read : Reader OrderRecord := do
  let orderNumber ← Reader.u64
  let ticker ← Reader.alpha 4
  let group ← Reader.alpha 4
  let side ← Reader.u8
  let price ← Reader.u32
  let qtyRemaining ← Reader.u32
  let orderType ← Reader.u8
  pure { orderNumber, ticker, group, side, price, qtyRemaining, orderType }

def TickRecord.read : Reader TickRecord := do
  let tableId ← Reader.u32
  let priceStart ← Reader.u32
  let tickSize ← Reader.u32
  pure { tableId, priceStart, tickSize }

def HelloRecord.read : Reader HelloRecord := do
  let epoch ← Reader.u64
  let lastExchSeq ← Reader.u64
  pure { epoch, lastExchSeq }

def SyncEndRecord.read : Reader SyncEndRecord := do
  let session ← Reader.alpha 10
  let lastExchSeq ← Reader.u64
  let epoch ← Reader.u64
  pure { session, lastExchSeq, epoch }

def decodeRecord (kind : RecordKind) (body : Reader α) (buf : Bytes) : Except String α :=
  match checkRecord buf kind kind.bodyLen with
  | .error reason => .error reason
  | .ok () => (body (buf.drop recordHeaderSize)).map Prod.fst

def decodeUpdate : Bytes → Except String UpdateRecord := decodeRecord .update UpdateRecord.read
def decodeOrder : Bytes → Except String OrderRecord := decodeRecord .order OrderRecord.read
def decodeTick : Bytes → Except String TickRecord := decodeRecord .tick TickRecord.read
def decodeHello : Bytes → Except String HelloRecord := decodeRecord .hello HelloRecord.read
def decodeSyncEnd : Bytes → Except String SyncEndRecord :=
  decodeRecord .syncEnd SyncEndRecord.read

/-! ## Round trips

A record comes back as it was sent, except that alpha fields lose trailing spaces
and unused level slots are cleared. -/

def RecordEnvelope.wired (envelope : RecordEnvelope) : RecordEnvelope :=
  { envelope with
    session := envelope.session.trimmed
    ticker := envelope.ticker.trimmed
    group := envelope.group.trimmed }

def StaticSection.wired (static : StaticSection) : StaticSection :=
  { static with isin := static.isin.trimmed }

/-- The slots as they arrive: cleared from `count` on. -/
def wiredLevels (count : UInt8) : (depth : Nat) → Vector BookLevel depth → Vector BookLevel depth
  | 0, levels => levels
  | depth + 1, levels =>
      (wiredLevels count depth levels.pop).push
        (if depth < count.toNat then levels.back else {})

def BookSection.wired (book : BookSection) : BookSection :=
  { book with
    bids := wiredLevels book.levelCountBid bookDepth book.bids
    asks := wiredLevels book.levelCountAsk bookDepth book.asks }

def UpdateRecord.wired (rec : UpdateRecord) : UpdateRecord :=
  { rec with
    envelope := rec.envelope.wired
    static := rec.static.wired
    book := rec.book.wired }

def OrderRecord.wired (rec : OrderRecord) : OrderRecord :=
  { rec with ticker := rec.ticker.trimmed, group := rec.group.trimmed }

def SyncEndRecord.wired (rec : SyncEndRecord) : SyncEndRecord :=
  { rec with session := rec.session.trimmed }

def UpdateRecord.Shallow (rec : UpdateRecord) : Prop :=
  rec.book.levelCountBid.toNat ≤ bookDepth ∧ rec.book.levelCountAsk.toNat ≤ bookDepth

@[simp] theorem RecordEnvelope.read_put (envelope : RecordEnvelope) (rest : Bytes) :
    RecordEnvelope.read (envelope.put ++ rest) = .ok (envelope.wired, rest) := by
  simp [RecordEnvelope.read, RecordEnvelope.put, RecordEnvelope.wired]

@[simp] theorem StaticSection.read_put (static : StaticSection) (rest : Bytes) :
    StaticSection.read (static.put ++ rest) = .ok (static.wired, rest) := by
  simp [StaticSection.read, StaticSection.put, StaticSection.wired]

@[simp] theorem StateSection.read_put (state : StateSection) (rest : Bytes) :
    StateSection.read (state.put ++ rest) = .ok (state, rest) := by
  simp [StateSection.read, StateSection.put]

@[simp] theorem BookLevel.read_put (level : BookLevel) (rest : Bytes) :
    BookLevel.read (level.put ++ rest) = .ok (level, rest) := by
  simp [BookLevel.read, BookLevel.put]

theorem BookLevel.put_default : BookLevel.put {} = List.replicate 12 0 := by
  decide

@[simp] theorem readLevels_put (count : UInt8) (depth : Nat) (levels : Vector BookLevel depth)
    (rest : Bytes) :
    readLevels depth (putLevels count depth levels ++ rest) =
      .ok (wiredLevels count depth levels, rest) := by
  induction depth generalizing rest with
  | zero =>
      have only : levels = #v[] := by simp
      simp [readLevels, putLevels, wiredLevels, only]
  | succ depth induction =>
      by_cases used : depth < count.toNat
      · simp [readLevels, putLevels, wiredLevels, used, induction]
      · simp [readLevels, putLevels, wiredLevels, used, induction, ← BookLevel.put_default]

theorem putLevels_wired (count : UInt8) (depth : Nat) (levels : Vector BookLevel depth) :
    putLevels count depth (wiredLevels count depth levels) = putLevels count depth levels := by
  induction depth with
  | zero => rfl
  | succ depth induction =>
      rw [wiredLevels, putLevels, putLevels, Vector.pop_push, induction]
      split
      · simp [Vector.back]
      · rfl

-- Level by level the slots never matter again; unfolding ten of them is slow.
attribute [irreducible] wiredLevels

theorem UpdateRecord.Shallow.wired {rec : UpdateRecord} (shallow : rec.Shallow) :
    rec.wired.Shallow := shallow

theorem BookSection.read_put {book : BookSection} (bid : book.levelCountBid.toNat ≤ bookDepth)
    (ask : book.levelCountAsk.toNat ≤ bookDepth) (rest : Bytes) :
    BookSection.read (book.put ++ rest) = .ok (book.wired, rest) := by
  simp [BookSection.read, BookSection.put, BookSection.wired, Nat.not_lt.mpr bid,
    Nat.not_lt.mpr ask]

theorem BookSection.put_wired (book : BookSection) : book.wired.put = book.put := by
  change bePutU8 book.levelCountBid ++ bePutU8 book.levelCountAsk ++
    putLevels book.levelCountBid bookDepth (wiredLevels book.levelCountBid bookDepth book.bids) ++
    putLevels book.levelCountAsk bookDepth (wiredLevels book.levelCountAsk bookDepth book.asks) ++
    _ ++ _ ++ _ ++ _ = _
  rw [putLevels_wired, putLevels_wired]
  rfl

@[simp] theorem TradeSection.read_put (trade : TradeSection) (rest : Bytes) :
    TradeSection.read (trade.put ++ rest) = .ok (trade, rest) := by
  simp [TradeSection.read, TradeSection.put]

@[simp] theorem DeltaSection.read_put (delta : DeltaSection) (rest : Bytes) :
    DeltaSection.read (delta.put ++ rest) = .ok (delta, rest) := by
  simp [DeltaSection.read, DeltaSection.put]

theorem UpdateRecord.read_put {rec : UpdateRecord} (shallow : rec.Shallow) (rest : Bytes) :
    UpdateRecord.read (rec.put ++ rest) = .ok (rec.wired, rest) := by
  simp [UpdateRecord.read, UpdateRecord.put, UpdateRecord.wired,
    BookSection.read_put shallow.1 shallow.2]

theorem OrderRecord.read_put (rec : OrderRecord) (rest : Bytes) :
    OrderRecord.read (rec.put ++ rest) = .ok (rec.wired, rest) := by
  simp [OrderRecord.read, OrderRecord.put, OrderRecord.wired]

theorem TickRecord.read_put (rec : TickRecord) (rest : Bytes) :
    TickRecord.read (rec.put ++ rest) = .ok (rec, rest) := by
  simp [TickRecord.read, TickRecord.put]

theorem HelloRecord.read_put (rec : HelloRecord) (rest : Bytes) :
    HelloRecord.read (rec.put ++ rest) = .ok (rec, rest) := by
  simp [HelloRecord.read, HelloRecord.put]

theorem SyncEndRecord.read_put (rec : SyncEndRecord) (rest : Bytes) :
    SyncEndRecord.read (rec.put ++ rest) = .ok (rec.wired, rest) := by
  simp [SyncEndRecord.read, SyncEndRecord.put, SyncEndRecord.wired]

end ProtoFH
