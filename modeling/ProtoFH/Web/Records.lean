import ProtoFH.Foundation.Packing
import ProtoFH.Foundation.Text
import ProtoFH.Wire.Record

/-! # The web client's record codec

The Python port of the wire format: `struct` formats for the bodies, decoded records
as dictionaries of unbounded integers and strings. -/

namespace ProtoFH.Web

open Format

inductive RecordError where
  | shortHeader
  | badMagic (magic : Nat)
  | unsupportedVersion (version : Nat)
  | unknownKind (kind : UInt8)
  | wrongBodyLen (kind : RecordKind) (got want : Nat)
  | wrongLength (kind : RecordKind) (got want : Nat)
  | unexpectedBody (kind : RecordKind)
  | deepLevels
  | tooWide (value : Text) (width : Nat)
  | notOneChar (value : Text)
deriving DecidableEq

/-- The exceptions of the codec. `RecordError` is the only one that callers expect. -/
inductive CodecError where
  | record (error : RecordError)
  | unicodeDecode (raw : Bytes)
  | unicodeEncode (value : Text)
  | struct (error : StructError)
deriving DecidableEq

abbrev Codec := Except CodecError

def raiseRecord (error : RecordError) : Codec α := .error (.record error)

def liftStruct (result : Except StructError α) : Codec α := result.mapError .struct

/-! ## Formats -/

/-- `>HBcHH`: magic, version, kind, body_len, reserved -/
def headerFormat : Format (Nat × Nat × UInt8 × Nat × Nat) :=
  (uint 2).seq <| (uint 1).seq <| char.seq <| (uint 2).seq (uint 2)

/-- `QQ10sQQc4s4s` -/
def envelopeFormat :
    Format (Nat × Nat × FixedBytes 10 × Nat × Nat × UInt8 × FixedBytes 4 × FixedBytes 4) :=
  (uint 8).seq <| (uint 8).seq <| (string 10).seq <| (uint 8).seq <| (uint 8).seq <|
    char.seq <| (string 4).seq (string 4)

/-- `12sIIBIIB` -/
def staticFormat : Format (FixedBytes 12 × Nat × Nat × Nat × Nat × Nat × Nat) :=
  (string 12).seq <| (uint 4).seq <| (uint 4).seq <| (uint 1).seq <| (uint 4).seq <|
    (uint 4).seq (uint 1)

/-- `ccIcI` -/
def stateFormat : Format (UInt8 × UInt8 × Nat × UInt8 × Nat) :=
  char.seq <| char.seq <| (uint 4).seq <| char.seq (uint 4)

/-- `III` -/
def levelFormat : Format (Nat × Nat × Nat) := (uint 4).seq <| (uint 4).seq (uint 4)

def bookFormat :
    Format (Nat × Nat × Vector (Nat × Nat × Nat) bookDepth × Vector (Nat × Nat × Nat) bookDepth ×
      Nat × Nat × Nat × Nat) :=
  (uint 1).seq <| (uint 1).seq <| (levelFormat.times bookDepth).seq <|
    (levelFormat.times bookDepth).seq <| (uint 8).seq <| (uint 8).seq <| (uint 4).seq (uint 4)

/-- `IIQQQQI` -/
def tradeFormat : Format (Nat × Nat × Nat × Nat × Nat × Nat × Nat) :=
  (uint 4).seq <| (uint 4).seq <| (uint 8).seq <| (uint 8).seq <| (uint 8).seq <|
    (uint 8).seq (uint 4)

/-- `cQQcIIc` -/
def deltaFormat : Format (UInt8 × Nat × Nat × UInt8 × Nat × Nat × UInt8) :=
  char.seq <| (uint 8).seq <| (uint 8).seq <| char.seq <| (uint 4).seq <| (uint 4).seq char

/-- `_UPDATE_BODY` -/
def updateFormat :=
  envelopeFormat.seq <| staticFormat.seq <| stateFormat.seq <| bookFormat.seq <|
    tradeFormat.seq deltaFormat

/-- `>Q4s4scIIc` -/
def orderFormat : Format (Nat × FixedBytes 4 × FixedBytes 4 × UInt8 × Nat × Nat × UInt8) :=
  (uint 8).seq <| (string 4).seq <| (string 4).seq <| char.seq <| (uint 4).seq <|
    (uint 4).seq char

/-- `>III` -/
def tickFormat : Format (Nat × Nat × Nat) := (uint 4).seq <| (uint 4).seq (uint 4)

/-- `>QQ` -/
def helloFormat : Format (Nat × Nat) := (uint 8).seq (uint 8)

/-- `>10sQQ` -/
def syncEndFormat : Format (FixedBytes 10 × Nat × Nat) := (string 10).seq <| (uint 8).seq (uint 8)

def kindByte : RecordKind → UInt8
  | .update => ascii 'U'
  | .order => ascii 'O'
  | .tick => ascii 'K'
  | .syncBegin => ascii 'B'
  | .syncEnd => ascii 'E'
  | .getState => ascii 'G'
  | .hello => ascii 'H'
  | .reset => ascii 'R'

def bodySizes : RecordKind → Nat
  | .update => updateFormat.size
  | .order => orderFormat.size
  | .tick => tickFormat.size
  | .syncBegin => 0
  | .syncEnd => syncEndFormat.size
  | .getState => 0
  | .hello => helloFormat.size
  | .reset => 0

example : bodySizes .update = 429 := by decide

def kindOf? (kind : UInt8) : Option RecordKind :=
  [.update, .order, .tick, .syncBegin, .syncEnd, .getState, .hello, .reset].find?
    fun key => kindByte key = kind

/-! ## Decoded records -/

structure EnvelopeFields where
  epoch : Nat := 0
  pubSeq : Nat := 0
  session : Text := []
  exchSeq : Nat := 0
  exchNs : Nat := 0
  trigger : Text := []
  ticker : Text := []
  group : Text := []
deriving DecidableEq

structure StaticFields where
  isin : Text := []
  roundLot : Nat := 0
  tickTableId : Nat := 0
  priceDecimals : Nat := 0
  upperLimit : Nat := 0
  lowerLimit : Nat := 0
  flags : Nat := 0
deriving DecidableEq

structure StateFields where
  tradingState : Text := []
  shortSellRestriction : Text := []
  referencePrice : Nat := 0
  lastSystemEvent : Text := []
  shortSellPrice : Nat := 0
deriving DecidableEq

abbrev Level := Nat × Nat × Nat

structure BookFields where
  levelCountBid : Nat := 0
  levelCountAsk : Nat := 0
  bids : List Level := []
  asks : List Level := []
  totalBidQty : Nat := 0
  totalAskQty : Nat := 0
  totalBidOrders : Nat := 0
  totalAskOrders : Nat := 0
deriving DecidableEq

structure TradeFields where
  lastPrice : Nat := 0
  lastQty : Nat := 0
  lastMatchNumber : Nat := 0
  lastTradeNs : Nat := 0
  cumQty : Nat := 0
  cumTurnover : Nat := 0
  tradeCount : Nat := 0
deriving DecidableEq

structure DeltaFields where
  op : Text := []
  orderNumber : Nat := 0
  origOrderNumber : Nat := 0
  side : Text := []
  price : Nat := 0
  qty : Nat := 0
  orderType : Text := []
deriving DecidableEq

/-- The dictionary of an `UPDATE`, by the sections of the format. The defaults are
those of missing keys. -/
structure Update where
  envelope : EnvelopeFields := {}
  static : StaticFields := {}
  state : StateFields := {}
  book : BookFields := {}
  trade : TradeFields := {}
  delta : DeltaFields := {}
deriving DecidableEq

structure Order where
  orderNumber : Nat := 0
  ticker : Text := []
  group : Text := []
  side : Text := []
  price : Nat := 0
  qtyRemaining : Nat := 0
  orderType : Text := []
deriving DecidableEq

structure Tick where
  tableId : Nat := 0
  priceStart : Nat := 0
  tickSize : Nat := 0
deriving DecidableEq

structure Hello where
  epoch : Nat := 0
  lastExchSeq : Nat := 0
deriving DecidableEq

structure SyncEnd where
  session : Text := []
  lastExchSeq : Nat := 0
  epoch : Nat := 0
deriving DecidableEq

inductive Record where
  | update (rec : Update)
  | order (rec : Order)
  | tick (rec : Tick)
  | syncBegin
  | syncEnd (rec : SyncEnd)
  | getState
  | hello (rec : Hello)
  | reset
deriving DecidableEq

/-! ## Decoding -/

def alpha (raw : FixedBytes width) : Codec Text :=
  if IsAscii raw.bytes then .ok (stripRight raw.bytes) else .error (.unicodeDecode raw.bytes)

/-- `_char` -/
def charText (raw : UInt8) : Text := [raw]

def decodeHeader (buf : Bytes) : Codec (RecordKind × Nat) :=
  if buf.length < recordHeaderSize then raiseRecord .shortHeader
  else do
    let (magic, version, kindByte, bodyLen, _) ←
      liftStruct (headerFormat.unpack (buf.take recordHeaderSize))
    if magic ≠ 0x4A58 then raiseRecord (.badMagic magic)
    else if version ≠ 2 then raiseRecord (.unsupportedVersion version)
    else
      match kindOf? kindByte with
      | none => raiseRecord (.unknownKind kindByte)
      | some kind =>
          if bodyLen ≠ bodySizes kind then
            raiseRecord (.wrongBodyLen kind bodyLen (bodySizes kind))
          else return (kind, bodyLen)

def EnvelopeFields.decode :
    Nat × Nat × FixedBytes 10 × Nat × Nat × UInt8 × FixedBytes 4 × FixedBytes 4 →
      Codec EnvelopeFields
  | (epoch, pubSeq, session, exchSeq, exchNs, trigger, ticker, group) => do
      let session ← alpha session
      let ticker ← alpha ticker
      let group ← alpha group
      return { epoch, pubSeq, session, exchSeq, exchNs, trigger := charText trigger, ticker, group }

def StaticFields.decode : FixedBytes 12 × Nat × Nat × Nat × Nat × Nat × Nat → Codec StaticFields
  | (isin, roundLot, tickTableId, priceDecimals, upperLimit, lowerLimit, flags) => do
      let isin ← alpha isin
      return { isin, roundLot, tickTableId, priceDecimals, upperLimit, lowerLimit, flags }

def StateFields.decode : UInt8 × UInt8 × Nat × UInt8 × Nat → StateFields
  | (tradingState, shortSellRestriction, referencePrice, lastSystemEvent, shortSellPrice) =>
      { tradingState := charText tradingState
        shortSellRestriction := charText shortSellRestriction
        referencePrice
        lastSystemEvent := charText lastSystemEvent
        shortSellPrice }

def BookFields.decode :
    Nat × Nat × Vector Level bookDepth × Vector Level bookDepth × Nat × Nat × Nat × Nat →
      Codec BookFields
  | (levelCountBid, levelCountAsk, bids, asks, totalBidQty, totalAskQty, totalBidOrders,
      totalAskOrders) =>
      if levelCountBid > bookDepth ∨ levelCountAsk > bookDepth then raiseRecord .deepLevels
      else
        return { levelCountBid, levelCountAsk, bids := bids.toList, asks := asks.toList
                 totalBidQty, totalAskQty, totalBidOrders, totalAskOrders }

def TradeFields.decode : Nat × Nat × Nat × Nat × Nat × Nat × Nat → TradeFields
  | (lastPrice, lastQty, lastMatchNumber, lastTradeNs, cumQty, cumTurnover, tradeCount) =>
      { lastPrice, lastQty, lastMatchNumber, lastTradeNs, cumQty, cumTurnover, tradeCount }

def DeltaFields.decode : UInt8 × Nat × Nat × UInt8 × Nat × Nat × UInt8 → DeltaFields
  | (op, orderNumber, origOrderNumber, side, price, qty, orderType) =>
      { op := charText op, orderNumber, origOrderNumber, side := charText side, price, qty
        orderType := charText orderType }

/-- `_decode_update_body`, section by section. The level counts are checked after the
alpha fields of the first two sections. -/
def decodeUpdateBody (body : Bytes) : Codec Record := do
  let (envelope, static, state, book, trade, delta) ← liftStruct (updateFormat.unpack body)
  let envelope ← EnvelopeFields.decode envelope
  let static ← StaticFields.decode static
  let book ← BookFields.decode book
  return .update
    { envelope, static, state := .decode state, book, trade := .decode trade
      delta := .decode delta }

def decodeOrderBody (body : Bytes) : Codec Record := do
  let (orderNumber, ticker, group, side, price, qtyRemaining, orderType) ←
    liftStruct (orderFormat.unpack body)
  let ticker ← alpha ticker
  let group ← alpha group
  return .order
    { orderNumber, ticker, group, side := charText side, price, qtyRemaining
      orderType := charText orderType }

def decodeTickBody (body : Bytes) : Codec Record := do
  let (tableId, priceStart, tickSize) ← liftStruct (tickFormat.unpack body)
  return .tick { tableId, priceStart, tickSize }

def decodeHelloBody (body : Bytes) : Codec Record := do
  let (epoch, lastExchSeq) ← liftStruct (helloFormat.unpack body)
  return .hello { epoch, lastExchSeq }

def decodeSyncEndBody (body : Bytes) : Codec Record := do
  let (session, lastExchSeq, epoch) ← liftStruct (syncEndFormat.unpack body)
  let session ← alpha session
  return .syncEnd { session, lastExchSeq, epoch }

def decodeEmptyBody (kind : RecordKind) (record : Record) (body : Bytes) : Codec Record :=
  if body ≠ [] then raiseRecord (.unexpectedBody kind) else return record

/-- The decoder of a kind: its entry of `_BODY_DECODERS`, or `_decode_empty_body`. -/
def decodeBody : RecordKind → Bytes → Codec Record
  | .update => decodeUpdateBody
  | .order => decodeOrderBody
  | .tick => decodeTickBody
  | .hello => decodeHelloBody
  | .syncEnd => decodeSyncEndBody
  | .syncBegin => decodeEmptyBody .syncBegin .syncBegin
  | .getState => decodeEmptyBody .getState .getState
  | .reset => decodeEmptyBody .reset .reset

def decodeRecord (buf : Bytes) : Codec Record := do
  let (kind, bodyLen) ← decodeHeader buf
  let total := recordHeaderSize + bodyLen
  if buf.length ≠ total then raiseRecord (.wrongLength kind buf.length total)
  else decodeBody kind ((buf.take total).drop recordHeaderSize)

def rawAlphas : RecordKind → Bytes → List Bytes
  | .update, body =>
      let ((_, _, session, _, _, _, ticker, group), (isin, _), _) := updateFormat.read body
      [session.bytes, ticker.bytes, group.bytes, isin.bytes]
  | .order, body =>
      let (_, ticker, group, _) := orderFormat.read body
      [ticker.bytes, group.bytes]
  | .syncEnd, body =>
      let (session, _) := syncEndFormat.read body
      [session.bytes]
  | _, _ => []

/-- The level slots of an `UPDATE` body that its counts leave unused. -/
def unusedLevels (body : Bytes) : List Level :=
  let (_, _, _, (levelCountBid, levelCountAsk, bids, asks, _), _) := updateFormat.read body
  bids.toList.drop levelCountBid ++ asks.toList.drop levelCountAsk

/-! ## Encoding -/

def alphaEnc (value : Text) (width : Nat) : Codec (FixedBytes width) :=
  if ¬ IsAscii value then .error (.unicodeEncode value)
  else if fits : value.length ≤ width then
    .ok ⟨value ++ List.replicate (width - value.length) space, by simp [fits]⟩
  else raiseRecord (.tooWide value width)

def charEnc : Text → Codec UInt8
  | [] => .ok 0
  | [char] => .ok char
  | value => raiseRecord (.notOneChar value)

def encodeHeader (kind : RecordKind) (bodyLen : Nat) : Codec Bytes :=
  if bodyLen ≠ bodySizes kind then raiseRecord (.wrongBodyLen kind bodyLen (bodySizes kind))
  else liftStruct (headerFormat.pack (0x4A58, 2, kindByte kind, bodyLen, 0))

def withHeader (kind : RecordKind) (body : Bytes) : Codec Bytes := do
  let header ← encodeHeader kind body.length
  return header ++ body

/-- The levels that are written: zeros from `count` on, and where the list ends. -/
def levelValues (levels : List Level) (count : Nat) : Vector Level bookDepth :=
  Vector.ofFn fun slot => if slot < count then levels.getD slot (0, 0, 0) else (0, 0, 0)

def EnvelopeFields.encode (fields : EnvelopeFields) :
    Codec (Nat × Nat × FixedBytes 10 × Nat × Nat × UInt8 × FixedBytes 4 × FixedBytes 4) := do
  let session ← alphaEnc fields.session 10
  let trigger ← charEnc fields.trigger
  let ticker ← alphaEnc fields.ticker 4
  let group ← alphaEnc fields.group 4
  return (fields.epoch, fields.pubSeq, session, fields.exchSeq, fields.exchNs, trigger, ticker,
    group)

def StaticFields.encode (fields : StaticFields) :
    Codec (FixedBytes 12 × Nat × Nat × Nat × Nat × Nat × Nat) := do
  let isin ← alphaEnc fields.isin 12
  return (isin, fields.roundLot, fields.tickTableId, fields.priceDecimals, fields.upperLimit,
    fields.lowerLimit, fields.flags)

def StateFields.encode (fields : StateFields) :
    Codec (UInt8 × UInt8 × Nat × UInt8 × Nat) := do
  let tradingState ← charEnc fields.tradingState
  let shortSellRestriction ← charEnc fields.shortSellRestriction
  let lastSystemEvent ← charEnc fields.lastSystemEvent
  return (tradingState, shortSellRestriction, fields.referencePrice, lastSystemEvent,
    fields.shortSellPrice)

def BookFields.encode (fields : BookFields) :
    Nat × Nat × Vector Level bookDepth × Vector Level bookDepth × Nat × Nat × Nat × Nat :=
  (fields.levelCountBid, fields.levelCountAsk, levelValues fields.bids fields.levelCountBid,
    levelValues fields.asks fields.levelCountAsk, fields.totalBidQty, fields.totalAskQty,
    fields.totalBidOrders, fields.totalAskOrders)

def TradeFields.encode (fields : TradeFields) : Nat × Nat × Nat × Nat × Nat × Nat × Nat :=
  (fields.lastPrice, fields.lastQty, fields.lastMatchNumber, fields.lastTradeNs, fields.cumQty,
    fields.cumTurnover, fields.tradeCount)

def DeltaFields.encode (fields : DeltaFields) :
    Codec (UInt8 × Nat × Nat × UInt8 × Nat × Nat × UInt8) := do
  let op ← charEnc fields.op
  let side ← charEnc fields.side
  let orderType ← charEnc fields.orderType
  return (op, fields.orderNumber, fields.origOrderNumber, side, fields.price, fields.qty,
    orderType)

/-- `encode_update`. The level counts are checked before any field is converted. -/
def encodeUpdate (rec : Update) : Codec Bytes :=
  if rec.book.levelCountBid > bookDepth ∨ rec.book.levelCountAsk > bookDepth then
    raiseRecord .deepLevels
  else do
    let envelope ← rec.envelope.encode
    let static ← rec.static.encode
    let state ← rec.state.encode
    let delta ← rec.delta.encode
    let body ← liftStruct <| updateFormat.pack
      (envelope, static, state, rec.book.encode, rec.trade.encode, delta)
    withHeader .update body

def encodeOrder (rec : Order) : Codec Bytes := do
  let ticker ← alphaEnc rec.ticker 4
  let group ← alphaEnc rec.group 4
  let side ← charEnc rec.side
  let orderType ← charEnc rec.orderType
  let body ← liftStruct <| orderFormat.pack
    (rec.orderNumber, ticker, group, side, rec.price, rec.qtyRemaining, orderType)
  withHeader .order body

def encodeTick (rec : Tick) : Codec Bytes := do
  let body ← liftStruct (tickFormat.pack (rec.tableId, rec.priceStart, rec.tickSize))
  withHeader .tick body

def encodeHello (rec : Hello) : Codec Bytes := do
  let body ← liftStruct (helloFormat.pack (rec.epoch, rec.lastExchSeq))
  withHeader .hello body

def encodeSyncEnd (rec : SyncEnd) : Codec Bytes := do
  let session ← alphaEnc rec.session 10
  let body ← liftStruct (syncEndFormat.pack (session, rec.lastExchSeq, rec.epoch))
  withHeader .syncEnd body

/-- `encode_record`; the header-only kinds go through `encode_control`. -/
def encodeRecord : Record → Codec Bytes
  | .update rec => encodeUpdate rec
  | .order rec => encodeOrder rec
  | .tick rec => encodeTick rec
  | .hello rec => encodeHello rec
  | .syncEnd rec => encodeSyncEnd rec
  | .syncBegin => encodeHeader .syncBegin 0
  | .getState => encodeHeader .getState 0
  | .reset => encodeHeader .reset 0

end ProtoFH.Web
