import ProtoFH.Db.Ingest
import ProtoFH.Fh.Publish

/-! # Recovery

Rebuilding the feed handler's market and publisher context from the records of a
database dump. -/

namespace ProtoFH

namespace Market

def restoreTick (market : Market) (tableId priceStart tickSize : UInt32) : Market :=
  { market with refdata := market.refdata.addTick tableId priceStart tickSize }

def restoreOrder (market : Market) (order : Order) : Market :=
  { market with books := market.books.restoreOrder order }

end Market

/-- What `restore_instrument` writes into an instrument. States that a row does not
know, `?` or NUL, and an unknown reference price leave what is there. -/
def Instrument.restore (inst : Instrument) (group : CStr 4) (static : StaticSection)
    (directorySeen : Bool) (tradingState shortSellState : UInt8)
    (referencePrice : Option UInt32) : Instrument :=
  let grouped := inst.fillGroup group
  let described :=
    if directorySeen then
      { grouped with
        isin := static.isin
        roundLot := some static.roundLot
        tickTableId := some static.tickTableId
        priceDecimals := some static.priceDecimals.toUInt32
        upperLimit := some static.upperLimit
        lowerLimit := some static.lowerLimit
        directoryMissing := false }
    else grouped
  { described with
    tradingState :=
      if tradingState ≠ 0 ∧ tradingState ≠ ascii '?' then tradingState
      else described.tradingState
    shortSellState :=
      if shortSellState ≠ 0 ∧ shortSellState ≠ ascii '?' then shortSellState
      else described.shortSellState
    referencePrice := if referencePrice.isSome then referencePrice else described.referencePrice }

structure RecoveredMeta where
  session : Bytes := []
  lastExchSeq : UInt64 := 0
  epoch : UInt64 := 0
deriving DecidableEq

structure RecoveryState where
  market : Market := {}
  ctx : PubContext := {}
  recovered : RecoveredMeta := {}
  sawBegin : Bool := false
  sawEnd : Bool := false
  error : Bool := false

def OrderRecord.toOrder (rec : OrderRecord) : Order where
  orderNumber := rec.orderNumber
  orderbookId := rec.ticker
  group := rec.group
  side := rec.side
  price := rec.price
  remainingQty := rec.qtyRemaining
  orderType := rec.orderType

namespace UpdateRecord

def directorySeen (rec : UpdateRecord) : Bool := rec.static.flags &&& flagDirectorySeen ≠ 0

def anyState (rec : UpdateRecord) : Bool :=
  rec.state.tradingState ≠ ascii '?' ∨ rec.state.shortSellRestriction ≠ ascii '?' ∨
    rec.state.referencePrice ≠ 0

def restoredReferencePrice (rec : UpdateRecord) : Option UInt32 :=
  if rec.state.referencePrice ≠ 0 then some rec.state.referencePrice else none

def restoreInstrument (rec : UpdateRecord) (refdata : RefData) : RefData :=
  if rec.directorySeen ∨ rec.anyState then
    refdata.modify rec.envelope.ticker fun inst =>
      inst.restore rec.envelope.group rec.static rec.directorySeen rec.state.tradingState
        rec.state.shortSellRestriction rec.restoredReferencePrice
  else refdata

def restoreTrades (rec : UpdateRecord) (tape : TradeTape) : TradeTape :=
  if rec.trade.tradeCount > 0 then
    tape.restoreStats rec.envelope.ticker rec.trade.tradeCount.toUInt64 rec.trade.cumQty
      rec.trade.cumTurnover (some rec.trade.lastPrice) (some rec.trade.lastQty)
      rec.trade.lastMatchNumber
  else tape

def restoreContext (rec : UpdateRecord) (ctx : PubContext) : PubContext :=
  let traded :=
    if rec.trade.tradeCount > 0 ∧ rec.trade.lastTradeNs ≠ 0 then
      { ctx with
        lastTradeNs := ctx.lastTradeNs.insert rec.envelope.ticker rec.trade.lastTradeNs }
    else ctx
  if rec.state.lastSystemEvent ≠ 0 then
    traded.noteEvent rec.envelope.group rec.state.lastSystemEvent
  else traded

end UpdateRecord

namespace RecoveryState

def restoreTick (st : RecoveryState) (rec : TickRecord) : RecoveryState :=
  { st with market := st.market.restoreTick rec.tableId rec.priceStart rec.tickSize }

def restoreOrder (st : RecoveryState) (rec : OrderRecord) : RecoveryState :=
  { st with market := st.market.restoreOrder rec.toOrder }

def restoreRow (st : RecoveryState) (rec : UpdateRecord) : RecoveryState :=
  if rec.envelope.ticker = .empty then st
  else
    { st with
      market :=
        { st.market with
          refdata := rec.restoreInstrument st.market.refdata
          tape := rec.restoreTrades st.market.tape }
      ctx := rec.restoreContext st.ctx }

def restoreEnd (st : RecoveryState) (rec : SyncEndRecord) : RecoveryState :=
  { st with
    recovered :=
      { session := rec.session.bytes, lastExchSeq := rec.lastExchSeq, epoch := rec.epoch }
    sawEnd := true }

def decodeOrFail (st : RecoveryState) (decoded : Except String α)
    (restore : α → RecoveryState) : RecoveryState :=
  match decoded with
  | .error _ => { st with error := true }
  | .ok rec => restore rec

/-- `apply_record`; kinds that do not belong into a dump are ignored. -/
def applyRecord (st : RecoveryState) (raw : RawRecord) : RecoveryState :=
  match raw.kind with
  | .syncBegin => { st with sawBegin := true }
  | .tick => st.decodeOrFail (decodeTick (putHeader .tick 12 ++ raw.body)) st.restoreTick
  | .order => st.decodeOrFail (decodeOrder (putHeader .order 26 ++ raw.body)) st.restoreOrder
  | .update => st.decodeOrFail (decodeUpdate (putHeader .update 429 ++ raw.body)) st.restoreRow
  | .syncEnd =>
      st.decodeOrFail (decodeSyncEnd (putHeader .syncEnd 26 ++ raw.body)) st.restoreEnd
  | _ => st

/-- `get_state` with the callback of `recover_from_db`, over the records the peer
delivered: it ends with the first `SYNC_END`, or in failure without one. -/
def getState (st : RecoveryState) : List RawRecord → RecoveryState × Bool
  | [] => (st, false)
  | raw :: later =>
      let st := if st.error then st else st.applyRecord raw
      if raw.kind = .syncEnd then (st, true) else st.getState later

end RecoveryState

/-- `recover_from_db` on the bytes of the reply that arrived. -/
def recoverFromDb (reply : Bytes) : Option RecoveryState :=
  let (st, ok) := RecoveryState.getState {} (RecordFramer.framing.drain reply).1
  if ok ∧ ¬ st.error ∧ st.sawBegin ∧ st.sawEnd then some st else none

/-! ## Typed records -/

namespace RecoveryState

def restore (st : RecoveryState) : Record → RecoveryState
  | .syncBegin => { st with sawBegin := true }
  | .tick rec => st.restoreTick rec
  | .order rec => st.restoreOrder rec
  | .update rec => st.restoreRow rec
  | .syncEnd rec => st.restoreEnd rec
  | _ => st

def restoreAll (st : RecoveryState) (records : List Record) : RecoveryState :=
  records.foldl (fun st record => st.restore record.wired) st

theorem applyRecord_raw (st : RecoveryState) {record : Record} (sound : record.Sound) :
    st.applyRecord record.raw = st.restore record.wired := by
  have length := record.body_length
  cases record with
  | update rec =>
      have decoded : decodeUpdate (putHeader .update 429 ++ rec.put) = .ok rec.wired :=
        decodeRecord_put length (UpdateRecord.read_put sound [])
      simp only [applyRecord, Record.raw, Record.kind, Record.body, decoded, decodeOrFail,
        restore, Record.wired]
  | order rec =>
      have decoded : decodeOrder (putHeader .order 26 ++ rec.put) = .ok rec.wired :=
        decodeRecord_put length (OrderRecord.read_put rec [])
      simp only [applyRecord, Record.raw, Record.kind, Record.body, decoded, decodeOrFail,
        restore, Record.wired]
  | tick rec =>
      have decoded : decodeTick (putHeader .tick 12 ++ rec.put) = .ok rec :=
        decodeRecord_put length (TickRecord.read_put rec [])
      simp only [applyRecord, Record.raw, Record.kind, Record.body, decoded, decodeOrFail,
        restore, Record.wired]
  | syncEnd rec =>
      have decoded : decodeSyncEnd (putHeader .syncEnd 26 ++ rec.put) = .ok rec.wired :=
        decodeRecord_put length (SyncEndRecord.read_put rec [])
      simp only [applyRecord, Record.raw, Record.kind, Record.body, decoded, decodeOrFail,
        restore, Record.wired]
  | syncBegin | getState | hello rec | reset => rfl

end RecoveryState

end ProtoFH
