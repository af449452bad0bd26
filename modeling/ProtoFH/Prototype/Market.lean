import ProtoFH.Foundation.Execution
import ProtoFH.Foundation.Ring
import ProtoFH.Prototype.OrderBook

/-! # The prototype market

Reference data, trade tape and the routing of messages between them and the order
store, as the Python prototype has them: `None` is `none` and integers do not wrap. -/

namespace ProtoFH.Prototype

def noPrice : Nat := 0x7FFFFFFF

/-! ## Reference data -/

structure Instrument where
  orderbookId : Text
  isin : Option Text := none
  group : Option Text := none
  roundLot : Option Nat := none
  tickTableId : Option Nat := none
  priceDecimals : Option Nat := none
  upperLimit : Option Nat := none
  lowerLimit : Option Nat := none
  tradingState : Text := [ascii 'V']
  shortSellState : Text := [ascii '0']
  referencePrice : Option Nat := none
  directoryMissing : Bool := true
deriving DecidableEq

namespace Instrument

/-- `if inst.group is None: inst.group = group` -/
def fillGroup (inst : Instrument) (group : Text) : Instrument :=
  { inst with group := some (inst.group.getD group) }

def describe (inst : Instrument) (entry : OrderbookDirectory) : Instrument :=
  { inst with
    isin := some entry.isin
    group := some entry.group
    roundLot := some entry.roundLot
    tickTableId := some entry.tickTableId
    priceDecimals := some entry.priceDecimals
    upperLimit := some entry.upperLimit
    lowerLimit := some entry.lowerLimit
    directoryMissing := false }

end Instrument

structure TickTable where
  starts : List Nat := []
  sizes : List Nat := []
deriving DecidableEq

namespace TickTable

def add (table : TickTable) (priceStart tickSize : Nat) : TickTable :=
  let i := bisectLeft table.starts priceStart
  if table.starts[i]? = some priceStart then
    { table with sizes := table.sizes.set i tickSize }
  else
    { starts := table.starts.insertIdx i priceStart
      sizes := table.sizes.insertIdx i tickSize }

def tickSize (table : TickTable) (price : Nat) : Option Nat :=
  match bisectRight table.starts price with
  | 0 => none
  | i + 1 => table.sizes[i]?

def rows (table : TickTable) : List (Nat × Nat) := table.starts.zip table.sizes

end TickTable

/-- `compute_ssp`: the lowest price at which a short sell is accepted. -/
def computeSsp (restricted : Text) (basePrice lastPrice : Option Nat) (uptick : Bool)
    (tickTable : Option TickTable) : Nat :=
  if restricted ≠ [ascii '1'] then 0
  else
    match lastPrice.or basePrice with
    | none => noPrice
    | some ltp =>
        if ltp = noPrice then noPrice
        else if uptick then ltp
        else
          match tickTable.bind (·.tickSize ltp) with
          | none => noPrice
          | some tick => ltp + tick

structure RefData where
  instruments : Dict Text Instrument := ∅
  tickTables : Dict Nat TickTable := ∅
  systemEvents : List (Nat × Text × Text) := []

namespace RefData

/-- The instrument under an id; `get` creates an unknown one on first reference. -/
def get (refdata : RefData) (orderbookId : Text) : Instrument :=
  (refdata.instruments.find? orderbookId).getD { orderbookId }

/-- What the source does to the instrument that `get` returns. -/
def modify (refdata : RefData) (orderbookId : Text) (change : Instrument → Instrument) :
    RefData :=
  { refdata with
    instruments := refdata.instruments.set orderbookId (change (refdata.get orderbookId)) }

def addTick (refdata : RefData) (tableId priceStart tickSize : Nat) : RefData :=
  { refdata with
    tickTables := refdata.tickTables.set tableId
      (((refdata.tickTables.find? tableId).getD {}).add priceStart tickSize) }

def apply (refdata : RefData) : Message → RefData
  | .orderbookDirectory entry => refdata.modify entry.orderbookId (·.describe entry)
  | .priceTickSize _ tableId tickSize priceStart => refdata.addTick tableId priceStart tickSize
  | .tradingState _ orderbookId group state =>
      refdata.modify orderbookId fun inst => { inst.fillGroup group with tradingState := state }
  | .shortSellRestriction _ orderbookId group state =>
      refdata.modify orderbookId fun inst =>
        { inst.fillGroup group with shortSellState := state }
  | .systemEvent ns group event =>
      { refdata with systemEvents := refdata.systemEvents ++ [(ns, group, event)] }
  | .orderAdded order =>
      if order.orderNumber = 0 then
        refdata.modify order.orderbookId fun inst =>
          { inst.fillGroup order.group with referencePrice := some order.price }
      else refdata
  | _ => refdata

end RefData

/-! ## Trade tape -/

structure TapeEntry where
  timestamp : Nat
  orderbookId : Text
  price : Nat
  qty : Nat
  matchNumber : Nat
deriving DecidableEq

structure BookStats where
  tradeCount : Nat := 0
  volume : Nat := 0
  notional : Nat := 0
  lastPrice : Option Nat := none
  lastQty : Option Nat := none
  uptick : Bool := false
deriving DecidableEq

namespace BookStats

def tickTest (stats : BookStats) (price : Nat) (basePrice : Option Nat) : Bool :=
  match stats.lastPrice.or basePrice with
  | none => stats.uptick
  | some effectiveLtp =>
      if effectiveLtp = noPrice then stats.uptick
      else if price > effectiveLtp then true
      else if price < effectiveLtp then false
      else stats.uptick

def record (stats : BookStats) (execution : Execution) (basePrice : Option Nat) :
    BookStats where
  tradeCount := stats.tradeCount + 1
  volume := stats.volume + execution.qty
  notional := stats.notional + execution.price * execution.qty
  lastPrice := some execution.price
  lastQty := some execution.qty
  uptick := stats.tickTest execution.price basePrice

end BookStats

def makeTimestamp (seconds ns : Nat) : Nat := seconds * 1000000000 + ns

/-- `DEFAULT_MAX_ENTRIES`, the capacity of the rolling tape. -/
def maxEntries : Nat := 10000

structure TradeTape where
  entries : List TapeEntry := []
  stats : Dict Text BookStats := ∅
  tradeCount : Nat := 0
  totalVolume : Nat := 0

namespace TradeTape

def statsOf (tape : TradeTape) (orderbookId : Text) : BookStats :=
  (tape.stats.find? orderbookId).getD {}

def record (tape : TradeTape) (execution : Execution) (timestamp : Nat)
    (basePrice : Option Nat) : TradeTape where
  -- the append of a `deque(maxlen=max_entries)`
  entries := lastFew maxEntries (tape.entries ++
    [{ timestamp, orderbookId := execution.orderbookId, price := execution.price
       qty := execution.qty, matchNumber := execution.matchNumber }])
  stats := tape.stats.set execution.orderbookId
    ((tape.statsOf execution.orderbookId).record execution basePrice)
  tradeCount := tape.tradeCount + 1
  totalVolume := tape.totalVolume + execution.qty

end TradeTape

/-! ## The market -/

structure Market where
  refdata : RefData := {}
  books : OrderBookStore := {}
  tape : TradeTape := {}
  seconds : Nat := 0
  endOfSnapshotSeq : Option Nat := none
  messageCounts : Dict UInt8 Nat := ∅

def Message.typeChar : Message → UInt8
  | .timestampSeconds .. => ascii 'T'
  | .systemEvent .. => ascii 'S'
  | .priceTickSize .. => ascii 'L'
  | .orderbookDirectory .. => ascii 'R'
  | .tradingState .. => ascii 'H'
  | .shortSellRestriction .. => ascii 'Y'
  | .orderAdded .. => ascii 'A'
  | .orderAddedWithAttributes .. => ascii 'F'
  | .orderExecuted .. => ascii 'E'
  | .orderDeleted .. => ascii 'D'
  | .orderReplaced .. => ascii 'U'
  | .endOfSnapshot .. => ascii 'G'

namespace Market

def basePrice (market : Market) (orderbookId : Text) : Option Nat :=
  (market.refdata.instruments.find? orderbookId).bind Instrument.referencePrice

def countMessage (market : Market) (char : UInt8) : Market :=
  { market with
    messageCounts :=
      market.messageCounts.set char ((market.messageCounts.find? char).getD 0 + 1) }

def route (market : Market) (msg : Message) : Except ApplyError Market :=
  match msg with
  | .timestampSeconds seconds => .ok { market with seconds }
  | .endOfSnapshot sequenceNumber => .ok { market with endOfSnapshotSeq := some sequenceNumber }
  | .orderAdded order =>
      if order.orderNumber = 0 then .ok { market with refdata := market.refdata.apply msg }
      else do
        let (books, _) ← market.books.apply msg
        return { market with books }
  | .orderAddedWithAttributes .. | .orderDeleted .. | .orderReplaced .. => do
      let (books, _) ← market.books.apply msg
      return { market with books }
  | .orderExecuted ns _ _ _ => do
      let (books, execution) ← market.books.apply msg
      match execution with
      | none => return { market with books }
      | some execution =>
          return { market with
            books
            tape := market.tape.record execution (makeTimestamp market.seconds ns)
              (market.basePrice execution.orderbookId) }
  | .orderbookDirectory .. | .priceTickSize .. | .tradingState .. | .shortSellRestriction ..
  | .systemEvent .. => .ok { market with refdata := market.refdata.apply msg }

def apply (market : Market) (msg : Message) : Except ApplyError Market :=
  (market.countMessage msg.typeChar).route msg

def run (market : Market) (messages : List Message) : Except ApplyError Market :=
  messages.foldlM apply market

/-- What `views.static_rows` shows as the short-sell price of an instrument. -/
def shortSellPrice (market : Market) (sicc : Text) (inst : Instrument) : Nat :=
  let stats := market.tape.stats.find? sicc
  computeSsp inst.shortSellState inst.referencePrice (stats.bind BookStats.lastPrice)
    (stats.any BookStats.uptick) (inst.tickTableId.bind (market.refdata.tickTables.find? ·))

/-! ## What a message changes -/

/-- The store applied to a message that `route` may keep away from it. -/
def storeStep (books : OrderBookStore) :
    Message → Except ApplyError (OrderBookStore × Option Execution)
  | .orderAdded order =>
      if order.orderNumber = 0 then .ok (books, none) else books.apply (.orderAdded order)
  | msg => books.apply msg

def tapeStep (market : Market) (timestamp : Nat) : Option Execution → TradeTape
  | none => market.tape
  | some execution =>
      market.tape.record execution timestamp (market.basePrice execution.orderbookId)

def timestampOf (market : Market) : Message → Nat
  | .orderExecuted ns _ _ _ => makeTimestamp market.seconds ns
  | _ => 0

def secondsAfter (market : Market) : Message → Nat
  | .timestampSeconds seconds => seconds
  | _ => market.seconds

theorem apply_eq_ok {market after : Market} {msg : Message}
    (applied : market.apply msg = .ok after) :
    ∃ execution, storeStep market.books msg = .ok (after.books, execution) ∧
      after.tape = market.tapeStep (market.timestampOf msg) execution ∧
      after.refdata = market.refdata.apply msg ∧
      after.seconds = market.secondsAfter msg := by
  cases msg with
  | orderAdded order =>
      rw [apply, route] at applied
      by_cases reference : order.orderNumber = 0
      · rw [if_pos reference] at applied
        cases applied
        exact ⟨none, by rw [storeStep, if_pos reference]; rfl, rfl, rfl, rfl⟩
      · rw [if_neg reference] at applied
        rcases except_bind_eq_ok.mp applied with ⟨⟨books, execution⟩, done, written⟩
        cases written
        rcases except_bind_eq_ok.mp done with ⟨added, -, reported⟩
        cases reported
        refine ⟨none, by rw [storeStep, if_neg reference]; exact done, rfl, ?_, rfl⟩
        rw [RefData.apply, if_neg reference]
        rfl
  | orderExecuted ns orderNumber executedQty matchNumber =>
      rcases except_bind_eq_ok.mp applied with ⟨⟨books, execution⟩, done, written⟩
      cases execution with
      | none =>
          cases written
          exact ⟨none, done, rfl, rfl, rfl⟩
      | some execution =>
          cases written
          exact ⟨some execution, done, rfl, rfl, rfl⟩
  | orderAddedWithAttributes | orderDeleted | orderReplaced =>
      rcases except_bind_eq_ok.mp applied with ⟨⟨books, execution⟩, done, written⟩
      cases written
      rcases except_bind_eq_ok.mp done with ⟨changed, -, reported⟩
      cases reported
      exact ⟨none, done, rfl, rfl, rfl⟩
  | _ =>
      cases applied
      exact ⟨none, rfl, rfl, rfl, rfl⟩

end Market

end ProtoFH.Prototype
