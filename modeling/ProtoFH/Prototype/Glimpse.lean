import ProtoFH.Prototype.Encoding
import ProtoFH.Prototype.Levels

/-! # The snapshots of the exchange simulator

`build_snapshot` replays the messages before a cut and encodes the state that is reached
as fresh messages. What a view of a market shows depends on the live orders, the reference
data, the clock and the trade counters; a message changes these in one way, whatever else
the market holds. -/

namespace ProtoFH.Prototype

/-! ## Building a snapshot -/

/-- The exceptions that can leave `build_snapshot`. A directory field that is `None` has no
`encode`. -/
inductive SnapshotError where
  | decode (error : DecodeError)
  | apply (error : ApplyError)
  | missingField (orderbookId : Text)
  | encode (error : EncodeError)

namespace Instrument

def directory? (inst : Instrument) : Option OrderbookDirectory := do
  let isin ← inst.isin
  let roundLot ← inst.roundLot
  let tickTableId ← inst.tickTableId
  let priceDecimals ← inst.priceDecimals
  let upperLimit ← inst.upperLimit
  let lowerLimit ← inst.lowerLimit
  return { ns := 0, orderbookId := inst.orderbookId, isin, group := inst.group.getD []
           roundLot, tickTableId, priceDecimals, upperLimit, lowerLimit }

def states (inst : Instrument) : List Message :=
  let group := inst.group.getD []
  let reference :=
    match inst.referencePrice with
    | none => []
    | some price =>
        [.orderAdded
          { ns := 0, orderNumber := 0, side := [ascii 'B'], qty := 0
            orderbookId := inst.orderbookId, group, price }]
  .tradingState 0 inst.orderbookId group inst.tradingState ::
    .shortSellRestriction 0 inst.orderbookId group inst.shortSellState :: reference

/-- The messages that describe an instrument: its directory entry if it has one, and its
states. -/
def snapshot (inst : Instrument) : Except SnapshotError (List Message) :=
  if inst.directoryMissing then .ok inst.states
  else
    match inst.directory? with
    | none => .error (.missingField inst.orderbookId)
    | some entry => .ok (.orderbookDirectory entry :: inst.states)

end Instrument

def Order.added (order : Order) : OrderAdded where
  ns := 0
  orderNumber := order.orderNumber
  side := order.side
  qty := order.remainingQty
  orderbookId := order.orderbookId
  group := order.group
  price := order.price

/-- The `L` rows of all tables, in the order of their ids. -/
def RefData.tickRows (refdata : RefData) : List Message :=
  (refdata.tickTables.keys.insertionSort (· ≤ ·)).flatMap fun tableId =>
    ((refdata.tickTables.find? tableId).getD {}).rows.map fun (priceStart, tickSize) =>
      .priceTickSize 0 tableId tickSize priceStart

def Market.clock (seconds : Nat) : List Message :=
  if seconds = 0 then [] else [.timestampSeconds seconds]

def Market.snapshot (market : Market) : Except SnapshotError (List Message) := do
  let instruments ← market.refdata.instruments.values.mapM Instrument.snapshot
  return clock market.seconds ++ market.refdata.tickRows ++ instruments.flatten ++
    market.books.orders.values.map fun order => .orderAdded order.added

/-- `market.apply(codec.decode(raw))` -/
def Market.applyRaw (market : Market) (raw : Bytes) : Except SnapshotError Market := do
  let msg ← (Message.decode raw).mapError .decode
  (market.apply msg).mapError .apply

/-- `build_snapshot` of a simulator with these messages and this cut. -/
def buildSnapshot (messages : List Bytes) (glimpseCut : Nat) :
    Except SnapshotError (List Bytes × Nat) := do
  let cut := min glimpseCut messages.length
  let market ← (messages.take cut).foldlM Market.applyRaw {}
  let snapshot ← market.snapshot
  let out ← snapshot.mapM fun msg => msg.encode.mapError .encode
  return (out, cut + 1)

/-! ## What a view shows -/

def Orders.tradedQty (orders : Orders) : Message → Option Nat
  | .orderExecuted _ orderNumber executedQty _ =>
      (orders.find? orderNumber).map (OrderBookStore.clampedQty · executedQty)
  | _ => none

structure Visible where
  orders : Orders
  refdata : RefData
  seconds : Nat
  tradeCount : Nat
  totalVolume : Nat

def Visible.apply (visible : Visible) (msg : Message) : Visible where
  orders := visible.orders.apply msg
  refdata := visible.refdata.apply msg
  seconds :=
    match msg with
    | .timestampSeconds seconds => seconds
    | _ => visible.seconds
  tradeCount := visible.tradeCount + (visible.orders.tradedQty msg).toList.length
  totalVolume := visible.totalVolume + (visible.orders.tradedQty msg).getD 0

namespace Market

def visible (market : Market) : Visible where
  orders := market.books.orders
  refdata := market.refdata
  seconds := market.seconds
  tradeCount := market.tape.tradeCount
  totalVolume := market.tape.totalVolume

private theorem storeStep_tradedQty {books after : OrderBookStore} {msg : Message}
    {execution : Option Execution} (stepped : storeStep books msg = .ok (after, execution)) :
    execution.map Execution.qty = Orders.tradedQty books.orders msg := by
  rw [storeStep_execution stepped]
  cases msg with
  | orderExecuted ns orderNumber executedQty matchNumber =>
      rw [Orders.execution, Option.map_map]
      rfl
  | _ => rfl

private theorem apply_visible {market after : Market} {msg : Message}
    (keyed : Orders.Keyed market.books.orders) (applied : market.apply msg = .ok after) :
    after.visible = market.visible.apply msg := by
  obtain ⟨execution, stepped, tape, refdata, seconds⟩ := apply_eq_ok applied
  have orders := storeStep_orders keyed stepped
  have traded := storeStep_tradedQty stepped
  have clock : market.secondsAfter msg = (market.visible.apply msg).seconds := by
    cases msg <;> rfl
  have trades : after.tape.tradeCount = (market.visible.apply msg).tradeCount ∧
      after.tape.totalVolume = (market.visible.apply msg).totalVolume := by
    change _ = _ + (Orders.tradedQty market.books.orders msg).toList.length ∧
      _ = _ + (Orders.tradedQty market.books.orders msg).getD 0
    rw [tape, ← traded]
    cases execution <;> exact ⟨rfl, rfl⟩
  rw [visible, orders, refdata, seconds, clock, trades.1, trades.2]
  rfl

theorem run_visible {messages : List Message} {init last : Market}
    (keyed : Orders.Keyed init.books.orders) (reached : run init messages = .ok last) :
    last.visible = messages.foldl Visible.apply init.visible := by
  rw [run] at reached
  induction messages generalizing init with
  | nil =>
      cases reached
      rfl
  | cons msg messages induction =>
      rw [List.foldlM_cons] at reached
      obtain ⟨next, applied, rest⟩ := except_bind_eq_ok.mp reached
      have keyedNext : Orders.Keyed next.books.orders := by
        rw [apply_books applied keyed]
        exact keyed.apply msg
      rw [induction keyedNext rest, apply_visible keyed applied]
      rfl

end Market

end ProtoFH.Prototype
