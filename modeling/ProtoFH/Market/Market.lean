import ProtoFH.Market.Orders
import ProtoFH.Market.Refdata
import ProtoFH.Market.Tape

/-! # The market

`Market.apply` routes every decoded message to the reference data, the order
store and the tape, and reports what changed so that one record can be built
from it. -/

namespace ProtoFH

inductive OrderOp where
  | A | F | E | D | U
deriving DecidableEq

def OrderOp.toByte : OrderOp → UInt8
  | .A => ascii 'A'
  | .F => ascii 'F'
  | .E => ascii 'E'
  | .D => ascii 'D'
  | .U => ascii 'U'

/-- The order-level delta of an `ApplyResult`, present when `has_delta` is set. -/
structure OrderDelta where
  op : OrderOp
  orderNumber : UInt64
  origOrderNumber : UInt64 := 0
  side : UInt8
  price : UInt32
  qty : UInt32
  orderType : UInt8
deriving DecidableEq

structure ApplyResult where
  trigger : UInt8 := 0
  ticker : CStr 4 := .empty
  group : CStr 4 := .empty
  delta : Option OrderDelta := none
  trade : Option Execution := none
deriving DecidableEq

structure Market where
  refdata : RefData := {}
  books : OrderBookStore := {}
  tape : TradeTape := {}
  seconds : UInt64 := 0
  endOfSnapshotSeq : UInt64 := 0
  hasEndOfSnapshot : Bool := false
  messageCounts : OrderedMap UInt8 UInt64 := ∅

namespace Market

def basePrice (market : Market) (orderbookId : CStr 4) : Option UInt32 :=
  market.refdata.instruments[orderbookId]?.bind Instrument.referencePrice

/-- The `A`/`F` result for a message that went to the order store. -/
def addResult (msg : AddOrder) (op : OrderOp) (orderType : UInt8) : ApplyResult where
  trigger := op.toByte
  ticker := msg.orderbookId
  group := msg.group
  delta := some
    { op := op, orderNumber := msg.orderNumber, side := msg.side, price := msg.price
      qty := msg.qty, orderType := orderType }

def executionResult (orderNumber : UInt64) (orderType : UInt8) (execution : Execution) :
    ApplyResult where
  trigger := ascii 'E'
  ticker := execution.orderbookId
  group := execution.group
  delta := some
    { op := .E, orderNumber := orderNumber, side := execution.side
      price := execution.price, qty := execution.qty, orderType := orderType }
  trade := some execution

def deletionResult (orderNumber : UInt64) (order : Order) : ApplyResult where
  trigger := ascii 'D'
  ticker := order.orderbookId
  group := order.group
  delta := some
    { op := .D, orderNumber := orderNumber, side := order.side, price := order.price
      qty := order.remainingQty, orderType := order.orderType }

def replacementResult (origOrderNumber newOrderNumber : UInt64) (qty price : UInt32)
    (order : Order) : ApplyResult where
  trigger := ascii 'U'
  ticker := order.orderbookId
  group := order.group
  delta := some
    { op := .U, orderNumber := newOrderNumber, origOrderNumber := origOrderNumber
      side := order.side, price := price, qty := qty, orderType := order.orderType }

def countMessage (market : Market) (type : UInt8) : Market :=
  { market with
    messageCounts :=
      market.messageCounts.insert type (market.messageCounts[type]?.getD 0 + 1) }

def route (market : Market) (msg : ItchMsg) : Market × ApplyResult :=
  match msg with
  | .seconds seconds =>
      ({ market with seconds := seconds.toUInt64 }, { trigger := ascii 'T' })
  | .endOfSnapshot sequenceNumber =>
      ({ market with endOfSnapshotSeq := sequenceNumber, hasEndOfSnapshot := true },
        { trigger := ascii 'G' })
  | .addOrder order =>
      if order.orderNumber = 0 then
        ({ market with refdata := market.refdata.apply msg },
          { trigger := ascii 'A', ticker := order.orderbookId, group := order.group })
      else
        ({ market with books := (market.books.apply msg).1 }, addResult order .A space)
  | .addAttributed order _ orderType =>
      ({ market with books := (market.books.apply msg).1 }, addResult order .F orderType)
  | .executed _ orderNumber _ _ =>
      -- The type is read before the fill, which may erase the order.
      let orderType := ((market.books.orders.find? orderNumber).map Order.orderType).getD space
      match market.books.apply msg with
      | (books, some execution) =>
          ({ market with
              books := books
              tape := market.tape.record execution (market.basePrice execution.orderbookId) },
            executionResult orderNumber orderType execution)
      | (books, none) => ({ market with books := books }, { trigger := ascii 'E' })
  | .deleted _ orderNumber =>
      ({ market with books := (market.books.apply msg).1 },
        match market.books.orders.find? orderNumber with
        | some order => deletionResult orderNumber order
        | none => { trigger := ascii 'D' })
  | .replaced _ origOrderNumber newOrderNumber qty price =>
      ({ market with books := (market.books.apply msg).1 },
        match market.books.orders.find? origOrderNumber with
        | some order => replacementResult origOrderNumber newOrderNumber qty price order
        | none => { trigger := ascii 'U' })
  | .directory entry =>
      ({ market with refdata := market.refdata.apply msg },
        { trigger := ascii 'R', ticker := entry.orderbookId, group := entry.group })
  | .tickSize .. =>
      ({ market with refdata := market.refdata.apply msg }, { trigger := ascii 'L' })
  | .tradingState _ orderbookId group _ =>
      ({ market with refdata := market.refdata.apply msg },
        { trigger := ascii 'H', ticker := orderbookId, group := group })
  | .shortSellState _ orderbookId group _ =>
      ({ market with refdata := market.refdata.apply msg },
        { trigger := ascii 'Y', ticker := orderbookId, group := group })
  | .systemEvent _ group _ =>
      ({ market with refdata := market.refdata.apply msg },
        { trigger := ascii 'S', group := group })

def apply (market : Market) (msg : ItchMsg) : Market × ApplyResult :=
  (market.countMessage msg.type).route msg

def run (market : Market) (messages : List ItchMsg) : Market :=
  messages.foldl (fun market msg => (market.apply msg).1) market

end Market

/-! ## What a message changes -/

namespace Market

@[simp] theorem countMessage_refdata (market : Market) (type : UInt8) :
    (market.countMessage type).refdata = market.refdata := rfl

@[simp] theorem countMessage_books (market : Market) (type : UInt8) :
    (market.countMessage type).books = market.books := rfl

@[simp] theorem countMessage_tape (market : Market) (type : UInt8) :
    (market.countMessage type).tape = market.tape := rfl

@[simp] theorem countMessage_seconds (market : Market) (type : UInt8) :
    (market.countMessage type).seconds = market.seconds := rfl

/-- The store applied to a message that `route` may keep away from it. -/
def storeStep (books : OrderBookStore) : ItchMsg → OrderBookStore × Option Execution
  | .addOrder order =>
      if order.orderNumber = 0 then (books, none) else books.apply (.addOrder order)
  | msg => books.apply msg

theorem apply_refdata (market : Market) (msg : ItchMsg) :
    (market.apply msg).1.refdata = market.refdata.apply msg := by
  cases msg with
  | addOrder order =>
      by_cases reference : order.orderNumber = 0 <;>
        simp [apply, route, RefData.apply, reference]
  | executed ns orderNumber executedQty matchNumber =>
      simp only [apply, route, countMessage_books]
      split <;> rfl
  | _ => rfl

theorem apply_books (market : Market) (msg : ItchMsg) :
    (market.apply msg).1.books = (storeStep market.books msg).1 := by
  cases msg with
  | addOrder order =>
      by_cases reference : order.orderNumber = 0 <;>
        simp [apply, route, storeStep, reference]
  | executed ns orderNumber executedQty matchNumber =>
      simp only [apply, route, countMessage_books, storeStep]
      split
      · next books execution stepped => rw [stepped]
      · next books stepped => rw [stepped]
  | _ => rfl

theorem apply_tape (market : Market) (msg : ItchMsg) :
    (market.apply msg).1.tape =
      match (storeStep market.books msg).2 with
      | none => market.tape
      | some execution =>
          market.tape.record execution (market.basePrice execution.orderbookId) := by
  cases msg with
  | addOrder order =>
      by_cases reference : order.orderNumber = 0 <;>
        simp [apply, route, storeStep, reference, OrderBookStore.apply]
  | executed ns orderNumber executedQty matchNumber =>
      simp only [apply, route, countMessage_books, storeStep]
      split
      · next books execution stepped => rw [stepped]; rfl
      · next books stepped => rw [stepped]; rfl
  | _ => rfl

theorem apply_seconds (market : Market) (msg : ItchMsg) :
    (market.apply msg).1.seconds =
      match msg with
      | .seconds seconds => seconds.toUInt64
      | _ => market.seconds := by
  cases msg with
  | addOrder order =>
      by_cases reference : order.orderNumber = 0 <;>
        simp [apply, route, reference]
  | executed ns orderNumber executedQty matchNumber =>
      simp only [apply, route, countMessage_books]
      split <;> rfl
  | _ => rfl

theorem storeStep_orders (books : OrderBookStore) (msg : ItchMsg) :
    (storeStep books msg).1.orders = books.orders.apply msg := by
  cases msg with
  | addOrder order =>
      by_cases reference : order.orderNumber = 0
      · simp [storeStep, reference, OrderMap.apply, OrderMap.place]
      · simp only [storeStep, reference, if_false, OrderBookStore.apply_orders]
  | _ => exact OrderBookStore.apply_orders books _

@[simp] theorem apply_orders (market : Market) (msg : ItchMsg) :
    (market.apply msg).1.books.orders = market.books.orders.apply msg := by
  rw [apply_books, storeStep_orders]

theorem apply_trigger (market : Market) (msg : ItchMsg) :
    (market.apply msg).2.trigger = msg.type := by
  cases msg with
  | addOrder order =>
      by_cases reference : order.orderNumber = 0 <;>
        simp [apply, route, reference, addResult, ItchMsg.type, OrderOp.toByte]
  | executed ns orderNumber executedQty matchNumber | deleted ns orderNumber
  | replaced ns origOrderNumber newOrderNumber qty price =>
      simp only [apply, route, countMessage_books]
      split <;> rfl
  | _ => rfl

/-! ## What a message reports -/

def executionOf (order : Order) (executedQty : UInt32) (matchNumber : UInt64) : Execution where
  orderbookId := order.orderbookId
  group := order.group
  side := order.side
  price := order.price
  qty := OrderBookStore.clampedQty order executedQty
  matchNumber := matchNumber

theorem storeStep_execution (books : OrderBookStore) (msg : ItchMsg) :
    (storeStep books msg).2 =
      match msg with
      | .executed _ orderNumber executedQty matchNumber =>
          (books.orders.find? orderNumber).map fun order =>
            executionOf order executedQty matchNumber
      | _ => none := by
  cases msg with
  | addOrder order =>
      by_cases reference : order.orderNumber = 0 <;>
        simp [storeStep, reference, OrderBookStore.apply]
  | executed ns orderNumber executedQty matchNumber =>
      change (books.execute orderNumber executedQty matchNumber).2 = _
      cases found : books.orders.find? orderNumber with
      | none => simp [OrderBookStore.execute, found]
      | some order => simp [OrderBookStore.execute, found, executionOf]
  | _ => rfl

theorem apply_executed_result (market : Market) (ns : UInt32) (orderNumber : UInt64)
    (executedQty : UInt32) (matchNumber : UInt64) :
    (market.apply (.executed ns orderNumber executedQty matchNumber)).2 =
      match market.books.orders.find? orderNumber with
      | some order =>
          executionResult orderNumber order.orderType (executionOf order executedQty matchNumber)
      | none => { trigger := ascii 'E' } := by
  have stepped : (market.books.apply (.executed ns orderNumber executedQty matchNumber)).2 =
      (market.books.orders.find? orderNumber).map fun order =>
        executionOf order executedQty matchNumber :=
    storeStep_execution market.books (.executed ns orderNumber executedQty matchNumber)
  simp only [apply, route, countMessage_books]
  cases found : market.books.orders.find? orderNumber with
  | none =>
      rw [found] at stepped
      split
      · next books execution equal => rw [equal] at stepped; cases stepped
      · rfl
  | some order =>
      rw [found] at stepped
      split
      · next books execution equal => rw [equal] at stepped; cases stepped; rfl
      · next books equal => rw [equal] at stepped; cases stepped

theorem apply_deleted_result (market : Market) (ns : UInt32) (orderNumber : UInt64) :
    (market.apply (.deleted ns orderNumber)).2 =
      match market.books.orders.find? orderNumber with
      | some order => deletionResult orderNumber order
      | none => { trigger := ascii 'D' } := rfl

theorem apply_replaced_result (market : Market) (ns : UInt32)
    (origOrderNumber newOrderNumber : UInt64) (qty price : UInt32) :
    (market.apply (.replaced ns origOrderNumber newOrderNumber qty price)).2 =
      match market.books.orders.find? origOrderNumber with
      | some order => replacementResult origOrderNumber newOrderNumber qty price order
      | none => { trigger := ascii 'U' } := rfl

theorem apply_addOrder_result (market : Market) (order : AddOrder) :
    (market.apply (.addOrder order)).2 =
      if order.orderNumber = 0 then
        { trigger := ascii 'A', ticker := order.orderbookId, group := order.group }
      else addResult order .A space := by
  by_cases reference : order.orderNumber = 0 <;> simp [apply, route, reference]

theorem run_concat (market : Market) (messages : List ItchMsg) (msg : ItchMsg) :
    market.run (messages ++ [msg]) = ((market.run messages).apply msg).1 := by
  simp only [run, List.foldl_append, List.foldl_cons, List.foldl_nil]

end Market

end ProtoFH
