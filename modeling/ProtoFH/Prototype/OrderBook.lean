import ProtoFH.Foundation.Bisect
import ProtoFH.Foundation.Dictionary
import ProtoFH.Prototype.Codec

/-! # The prototype's order store

Live orders by order number and, for every book, price levels kept as a sorted price
list beside a dictionary of quantities. A removal from a price that is not there, or
of more than is there, raises. -/

namespace ProtoFH.Prototype

inductive ApplyError where
  | keyError (price : Nat)
  | valueError (price held qty : Nat)
deriving DecidableEq

structure SideLevels where
  prices : List Nat := []
  qty : Dict Nat Nat := ∅

namespace SideLevels

def add (side : SideLevels) (price qty : Nat) : SideLevels :=
  match side.qty.find? price with
  | none => { prices := insort side.prices price, qty := side.qty.set price qty }
  | some cur => { side with qty := side.qty.set price (cur + qty) }

def remove (side : SideLevels) (price qty : Nat) : Except ApplyError SideLevels :=
  match side.qty.find? price with
  | none => .error (.keyError price)
  | some held =>
      if held < qty then .error (.valueError price held qty)
      else if held = qty then
        .ok { prices := side.prices.eraseIdx (bisectLeft side.prices price)
              qty := side.qty.erase price }
      else .ok { side with qty := side.qty.set price (held - qty) }

end SideLevels

structure Book where
  bids : SideLevels := {}
  asks : SideLevels := {}

namespace Book

/-- `side == BUY` -/
def isBid (side : Text) : Bool := side = [ascii 'B']

def side (book : Book) (s : Text) : SideLevels := if isBid s then book.bids else book.asks

def setSide (book : Book) (s : Text) (levels : SideLevels) : Book :=
  if isBid s then { book with bids := levels } else { book with asks := levels }

def add (book : Book) (s : Text) (price qty : Nat) : Book :=
  book.setSide s ((book.side s).add price qty)

def remove (book : Book) (s : Text) (price qty : Nat) : Except ApplyError Book := do
  let levels ← (book.side s).remove price qty
  return book.setSide s levels

end Book

structure Order where
  orderNumber : Nat
  orderbookId : Text
  group : Text
  side : Text
  price : Nat
  remainingQty : Nat
deriving DecidableEq

structure Execution where
  orderbookId : Text
  group : Text
  side : Text
  price : Nat
  qty : Nat
  matchNumber : Nat
deriving DecidableEq

structure OrderBookStore where
  orders : Dict Nat Order := ∅
  books : Dict Text Book := ∅
  collisions : Nat := 0
  orphanExecutes : Nat := 0
  orphanDeletes : Nat := 0
  orphanReplaces : Nat := 0
  refPriceIgnored : Nat := 0
  executedVolume : Nat := 0
  executionCount : Nat := 0

namespace OrderBookStore

/-- `book(orderbook_id)`: the book under that id, created empty on first use. -/
def book (store : OrderBookStore) (orderbookId : Text) : Book :=
  (store.books.find? orderbookId).getD {}

def setBook (store : OrderBookStore) (orderbookId : Text) (book : Book) : OrderBookStore :=
  { store with books := store.books.set orderbookId book }

/-- The tail of `_insert`: store the order and add it to its level. -/
def put (store : OrderBookStore) (order : Order) : OrderBookStore :=
  { store with orders := store.orders.set order.orderNumber order }.setBook order.orderbookId
    ((store.book order.orderbookId).add order.side order.price order.remainingQty)

/-- `_remove_order`. What it has deleted already when the level raises is lost with
the exception. -/
def removeOrder (store : OrderBookStore) (order : Order) : Except ApplyError OrderBookStore := do
  let book ← (store.book order.orderbookId).remove order.side order.price order.remainingQty
  return { store with orders := store.orders.erase order.orderNumber }.setBook
    order.orderbookId book

def insert (store : OrderBookStore) (order : Order) : Except ApplyError OrderBookStore :=
  match store.orders.find? order.orderNumber with
  | none => .ok (store.put order)
  | some existing => do
      let removed ← { store with collisions := store.collisions + 1 }.removeOrder existing
      return removed.put order

def clampedQty (order : Order) (executedQty : Nat) : Nat :=
  if executedQty > order.remainingQty then order.remainingQty else executedQty

def execute (store : OrderBookStore) (orderNumber executedQty matchNumber : Nat) :
    Except ApplyError (OrderBookStore × Option Execution) :=
  match store.orders.find? orderNumber with
  | none => .ok ({ store with orphanExecutes := store.orphanExecutes + 1 }, none)
  | some order => do
      let qty := clampedQty order executedQty
      let left := order.remainingQty - qty
      let book ← (store.book order.orderbookId).remove order.side order.price qty
      let execution : Execution :=
        { orderbookId := order.orderbookId, group := order.group, side := order.side
          price := order.price, qty, matchNumber }
      return ({ store with
          orders :=
            if left = 0 then store.orders.erase order.orderNumber
            else store.orders.set order.orderNumber { order with remainingQty := left }
          executedVolume := store.executedVolume + qty
          executionCount := store.executionCount + 1 }.setBook order.orderbookId book,
        some execution)

def delete (store : OrderBookStore) (orderNumber : Nat) : Except ApplyError OrderBookStore :=
  match store.orders.find? orderNumber with
  | none => .ok { store with orphanDeletes := store.orphanDeletes + 1 }
  | some order => store.removeOrder order

/-- `_replace`: the new order inherits book, group and side. -/
def replace (store : OrderBookStore) (origOrderNumber newOrderNumber qty price : Nat) :
    Except ApplyError OrderBookStore :=
  match store.orders.find? origOrderNumber with
  | none => .ok { store with orphanReplaces := store.orphanReplaces + 1 }
  | some orig => do
      let removed ← store.removeOrder orig
      removed.insert
        { orig with orderNumber := newOrderNumber, price := price, remainingQty := qty }

def applyAdded (store : OrderBookStore) (msg : OrderAdded) : Except ApplyError OrderBookStore :=
  if msg.orderNumber = 0 then .ok { store with refPriceIgnored := store.refPriceIgnored + 1 }
  else
    store.insert
      { orderNumber := msg.orderNumber, orderbookId := msg.orderbookId, group := msg.group
        side := msg.side, price := msg.price, remainingQty := msg.qty }

def apply (store : OrderBookStore) :
    Message → Except ApplyError (OrderBookStore × Option Execution)
  | .orderAdded msg => return (← store.applyAdded msg, none)
  | .orderAddedWithAttributes msg _ _ => return (← store.applyAdded msg, none)
  | .orderExecuted _ orderNumber executedQty matchNumber =>
      store.execute orderNumber executedQty matchNumber
  | .orderDeleted _ orderNumber => return (← store.delete orderNumber, none)
  | .orderReplaced _ origOrderNumber newOrderNumber qty price =>
      return (← store.replace origOrderNumber newOrderNumber qty price, none)
  | _ => .ok (store, none)

end OrderBookStore

end ProtoFH.Prototype
