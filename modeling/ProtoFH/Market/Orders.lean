import ProtoFH.Itch.Message
import ProtoFH.Market.Levels

/-! # The order store

Live orders by order number together with the price levels of every book they
touched. `OrderBookStore.apply` keeps the two in step; what it does to the
orders alone is `OrderMap.apply`. -/

namespace ProtoFH

structure Order where
  orderNumber : UInt64
  orderbookId : CStr 4
  group : CStr 4
  side : UInt8
  price : UInt32
  remainingQty : UInt32
  orderType : UInt8
deriving DecidableEq

abbrev OrderMap := KeyedMap Order.orderNumber

structure Execution where
  orderbookId : CStr 4
  group : CStr 4
  side : UInt8
  price : UInt32
  qty : UInt32
  matchNumber : UInt64
deriving DecidableEq

structure OrderBookStore where
  orders : OrderMap := ∅
  books : OrderedMap (CStr 4) Book := ∅
  collisions : UInt64 := 0
  orphanExecutes : UInt64 := 0
  orphanDeletes : UInt64 := 0
  orphanReplaces : UInt64 := 0
  refPriceIgnored : UInt64 := 0
  clampedExecutions : UInt64 := 0
  executedVolume : UInt64 := 0
  executionCount : UInt64 := 0

def AddOrder.toOrder (msg : AddOrder) (orderType : UInt8) : Order where
  orderNumber := msg.orderNumber
  orderbookId := msg.orderbookId
  group := msg.group
  side := msg.side
  price := msg.price
  remainingQty := msg.qty
  orderType := orderType

namespace OrderBookStore

/-- `book(orderbook_id)`: the book under that id, created empty on first use. -/
def book (store : OrderBookStore) (orderbookId : CStr 4) : Book :=
  store.books[orderbookId]?.getD {}

def setBook (store : OrderBookStore) (orderbookId : CStr 4) (book : Book) : OrderBookStore :=
  { store with books := store.books.insert orderbookId book }

/-- `restore_order`: store the order and add it to its level. Also the tail of `insert`. -/
def restoreOrder (store : OrderBookStore) (order : Order) : OrderBookStore :=
  { store with orders := store.orders.insert order }.setBook order.orderbookId
    ((store.book order.orderbookId).add order.side order.price order.remainingQty)

def removeOrder (store : OrderBookStore) (order : Order) : OrderBookStore :=
  { store with orders := store.orders.erase order.orderNumber }.setBook order.orderbookId
    ((store.book order.orderbookId).remove order.side order.price order.remainingQty true)

def insert (store : OrderBookStore) (order : Order) : OrderBookStore :=
  match store.orders.find? order.orderNumber with
  | none => store.restoreOrder order
  | some stale =>
      ({ store with collisions := store.collisions + 1 }.removeOrder stale).restoreOrder order

def clampedQty (order : Order) (executedQty : UInt32) : UInt32 :=
  if executedQty > order.remainingQty then order.remainingQty else executedQty

def execute (store : OrderBookStore) (orderNumber : UInt64) (executedQty : UInt32)
    (matchNumber : UInt64) : OrderBookStore × Option Execution :=
  match store.orders.find? orderNumber with
  | none => ({ store with orphanExecutes := store.orphanExecutes + 1 }, none)
  | some order =>
      let qty := clampedQty order executedQty
      let left := order.remainingQty - qty
      let book :=
        (store.book order.orderbookId).remove order.side order.price qty (left = 0)
      let execution : Execution :=
        { orderbookId := order.orderbookId, group := order.group, side := order.side
          price := order.price, qty := qty, matchNumber := matchNumber }
      ({ store with
          orders :=
            if left = 0 then store.orders.erase orderNumber
            else store.orders.insert { order with remainingQty := left }
          clampedExecutions :=
            if executedQty > order.remainingQty then store.clampedExecutions + 1
            else store.clampedExecutions
          executedVolume := store.executedVolume + qty.toUInt64
          executionCount := store.executionCount + 1 }.setBook order.orderbookId book,
        some execution)

def erase (store : OrderBookStore) (orderNumber : UInt64) : OrderBookStore :=
  match store.orders.find? orderNumber with
  | none => { store with orphanDeletes := store.orphanDeletes + 1 }
  | some order => store.removeOrder order

def replace (store : OrderBookStore) (origOrderNumber newOrderNumber : UInt64)
    (qty price : UInt32) : OrderBookStore :=
  match store.orders.find? origOrderNumber with
  | none => { store with orphanReplaces := store.orphanReplaces + 1 }
  | some order =>
      (store.removeOrder order).insert
        { order with orderNumber := newOrderNumber, price := price, remainingQty := qty }

def applyAdd (store : OrderBookStore) (msg : AddOrder) (orderType : UInt8) : OrderBookStore :=
  if msg.orderNumber = 0 then { store with refPriceIgnored := store.refPriceIgnored + 1 }
  else store.insert (msg.toOrder orderType)

def apply (store : OrderBookStore) : ItchMsg → OrderBookStore × Option Execution
  | .addOrder msg => (store.applyAdd msg space, none)
  | .addAttributed msg _ orderType => (store.applyAdd msg orderType, none)
  | .executed _ orderNumber executedQty matchNumber =>
      store.execute orderNumber executedQty matchNumber
  | .deleted _ orderNumber => (store.erase orderNumber, none)
  | .replaced _ origOrderNumber newOrderNumber qty price =>
      (store.replace origOrderNumber newOrderNumber qty price, none)
  | _ => (store, none)

end OrderBookStore

/-! ## The orders alone -/

namespace OrderMap

def fill (orders : OrderMap) (orderNumber : UInt64) (executedQty : UInt32) : OrderMap :=
  match orders.find? orderNumber with
  | none => orders
  | some order =>
      let left := order.remainingQty - OrderBookStore.clampedQty order executedQty
      if left = 0 then orders.erase orderNumber
      else orders.insert { order with remainingQty := left }

def replace (orders : OrderMap) (origOrderNumber newOrderNumber : UInt64)
    (qty price : UInt32) : OrderMap :=
  match orders.find? origOrderNumber with
  | none => orders
  | some order =>
      (orders.erase origOrderNumber).insert
        { order with orderNumber := newOrderNumber, price := price, remainingQty := qty }

def place (orders : OrderMap) (msg : AddOrder) (orderType : UInt8) : OrderMap :=
  if msg.orderNumber = 0 then orders else orders.insert (msg.toOrder orderType)

def apply (orders : OrderMap) : ItchMsg → OrderMap
  | .addOrder msg => orders.place msg space
  | .addAttributed msg _ orderType => orders.place msg orderType
  | .executed _ orderNumber executedQty _ => orders.fill orderNumber executedQty
  | .deleted _ orderNumber => orders.erase orderNumber
  | .replaced _ origOrderNumber newOrderNumber qty price =>
      orders.replace origOrderNumber newOrderNumber qty price
  | _ => orders

end OrderMap

namespace OrderBookStore

@[simp] theorem setBook_orders (store : OrderBookStore) (orderbookId : CStr 4) (book : Book) :
    (store.setBook orderbookId book).orders = store.orders := rfl

@[simp] theorem restoreOrder_orders (store : OrderBookStore) (order : Order) :
    (store.restoreOrder order).orders = store.orders.insert order := rfl

@[simp] theorem removeOrder_orders (store : OrderBookStore) (order : Order) :
    (store.removeOrder order).orders = store.orders.erase order.orderNumber := rfl

@[simp] theorem insert_orders (store : OrderBookStore) (order : Order) :
    (store.insert order).orders = store.orders.insert order := by
  unfold insert
  split
  · rfl
  · next stale found =>
      have number : stale.orderNumber = order.orderNumber := KeyedMap.key_of_find? found
      rw [restoreOrder_orders, removeOrder_orders, number]
      exact KeyedMap.erase_insert_self store.orders order

@[simp] theorem applyAdd_orders (store : OrderBookStore) (msg : AddOrder) (orderType : UInt8) :
    (store.applyAdd msg orderType).orders = store.orders.place msg orderType := by
  unfold applyAdd OrderMap.place
  split
  · rfl
  · exact insert_orders store _

@[simp] theorem execute_orders (store : OrderBookStore) (orderNumber : UInt64)
    (executedQty : UInt32) (matchNumber : UInt64) :
    (store.execute orderNumber executedQty matchNumber).1.orders =
      store.orders.fill orderNumber executedQty := by
  cases found : store.orders.find? orderNumber with
  | none => simp only [execute, OrderMap.fill, found]
  | some order => simp only [execute, OrderMap.fill, found, setBook_orders]

@[simp] theorem erase_orders (store : OrderBookStore) (orderNumber : UInt64) :
    (store.erase orderNumber).orders = store.orders.erase orderNumber := by
  cases found : store.orders.find? orderNumber with
  | none => simp only [erase, found, KeyedMap.erase_of_find?_eq_none found]
  | some order =>
      simp only [erase, found, removeOrder_orders, KeyedMap.key_of_find? found]

@[simp] theorem replace_orders (store : OrderBookStore) (origOrderNumber newOrderNumber : UInt64)
    (qty price : UInt32) :
    (store.replace origOrderNumber newOrderNumber qty price).orders =
      store.orders.replace origOrderNumber newOrderNumber qty price := by
  cases found : store.orders.find? origOrderNumber with
  | none => simp only [replace, OrderMap.replace, found]
  | some order =>
      simp only [replace, OrderMap.replace, found, insert_orders, removeOrder_orders,
        KeyedMap.key_of_find? found]

theorem apply_orders (store : OrderBookStore) (msg : ItchMsg) :
    (store.apply msg).1.orders = store.orders.apply msg := by
  cases msg <;> simp [apply, OrderMap.apply]

end OrderBookStore

end ProtoFH
