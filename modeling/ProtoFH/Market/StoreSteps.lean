import ProtoFH.Market.Orders

/-! # The store, step by step

Whatever a message does to the store comes down to two moves: a quantity is taken
off a live order and its level, and an order is put under a number that is not
live. `OrderMap.takings` and `OrderMap.placed` say which of them a message makes;
an invariant that both moves keep is kept by `OrderBookStore.apply`. -/

namespace ProtoFH

structure BookSide where
  orderbookId : CStr 4
  bid : Bool
deriving DecidableEq

structure LevelKey where
  orderbookId : CStr 4
  bid : Bool
  price : UInt32
deriving DecidableEq

def LevelKey.bookSide (key : LevelKey) : BookSide := ⟨key.orderbookId, key.bid⟩

def Order.bookSide (order : Order) : BookSide := ⟨order.orderbookId, Book.isBid order.side⟩

def Order.levelKey (order : Order) : LevelKey :=
  ⟨order.orderbookId, Book.isBid order.side, order.price⟩

@[simp] theorem Order.bookSide_levelKey (order : Order) :
    order.levelKey.bookSide = order.bookSide := rfl

theorem Order.levelKey_eq_iff (order : Order) (key : LevelKey) :
    order.levelKey = key ↔ order.bookSide = key.bookSide ∧ order.price = key.price := by
  cases key
  simp [Order.levelKey, Order.bookSide, LevelKey.bookSide, and_assoc]

theorem Order.ite_levelKey {α : Type*} (order : Order) (key : LevelKey) (here other : α) :
    (if order.levelKey = key then here else other) =
      if order.bookSide = key.bookSide then if order.price = key.price then here else other
      else other := by
  rw [if_congr (order.levelKey_eq_iff key) rfl rfl, ite_and]

/-! ## Taking and placing -/

/-- A quantity coming off a live order: part of it in a fill, all of it when the
order leaves. -/
structure Taking where
  order : Order
  qty : UInt32

namespace Taking

def whole (order : Order) : Taking := ⟨order, order.remainingQty⟩

def left (taking : Taking) : UInt32 := taking.order.remainingQty - taking.qty

def remainder (taking : Taking) : Order := { taking.order with remainingQty := taking.left }

structure Possible (taking : Taking) (orders : OrderMap) : Prop where
  live : orders.find? taking.order.orderNumber = some taking.order
  part : taking.qty ≤ taking.order.remainingQty

theorem whole_left (order : Order) : (whole order).left = 0 := UInt32.sub_self _

theorem Possible.whole {orders : OrderMap} {orderNumber : UInt64} {order : Order}
    (found : orders.find? orderNumber = some order) : (whole order).Possible orders where
  live := by
    rw [← KeyedMap.key_of_find? found] at found
    exact found
  part := UInt32.le_refl _

theorem Possible.qty_add_left {taking : Taking} {orders : OrderMap}
    (possible : taking.Possible orders) :
    taking.qty.toNat + taking.left.toNat = taking.order.remainingQty.toNat := by
  have part := UInt32.le_iff_toNat_le.mp possible.part
  rw [left, UInt32.toNat_sub_of_le _ _ possible.part]
  omega

end Taking

theorem clampedQty_le (order : Order) (executedQty : UInt32) :
    OrderBookStore.clampedQty order executedQty ≤ order.remainingQty := by
  rw [OrderBookStore.clampedQty]
  split
  · exact UInt32.le_refl _
  · next within => exact UInt32.not_lt.mp within

namespace OrderMap

def take (orders : OrderMap) (taking : Taking) : OrderMap :=
  if taking.left = 0 then orders.erase taking.order.orderNumber
  else orders.insert taking.remainder

theorem take_whole (orders : OrderMap) (order : Order) :
    orders.take (.whole order) = orders.erase order.orderNumber :=
  if_pos (Taking.whole_left order)

theorem total_take {orders : OrderMap} {taking : Taking} (possible : taking.Possible orders)
    (weight : Order → Nat) :
    orders.total weight + (if taking.left = 0 then 0 else weight taking.remainder) =
      weight taking.order + (orders.take taking).total weight := by
  have before := KeyedMap.total_erase weight possible.live
  by_cases gone : taking.left = 0
  · rw [take, if_pos gone, if_pos gone, before]
    rfl
  · have after : (orders.insert taking.remainder).total weight =
        weight taking.remainder + (orders.erase taking.order.orderNumber).total weight :=
      KeyedMap.total_insert orders taking.remainder weight
    rw [take, if_neg gone, if_neg gone, before, after]
    omega

def displaced (orders : OrderMap) (orderNumber : UInt64) : List Taking :=
  ((orders.find? orderNumber).map Taking.whole).toList

/-- What a message takes off the live orders, in this order: a fill, a deleted or
replaced order, and the stale order under a number that collides. -/
def takings (orders : OrderMap) : ItchMsg → List Taking
  | .addOrder msg => if msg.orderNumber = 0 then [] else orders.displaced msg.orderNumber
  | .addAttributed msg _ _ => if msg.orderNumber = 0 then [] else orders.displaced msg.orderNumber
  | .executed _ orderNumber executedQty _ =>
      match orders.find? orderNumber with
      | none => []
      | some order => [⟨order, OrderBookStore.clampedQty order executedQty⟩]
  | .deleted _ orderNumber => orders.displaced orderNumber
  | .replaced _ origOrderNumber newOrderNumber _ _ =>
      match orders.find? origOrderNumber with
      | none => []
      | some order => .whole order :: displaced (orders.erase origOrderNumber) newOrderNumber
  | _ => []

def placed (orders : OrderMap) : ItchMsg → Option Order
  | .addOrder msg => if msg.orderNumber = 0 then none else some (msg.toOrder space)
  | .addAttributed msg _ orderType =>
      if msg.orderNumber = 0 then none else some (msg.toOrder orderType)
  | .replaced _ origOrderNumber newOrderNumber qty price =>
      (orders.find? origOrderNumber).map fun order =>
        { order with orderNumber := newOrderNumber, price := price, remainingQty := qty }
  | _ => none

def AllPossible : OrderMap → List Taking → Prop
  | _, [] => True
  | orders, taking :: rest => taking.Possible orders ∧ AllPossible (orders.take taking) rest

theorem displaced_possible (orders : OrderMap) (orderNumber : UInt64) :
    AllPossible orders (orders.displaced orderNumber) := by
  rw [displaced]
  cases found : orders.find? orderNumber with
  | none => trivial
  | some order => exact ⟨.whole found, trivial⟩

theorem foldl_displaced (orders : OrderMap) (orderNumber : UInt64) :
    (orders.displaced orderNumber).foldl take orders = orders.erase orderNumber := by
  rw [displaced]
  cases found : orders.find? orderNumber with
  | none => exact (KeyedMap.erase_of_find?_eq_none found).symm
  | some order =>
      rw [← KeyedMap.key_of_find? found]
      exact take_whole orders order

theorem takings_possible (orders : OrderMap) (msg : ItchMsg) :
    AllPossible orders (orders.takings msg) := by
  cases msg with
  | addOrder order | addAttributed order attribution orderType =>
      rw [takings]
      split
      · trivial
      · exact displaced_possible orders _
  | executed ns orderNumber executedQty matchNumber =>
      rw [takings]
      cases found : orders.find? orderNumber with
      | none => trivial
      | some order =>
          exact ⟨⟨(Taking.Possible.whole found).live, clampedQty_le order executedQty⟩, trivial⟩
  | deleted ns orderNumber => exact displaced_possible orders orderNumber
  | replaced ns origOrderNumber newOrderNumber qty price =>
      rw [takings]
      cases found : orders.find? origOrderNumber with
      | none => trivial
      | some order =>
          refine ⟨.whole found, ?_⟩
          rw [take_whole, KeyedMap.key_of_find? found]
          exact displaced_possible _ newOrderNumber
  | _ => trivial

theorem placed_fresh {orders : OrderMap} {msg : ItchMsg} {order : Order}
    (places : orders.placed msg = some order) :
    ((orders.takings msg).foldl take orders).find? order.orderNumber = none := by
  cases msg with
  | addOrder added | addAttributed added attribution orderType =>
      by_cases reference : added.orderNumber = 0
      · simp [placed, reference] at places
      · rw [placed, if_neg reference] at places
        rw [takings, if_neg reference, foldl_displaced, ← Option.some.inj places]
        exact KeyedMap.find?_erase_self _ _
  | replaced ns origOrderNumber newOrderNumber qty price =>
      rw [placed] at places
      rcases Option.map_eq_some_iff.mp places with ⟨original, found, rfl⟩
      rw [takings, found]
      change
        ((displaced _ _).foldl take (orders.take (.whole original))).find? newOrderNumber = none
      rw [take_whole, KeyedMap.key_of_find? found, foldl_displaced]
      exact KeyedMap.find?_erase_self _ _
  | _ => cases places

end OrderMap

namespace OrderBookStore

/-- A taking also comes off the order's level, in one call of `Book::remove`. -/
def take (store : OrderBookStore) (taking : Taking) : OrderBookStore :=
  { store with orders := store.orders.take taking }.setBook taking.order.orderbookId
    ((store.book taking.order.orderbookId).remove taking.order.side taking.order.price taking.qty
      (taking.left = 0))

@[simp] theorem take_orders (store : OrderBookStore) (taking : Taking) :
    (store.take taking).orders = store.orders.take taking := rfl

theorem foldl_take_orders (takings : List Taking) (store : OrderBookStore) :
    (takings.foldl take store).orders = takings.foldl OrderMap.take store.orders := by
  induction takings generalizing store with
  | nil => rfl
  | cons taking takings induction => exact induction (store.take taking)

def place (store : OrderBookStore) : Option Order → OrderBookStore
  | none => store
  | some order => store.restoreOrder order

structure Alike (store other : OrderBookStore) : Prop where
  orders : store.orders = other.orders
  books : store.books = other.books

variable {store other : OrderBookStore}

theorem Alike.symm (alike : store.Alike other) : other.Alike store :=
  ⟨alike.orders.symm, alike.books.symm⟩

theorem Alike.take (alike : store.Alike other) (taking : Taking) :
    (store.take taking).Alike (other.take taking) where
  orders := congrArg (·.take taking) alike.orders
  books := by simp only [OrderBookStore.take, setBook, book, alike.books]

theorem Alike.restoreOrder (alike : store.Alike other) (order : Order) :
    (store.restoreOrder order).Alike (other.restoreOrder order) where
  orders := congrArg (·.insert order) alike.orders
  books := by simp only [OrderBookStore.restoreOrder, setBook, book, alike.books]

theorem removeOrder_eq_take (store : OrderBookStore) (order : Order) :
    store.removeOrder order = store.take (.whole order) := by
  rw [take, OrderMap.take_whole, Taking.whole_left]
  rfl

theorem insert_alike (store : OrderBookStore) (order : Order) :
    (store.insert order).Alike
      (((store.orders.displaced order.orderNumber).foldl take store).restoreOrder order) := by
  rw [insert, OrderMap.displaced]
  cases found : store.orders.find? order.orderNumber with
  | none => exact ⟨rfl, rfl⟩
  | some stale =>
      have counted : Alike { store with collisions := store.collisions + 1 } store := ⟨rfl, rfl⟩
      apply Alike.restoreOrder
      rw [removeOrder_eq_take]
      exact counted.take (.whole stale)

theorem apply_alike (store : OrderBookStore) (msg : ItchMsg) :
    (store.apply msg).1.Alike
      (((store.orders.takings msg).foldl take store).place (store.orders.placed msg)) := by
  cases msg with
  | addOrder order | addAttributed order attribution orderType =>
      rw [apply, applyAdd, OrderMap.takings, OrderMap.placed]
      split
      · exact ⟨rfl, rfl⟩
      · exact insert_alike store _
  | executed ns orderNumber executedQty matchNumber =>
      rw [apply, execute, OrderMap.takings]
      cases found : store.orders.find? orderNumber with
      | none => exact ⟨rfl, rfl⟩
      | some order =>
          refine ⟨?_, rfl⟩
          rw [← KeyedMap.key_of_find? found]
          rfl
  | deleted ns orderNumber =>
      rw [apply, erase, OrderMap.takings, OrderMap.displaced]
      cases found : store.orders.find? orderNumber with
      | none => exact ⟨rfl, rfl⟩
      | some order =>
          change (store.removeOrder order).Alike _
          rw [removeOrder_eq_take]
          exact ⟨rfl, rfl⟩
  | replaced ns origOrderNumber newOrderNumber qty price =>
      rw [apply, replace, OrderMap.takings, OrderMap.placed]
      cases found : store.orders.find? origOrderNumber with
      | none => exact ⟨rfl, rfl⟩
      | some order =>
          have alike := insert_alike (store.removeOrder order)
            { order with orderNumber := newOrderNumber, price := price, remainingQty := qty }
          rw [removeOrder_orders, KeyedMap.key_of_find? found] at alike
          change ((store.removeOrder order).insert _).Alike
            (((OrderMap.displaced _ _).foldl take (store.take (.whole order))).restoreOrder _)
          rw [← removeOrder_eq_take]
          exact alike
  | _ => exact ⟨rfl, rfl⟩

theorem apply_invariant (before : OrderBookStore → Prop) {after : OrderBookStore → Prop}
    (congr : ∀ {store other}, OrderBookStore.Alike store other → after other → after store)
    (taken : ∀ {store taking}, taking.Possible store.orders → before store →
      before (store.take taking))
    (kept : ∀ {store}, before store → after store)
    (put : ∀ {store order}, store.orders.find? order.orderNumber = none → before store →
      after (store.restoreOrder order))
    {store : OrderBookStore} (start : before store) (msg : ItchMsg) :
    after (store.apply msg).1 := by
  have during (takings : List Taking) {store : OrderBookStore}
      (possible : OrderMap.AllPossible store.orders takings) (start : before store) :
      before (takings.foldl take store) := by
    induction takings generalizing store with
    | nil => exact start
    | cons taking takings induction => exact induction possible.2 (taken possible.1 start)
  have reached := during _ (store.orders.takings_possible msg) start
  apply congr (apply_alike store msg)
  cases places : store.orders.placed msg with
  | none => exact kept reached
  | some order =>
      apply put _ reached
      rw [foldl_take_orders]
      exact OrderMap.placed_fresh places

/-! ## The levels of a side -/

def sideLevels (store : OrderBookStore) (bookSide : BookSide) : SideLevels :=
  if bookSide.bid then (store.book bookSide.orderbookId).bids
  else (store.book bookSide.orderbookId).asks

theorem Alike.sideLevels (alike : store.Alike other) (bookSide : BookSide) :
    store.sideLevels bookSide = other.sideLevels bookSide := by
  simp only [OrderBookStore.sideLevels, book, alike.books]

@[simp] theorem sideLevels_empty (bookSide : BookSide) :
    ({} : OrderBookStore).sideLevels bookSide = {} := by
  simp [sideLevels, book]

theorem sideLevels_setSide (store : OrderBookStore) (order : Order) (levels : SideLevels)
    (bookSide : BookSide) :
    (store.setBook order.orderbookId
        ((store.book order.orderbookId).setSide order.side levels)).sideLevels bookSide =
      if order.bookSide = bookSide then levels else store.sideLevels bookSide := by
  rcases bookSide with ⟨orderbookId, bid⟩
  by_cases sameBook : order.orderbookId = orderbookId
  · subst sameBook
    cases side : Book.isBid order.side <;> cases bid <;>
      simp [sideLevels, book, setBook, Book.setSide, Order.bookSide, side]
  · have other : order.bookSide ≠ ⟨orderbookId, bid⟩ :=
      fun same => sameBook (congrArg BookSide.orderbookId same)
    rw [if_neg other]
    simp only [sideLevels, book, setBook, OrderedMap.lookup_insert_of_ne _ _ sameBook]

theorem sideLevels_restoreOrder (store : OrderBookStore) (order : Order) (bookSide : BookSide) :
    (store.restoreOrder order).sideLevels bookSide =
      if order.bookSide = bookSide then
        (store.sideLevels order.bookSide).add order.price order.remainingQty
      else store.sideLevels bookSide :=
  sideLevels_setSide { store with orders := store.orders.insert order } order _ bookSide

theorem sideLevels_take (store : OrderBookStore) (taking : Taking) (bookSide : BookSide) :
    (store.take taking).sideLevels bookSide =
      if taking.order.bookSide = bookSide then
        (store.sideLevels taking.order.bookSide).remove taking.order.price taking.qty
          (taking.left = 0)
      else store.sideLevels bookSide :=
  sideLevels_setSide { store with orders := store.orders.take taking } taking.order _ bookSide

/-! ## The calls of `SideLevels::remove` -/

structure RemoveCall where
  side : SideLevels
  price : UInt32
  qty : UInt32
  orderGone : Bool

def RemoveCall.returns (call : RemoveCall) : Bool := call.side.removeReturns call.price call.qty

def removeCalls : OrderBookStore → List Taking → List RemoveCall
  | _, [] => []
  | store, taking :: rest =>
      ⟨(store.book taking.order.orderbookId).side taking.order.side, taking.order.price,
        taking.qty, taking.left = 0⟩ :: removeCalls (store.take taking) rest

end OrderBookStore

end ProtoFH
