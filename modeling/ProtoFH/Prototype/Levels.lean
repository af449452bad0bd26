import ProtoFH.Foundation.Execution
import ProtoFH.Prototype.Market

/-! # The prototype's price levels

When a level of the prototype disappears because its quantity is zero, an order that
still rests there is stranded: the next message that touches it raises. While no
order is stranded, every level holds the sum of its orders and no message raises. -/

namespace ProtoFH.Prototype

structure BookSide where
  orderbookId : Text
  bid : Bool
deriving DecidableEq

structure LevelKey where
  bookSide : BookSide
  price : Nat
deriving DecidableEq

def Order.bookSide (order : Order) : BookSide := ⟨order.orderbookId, Book.isBid order.side⟩

def Order.levelKey (order : Order) : LevelKey := ⟨order.bookSide, order.price⟩

theorem Order.levelKey_eq_iff (order : Order) (key : LevelKey) :
    order.levelKey = key ↔ order.bookSide = key.bookSide ∧ order.price = key.price := by
  cases key
  simp [Order.levelKey]

theorem Order.ite_levelKey {α : Type*} (order : Order) (key : LevelKey) (here other : α) :
    (if order.levelKey = key then here else other) =
      if order.bookSide = key.bookSide then if order.price = key.price then here else other
      else other := by
  rw [if_congr (order.levelKey_eq_iff key) rfl rfl, ite_and]

/-! ## Orders -/

abbrev Orders := Dict Nat Order

namespace Orders

def restingQty (orders : Orders) (key : LevelKey) : Nat :=
  orders.total fun order => if order.levelKey = key then order.remainingQty else 0

def RestsAt (orders : Orders) (key : LevelKey) : Prop :=
  ∃ orderNumber order, orders.find? orderNumber = some order ∧ order.levelKey = key

def Keyed (orders : Orders) : Prop :=
  ∀ orderNumber order, orders.find? orderNumber = some order → order.orderNumber = orderNumber

theorem Keyed.set {orders : Orders} (keyed : orders.Keyed) (order : Order) :
    Keyed (orders.set order.orderNumber order) :=
  Dict.forall_find?_set keyed rfl

theorem Keyed.erase {orders : Orders} (keyed : orders.Keyed) (orderNumber : Nat) :
    Keyed (orders.erase orderNumber) :=
  Dict.forall_find?_erase keyed orderNumber

end Orders

structure Taking where
  order : Order
  qty : Nat

namespace Taking

def whole (order : Order) : Taking := ⟨order, order.remainingQty⟩

def left (taking : Taking) : Nat := taking.order.remainingQty - taking.qty

def remainder (taking : Taking) : Order := { taking.order with remainingQty := taking.left }

structure Possible (taking : Taking) (orders : Orders) : Prop where
  live : orders.find? taking.order.orderNumber = some taking.order
  part : taking.qty ≤ taking.order.remainingQty

end Taking

namespace Orders

def take (orders : Orders) (taking : Taking) : Orders :=
  if taking.left = 0 then orders.erase taking.order.orderNumber
  else orders.set taking.order.orderNumber taking.remainder

def displaced (orders : Orders) (orderNumber : Nat) : List Taking :=
  ((orders.find? orderNumber).map Taking.whole).toList

def takings (orders : Orders) : Message → List Taking
  | .orderAdded msg => if msg.orderNumber = 0 then [] else orders.displaced msg.orderNumber
  | .orderAddedWithAttributes msg _ _ =>
      if msg.orderNumber = 0 then [] else orders.displaced msg.orderNumber
  | .orderExecuted _ orderNumber executedQty _ =>
      match orders.find? orderNumber with
      | none => []
      | some order => [⟨order, OrderBookStore.clampedQty order executedQty⟩]
  | .orderDeleted _ orderNumber => orders.displaced orderNumber
  | .orderReplaced _ origOrderNumber newOrderNumber _ _ =>
      match orders.find? origOrderNumber with
      | none => []
      | some order => .whole order :: displaced (orders.erase origOrderNumber) newOrderNumber
  | _ => []

/-- None of the takings strands an order: a level with nothing left on it has no order
left. -/
def StrandNone : Orders → List Taking → Prop
  | _, [] => True
  | orders, taking :: rest =>
      ((orders.take taking).restingQty taking.order.levelKey = 0 →
        ¬ (orders.take taking).RestsAt taking.order.levelKey) ∧
      StrandNone (orders.take taking) rest

variable {orders : Orders}

theorem restingQty_take {taking : Taking} (possible : taking.Possible orders) (key : LevelKey) :
    orders.restingQty key =
      (if taking.order.levelKey = key then taking.qty else 0) +
        (orders.take taking).restingQty key := by
  have part := possible.part
  have same : taking.remainder.levelKey = taking.order.levelKey := rfl
  have left : taking.remainder.remainingQty = taking.order.remainingQty - taking.qty := rfl
  rw [restingQty, Dict.total_erase _ possible.live, restingQty, take]
  by_cases gone : taking.left = 0
  · have all : taking.order.remainingQty - taking.qty = 0 := gone
    rw [if_pos gone]
    split <;> omega
  · rw [if_neg gone, Dict.total_set, same, left]
    split <;> omega

private theorem restingQty_set {order : Order} (fresh : orders.find? order.orderNumber = none)
    (key : LevelKey) :
    restingQty (orders.set order.orderNumber order) key =
      (if order.levelKey = key then order.remainingQty else 0) + orders.restingQty key := by
  rw [restingQty, Dict.total_set, Dict.erase_of_find?_eq_none fresh]
  rfl

private theorem restsAt_take {taking : Taking} (possible : taking.Possible orders) {key : LevelKey}
    (rests : (orders.take taking).RestsAt key) : orders.RestsAt key := by
  rcases rests with ⟨orderNumber, order, found, here⟩
  rw [take] at found
  split at found
  · rw [Dict.find?_erase] at found
    split at found
    · cases found
    · exact ⟨orderNumber, order, found, here⟩
  · rw [Dict.find?_set] at found
    split at found
    · cases found
      exact ⟨_, taking.order, possible.live, here⟩
    · exact ⟨orderNumber, order, found, here⟩

theorem restingQty_of_not_restsAt {key : LevelKey} (nobody : ¬ orders.RestsAt key) :
    orders.restingQty key = 0 := by
  apply Dict.total_eq_zero
  intro orderNumber order found
  rw [if_neg]
  intro here
  exact nobody ⟨orderNumber, order, found, here⟩

theorem Keyed.take (keyed : orders.Keyed) (taking : Taking) : Keyed (orders.take taking) := by
  rw [Orders.take]
  split
  · exact keyed.erase _
  · exact keyed.set taking.remainder

end Orders

/-! ## Levels -/

namespace SideLevels

theorem find?_add (side : SideLevels) (price qty other : Nat) :
    (side.add price qty).qty.find? other =
      if price = other then some ((side.qty.find? price).getD 0 + qty)
      else side.qty.find? other := by
  rw [add]
  cases held : side.qty.find? price with
  | none =>
      rw [Dict.find?_set, Option.getD_none, Nat.zero_add]
  | some cur =>
      rw [Dict.find?_set]
      rfl

theorem find?_remove {side after : SideLevels} {price qty held : Nat}
    (found : side.qty.find? price = some held) (removed : side.remove price qty = .ok after)
    (other : Nat) :
    after.qty.find? other =
      if price = other then (if held = qty then none else some (held - qty))
      else side.qty.find? other := by
  simp only [remove, found] at removed
  split at removed
  · cases removed
  · split at removed
    · next all =>
        cases removed
        rw [Dict.find?_erase, if_pos all]
    · next part =>
        cases removed
        rw [Dict.find?_set, if_neg part]

private theorem remove_isOk {side : SideLevels} {price qty held : Nat}
    (found : side.qty.find? price = some held) (enough : qty ≤ held) :
    ∃ after, side.remove price qty = .ok after := by
  simp only [remove, found, Nat.not_lt.mpr enough, if_false]
  split
  · exact ⟨_, rfl⟩
  · exact ⟨_, rfl⟩

end SideLevels

namespace OrderBookStore

def sideLevels (store : OrderBookStore) (bookSide : BookSide) : SideLevels :=
  if bookSide.bid then (store.book bookSide.orderbookId).bids
  else (store.book bookSide.orderbookId).asks

def level? (store : OrderBookStore) (key : LevelKey) : Option Nat :=
  (store.sideLevels key.bookSide).qty.find? key.price

theorem sideLevels_setSide (store : OrderBookStore) (order : Order) (levels : SideLevels)
    (bookSide : BookSide) :
    (store.setBook order.orderbookId
        ((store.book order.orderbookId).setSide order.side levels)).sideLevels bookSide =
      if order.bookSide = bookSide then levels else store.sideLevels bookSide := by
  rcases bookSide with ⟨orderbookId, bid⟩
  by_cases sameBook : order.orderbookId = orderbookId
  · subst sameBook
    cases side : Book.isBid order.side <;> cases bid <;>
      simp [sideLevels, book, setBook, Book.setSide, Order.bookSide, side]
  · have other : order.bookSide ≠ ⟨orderbookId, bid⟩ :=
      fun same => sameBook (congrArg BookSide.orderbookId same)
    rw [if_neg other]
    simp only [sideLevels, book, setBook, Dict.find?_set, sameBook, if_false]

theorem sideLevels_put (store : OrderBookStore) (order : Order) (bookSide : BookSide) :
    (store.put order).sideLevels bookSide =
      if order.bookSide = bookSide then
        (store.sideLevels order.bookSide).add order.price order.remainingQty
      else store.sideLevels bookSide :=
  sideLevels_setSide { store with orders := store.orders.set order.orderNumber order } order _
    bookSide

theorem level?_put (store : OrderBookStore) (order : Order) (key : LevelKey) :
    (store.put order).level? key =
      if order.levelKey = key then some ((store.level? key).getD 0 + order.remainingQty)
      else store.level? key := by
  rw [level?, sideLevels_put, Order.ite_levelKey]
  split
  · next sameSide =>
      rw [SideLevels.find?_add, sameSide]
      split
      · next samePrice => rw [samePrice]; rfl
      · rfl
  · rfl

def take (store : OrderBookStore) (taking : Taking) : Except ApplyError OrderBookStore := do
  let book ← (store.book taking.order.orderbookId).remove taking.order.side taking.order.price
    taking.qty
  return { store with orders := Orders.take store.orders taking }.setBook
    taking.order.orderbookId book

theorem removeOrder_eq_take (store : OrderBookStore) (order : Order) :
    store.removeOrder order = store.take (.whole order) := by
  have gone : (Taking.whole order).left = 0 := Nat.sub_self _
  rw [take, Orders.take, if_pos gone]
  rfl

variable {store after : OrderBookStore} {taking : Taking}

theorem take_eq_ok (taken : store.take taking = .ok after) :
    after.orders = Orders.take store.orders taking ∧
      ∃ levels, (store.sideLevels taking.order.bookSide).remove taking.order.price taking.qty =
          .ok levels ∧
        ∀ bookSide, after.sideLevels bookSide =
          if taking.order.bookSide = bookSide then levels else store.sideLevels bookSide := by
  rw [take, Book.remove] at taken
  rcases except_bind_eq_ok.mp taken with ⟨book, removed, rest⟩
  rcases except_bind_eq_ok.mp removed with ⟨levels, fromSide, written⟩
  cases written
  cases rest
  exact ⟨rfl, levels, fromSide, sideLevels_setSide
    { store with orders := Orders.take store.orders taking } taking.order levels⟩

variable {store : OrderBookStore}

private theorem take_isOk {held : Nat} (found : store.level? taking.order.levelKey = some held)
    (enough : taking.qty ≤ held) : ∃ after, store.take taking = .ok after := by
  rcases SideLevels.remove_isOk found enough with ⟨levels, removed⟩
  have fromSide : ((store.book taking.order.orderbookId).side taking.order.side).remove
      taking.order.price taking.qty = .ok levels := removed
  rw [take, Book.remove, fromSide]
  exact ⟨_, rfl⟩

theorem level?_take {held : Nat} (found : store.level? taking.order.levelKey = some held)
    (taken : store.take taking = .ok after) (key : LevelKey) :
    after.level? key =
      if taking.order.levelKey = key then
        (if held = taking.qty then none else some (held - taking.qty))
      else store.level? key := by
  rcases take_eq_ok taken with ⟨-, levels, removed, sides⟩
  have inSide : (store.sideLevels taking.order.bookSide).qty.find? taking.order.price =
      some held := found
  rw [level?, sides, Order.ite_levelKey]
  split
  · next sameSide =>
      rw [SideLevels.find?_remove inSide removed, sameSide]
      rfl
  · rfl

/-! ## Levels that cover their orders -/

structure Covered (store : OrderBookStore) : Prop where
  keyed : Orders.Keyed store.orders
  present : ∀ key, Orders.RestsAt store.orders key → (store.level? key).isSome
  held : ∀ key qty, store.level? key = some qty → qty = Orders.restingQty store.orders key

theorem covered_empty : Covered {} where
  keyed orderNumber order found := by cases found
  present key := by
    rintro ⟨orderNumber, order, found, -⟩
    cases found
  held key qty found := by
    rw [level?, sideLevels] at found
    split at found <;> cases found

variable {order : Order}

theorem Covered.put (covered : store.Covered)
    (fresh : store.orders.find? order.orderNumber = none) : (store.put order).Covered where
  keyed := covered.keyed.set order
  present key rests := by
    rw [level?_put]
    split
    · rfl
    · next elsewhere =>
        rcases rests with ⟨orderNumber, other, found, here⟩
        apply covered.present
        change (store.orders.set order.orderNumber order).find? orderNumber = some other at found
        rw [Dict.find?_set] at found
        split at found
        · cases found
          exact absurd here elsewhere
        · exact ⟨orderNumber, other, found, here⟩
  held key qty found := by
    change qty = Orders.restingQty (store.orders.set order.orderNumber order) key
    rw [level?_put] at found
    rw [Orders.restingQty_set fresh]
    by_cases here : order.levelKey = key
    · rw [if_pos here, Option.some_inj] at found
      have before : (store.level? key).getD 0 = Orders.restingQty store.orders key := by
        cases level : store.level? key with
        | some held => exact covered.held key held level
        | none =>
            symm
            apply Orders.restingQty_of_not_restsAt
            intro rests
            have present := covered.present key rests
            rw [level] at present
            cases present
      rw [if_pos here, ← found, before]
      omega
    · rw [if_neg here] at found
      rw [if_neg here, Nat.zero_add]
      exact covered.held key qty found

theorem Covered.take (covered : store.Covered) (possible : taking.Possible store.orders)
    (strandsNone : Orders.restingQty (Orders.take store.orders taking) taking.order.levelKey = 0 →
      ¬ Orders.RestsAt (Orders.take store.orders taking) taking.order.levelKey) :
    ∃ after, store.take taking = .ok after ∧ after.Covered ∧
      after.orders = Orders.take store.orders taking := by
  have rests : Orders.RestsAt store.orders taking.order.levelKey := ⟨_, _, possible.live, rfl⟩
  rcases Option.isSome_iff_exists.mp (covered.present _ rests) with ⟨held, found⟩
  have sum := covered.held _ held found
  have split := Orders.restingQty_take possible taking.order.levelKey
  rw [if_pos rfl, ← sum] at split
  rcases take_isOk found (show taking.qty ≤ held by omega) with ⟨after, taken⟩
  have orders := (take_eq_ok taken).1
  have levels := level?_take found taken
  refine ⟨after, taken, ⟨?_, ?_, ?_⟩, orders⟩
  · rw [orders]
    exact covered.keyed.take taking
  · intro key stays
    rw [orders] at stays
    rw [levels]
    by_cases here : taking.order.levelKey = key
    · subst here
      rw [if_pos rfl]
      split
      · next all =>
          have empty : Orders.restingQty (Orders.take store.orders taking)
              taking.order.levelKey = 0 := by omega
          exact absurd stays (strandsNone empty)
      · rfl
    · rw [if_neg here]
      exact covered.present key (Orders.restsAt_take possible stays)
  · intro key qty level
    rw [levels] at level
    rw [orders]
    by_cases here : taking.order.levelKey = key
    · subst here
      rw [if_pos rfl] at level
      split at level
      · cases level
      · cases level
        omega
    · have other := Orders.restingQty_take possible key
      rw [if_neg here, Nat.zero_add] at other
      rw [if_neg here] at level
      rw [← other]
      exact covered.held key qty level

theorem Covered.removeOrder (covered : store.Covered) {orderNumber : Nat}
    (found : store.orders.find? orderNumber = some order)
    (strandsNone : Orders.StrandNone store.orders [.whole order]) :
    ∃ after, store.removeOrder order = .ok after ∧ after.Covered ∧
      after.orders = store.orders.erase orderNumber := by
  have number := covered.keyed orderNumber order found
  have possible : (Taking.whole order).Possible store.orders :=
    ⟨by rw [← number] at found; exact found, Nat.le_refl _⟩
  rcases covered.take possible strandsNone.1 with ⟨after, taken, covers, orders⟩
  refine ⟨after, (removeOrder_eq_take store order).trans taken, covers, ?_⟩
  rw [orders, Orders.take, if_pos (show (Taking.whole order).left = 0 from Nat.sub_self _)]
  exact congrArg _ number

theorem Covered.insert (covered : store.Covered) (order : Order)
    (strandsNone : Orders.StrandNone store.orders
      (Orders.displaced store.orders order.orderNumber)) :
    ∃ after, store.insert order = .ok after ∧ after.Covered := by
  rw [OrderBookStore.insert]
  rw [Orders.displaced] at strandsNone
  cases found : store.orders.find? order.orderNumber with
  | none => exact ⟨_, rfl, covered.put found⟩
  | some existing =>
      rw [found] at strandsNone
      have counted : Covered { store with collisions := store.collisions + 1 } :=
        ⟨covered.keyed, covered.present, covered.held⟩
      rcases counted.removeOrder found strandsNone with ⟨removed, done, covers, orders⟩
      refine ⟨removed.put order, ?_, covers.put ?_⟩
      · change (OrderBookStore.removeOrder _ existing >>= _) = _
        rw [done]
        rfl
      · rw [orders]
        exact Dict.find?_erase_self _ _

theorem clampedQty_le (order : Order) (executedQty : Nat) :
    clampedQty order executedQty ≤ order.remainingQty := by
  rw [clampedQty]
  split <;> omega

theorem execute_of_take {orderNumber executedQty : Nat} (matchNumber : Nat)
    (found : store.orders.find? orderNumber = some order)
    (taken : store.take ⟨order, clampedQty order executedQty⟩ = .ok after) :
    store.execute orderNumber executedQty matchNumber = .ok
      ({ after with
          executedVolume := store.executedVolume + clampedQty order executedQty
          executionCount := store.executionCount + 1 },
        some
          { orderbookId := order.orderbookId, group := order.group, side := order.side
            price := order.price, qty := clampedQty order executedQty, matchNumber }) := by
  rw [take] at taken
  rcases except_bind_eq_ok.mp taken with ⟨book, removed, written⟩
  cases written
  simp only [execute, found]
  rw [show (store.book order.orderbookId).remove order.side order.price
    (clampedQty order executedQty) = .ok book from removed]
  rfl

theorem Covered.execute (covered : store.Covered) {orderNumber executedQty : Nat}
    (matchNumber : Nat)
    (strandsNone : Orders.StrandNone store.orders
      (match store.orders.find? orderNumber with
        | none => []
        | some order => [⟨order, clampedQty order executedQty⟩])) :
    ∃ after execution, store.execute orderNumber executedQty matchNumber = .ok (after, execution) ∧
      after.Covered := by
  cases found : store.orders.find? orderNumber with
  | none =>
      refine ⟨{ store with orphanExecutes := store.orphanExecutes + 1 }, none, ?_,
        covered.keyed, covered.present, covered.held⟩
      simp only [OrderBookStore.execute, found]
  | some order =>
      rw [found] at strandsNone
      have number := covered.keyed orderNumber order found
      have live : store.orders.find? order.orderNumber = some order := by rw [number, found]
      rcases covered.take ⟨live, clampedQty_le order executedQty⟩ strandsNone.1 with
        ⟨after, taken, covers, -⟩
      exact ⟨_, _, execute_of_take matchNumber found taken, covers.keyed, covers.present,
        covers.held⟩

theorem Covered.delete (covered : store.Covered) {orderNumber : Nat}
    (strandsNone : Orders.StrandNone store.orders (Orders.displaced store.orders orderNumber)) :
    ∃ after, store.delete orderNumber = .ok after ∧ after.Covered := by
  rw [OrderBookStore.delete]
  rw [Orders.displaced] at strandsNone
  cases found : store.orders.find? orderNumber with
  | none => exact ⟨_, rfl, covered.keyed, covered.present, covered.held⟩
  | some order =>
      rw [found] at strandsNone
      rcases covered.removeOrder found strandsNone with ⟨after, done, covers, -⟩
      exact ⟨after, done, covers⟩

theorem Covered.replace (covered : store.Covered) {origOrderNumber newOrderNumber : Nat}
    (qty price : Nat)
    (strandsNone : Orders.StrandNone store.orders
      (match store.orders.find? origOrderNumber with
        | none => []
        | some order =>
            .whole order :: Orders.displaced (store.orders.erase origOrderNumber)
              newOrderNumber)) :
    ∃ after, store.replace origOrderNumber newOrderNumber qty price = .ok after ∧
      after.Covered := by
  rw [OrderBookStore.replace]
  cases found : store.orders.find? origOrderNumber with
  | none => exact ⟨_, rfl, covered.keyed, covered.present, covered.held⟩
  | some orig =>
      rw [found] at strandsNone
      rcases covered.removeOrder found ⟨strandsNone.1, trivial⟩ with
        ⟨removed, done, covers, orders⟩
      have taken : Orders.take store.orders (.whole orig) = store.orders.erase origOrderNumber := by
        rw [Orders.take, if_pos (show (Taking.whole orig).left = 0 from Nat.sub_self _)]
        exact congrArg _ (covered.keyed origOrderNumber orig found)
      have rest := strandsNone.2
      rw [taken, ← orders] at rest
      rcases covers.insert
        { orig with orderNumber := newOrderNumber, price := price, remainingQty := qty } rest with
        ⟨after, inserted, last⟩
      refine ⟨after, ?_, last⟩
      change (store.removeOrder orig >>= _) = _
      rw [done]
      exact inserted

theorem Covered.apply (covered : store.Covered) (msg : Message)
    (strandsNone : Orders.StrandNone store.orders (Orders.takings store.orders msg)) :
    ∃ after execution, store.apply msg = .ok (after, execution) ∧ after.Covered := by
  have added (order : OrderAdded) (strandsNone : Orders.StrandNone store.orders
      (if order.orderNumber = 0 then [] else Orders.displaced store.orders order.orderNumber)) :
      ∃ after, store.applyAdded order = .ok after ∧ after.Covered := by
    rw [applyAdded]
    by_cases reference : order.orderNumber = 0
    · rw [if_pos reference]
      exact ⟨_, rfl, covered.keyed, covered.present, covered.held⟩
    · rw [if_neg reference] at strandsNone ⊢
      exact covered.insert _ strandsNone
  cases msg with
  | orderAdded order | orderAddedWithAttributes order attribution orderType =>
      rcases added order strandsNone with ⟨after, done, covers⟩
      exact ⟨after, none, by simp only [OrderBookStore.apply, done]; rfl, covers⟩
  | orderExecuted ns orderNumber executedQty matchNumber =>
      exact covered.execute matchNumber strandsNone
  | orderDeleted ns orderNumber =>
      rcases covered.delete strandsNone with ⟨after, done, covers⟩
      exact ⟨after, none, by simp only [OrderBookStore.apply, done]; rfl, covers⟩
  | orderReplaced ns origOrderNumber newOrderNumber qty price =>
      rcases covered.replace qty price strandsNone with ⟨after, done, covers⟩
      exact ⟨after, none, by simp only [OrderBookStore.apply, done]; rfl, covers⟩
  | _ => exact ⟨store, none, rfl, covered⟩

end OrderBookStore

/-! ## What a message does to the orders -/

namespace Orders

def place (orders : Orders) (msg : OrderAdded) : Orders :=
  if msg.orderNumber = 0 then orders
  else
    (orders.erase msg.orderNumber).set msg.orderNumber
      { orderNumber := msg.orderNumber, orderbookId := msg.orderbookId, group := msg.group
        side := msg.side, price := msg.price, remainingQty := msg.qty }

def fill (orders : Orders) (orderNumber executedQty : Nat) : Orders :=
  match orders.find? orderNumber with
  | none => orders
  | some order => orders.take ⟨order, OrderBookStore.clampedQty order executedQty⟩

def replace (orders : Orders) (origOrderNumber newOrderNumber qty price : Nat) : Orders :=
  match orders.find? origOrderNumber with
  | none => orders
  | some orig =>
      ((orders.erase orig.orderNumber).erase newOrderNumber).set newOrderNumber
        { orig with orderNumber := newOrderNumber, price := price, remainingQty := qty }

/-- What a message does to the live orders, levels and counters left aside. A number
that is used again moves to the end of the iteration. -/
def apply (orders : Orders) : Message → Orders
  | .orderAdded msg => orders.place msg
  | .orderAddedWithAttributes msg _ _ => orders.place msg
  | .orderExecuted _ orderNumber executedQty _ => orders.fill orderNumber executedQty
  | .orderDeleted _ orderNumber =>
      match orders.find? orderNumber with
      | none => orders
      | some order => orders.erase order.orderNumber
  | .orderReplaced _ origOrderNumber newOrderNumber qty price =>
      orders.replace origOrderNumber newOrderNumber qty price
  | _ => orders

end Orders

namespace OrderBookStore

variable {store after : OrderBookStore}

theorem removeOrder_orders {order : Order} (removed : store.removeOrder order = .ok after) :
    after.orders = store.orders.erase order.orderNumber := by
  rcases except_bind_eq_ok.mp removed with ⟨book, -, written⟩
  cases written
  rfl

theorem insert_orders {order : Order} (keyed : Orders.Keyed store.orders)
    (inserted : store.insert order = .ok after) :
    after.orders = (store.orders.erase order.orderNumber).set order.orderNumber order := by
  rw [insert] at inserted
  cases found : store.orders.find? order.orderNumber with
  | none =>
      rw [found] at inserted
      cases inserted
      rw [Dict.erase_of_find?_eq_none found]
      rfl
  | some existing =>
      rw [found] at inserted
      rcases except_bind_eq_ok.mp inserted with ⟨removed, done, written⟩
      cases written
      have rest := removeOrder_orders done
      rw [keyed _ existing found] at rest
      exact congrArg (·.set order.orderNumber order) rest

private theorem applyAdded_orders {msg : OrderAdded} (keyed : Orders.Keyed store.orders)
    (applied : store.applyAdded msg = .ok after) :
    after.orders = Orders.place store.orders msg := by
  rw [applyAdded] at applied
  rw [Orders.place]
  split at applied
  · next reference =>
      cases applied
      rw [if_pos reference]
  · next real =>
      rw [if_neg real]
      exact insert_orders keyed applied

theorem execute_orders {orderNumber executedQty matchNumber : Nat} {execution : Option Execution}
    (executed : store.execute orderNumber executedQty matchNumber = .ok (after, execution)) :
    after.orders = Orders.fill store.orders orderNumber executedQty := by
  rw [execute] at executed
  rw [Orders.fill]
  cases found : store.orders.find? orderNumber with
  | none =>
      rw [found] at executed
      cases executed
      rfl
  | some order =>
      rw [found] at executed
      rcases except_bind_eq_ok.mp executed with ⟨book, -, written⟩
      cases written
      rfl

theorem apply_orders {msg : Message} {execution : Option Execution}
    (keyed : Orders.Keyed store.orders) (applied : store.apply msg = .ok (after, execution)) :
    after.orders = Orders.apply store.orders msg := by
  cases msg with
  | orderAdded order | orderAddedWithAttributes order attribution orderType =>
      rcases except_bind_eq_ok.mp applied with ⟨added, done, written⟩
      cases written
      exact applyAdded_orders keyed done
  | orderExecuted ns orderNumber executedQty matchNumber => exact execute_orders applied
  | orderDeleted ns orderNumber =>
      rcases except_bind_eq_ok.mp applied with ⟨deleted, done, written⟩
      cases written
      rw [delete] at done
      rw [Orders.apply]
      cases found : store.orders.find? orderNumber with
      | none =>
          rw [found] at done
          cases done
          rfl
      | some order =>
          rw [found] at done
          exact removeOrder_orders done
  | orderReplaced ns origOrderNumber newOrderNumber qty price =>
      rcases except_bind_eq_ok.mp applied with ⟨replaced, done, written⟩
      cases written
      rw [replace] at done
      rw [Orders.apply, Orders.replace]
      cases found : store.orders.find? origOrderNumber with
      | none =>
          rw [found] at done
          cases done
          rfl
      | some orig =>
          rw [found] at done
          rcases except_bind_eq_ok.mp done with ⟨removed, first, second⟩
          have rest := removeOrder_orders first
          have keyedRest : Orders.Keyed removed.orders := by
            rw [rest]
            exact keyed.erase _
          rw [insert_orders keyedRest second, rest]
  | _ =>
      cases applied
      rfl

end OrderBookStore

def Orders.execution (orders : Orders) : Message → Option Execution
  | .orderExecuted _ orderNumber executedQty matchNumber =>
      (orders.find? orderNumber).map fun order =>
        { orderbookId := order.orderbookId, group := order.group, side := order.side
          price := order.price, qty := OrderBookStore.clampedQty order executedQty
          matchNumber }
  | _ => none

theorem Market.storeStep_execution {books after : OrderBookStore} {msg : Message}
    {execution : Option Execution} (stepped : storeStep books msg = .ok (after, execution)) :
    execution = Orders.execution books.orders msg := by
  cases msg with
  | orderAdded order =>
      rw [storeStep] at stepped
      split at stepped
      · cases stepped
        rfl
      · rcases except_bind_eq_ok.mp stepped with ⟨changed, -, reported⟩
        cases reported
        rfl
  | orderExecuted ns orderNumber executedQty matchNumber =>
      change books.execute orderNumber executedQty matchNumber = _ at stepped
      rw [OrderBookStore.execute] at stepped
      rw [Orders.execution]
      cases found : books.orders.find? orderNumber with
      | none =>
          rw [found] at stepped
          cases stepped
          rfl
      | some order =>
          rw [found] at stepped
          rcases except_bind_eq_ok.mp stepped with ⟨book, -, written⟩
          cases written
          rfl
  | orderAddedWithAttributes | orderDeleted | orderReplaced =>
      rcases except_bind_eq_ok.mp stepped with ⟨changed, -, reported⟩
      cases reported
      rfl
  | _ =>
      cases stepped
      rfl

/-! ## Positive quantities -/

def Message.PositiveQty : Message → Prop
  | .orderAdded order => order.orderNumber ≠ 0 → 0 < order.qty
  | .orderAddedWithAttributes order _ _ => order.orderNumber ≠ 0 → 0 < order.qty
  | .orderReplaced _ _ _ qty _ => 0 < qty
  | _ => True

namespace Orders

def AllPositive (orders : Orders) : Prop :=
  ∀ orderNumber order, orders.find? orderNumber = some order → 0 < order.remainingQty

variable {orders : Orders}

theorem AllPositive.erase (positive : orders.AllPositive) (orderNumber : Nat) :
    AllPositive (orders.erase orderNumber) :=
  Dict.forall_find?_erase positive orderNumber

theorem AllPositive.set (positive : orders.AllPositive) (orderNumber : Nat) {order : Order}
    (some : 0 < order.remainingQty) : AllPositive (orders.set orderNumber order) :=
  Dict.forall_find?_set positive some

theorem AllPositive.take (positive : orders.AllPositive) (taking : Taking) :
    AllPositive (orders.take taking) := by
  rw [Orders.take]
  split
  · exact positive.erase _
  · next stays => exact positive.set _ (Nat.pos_of_ne_zero stays)

theorem AllPositive.strandNone (positive : orders.AllPositive) (takings : List Taking) :
    StrandNone orders takings := by
  induction takings generalizing orders with
  | nil => trivial
  | cons taking takings induction =>
      refine ⟨?_, induction (positive.take taking)⟩
      rintro empty ⟨orderNumber, order, found, here⟩
      have weight := Dict.weight_le_total
        (fun order : Order =>
          if order.levelKey = taking.order.levelKey then order.remainingQty else 0)
        found
      have some := positive.take taking orderNumber order found
      rw [if_pos here] at weight
      rw [restingQty] at empty
      omega

theorem Keyed.apply (keyed : orders.Keyed) (msg : Message) : (orders.apply msg).Keyed := by
  have place (order : OrderAdded) : (orders.place order).Keyed := by
    rw [Orders.place]
    split
    · exact keyed
    · exact (keyed.erase _).set { orderNumber := order.orderNumber, .. }
  cases msg with
  | orderAdded order | orderAddedWithAttributes order attribution orderType => exact place order
  | orderExecuted ns orderNumber executedQty matchNumber =>
      rw [Orders.apply, fill]
      split
      · exact keyed
      · exact keyed.take _
  | orderDeleted ns orderNumber =>
      rw [Orders.apply]
      split
      · exact keyed
      · exact keyed.erase _
  | orderReplaced ns origOrderNumber newOrderNumber qty price =>
      rw [Orders.apply, replace]
      split
      · exact keyed
      · exact ((keyed.erase _).erase _).set { orderNumber := newOrderNumber, .. }
  | _ => exact keyed

theorem AllPositive.apply (positive : orders.AllPositive) {msg : Message}
    (brings : msg.PositiveQty) : (orders.apply msg).AllPositive := by
  have place (order : OrderAdded) (brings : order.orderNumber ≠ 0 → 0 < order.qty) :
      (orders.place order).AllPositive := by
    rw [Orders.place]
    split
    · exact positive
    · next real => exact (positive.erase _).set _ (brings real)
  cases msg with
  | orderAdded order | orderAddedWithAttributes order attribution orderType =>
      exact place order brings
  | orderExecuted ns orderNumber executedQty matchNumber =>
      rw [Orders.apply, fill]
      split
      · exact positive
      · exact positive.take _
  | orderDeleted ns orderNumber =>
      rw [Orders.apply]
      split
      · exact positive
      · exact positive.erase _
  | orderReplaced ns origOrderNumber newOrderNumber qty price =>
      rw [Orders.apply, replace]
      split
      · exact positive
      · exact ((positive.erase _).erase _).set _ brings
  | _ => exact positive

end Orders

/-! ## Runs -/

namespace Market

def StrandsNone (market : Market) (msg : Message) : Prop :=
  Orders.StrandNone market.books.orders (Orders.takings market.books.orders msg)

variable {msg : Message}

theorem apply_isOk {market : Market} (covered : market.books.Covered)
    (strandsNone : market.StrandsNone msg) :
    ∃ after, market.apply msg = .ok after ∧ after.books.Covered := by
  rcases covered.apply msg strandsNone with ⟨books, execution, done, covers⟩
  have counted : (market.countMessage msg.typeChar).books.apply msg = .ok (books, execution) := done
  cases msg with
  | orderAdded order =>
      rw [apply, route]
      by_cases reference : order.orderNumber = 0
      · rw [if_pos reference]
        exact ⟨_, rfl, covered⟩
      · rw [if_neg reference, counted]
        exact ⟨_, rfl, covers⟩
  | orderAddedWithAttributes order attribution orderType =>
      rw [apply, route, counted]
      exact ⟨_, rfl, covers⟩
  | orderExecuted ns orderNumber executedQty matchNumber =>
      rw [apply, route, counted]
      cases execution with
      | none | some execution => exact ⟨_, rfl, covers⟩
  | orderDeleted ns orderNumber | orderReplaced ns origOrderNumber newOrderNumber qty price =>
      rw [apply, route, counted]
      exact ⟨_, rfl, covers⟩
  | _ => exact ⟨_, rfl, covered⟩

theorem storeStep_orders {books after : OrderBookStore} {execution : Option Execution}
    (keyed : Orders.Keyed books.orders) (stepped : storeStep books msg = .ok (after, execution)) :
    after.orders = Orders.apply books.orders msg := by
  cases msg with
  | orderAdded order =>
      rw [storeStep] at stepped
      by_cases reference : order.orderNumber = 0
      · rw [if_pos reference] at stepped
        cases stepped
        rw [Orders.apply, Orders.place, if_pos reference]
      · rw [if_neg reference] at stepped
        exact OrderBookStore.apply_orders keyed stepped
  | _ => exact OrderBookStore.apply_orders keyed stepped

theorem apply_books {market after : Market} (applied : market.apply msg = .ok after)
    (keyed : Orders.Keyed market.books.orders) :
    after.books.orders = Orders.apply market.books.orders msg := by
  rcases apply_eq_ok applied with ⟨execution, stepped, -⟩
  exact storeStep_orders keyed stepped

/-- A run in which no message strands an order never raises. -/
theorem run_never_raises (messages : List Message)
    (strandsNone : ∀ (n : Nat) (msg : Message) (market : Market), messages[n]? = some msg →
      run {} (messages.take n) = .ok market → market.StrandsNone msg) :
    ∃ market, run {} messages = .ok market := by
  have reached (n : Nat) :
      ∃ market, run {} (messages.take n) = .ok market ∧ market.books.Covered := by
    induction n with
    | zero => exact ⟨{}, rfl, OrderBookStore.covered_empty⟩
    | succ n induction =>
        rcases induction with ⟨market, before, covered⟩
        cases next : messages[n]? with
        | none =>
            refine ⟨market, ?_, covered⟩
            rw [List.take_add_one, next]
            simpa using before
        | some msg =>
            rcases apply_isOk covered (strandsNone n msg market next before) with
              ⟨after, applied, covers⟩
            refine ⟨after, ?_, covers⟩
            rw [run] at before ⊢
            rw [foldlM_take_succ apply messages next, before]
            exact applied
  rcases reached messages.length with ⟨market, ran, -⟩
  rw [List.take_length] at ran
  exact ⟨market, ran⟩

theorem run_invariant (invariant : Market → Prop) {messages : List Message}
    (preserved : ∀ market msg after, msg ∈ messages → invariant market →
      market.apply msg = .ok after → invariant after)
    {init last : Market} (start : invariant init) (reached : run init messages = .ok last) :
    invariant last := by
  rw [run] at reached
  induction messages generalizing init with
  | nil =>
      cases reached
      exact start
  | cons msg messages induction =>
      rw [List.foldlM_cons] at reached
      rcases except_bind_eq_ok.mp reached with ⟨next, applied, rest⟩
      apply induction _ (preserved init msg next List.mem_cons_self start applied) rest
      intro market later after member
      exact preserved market later after (List.mem_cons_of_mem _ member)

theorem strandsNone_of_positive {messages : List Message}
    (positive : ∀ msg ∈ messages, msg.PositiveQty) {n : Nat} {market : Market}
    (reached : run {} (messages.take n) = .ok market) (msg : Message) :
    market.StrandsNone msg := by
  have none : Orders.AllPositive ({} : Market).books.orders := by
    intro orderNumber order found
    cases found
  have kept : Orders.Keyed market.books.orders ∧ Orders.AllPositive market.books.orders := by
    refine run_invariant
      (fun market =>
        Orders.Keyed market.books.orders ∧ Orders.AllPositive market.books.orders)
      ?_ ⟨OrderBookStore.covered_empty.keyed, none⟩ reached
    intro market msg after member before applied
    rw [apply_books applied before.1]
    exact ⟨before.1.apply msg, before.2.apply (positive msg (List.mem_of_mem_take member))⟩
  exact kept.2.strandNone _

def plainMessages : List Message :=
  [.orderAdded
      { ns := 0, orderNumber := 1, side := [ascii 'B'], qty := 5
        orderbookId := [ascii '1', ascii '3', ascii '0', ascii '1']
        group := [ascii 'D', ascii 'A', ascii 'Y'], price := 1000 },
    .orderExecuted 0 1 3 7, .orderDeleted 0 1]

theorem plainMessages_never_raise :
    (∀ msg ∈ plainMessages, msg.PositiveQty) ∧ ∃ market, run {} plainMessages = .ok market := by
  have positive : ∀ msg ∈ plainMessages, msg.PositiveQty := by
    simp [plainMessages, Message.PositiveQty]
  exact ⟨positive, run_never_raises plainMessages fun _ msg _ _ reached =>
    strandsNone_of_positive positive reached msg⟩

/-- The feed that raises: two buy orders at one price, the second of quantity 0, and
both deleted. -/
def strandedFeed : List Bytes :=
  let add (orderNumber qty : UInt8) : Bytes :=
    [ascii 'A', 0, 0, 0, 0, 0, 0, 0, 0, 0, 0, 0, orderNumber, ascii 'B', 0, 0, 0, qty,
      ascii '1', ascii '3', ascii '0', ascii '1', ascii 'D', ascii 'A', ascii 'Y', space,
      0, 0, 3, 232]
  let delete (orderNumber : UInt8) : Bytes :=
    [ascii 'D', 0, 0, 0, 0, 0, 0, 0, 0, 0, 0, 0, orderNumber]
  [add 1 5, add 2 0, delete 1, delete 2]

def strandedMessages : List Message :=
  let add (orderNumber qty : Nat) : Message :=
    .orderAdded
      { ns := 0, orderNumber, side := [ascii 'B'], qty
        orderbookId := [ascii '1', ascii '3', ascii '0', ascii '1']
        group := [ascii 'D', ascii 'A', ascii 'Y'], price := 1000 }
  [add 1 5, add 2 0, .orderDeleted 0 1, .orderDeleted 0 2]

theorem strandedFeed_raises :
    strandedFeed.mapM Message.decode = .ok strandedMessages ∧
      run {} strandedMessages = .error (.keyError 1000) := by
  decide +kernel

end Market

end ProtoFH.Prototype
