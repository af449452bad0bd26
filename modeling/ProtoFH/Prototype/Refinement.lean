import ProtoFH.Market.LevelCounts
import ProtoFH.Prototype.Sides
import ProtoFH.Prototype.View

/-! # The C++ store refines the prototype's

As long as the prototype has not raised and no level holds `2^64` or more, the two
stores hold the same orders and the same levels. -/

namespace ProtoFH

def Order.view (order : Order) : Prototype.Order where
  orderNumber := order.orderNumber.toNat
  orderbookId := order.orderbookId.bytes
  group := order.group.bytes
  side := charText order.side
  price := order.price.toNat
  remainingQty := order.remainingQty.toNat

def Execution.view (execution : Execution) : Prototype.Execution where
  orderbookId := execution.orderbookId.bytes
  group := execution.group.bytes
  side := charText execution.side
  price := execution.price.toNat
  qty := execution.qty.toNat
  matchNumber := execution.matchNumber.toNat

def Taking.view (taking : Taking) : Prototype.Taking := ⟨taking.order.view, taking.qty.toNat⟩

def LevelKey.view (key : LevelKey) : Prototype.LevelKey :=
  ⟨⟨key.orderbookId.bytes, key.bid⟩, key.price.toNat⟩

theorem CStr.bytes_inj {width : Nat} {left right : CStr width} :
    left.bytes = right.bytes ↔ left = right :=
  ⟨ext_bytes, congrArg CStr.bytes⟩

theorem LevelKey.view_inj {left right : LevelKey} : left.view = right.view ↔ left = right := by
  cases left
  cases right
  simp [LevelKey.view, CStr.bytes_inj, UInt32.toNat_inj, and_assoc]

private theorem Book.isBid_charText (side : UInt8) :
    Prototype.Book.isBid (charText side) = Book.isBid side := by
  simp only [Prototype.Book.isBid, Book.isBid, charText_eq_iff (show ascii 'B' ≠ space by decide)]

theorem Order.view_levelKey (order : Order) : order.view.levelKey = order.levelKey.view := by
  rw [Prototype.Order.levelKey, Prototype.Order.bookSide]
  simp only [Order.view, Book.isBid_charText]
  rfl

namespace Taking

variable {taking : Taking} (part : taking.qty ≤ taking.order.remainingQty)
include part

theorem view_left : taking.view.left = taking.left.toNat :=
  (UInt32.toNat_sub_of_le _ _ part).symm

private theorem view_remainder : taking.view.remainder = taking.remainder.view := by
  have left := view_left part
  rw [Prototype.Taking.remainder, left]
  rfl

end Taking

/-! ## Orders -/

theorem OrderMap.find?_take (orders : OrderMap) (taking : Taking) (orderNumber : UInt64) :
    (orders.take taking).find? orderNumber =
      if taking.order.orderNumber = orderNumber then
        (if taking.left = 0 then none else some taking.remainder)
      else orders.find? orderNumber := by
  rw [take]
  split
  · rw [KeyedMap.find?_erase]
  · rw [KeyedMap.find?_insert]
    rfl

theorem Prototype.Orders.find?_take (orders : Orders) (taking : Prototype.Taking)
    (orderNumber : Nat) :
    (orders.take taking).find? orderNumber =
      if taking.order.orderNumber = orderNumber then
        (if taking.left = 0 then none else some taking.remainder)
      else orders.find? orderNumber := by
  rw [take]
  split
  · rw [Dict.find?_erase]
  · rw [Dict.find?_set]

theorem OrderBookStore.clampedQty_view (order : Order) (executedQty : UInt32) :
    Prototype.OrderBookStore.clampedQty order.view executedQty.toNat =
      (clampedQty order executedQty).toNat := by
  have above : executedQty > order.remainingQty ↔
      executedQty.toNat > order.remainingQty.toNat := UInt32.lt_iff_toNat_lt
  rw [Prototype.OrderBookStore.clampedQty, clampedQty]
  by_cases more : executedQty > order.remainingQty
  · rw [if_pos more]
    exact if_pos (above.mp more)
  · rw [if_neg more]
    exact if_neg (mt above.mpr more)

structure OrderMap.Refines (orders : OrderMap) (proto : Prototype.Orders) : Prop where
  same : ∀ orderNumber, proto.find? orderNumber.toNat = (orders.find? orderNumber).map Order.view
  bounded : ∀ orderNumber order, proto.find? orderNumber = some order → orderNumber < 2 ^ 64

namespace OrderMap.Refines

variable {orders : OrderMap} {proto : Prototype.Orders} (refines : orders.Refines proto)
include refines

theorem take {taking : Taking} (part : taking.qty ≤ taking.order.remainingQty) :
    (orders.take taking).Refines (proto.take taking.view) where
  same orderNumber := by
    have number : taking.view.order.orderNumber = taking.order.orderNumber.toNat := rfl
    have empty : taking.left.toNat = 0 ↔ taking.left = 0 := UInt32.toNat_inj (b := 0)
    simp only [Prototype.Orders.find?_take, OrderMap.find?_take, Taking.view_left part,
      Taking.view_remainder part, number, UInt64.toNat_inj, empty]
    by_cases own : taking.order.orderNumber = orderNumber
    · rw [if_pos own, if_pos own]
      split <;> rfl
    · rw [if_neg own, if_neg own]
      exact refines.same orderNumber
  bounded orderNumber order found := by
    rw [Prototype.Orders.find?_take] at found
    split at found
    · next own =>
        rw [← own]
        exact taking.order.orderNumber.toNat_lt
    · exact refines.bounded orderNumber order found

theorem insert (order : Order) :
    OrderMap.Refines (KeyedMap.insert orders order) (proto.set order.view.orderNumber order.view)
    where
  same orderNumber := by
    have number : order.view.orderNumber = order.orderNumber.toNat := rfl
    simp only [Dict.find?_set, KeyedMap.find?_insert, number, UInt64.toNat_inj]
    split
    · rfl
    · exact refines.same orderNumber
  bounded orderNumber stored found := by
    rw [Dict.find?_set] at found
    split at found
    · next own =>
        rw [← own]
        exact order.orderNumber.toNat_lt
    · exact refines.bounded orderNumber stored found

theorem erase (orderNumber : UInt64) :
    OrderMap.Refines (KeyedMap.erase orders orderNumber) (proto.erase orderNumber.toNat) where
  same other := by
    simp only [Dict.find?_erase, KeyedMap.find?_erase, UInt64.toNat_inj]
    split
    · rfl
    · exact refines.same other
  bounded other order found := by
    rw [Dict.find?_erase] at found
    split at found
    · cases found
    · exact refines.bounded other order found

theorem keyed : proto.Keyed := by
  intro orderNumber order found
  have small := refines.bounded orderNumber order found
  have same := refines.same (UInt64.ofNat orderNumber)
  rw [UInt64.toNat_ofNat_of_lt' small, found] at same
  rcases Option.map_eq_some_iff.mp same.symm with ⟨stored, present, rfl⟩
  have number : stored.orderNumber = UInt64.ofNat orderNumber := KeyedMap.key_of_find? present
  change stored.orderNumber.toNat = orderNumber
  rw [number, UInt64.toNat_ofNat_of_lt' small]

theorem place (msg : AddOrder) (orderType : UInt8) :
    (orders.place msg orderType).Refines (proto.place msg.view) := by
  rw [OrderMap.place, Prototype.Orders.place]
  by_cases zero : msg.orderNumber = 0
  · rw [if_pos zero, if_pos (msg.view_isReference.mpr zero)]
    exact refines
  · rw [if_neg zero, if_neg (mt msg.view_isReference.mp zero)]
    have placed := (refines.erase msg.orderNumber).insert (msg.toOrder orderType)
    have direct : KeyedMap.insert (KeyedMap.erase orders msg.orderNumber) (msg.toOrder orderType) =
        KeyedMap.insert orders (msg.toOrder orderType) :=
      KeyedMap.erase_insert_self orders (msg.toOrder orderType)
    rw [direct] at placed
    exact placed

theorem fill (orderNumber : UInt64) (executedQty : UInt32) :
    (orders.fill orderNumber executedQty).Refines
      (proto.fill orderNumber.toNat executedQty.toNat) := by
  rw [OrderMap.fill, Prototype.Orders.fill, refines.same]
  cases found : orders.find? orderNumber with
  | none => exact refines
  | some order =>
      have taken := refines.take
        (show (Taking.mk order (OrderBookStore.clampedQty order executedQty)).qty ≤ _ from
          clampedQty_le order executedQty)
      simp only [Option.map_some, OrderBookStore.clampedQty_view]
      rw [← KeyedMap.key_of_find? found]
      exact taken

theorem replace (origOrderNumber newOrderNumber : UInt64) (qty price : UInt32) :
    (orders.replace origOrderNumber newOrderNumber qty price).Refines
      (proto.replace origOrderNumber.toNat newOrderNumber.toNat qty.toNat price.toNat) := by
  rw [OrderMap.replace, Prototype.Orders.replace, refines.same]
  cases found : orders.find? origOrderNumber with
  | none => exact refines
  | some order =>
      have number : order.orderNumber = origOrderNumber := KeyedMap.key_of_find? found
      have placed := ((refines.erase origOrderNumber).erase newOrderNumber).insert
        { order with orderNumber := newOrderNumber, price := price, remainingQty := qty }
      have direct := KeyedMap.erase_insert_self (KeyedMap.erase orders origOrderNumber)
        { order with orderNumber := newOrderNumber, price := price, remainingQty := qty }
      rw [direct, ← number] at placed
      rw [← number]
      exact placed

theorem apply (msg : ItchMsg) : (orders.apply msg).Refines (proto.apply msg.view) := by
  cases msg with
  | addOrder order => exact refines.place order space
  | addAttributed order attribution orderType => exact refines.place order orderType
  | executed ns orderNumber executedQty matchNumber => exact refines.fill orderNumber executedQty
  | deleted ns orderNumber =>
      have erased := refines.erase orderNumber
      simp only [OrderMap.apply, ItchMsg.view, Prototype.Orders.apply, refines.same]
      cases found : orders.find? orderNumber with
      | none =>
          rw [KeyedMap.erase_of_find?_eq_none found]
          exact refines
      | some order =>
          rw [← KeyedMap.key_of_find? found] at erased ⊢
          exact erased
  | replaced ns origOrderNumber newOrderNumber qty price =>
      exact refines.replace origOrderNumber newOrderNumber qty price
  | _ => exact refines

end OrderMap.Refines

/-! ## Levels -/

namespace Prototype

namespace OrderBookStore

def LevelsFit (store : OrderBookStore) : Prop :=
  ∀ key qty, store.level? key = some qty → qty < 2 ^ 64

end OrderBookStore

end Prototype

/-! ## Stores -/

structure StoreCounters where
  collisions : UInt64
  orphanExecutes : UInt64
  orphanDeletes : UInt64
  orphanReplaces : UInt64
  refPriceIgnored : UInt64
  executedVolume : UInt64
  executionCount : UInt64

def OrderBookStore.counters (store : OrderBookStore) : StoreCounters where
  collisions := store.collisions
  orphanExecutes := store.orphanExecutes
  orphanDeletes := store.orphanDeletes
  orphanReplaces := store.orphanReplaces
  refPriceIgnored := store.refPriceIgnored
  executedVolume := store.executedVolume
  executionCount := store.executionCount

def Prototype.OrderBookStore.counters (store : Prototype.OrderBookStore) : StoreCounters where
  collisions := .ofNat store.collisions
  orphanExecutes := .ofNat store.orphanExecutes
  orphanDeletes := .ofNat store.orphanDeletes
  orphanReplaces := .ofNat store.orphanReplaces
  refPriceIgnored := .ofNat store.refPriceIgnored
  executedVolume := .ofNat store.executedVolume
  executionCount := .ofNat store.executionCount

namespace OrderBookStore

/-- Both stores hold the same orders, levels and counters; the order counts of the
levels have no counterpart in the prototype. -/
structure Refines (store : OrderBookStore) (proto : Prototype.OrderBookStore) : Prop where
  orders : store.orders.Refines proto.orders
  levels : ∀ key, proto.level? key.view = (store.level? key).map (·.qty.toNat)
  known : ∀ key qty, proto.level? key = some qty → ∃ own : LevelKey, own.view = key
  counters : store.counters = proto.counters
  ascending : proto.Ascending

theorem refines_empty : Refines {} {} where
  orders :=
    { same := fun orderNumber => by simp [KeyedMap.find?_empty]
      bounded := fun orderNumber order found => by cases found }
  levels key := by
    have none : Prototype.OrderBookStore.level? {} key.view = none := by
      rw [Prototype.OrderBookStore.level?, Prototype.OrderBookStore.sideLevels]
      split <;> rfl
    rw [none]
    simp [level?]
  known key qty found := by
    rw [Prototype.OrderBookStore.level?, Prototype.OrderBookStore.sideLevels] at found
    split at found <;> cases found
  counters := rfl
  ascending := Prototype.OrderBookStore.ascending_empty

theorem level?_take {store : OrderBookStore} {taking : Taking} {level : Level}
    (found : store.level? taking.order.levelKey = some level)
    (enough : taking.qty.toUInt64 ≤ level.qty) (key : LevelKey) :
    (store.take taking).level? key =
      if taking.order.levelKey = key then
        if level.qty - taking.qty.toUInt64 = 0 then none
        else some
          { qty := level.qty - taking.qty.toUInt64
            orders := if taking.left = 0 then SideLevels.decrement level.orders else level.orders }
      else store.level? key := by
  by_cases own : taking.order.levelKey = key
  · subst own
    have removed := SideLevels.lookup_remove_self found enough (taking.left = 0)
    simp only [decide_eq_true_eq] at removed
    rw [if_pos rfl, ← removed, level?, Order.bookSide_levelKey, sideLevels_take, if_pos rfl]
    rfl
  · rw [if_neg own, level?_take_of_ne store own]

namespace Refines

variable {store : OrderBookStore} {proto after : Prototype.OrderBookStore}
  (refines : store.Refines proto)
include refines

theorem take {taking : Taking} (part : taking.qty ≤ taking.order.remainingQty)
    (taken : proto.take taking.view = .ok after) : (store.take taking).Refines after := by
  rcases Prototype.OrderBookStore.held_of_take taken with ⟨held, found, enough⟩
  have lookup := Prototype.OrderBookStore.level?_take found taken
  have own : taking.view.order.levelKey = taking.order.levelKey.view := taking.order.view_levelKey
  rw [own, refines.levels, Option.map_eq_some_iff] at found
  rcases found with ⟨level, present, rfl⟩
  have wide : taking.qty.toUInt64.toNat = taking.qty.toNat := UInt32.toNat_toUInt64 _
  have enough : taking.qty.toUInt64 ≤ level.qty := by
    rw [UInt64.le_iff_toNat_le, wide]
    exact enough
  have rest : (level.qty - taking.qty.toUInt64).toNat = level.qty.toNat - taking.qty.toNat := by
    rw [UInt64.toNat_sub_of_le _ _ enough, wide]
  have emptied : level.qty.toNat = taking.view.qty ↔ level.qty - taking.qty.toUInt64 = 0 := by
    rw [← UInt64.toNat_inj, rest]
    have bound := UInt64.le_iff_toNat_le.mp enough
    rw [wide] at bound
    change level.qty.toNat = taking.qty.toNat ↔ level.qty.toNat - taking.qty.toNat = 0
    omega
  refine ⟨?_, ?_, ?_, ?_, refines.ascending.take taken⟩
  · rw [(Prototype.OrderBookStore.take_eq_ok taken).1]
    exact refines.orders.take part
  · intro key
    rw [lookup, level?_take present enough, own]
    by_cases here : taking.order.levelKey = key
    · rw [if_pos (LevelKey.view_inj.mpr here), if_pos here]
      by_cases none : level.qty - taking.qty.toUInt64 = 0
      · rw [if_pos (emptied.mpr none), if_pos none]
        rfl
      · rw [if_neg (mt emptied.mp none), if_neg none]
        exact congrArg some rest.symm
    · rw [if_neg (mt LevelKey.view_inj.mp here), if_neg here]
      exact refines.levels key
  · intro key qty level
    rw [lookup] at level
    split at level
    · next here => exact ⟨_, own ▸ here⟩
    · exact refines.known key qty level
  · rw [Prototype.OrderBookStore.take] at taken
    rcases except_bind_eq_ok.mp taken with ⟨book, -, written⟩
    cases written
    exact refines.counters

theorem put (order : Order) (fits : (proto.put order.view).LevelsFit) :
    (store.restoreOrder order).Refines (proto.put order.view) := by
  have lookup := Prototype.OrderBookStore.level?_put proto order.view
  refine ⟨refines.orders.insert order, ?_, ?_, refines.counters, refines.ascending.put order.view⟩
  · intro key
    have fits := fits key.view
    rw [lookup, order.view_levelKey] at fits ⊢
    rw [level?_restoreOrder]
    by_cases here : order.levelKey = key
    · rw [if_pos (LevelKey.view_inj.mpr here)] at fits ⊢
      rw [if_pos here]
      have held : (proto.level? key.view).getD 0 = (store.qtyAt key).toNat := by
        rw [refines.levels, level?, qtyAt_eq, SideLevels.qtyAt]
        cases (store.sideLevels key.bookSide).levels[key.price]? <;> rfl
      have sum := fits _ rfl
      rw [held] at sum ⊢
      have word : (store.qtyAt key + order.remainingQty.toUInt64).toNat =
          (store.qtyAt key).toNat + order.remainingQty.toNat := by
        rw [UInt64.toNat_add, UInt32.toNat_toUInt64]
        exact Nat.mod_eq_of_lt sum
      exact congrArg some word.symm
    · rw [if_neg (mt LevelKey.view_inj.mp here), if_neg here]
      exact refines.levels key
  · intro key qty level
    rw [lookup] at level
    split at level
    · next here => exact ⟨_, order.view_levelKey ▸ here⟩
    · exact refines.known key qty level

theorem count {counted : OrderBookStore} {protoCounted : Prototype.OrderBookStore}
    (alike : counted.Alike store) (orders : protoCounted.orders = proto.orders)
    (books : protoCounted.books = proto.books) (same : counted.counters = protoCounted.counters) :
    counted.Refines protoCounted where
  orders := by
    rw [alike.orders, orders]
    exact refines.orders
  levels key := by
    rw [level?, alike.sideLevels, Prototype.OrderBookStore.level?,
      Prototype.OrderBookStore.sideLevels, Prototype.OrderBookStore.book, books]
    exact refines.levels key
  known key qty found := by
    rw [Prototype.OrderBookStore.level?, Prototype.OrderBookStore.sideLevels,
      Prototype.OrderBookStore.book, books] at found
    exact refines.known key qty found
  counters := same
  ascending bookSide := by
    rw [Prototype.OrderBookStore.sideLevels, Prototype.OrderBookStore.book, books]
    exact refines.ascending bookSide

/-! ## Operations -/

theorem removeOrder {order : Order} (removed : proto.removeOrder order.view = .ok after) :
    (store.removeOrder order).Refines after := by
  rw [removeOrder_eq_take]
  exact refines.take (UInt32.le_refl _)
    ((Prototype.OrderBookStore.removeOrder_eq_take proto order.view).symm.trans removed)

theorem insert {order : Order} (inserted : proto.insert order.view = .ok after)
    (fits : after.LevelsFit) : (store.insert order).Refines after := by
  have lookup : proto.orders.find? order.view.orderNumber = _ := refines.orders.same _
  rw [Prototype.OrderBookStore.insert, lookup] at inserted
  rw [OrderBookStore.insert]
  cases found : store.orders.find? order.orderNumber with
  | none =>
      rw [found] at inserted
      cases inserted
      exact refines.put order fits
  | some stale =>
      rw [found] at inserted
      rcases except_bind_eq_ok.mp inserted with ⟨rest, removed, written⟩
      cases written
      have counted : Refines { store with collisions := store.collisions + 1 }
          { proto with collisions := proto.collisions + 1 } := by
        refine refines.count ⟨rfl, rfl⟩ rfl rfl ?_
        simpa [OrderBookStore.counters, Prototype.OrderBookStore.counters, UInt64.ofNat_add]
          using refines.counters
      exact (counted.removeOrder removed).put order fits

theorem execute {orderNumber matchNumber : UInt64} {executedQty : UInt32}
    {execution : Option Prototype.Execution}
    (executed : proto.execute orderNumber.toNat executedQty.toNat matchNumber.toNat =
      .ok (after, execution)) :
    (store.execute orderNumber executedQty matchNumber).1.Refines after ∧
      execution = (store.execute orderNumber executedQty matchNumber).2.map Execution.view := by
  have lookup := refines.orders.same orderNumber
  cases found : store.orders.find? orderNumber with
  | none =>
      simp only [Prototype.OrderBookStore.execute, lookup, found, Option.map_none] at executed
      cases executed
      simp only [OrderBookStore.execute, found]
      refine ⟨refines.count ⟨rfl, rfl⟩ rfl rfl ?_, rfl⟩
      simpa [OrderBookStore.counters, Prototype.OrderBookStore.counters, UInt64.ofNat_add]
        using refines.counters
  | some order =>
      rw [found] at lookup
      have clamped := clampedQty_view order executedQty
      rcases Prototype.OrderBookStore.take_of_execute lookup executed with ⟨taken, took⟩
      have stored := Prototype.OrderBookStore.execute_of_take matchNumber.toNat lookup took
      rw [executed] at stored
      cases stored
      rw [clamped] at took
      have reached : (store.take ⟨order, clampedQty order executedQty⟩).Refines taken :=
        refines.take (clampedQty_le order executedQty) took
      simp only [OrderBookStore.execute, found, clamped]
      refine ⟨reached.count ⟨?_, rfl⟩ rfl rfl ?_, rfl⟩
      · rw [← KeyedMap.key_of_find? found]
        rfl
      · have before := refines.counters
        have kept : taken.counters = proto.counters := reached.counters.symm.trans before
        simp only [OrderBookStore.counters, Prototype.OrderBookStore.counters,
          StoreCounters.mk.injEq] at before kept
        simp [OrderBookStore.counters, Prototype.OrderBookStore.counters, setBook, kept, before,
          UInt64.ofNat_add]

theorem delete {orderNumber : UInt64} (deleted : proto.delete orderNumber.toNat = .ok after) :
    (store.erase orderNumber).Refines after := by
  have lookup := refines.orders.same orderNumber
  rw [OrderBookStore.erase]
  cases found : store.orders.find? orderNumber with
  | none =>
      simp only [Prototype.OrderBookStore.delete, lookup, found, Option.map_none] at deleted
      cases deleted
      refine refines.count ⟨rfl, rfl⟩ rfl rfl ?_
      simpa [OrderBookStore.counters, Prototype.OrderBookStore.counters, UInt64.ofNat_add]
        using refines.counters
  | some order =>
      simp only [Prototype.OrderBookStore.delete, lookup, found, Option.map_some] at deleted
      exact refines.removeOrder deleted

theorem replace {origOrderNumber newOrderNumber : UInt64} {qty price : UInt32}
    (replaced : proto.replace origOrderNumber.toNat newOrderNumber.toNat qty.toNat price.toNat =
      .ok after)
    (fits : after.LevelsFit) :
    (store.replace origOrderNumber newOrderNumber qty price).Refines after := by
  have lookup := refines.orders.same origOrderNumber
  rw [OrderBookStore.replace]
  cases found : store.orders.find? origOrderNumber with
  | none =>
      simp only [Prototype.OrderBookStore.replace, lookup, found, Option.map_none] at replaced
      cases replaced
      refine refines.count ⟨rfl, rfl⟩ rfl rfl ?_
      simpa [OrderBookStore.counters, Prototype.OrderBookStore.counters, UInt64.ofNat_add]
        using refines.counters
  | some order =>
      simp only [Prototype.OrderBookStore.replace, lookup, found, Option.map_some] at replaced
      rcases except_bind_eq_ok.mp replaced with ⟨rest, removed, inserted⟩
      exact (refines.removeOrder removed).insert inserted fits

theorem applyAdd {msg : AddOrder} (orderType : UInt8)
    (applied : proto.applyAdded msg.view = .ok after) (fits : after.LevelsFit) :
    (store.applyAdd msg orderType).Refines after := by
  rw [Prototype.OrderBookStore.applyAdded] at applied
  rw [OrderBookStore.applyAdd]
  by_cases zero : msg.orderNumber = 0
  · rw [if_pos (msg.view_isReference.mpr zero)] at applied
    cases applied
    rw [if_pos zero]
    refine refines.count ⟨rfl, rfl⟩ rfl rfl ?_
    simpa [OrderBookStore.counters, Prototype.OrderBookStore.counters, UInt64.ofNat_add]
      using refines.counters
  · rw [if_neg (mt msg.view_isReference.mp zero)] at applied
    rw [if_neg zero]
    exact refines.insert applied fits

theorem apply {msg : ItchMsg} {execution : Option Prototype.Execution}
    (applied : proto.apply msg.view = .ok (after, execution)) (fits : after.LevelsFit) :
    (store.apply msg).1.Refines after ∧ execution = (store.apply msg).2.map Execution.view := by
  cases msg with
  | addOrder order =>
      rcases except_bind_eq_ok.mp applied with ⟨added, done, written⟩
      cases written
      exact ⟨refines.applyAdd space done fits, rfl⟩
  | addAttributed order attribution orderType =>
      rcases except_bind_eq_ok.mp applied with ⟨added, done, written⟩
      cases written
      exact ⟨refines.applyAdd orderType done fits, rfl⟩
  | executed ns orderNumber executedQty matchNumber => exact refines.execute applied
  | deleted ns orderNumber =>
      rcases except_bind_eq_ok.mp applied with ⟨deleted, done, written⟩
      cases written
      exact ⟨refines.delete done, rfl⟩
  | replaced ns origOrderNumber newOrderNumber qty price =>
      rcases except_bind_eq_ok.mp applied with ⟨replaced, done, written⟩
      cases written
      exact ⟨refines.replace done fits, rfl⟩
  | _ =>
      cases applied
      exact ⟨refines, rfl⟩

end Refines

end OrderBookStore

end ProtoFH
