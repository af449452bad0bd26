import ProtoFH.Foundation.Execution
import ProtoFH.Market.Market
import ProtoFH.Market.StoreSteps

/-! # Level totals

The price levels of a store hold the sums of its live orders' remaining quantities,
and each side's running total the sum over the side. The sums are taken in a machine
word; they come out right as long as no level's true sum outgrows it. -/

namespace ProtoFH

def Order.restingAt (order : Order) (key : LevelKey) : Nat :=
  if order.levelKey = key then order.remainingQty.toNat else 0

def Order.restingOn (order : Order) (bookSide : BookSide) : Nat :=
  if order.bookSide = bookSide then order.remainingQty.toNat else 0

theorem Order.restingAt_le (order : Order) (key : LevelKey) : order.restingAt key ≤ 2 ^ 32 - 1 := by
  have := order.remainingQty.toNat_lt
  rw [restingAt]
  split <;> omega

private theorem Order.restingOn_le (order : Order) (bookSide : BookSide) :
    order.restingOn bookSide ≤ 2 ^ 32 - 1 := by
  have := order.remainingQty.toNat_lt
  rw [restingOn]
  split <;> omega

namespace OrderMap

def restingQty (orders : OrderMap) (key : LevelKey) : Nat := orders.total (·.restingAt key)

def sideQty (orders : OrderMap) (bookSide : BookSide) : Nat := orders.total (·.restingOn bookSide)

def RestingFits (orders : OrderMap) : Prop := ∀ key, orders.restingQty key < 2 ^ 64

variable {orders : OrderMap}

theorem total_lt_of_size (few : orders.size < 2 ^ 32) {weight : Order → Nat}
    (bounded : ∀ order, weight order ≤ 2 ^ 32 - 1) : orders.total weight < 2 ^ 64 :=
  calc orders.total weight ≤ orders.size * (2 ^ 32 - 1) := orders.total_le_size_mul bounded
    _ ≤ (2 ^ 32 - 1) * (2 ^ 32 - 1) := Nat.mul_le_mul_right _ (by omega)
    _ < 2 ^ 64 := by decide

theorem restingFits_of_size (few : orders.size < 2 ^ 32) : orders.RestingFits :=
  fun key => total_lt_of_size few (·.restingAt_le key)

variable {taking : Taking}

/-- What a taking takes away of a weight that is counted on one side or level only. -/
theorem total_take_inside (possible : taking.Possible orders) {inside : Order → Prop}
    [DecidablePred inside] (same : inside taking.remainder ↔ inside taking.order)
    {weight : Order → Nat} {taken : Nat}
    (whole : taken + (if taking.left = 0 then 0 else weight taking.remainder) =
      weight taking.order) :
    orders.total (fun order => if inside order then weight order else 0) =
      (if inside taking.order then taken else 0) +
        (orders.take taking).total (fun order => if inside order then weight order else 0) := by
  have change := total_take possible (fun order => if inside order then weight order else 0)
  by_cases here : inside taking.order
  · rw [if_pos here, if_pos (same.mpr here)] at change
    rw [if_pos here]
    omega
  · rw [if_neg here, if_neg (mt same.mp here), ite_self] at change
    rw [if_neg here]
    exact change

theorem whole_qty (possible : taking.Possible orders) :
    taking.qty.toNat + (if taking.left = 0 then 0 else taking.remainder.remainingQty.toNat) =
      taking.order.remainingQty.toNat := by
  rw [← possible.qty_add_left]
  split
  · next gone => rw [gone, UInt32.toNat_zero]
  · rfl

theorem restingQty_take (possible : taking.Possible orders) (key : LevelKey) :
    orders.restingQty key =
      (if taking.order.levelKey = key then taking.qty.toNat else 0) +
        (orders.take taking).restingQty key :=
  total_take_inside possible Iff.rfl (whole_qty possible)

private theorem sideQty_take (possible : taking.Possible orders) (bookSide : BookSide) :
    orders.sideQty bookSide =
      (if taking.order.bookSide = bookSide then taking.qty.toNat else 0) +
        (orders.take taking).sideQty bookSide :=
  total_take_inside possible Iff.rfl (whole_qty possible)

theorem RestingFits.take (fits : orders.RestingFits) (possible : taking.Possible orders) :
    (orders.take taking).RestingFits := by
  intro key
  have before := fits key
  rw [restingQty_take possible key] at before
  omega

end OrderMap

theorem ofNat_toNat_qty (qty : UInt32) : UInt64.ofNat qty.toNat = qty.toUInt64 := by
  rw [← UInt64.toNat_inj, UInt32.toNat_toUInt64, UInt64.toNat_ofNat_of_lt']
  exact Nat.lt_trans qty.toNat_lt (by decide)

theorem ofNat_sub_part {here : Prop} [Decidable here] {sum rest : Nat} {qty : UInt32}
    (split : sum = (if here then qty.toNat else 0) + rest) :
    (if here then UInt64.ofNat sum - qty.toUInt64 else UInt64.ofNat sum) = UInt64.ofNat rest := by
  by_cases taken : here
  · rw [if_pos taken] at split ⊢
    rw [split, UInt64.ofNat_add, ofNat_toNat_qty, UInt64.add_comm]
    exact UInt64.add_sub_cancel _ _
  · rw [if_neg taken, Nat.zero_add] at split
    rw [if_neg taken, split]

namespace OrderBookStore

def qtyAt (store : OrderBookStore) (key : LevelKey) : UInt64 :=
  (store.book key.orderbookId).qtyAt key.bid key.price

theorem qtyAt_eq (store : OrderBookStore) (key : LevelKey) :
    store.qtyAt key = (store.sideLevels key.bookSide).qtyAt key.price := rfl

def totalQty (store : OrderBookStore) (bookSide : BookSide) : UInt64 :=
  (store.sideLevels bookSide).totalQty

def LevelsSummed (store : OrderBookStore) : Prop :=
  ∀ key, store.qtyAt key = UInt64.ofNat (store.orders.restingQty key)

/-- Every side's total is the sum over its live orders, as far as a machine word can tell. -/
def SidesSummed (store : OrderBookStore) : Prop :=
  ∀ bookSide, store.totalQty bookSide = UInt64.ofNat (store.orders.sideQty bookSide)

theorem levelsSummed_empty : LevelsSummed {} := by
  intro key
  have none : OrderMap.restingQty ({} : OrderBookStore).orders key = 0 := KeyedMap.total_empty _
  rw [qtyAt_eq, sideLevels_empty, SideLevels.qtyAt_empty, none]
  rfl

theorem sidesSummed_empty : SidesSummed {} := by
  intro bookSide
  have none : OrderMap.sideQty ({} : OrderBookStore).orders bookSide = 0 := KeyedMap.total_empty _
  rw [totalQty, sideLevels_empty, none]
  rfl

theorem qtyAt_setBook (store : OrderBookStore) (orderbookId : CStr 4) (book : Book)
    (key : LevelKey) :
    (store.setBook orderbookId book).qtyAt key =
      if orderbookId = key.orderbookId then book.qtyAt key.bid key.price
      else store.qtyAt key := by
  simp only [qtyAt, OrderBookStore.book, setBook, OrderedMap.lookup_insert]
  split <;> rfl

private theorem qtyAt_restoreOrder (store : OrderBookStore) (order : Order) (key : LevelKey) :
    (store.restoreOrder order).qtyAt key =
      store.qtyAt key + UInt64.ofNat (order.restingAt key) := by
  rw [qtyAt_eq, qtyAt_eq, sideLevels_restoreOrder, Order.restingAt, Order.ite_levelKey]
  split
  · next sameSide =>
      rw [SideLevels.qtyAt_add, sameSide]
      split
      · rw [ofNat_toNat_qty]
      · exact (UInt64.add_zero _).symm
  · exact (UInt64.add_zero _).symm

theorem totalQty_restoreOrder (store : OrderBookStore) (order : Order) (bookSide : BookSide) :
    (store.restoreOrder order).totalQty bookSide =
      store.totalQty bookSide + UInt64.ofNat (order.restingOn bookSide) := by
  rw [totalQty, sideLevels_restoreOrder, Order.restingOn]
  by_cases sameSide : order.bookSide = bookSide
  · rw [if_pos sameSide, if_pos sameSide, ofNat_toNat_qty, sameSide]
    rfl
  · rw [if_neg sameSide, if_neg sameSide]
    exact (UInt64.add_zero _).symm

variable {store : OrderBookStore} {taking : Taking}

theorem qtyAt_take (enough : taking.qty.toUInt64 ≤ store.qtyAt taking.order.levelKey)
    (key : LevelKey) :
    (store.take taking).qtyAt key =
      if taking.order.levelKey = key then store.qtyAt key - taking.qty.toUInt64
      else store.qtyAt key := by
  have held : taking.qty.toUInt64 ≤
      (store.sideLevels taking.order.bookSide).qtyAt taking.order.price := enough
  rw [qtyAt_eq, sideLevels_take, Order.ite_levelKey]
  split
  · next sameSide =>
      rw [SideLevels.qtyAt_remove held, sameSide]
      rfl
  · rfl

private theorem totalQty_take (enough : taking.qty.toUInt64 ≤ store.qtyAt taking.order.levelKey)
    (bookSide : BookSide) :
    (store.take taking).totalQty bookSide =
      if taking.order.bookSide = bookSide then store.totalQty bookSide - taking.qty.toUInt64
      else store.totalQty bookSide := by
  have held : taking.qty.toUInt64 ≤
      (store.sideLevels taking.order.bookSide).qtyAt taking.order.price := enough
  rw [totalQty, sideLevels_take]
  by_cases sameSide : taking.order.bookSide = bookSide
  · rw [if_pos sameSide, if_pos sameSide, SideLevels.totalQty_remove _ held, sameSide]
    rfl
  · rw [if_neg sameSide, if_neg sameSide]
    rfl

theorem LevelsSummed.enough (summed : store.LevelsSummed) (fits : store.orders.RestingFits)
    (possible : taking.Possible store.orders) :
    taking.qty.toUInt64 ≤ store.qtyAt taking.order.levelKey := by
  have split := OrderMap.restingQty_take possible taking.order.levelKey
  rw [if_pos rfl] at split
  rw [summed, UInt64.le_iff_toNat_le, UInt32.toNat_toUInt64,
    UInt64.toNat_ofNat_of_lt' (fits taking.order.levelKey)]
  omega

/-! ## The two moves keep the sums -/

theorem LevelsSummed.restoreOrder (summed : store.LevelsSummed) {order : Order}
    (fresh : store.orders.find? order.orderNumber = none) :
    (store.restoreOrder order).LevelsSummed := by
  intro key
  have sum : OrderMap.restingQty (store.orders.insert order) key =
      order.restingAt key + store.orders.restingQty key :=
    KeyedMap.total_insert_of_absent _ _ fresh
  rw [qtyAt_restoreOrder, summed key, restoreOrder_orders, sum, UInt64.ofNat_add,
    UInt64.add_comm]

theorem SidesSummed.restoreOrder (summed : store.SidesSummed) {order : Order}
    (fresh : store.orders.find? order.orderNumber = none) :
    (store.restoreOrder order).SidesSummed := by
  intro bookSide
  have sum : OrderMap.sideQty (store.orders.insert order) bookSide =
      order.restingOn bookSide + store.orders.sideQty bookSide :=
    KeyedMap.total_insert_of_absent _ _ fresh
  rw [totalQty_restoreOrder, summed bookSide, restoreOrder_orders, sum, UInt64.ofNat_add,
    UInt64.add_comm]

theorem LevelsSummed.take (summed : store.LevelsSummed) (fits : store.orders.RestingFits)
    (possible : taking.Possible store.orders) : (store.take taking).LevelsSummed := by
  intro key
  rw [qtyAt_take (summed.enough fits possible), summed key]
  exact ofNat_sub_part (OrderMap.restingQty_take possible key)

theorem SidesSummed.take (sides : store.SidesSummed) (levels : store.LevelsSummed)
    (fits : store.orders.RestingFits) (possible : taking.Possible store.orders) :
    (store.take taking).SidesSummed := by
  intro bookSide
  rw [totalQty_take (levels.enough fits possible), sides bookSide]
  exact ofNat_sub_part (OrderMap.sideQty_take possible bookSide)

structure Summed (store : OrderBookStore) : Prop where
  levels : store.LevelsSummed
  sides : store.SidesSummed

theorem Alike.summed {store other : OrderBookStore} (alike : store.Alike other)
    (summed : other.Summed) : store.Summed where
  levels key := by
    rw [qtyAt_eq, alike.sideLevels, alike.orders]
    exact summed.levels key
  sides bookSide := by
    rw [totalQty, alike.sideLevels, alike.orders]
    exact summed.sides bookSide

theorem Summed.take (summed : store.Summed) (fits : store.orders.RestingFits)
    (possible : taking.Possible store.orders) : (store.take taking).Summed where
  levels := summed.levels.take fits possible
  sides := summed.sides.take summed.levels fits possible

theorem Summed.apply (summed : store.Summed) (fits : store.orders.RestingFits) (msg : ItchMsg) :
    (store.apply msg).1.Summed :=
  apply_invariant (fun store => store.Summed ∧ store.orders.RestingFits) Alike.summed
    (fun possible before => ⟨before.1.take before.2 possible, before.2.take possible⟩)
    And.left
    (fun fresh before =>
      ⟨before.1.levels.restoreOrder fresh, before.1.sides.restoreOrder fresh⟩)
    ⟨summed, fits⟩ msg

theorem LevelsSummed.removeCalls (summed : store.LevelsSummed) (fits : store.orders.RestingFits)
    {takings : List Taking} (possible : OrderMap.AllPossible store.orders takings) :
    ∀ call ∈ store.removeCalls takings, 0 < call.qty → call.returns = true := by
  induction takings generalizing store with
  | nil => exact fun call member => absurd member List.not_mem_nil
  | cons taking takings induction =>
      rw [OrderBookStore.removeCalls, List.forall_mem_cons]
      constructor
      · intro positive
        exact (SideLevels.removeReturns_iff _ _ positive).mpr (summed.enough fits possible.1)
      · exact induction (summed.take fits possible.1) (fits.take possible.1) possible.2

theorem LevelsSummed.restoreAll (summed : store.LevelsSummed) {orders : List Order}
    (distinct : (orders.map Order.orderNumber).Nodup)
    (fresh : ∀ order ∈ orders, store.orders.find? order.orderNumber = none) :
    (orders.foldl OrderBookStore.restoreOrder store).LevelsSummed := by
  induction orders generalizing store with
  | nil => exact summed
  | cons order orders induction =>
      rw [List.forall_mem_cons] at fresh
      rw [List.map_cons, List.nodup_cons] at distinct
      apply induction (summed.restoreOrder fresh.1) distinct.2
      intro other member
      have different : order.orderNumber ≠ other.orderNumber := by
        intro equal
        exact distinct.1 (List.mem_map.mpr ⟨other, member, equal.symm⟩)
      rw [restoreOrder_orders, KeyedMap.find?_insert, if_neg different]
      exact fresh.2 other member

end OrderBookStore

namespace Market

theorem storeStep_alike (books : OrderBookStore) (msg : ItchMsg) :
    (storeStep books msg).1.Alike (books.apply msg).1 := by
  cases msg with
  | addOrder order =>
      by_cases reference : order.orderNumber = 0
      · rw [storeStep, if_pos reference, OrderBookStore.apply, OrderBookStore.applyAdd,
          if_pos reference]
        exact ⟨rfl, rfl⟩
      · rw [storeStep, if_neg reference]
        exact ⟨rfl, rfl⟩
  | _ => exact ⟨rfl, rfl⟩

theorem summed_storeStep {books : OrderBookStore} (summed : books.Summed)
    (fits : books.orders.RestingFits) (msg : ItchMsg) : (storeStep books msg).1.Summed :=
  (storeStep_alike books msg).summed (summed.apply fits msg)

theorem summed_run (messages : List ItchMsg)
    (fits : ∀ n < messages.length, (run {} (messages.take n)).books.orders.RestingFits) :
    (run {} messages).books.Summed := by
  refine foldl_invariant_along (fun market : Market => market.books.Summed)
    (·.books.orders.RestingFits) ?_
    ⟨OrderBookStore.levelsSummed_empty, OrderBookStore.sidesSummed_empty⟩ fits
  intro market msg fits summed
  rw [apply_books]
  exact summed_storeStep summed fits msg

/-- The calls of `SideLevels::remove` that applying a message makes. -/
def removeCalls (market : Market) (msg : ItchMsg) : List OrderBookStore.RemoveCall :=
  market.books.removeCalls (market.books.orders.takings msg)

/-- With fewer than 2^32 live orders at any time, levels and side totals are exactly
the resting orders, and no removal of something is refused. -/
theorem levels_are_resting_orders (messages : List ItchMsg)
    (few : ∀ n ≤ messages.length, (run {} (messages.take n)).books.orders.size < 2 ^ 32) :
    let books := (run {} messages).books
    (∀ key, (books.qtyAt key).toNat = books.orders.restingQty key) ∧
      (∀ bookSide, (books.totalQty bookSide).toNat = books.orders.sideQty bookSide) ∧
      ∀ (n : Nat) (msg : ItchMsg), messages[n]? = some msg →
        ∀ call ∈ (run {} (messages.take n)).removeCalls msg, 0 < call.qty →
          call.returns = true := by
  have fits (n : Nat) (within : n ≤ messages.length) :=
    OrderMap.restingFits_of_size (few n within)
  have summed (n : Nat) (within : n ≤ messages.length) :
      (run {} (messages.take n)).books.Summed := by
    apply summed_run
    intro earlier before
    rw [List.length_take] at before
    rw [List.take_take, Nat.min_eq_left (by omega)]
    exact fits earlier (by omega)
  have last := summed messages.length (Nat.le_refl _)
  have size := few messages.length (Nat.le_refl _)
  rw [List.take_length] at last size
  refine ⟨?_, ?_, ?_⟩
  · intro key
    rw [last.levels key]
    exact UInt64.toNat_ofNat_of_lt' (OrderMap.restingFits_of_size size key)
  · intro bookSide
    rw [last.sides bookSide]
    exact UInt64.toNat_ofNat_of_lt' (OrderMap.total_lt_of_size size (·.restingOn_le bookSide))
  · intro n msg next
    have within := Nat.le_of_lt (List.getElem?_eq_some_iff.mp next).1
    exact (summed n within).levels.removeCalls (fits n within) (OrderMap.takings_possible _ msg)

/-- Two orders at one price, one of them partly filled and then replaced onto the
other's number. -/
def crossedReplace : List ItchMsg :=
  let add (orderNumber : UInt64) (qty : UInt32) : ItchMsg :=
    .addOrder
      { ns := 0, orderNumber, side := ascii 'B', qty, orderbookId := CStr.copy 4 [49, 51, 48, 49]
        group := CStr.copy 4 [68, 65, 89], price := 1000 }
  [add 1 100, add 2 50, .executed 0 1 30 7, .replaced 0 1 2 20 1010]

theorem crossedReplace_levels :
    (∀ n ≤ crossedReplace.length,
        (run {} (crossedReplace.take n)).books.orders.size < 2 ^ 32) ∧
      ∀ key, ((run {} crossedReplace).books.qtyAt key).toNat =
        (run {} crossedReplace).books.orders.restingQty key := by
  have few : ∀ n ≤ crossedReplace.length,
      (run {} (crossedReplace.take n)).books.orders.size < 2 ^ 32 := by decide +kernel
  exact ⟨few, (levels_are_resting_orders crossedReplace few).1⟩

end Market

end ProtoFH
