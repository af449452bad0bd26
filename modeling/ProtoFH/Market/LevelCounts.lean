import ProtoFH.Foundation.Execution
import ProtoFH.Market.LevelTotals

/-! # Level order counts

A level is erased once its quantity is zero, whatever its order count says. As long
as no order stays behind on a level that runs empty, every level counts the orders
resting at it and every side's total the orders on it. -/

namespace ProtoFH

def Order.countAt (order : Order) (key : LevelKey) : Nat :=
  if order.levelKey = key then 1 else 0

def Order.countOn (order : Order) (bookSide : BookSide) : Nat :=
  if order.bookSide = bookSide then 1 else 0

namespace OrderMap

def ordersAt (orders : OrderMap) (key : LevelKey) : Nat := orders.total (·.countAt key)

def ordersOn (orders : OrderMap) (bookSide : BookSide) : Nat := orders.total (·.countOn bookSide)

def RestsAt (orders : OrderMap) (key : LevelKey) : Prop :=
  ∃ order, orders.find? order.orderNumber = some order ∧ order.levelKey = key

theorem ordersAt_pos_iff (orders : OrderMap) (key : LevelKey) :
    0 < orders.ordersAt key ↔ orders.RestsAt key := by
  constructor
  · intro positive
    rcases KeyedMap.exists_of_total_pos positive with ⟨orderNumber, order, found, counted⟩
    have number := KeyedMap.key_of_find? found
    refine ⟨order, number ▸ found, ?_⟩
    by_contra elsewhere
    rw [Order.countAt, if_neg elsewhere] at counted
    exact Nat.lt_irrefl 0 counted
  · rintro ⟨order, found, here⟩
    have counted := KeyedMap.weight_le_total (·.countAt key) found
    rwa [Order.countAt, if_pos here] at counted

theorem ordersAt_le_ordersOn (orders : OrderMap) (key : LevelKey) :
    orders.ordersAt key ≤ orders.ordersOn key.bookSide := by
  apply KeyedMap.total_le_total
  intro order
  rw [Order.countAt, Order.countOn]
  split
  · next here => rw [if_pos ((order.levelKey_eq_iff key).mp here).1]
  · exact Nat.zero_le _

theorem restingQty_le (orders : OrderMap) (key : LevelKey) :
    orders.restingQty key ≤ orders.ordersAt key * (2 ^ 32 - 1) := by
  rw [ordersAt, KeyedMap.total_mul]
  apply KeyedMap.total_le_total
  intro order
  have := order.remainingQty.toNat_lt
  rw [Order.restingAt, Order.countAt]
  split <;> omega

variable {orders : OrderMap}

variable {taking : Taking}

theorem total_take_count (possible : taking.Possible orders) {inside : Order → Prop}
    [DecidablePred inside] (same : inside taking.remainder ↔ inside taking.order) :
    orders.total (fun order => if inside order then 1 else 0) =
      (if inside taking.order ∧ taking.left = 0 then 1 else 0) +
        (orders.take taking).total (fun order => if inside order then 1 else 0) := by
  rw [ite_and]
  exact total_take_inside possible same (by split <;> rfl)

theorem ordersAt_take (possible : taking.Possible orders) (key : LevelKey) :
    orders.ordersAt key =
      (if taking.order.levelKey = key ∧ taking.left = 0 then 1 else 0) +
        (orders.take taking).ordersAt key :=
  total_take_count possible Iff.rfl

theorem ordersOn_take (possible : taking.Possible orders) (bookSide : BookSide) :
    orders.ordersOn bookSide =
      (if taking.order.bookSide = bookSide ∧ taking.left = 0 then 1 else 0) +
        (orders.take taking).ordersOn bookSide :=
  total_take_count possible Iff.rfl

theorem ordersAt_insert {order : Order} (fresh : orders.find? order.orderNumber = none)
    (key : LevelKey) :
    ordersAt (orders.insert order) key = order.countAt key + orders.ordersAt key :=
  KeyedMap.total_insert_of_absent _ _ fresh

theorem ordersOn_insert {order : Order} (fresh : orders.find? order.orderNumber = none)
    (bookSide : BookSide) :
    ordersOn (orders.insert order) bookSide = order.countOn bookSide + orders.ordersOn bookSide :=
  KeyedMap.total_insert_of_absent _ _ fresh

end OrderMap

namespace OrderBookStore

def level? (store : OrderBookStore) (key : LevelKey) : Option Level :=
  (store.sideLevels key.bookSide).levels[key.price]?

def totalOrders (store : OrderBookStore) (bookSide : BookSide) : UInt32 :=
  (store.sideLevels bookSide).totalOrders

/-- The levels that exist are those some live order rests at, and they and the sides'
totals count the orders. -/
structure Counted (store : OrderBookStore) : Prop where
  present : ∀ key, (store.level? key).isSome ↔ store.orders.RestsAt key
  orders : ∀ key level, store.level? key = some level →
    level.orders.toNat = store.orders.ordersAt key
  totals : ∀ bookSide, (store.totalOrders bookSide).toNat = store.orders.ordersOn bookSide

private theorem counted_empty : Counted {} where
  present key := by
    have none : ¬ OrderMap.RestsAt ({} : OrderBookStore).orders key := by
      rintro ⟨order, found, -⟩
      rw [KeyedMap.find?_empty] at found
      cases found
    simp [level?, none]
  orders key level found := by simp [level?] at found
  totals bookSide := by
    have none : OrderMap.ordersOn ({} : OrderBookStore).orders bookSide = 0 :=
      KeyedMap.total_empty _
    rw [totalOrders, sideLevels_empty, none]
    rfl

theorem Alike.counted {store other : OrderBookStore} (alike : store.Alike other)
    (counted : other.Counted) : store.Counted where
  present key := by
    rw [level?, alike.sideLevels, alike.orders]
    exact counted.present key
  orders key level found := by
    rw [level?, alike.sideLevels] at found
    rw [alike.orders]
    exact counted.orders key level found
  totals bookSide := by
    rw [totalOrders, alike.sideLevels, alike.orders]
    exact counted.totals bookSide

variable {store : OrderBookStore}

theorem Counted.ordersOn_lt (counted : store.Counted) (bookSide : BookSide) :
    store.orders.ordersOn bookSide < 2 ^ 32 := by
  rw [← counted.totals bookSide]
  exact (store.totalOrders bookSide).toNat_lt

theorem restingFits_of_ordersOn {orders : OrderMap}
    (few : ∀ bookSide, orders.ordersOn bookSide < 2 ^ 32) : orders.RestingFits := by
  intro key
  have here := orders.ordersAt_le_ordersOn key
  have side := few key.bookSide
  calc orders.restingQty key ≤ orders.ordersAt key * (2 ^ 32 - 1) := orders.restingQty_le key
    _ ≤ (2 ^ 32 - 1) * (2 ^ 32 - 1) := Nat.mul_le_mul_right _ (by omega)
    _ < 2 ^ 64 := by decide

/-! ## How the moves change a level -/

theorem level?_restoreOrder (store : OrderBookStore) (order : Order) (key : LevelKey) :
    (store.restoreOrder order).level? key =
      if order.levelKey = key then
        some
          { qty := store.qtyAt key + order.remainingQty.toUInt64
            orders := ((store.level? key).getD {}).orders + 1 }
      else store.level? key := by
  rw [level?, sideLevels_restoreOrder, Order.ite_levelKey]
  split
  · next sameSide =>
      rw [SideLevels.lookup_add, sameSide]
      split
      · next samePrice => rw [samePrice]; rfl
      · rfl
  · rfl

theorem totalOrders_restoreOrder (store : OrderBookStore) (order : Order) (bookSide : BookSide) :
    (store.restoreOrder order).totalOrders bookSide =
      if order.bookSide = bookSide then store.totalOrders bookSide + 1
      else store.totalOrders bookSide := by
  rw [totalOrders, sideLevels_restoreOrder]
  split
  · next sameSide =>
      rw [sameSide]
      rfl
  · rfl

variable {taking : Taking}

theorem level?_take_of_ne (store : OrderBookStore) {key : LevelKey}
    (elsewhere : taking.order.levelKey ≠ key) :
    (store.take taking).level? key = store.level? key := by
  rw [level?, sideLevels_take]
  split
  · next sameSide =>
      have different : taking.order.price ≠ key.price := by
        intro samePrice
        exact elsewhere ((taking.order.levelKey_eq_iff key).mpr ⟨sameSide, samePrice⟩)
      rw [SideLevels.lookup_remove_of_ne _ different, sameSide]
      rfl
  · rfl

theorem sideLevels_take_missing (missing : store.level? taking.order.levelKey = none)
    (bookSide : BookSide) :
    (store.take taking).sideLevels bookSide = store.sideLevels bookSide := by
  rw [sideLevels_take]
  split
  · next sameSide =>
      have absent : (store.sideLevels taking.order.bookSide).levels[taking.order.price]? = none :=
        missing
      rw [SideLevels.remove_missing absent, sameSide]
  · rfl

theorem totalOrders_take {level : Level} (found : store.level? taking.order.levelKey = some level)
    (enough : taking.qty.toUInt64 ≤ level.qty) (bookSide : BookSide) :
    (store.take taking).totalOrders bookSide =
      if taking.order.bookSide = bookSide ∧ taking.left = 0 then
        SideLevels.decrement (store.totalOrders bookSide)
      else store.totalOrders bookSide := by
  have present : (store.sideLevels taking.order.bookSide).levels[taking.order.price]? =
      some level := found
  rw [totalOrders, sideLevels_take]
  by_cases sameSide : taking.order.bookSide = bookSide
  · rw [if_pos sameSide, SideLevels.totalOrders_remove present enough, sameSide]
    simp [totalOrders]
  · rw [if_neg sameSide, if_neg fun both => sameSide both.1]
    rfl

end OrderBookStore

/-! ## Orders left behind -/

def Taking.LeavesNone (taking : Taking) (orders : OrderMap) : Prop :=
  (orders.take taking).restingQty taking.order.levelKey = 0 →
    (orders.take taking).ordersAt taking.order.levelKey = 0

namespace OrderBookStore

section Taken

variable {store : OrderBookStore} {taking : Taking} (counted : store.Counted)
  (summed : store.LevelsSummed) (fits : store.orders.RestingFits)
  (possible : taking.Possible store.orders)
include counted summed fits possible

theorem Counted.level_take :
    ∃ level, store.level? taking.order.levelKey = some level ∧
      taking.qty.toUInt64 ≤ level.qty ∧
      (store.take taking).level? taking.order.levelKey =
        if (store.orders.take taking).restingQty taking.order.levelKey = 0 then none
        else some
          { qty := level.qty - taking.qty.toUInt64
            orders :=
              if taking.left = 0 then SideLevels.decrement level.orders else level.orders } := by
  have rests : store.orders.RestsAt taking.order.levelKey := ⟨_, possible.live, rfl⟩
  rcases Option.isSome_iff_exists.mp ((counted.present _).mpr rests) with ⟨level, found⟩
  have held : store.qtyAt taking.order.levelKey = level.qty := by
    have present : (store.sideLevels taking.order.bookSide).levels[taking.order.price]? =
        some level := found
    change (store.sideLevels taking.order.bookSide).qtyAt taking.order.price = _
    simp [SideLevels.qtyAt, present]
  have enough := summed.enough fits possible
  have after := (summed.take fits possible) taking.order.levelKey
  rw [qtyAt_take enough, if_pos rfl, held, take_orders] at after
  rw [held] at enough
  have emptied : level.qty - taking.qty.toUInt64 = 0 ↔
      (store.orders.take taking).restingQty taking.order.levelKey = 0 := by
    have small := (fits.take possible) taking.order.levelKey
    rw [after, ← UInt64.toNat_inj, UInt64.toNat_ofNat_of_lt' small]
    rfl
  refine ⟨level, found, enough, ?_⟩
  have removed := SideLevels.lookup_remove_self found enough (taking.left = 0)
  simp only [emptied, decide_eq_true_eq] at removed
  rw [← removed, level?, Order.bookSide_levelKey, sideLevels_take, if_pos rfl]
  rfl

theorem Counted.take (leaves : taking.LeavesNone store.orders) : (store.take taking).Counted := by
  rcases counted.level_take summed fits possible with ⟨level, found, enough, after⟩
  have own := counted.orders _ level found
  have split := OrderMap.ordersAt_take possible taking.order.levelKey
  rw [← own] at split
  have others {key : LevelKey} (elsewhere : taking.order.levelKey ≠ key) :
      store.orders.ordersAt key = (store.orders.take taking).ordersAt key := by
    rw [OrderMap.ordersAt_take possible key, if_neg fun both => elsewhere both.1, Nat.zero_add]
  refine ⟨?_, ?_, ?_⟩
  · intro key
    by_cases here : taking.order.levelKey = key
    · subst here
      rw [after, ← OrderMap.ordersAt_pos_iff, take_orders]
      by_cases emptied : (store.orders.take taking).restingQty taking.order.levelKey = 0
      · have none := leaves emptied
        simp [emptied, none]
      · have bound := (store.orders.take taking).restingQty_le taking.order.levelKey
        have positive : 0 < (store.orders.take taking).ordersAt taking.order.levelKey := by
          by_contra none
          rw [Nat.eq_zero_of_not_pos none, Nat.zero_mul] at bound
          exact emptied (Nat.le_zero.mp bound)
        rw [if_neg emptied]
        exact ⟨fun _ => positive, fun _ => rfl⟩
    · rw [level?_take_of_ne store here, counted.present, ← OrderMap.ordersAt_pos_iff,
        ← OrderMap.ordersAt_pos_iff, others here, take_orders]
  · intro key changed present
    by_cases here : taking.order.levelKey = key
    · subst here
      rw [after] at present
      by_cases emptied : (store.orders.take taking).restingQty taking.order.levelKey = 0
      · rw [if_pos emptied] at present
        cases present
      · rw [if_neg emptied] at present
        cases present
        dsimp only
        by_cases gone : taking.left = 0
        · rw [if_pos ⟨rfl, gone⟩] at split
          rw [if_pos gone, SideLevels.decrement_toNat (by omega), take_orders]
          omega
        · rw [if_neg fun both => gone both.2, Nat.zero_add] at split
          rw [if_neg gone]
          exact split
    · rw [level?_take_of_ne store here] at present
      rw [counted.orders key changed present, others here, take_orders]
  · intro bookSide
    have total := OrderMap.ordersOn_take possible bookSide
    rw [← counted.totals bookSide] at total
    rw [totalOrders_take found enough]
    by_cases gone : taking.order.bookSide = bookSide ∧ taking.left = 0
    · rw [if_pos gone] at total
      rw [if_pos gone, SideLevels.decrement_toNat (by omega), take_orders]
      omega
    · rw [if_neg gone, Nat.zero_add] at total
      rw [if_neg gone]
      exact total

end Taken

variable {store : OrderBookStore}

theorem Counted.restoreOrder (counted : store.Counted) {order : Order}
    (fresh : store.orders.find? order.orderNumber = none)
    (few : ∀ bookSide, OrderMap.ordersOn (store.orders.insert order) bookSide < 2 ^ 32) :
    (store.restoreOrder order).Counted := by
  have counts (key : LevelKey) := OrderMap.ordersAt_insert fresh key
  refine ⟨?_, ?_, ?_⟩
  · intro key
    rw [level?_restoreOrder, ← OrderMap.ordersAt_pos_iff, restoreOrder_orders, counts,
      Order.countAt]
    by_cases here : order.levelKey = key
    · rw [if_pos here, if_pos here]
      exact ⟨fun _ => by omega, fun _ => rfl⟩
    · rw [if_neg here, if_neg here, Nat.zero_add, OrderMap.ordersAt_pos_iff]
      exact counted.present key
  · intro key level found
    have whole := few key.bookSide
    have within := OrderMap.ordersAt_le_ordersOn (store.orders.insert order) key
    rw [level?_restoreOrder] at found
    rw [restoreOrder_orders]
    rw [counts, Order.countAt] at within ⊢
    by_cases here : order.levelKey = key
    · have before : ((store.level? key).getD {}).orders.toNat = store.orders.ordersAt key := by
        cases present : store.level? key with
        | some level => exact counted.orders key level present
        | none =>
            have nobody : ¬ store.orders.RestsAt key := by
              rw [← counted.present, present]
              exact nofun
            rw [← OrderMap.ordersAt_pos_iff] at nobody
            exact (Nat.eq_zero_of_not_pos nobody).symm
      rw [if_pos here] at found within
      cases found
      rw [if_pos here, UInt32.toNat_add, before, Nat.mod_eq_of_lt]
      · exact Nat.add_comm _ _
      · change store.orders.ordersAt key + 1 < 2 ^ 32
        omega
    · rw [if_neg here] at found
      rw [if_neg here, Nat.zero_add]
      exact counted.orders key level found
  · intro bookSide
    have whole := few bookSide
    rw [totalOrders_restoreOrder, restoreOrder_orders]
    rw [OrderMap.ordersOn_insert fresh, Order.countOn] at whole ⊢
    by_cases here : order.bookSide = bookSide
    · rw [if_pos here] at whole
      rw [if_pos here, if_pos here, UInt32.toNat_add, counted.totals, Nat.mod_eq_of_lt]
      · exact Nat.add_comm _ _
      · change store.orders.ordersOn bookSide + 1 < 2 ^ 32
        omega
    · rw [if_neg here, if_neg here, Nat.zero_add]
      exact counted.totals bookSide

/-! ## Counts that went wrong stay wrong -/

/-- A level with live orders is missing, or a side's total counts more orders than are
live there. -/
inductive Stray (store : OrderBookStore) : Prop where
  | level (key : LevelKey) : store.level? key = none → 0 < store.orders.ordersAt key →
      Stray store
  | total (bookSide : BookSide) :
      store.orders.ordersOn bookSide < (store.totalOrders bookSide).toNat → Stray store

def TotalsCover (store : OrderBookStore) : Prop :=
  ∀ bookSide, store.orders.ordersOn bookSide ≤ (store.totalOrders bookSide).toNat

private theorem Counted.totalsCover (counted : store.Counted) : store.TotalsCover :=
  fun bookSide => Nat.le_of_eq (counted.totals bookSide).symm

theorem Stray.not_counted (stray : store.Stray) : ¬ store.Counted := by
  intro counted
  cases stray with
  | level key missing rests =>
      have present := (counted.present key).mpr ((OrderMap.ordersAt_pos_iff _ key).mp rests)
      rw [missing] at present
      cases present
  | total bookSide more => exact Nat.ne_of_gt more (counted.totals bookSide)

theorem totalOrders_take_cases (store : OrderBookStore) (taking : Taking) (bookSide : BookSide) :
    (store.take taking).totalOrders bookSide = store.totalOrders bookSide ∨
      (taking.order.bookSide = bookSide ∧ taking.left = 0) ∧
        (store.take taking).totalOrders bookSide =
          SideLevels.decrement (store.totalOrders bookSide) := by
  cases found : store.level? taking.order.levelKey with
  | none =>
      left
      rw [totalOrders, sideLevels_take_missing found]
      rfl
  | some level =>
      by_cases enough : taking.qty.toUInt64 ≤ level.qty
      · rw [totalOrders_take found enough]
        by_cases gone : taking.order.bookSide = bookSide ∧ taking.left = 0
        · rw [if_pos gone]
          exact Or.inr ⟨gone, rfl⟩
        · rw [if_neg gone]
          exact Or.inl rfl
      · have present : (store.sideLevels taking.order.bookSide).levels[taking.order.price]? =
            some level := found
        have short : (store.sideLevels taking.order.bookSide).qtyAt taking.order.price <
            taking.qty.toUInt64 := by
          rw [SideLevels.qtyAt, present]
          exact UInt64.not_le.mp enough
        left
        rw [totalOrders, sideLevels_take, SideLevels.remove_of_lt _ short]
        split
        · next sameSide =>
            rw [sameSide]
            rfl
        · rfl

theorem TotalsCover.take (cover : store.TotalsCover) {taking : Taking}
    (possible : taking.Possible store.orders) : (store.take taking).TotalsCover := by
  intro bookSide
  have before := cover bookSide
  rw [OrderMap.ordersOn_take possible bookSide] at before
  rw [take_orders]
  rcases store.totalOrders_take_cases taking bookSide with same | ⟨gone, lower⟩
  · rw [same]
    omega
  · rw [if_pos gone] at before
    rw [lower, SideLevels.decrement_toNat (by omega)]
    omega

theorem Stray.take (stray : store.Stray) (cover : store.TotalsCover) {taking : Taking}
    (possible : taking.Possible store.orders) : (store.take taking).Stray := by
  cases stray with
  | level key missing rests =>
      have split := OrderMap.ordersAt_take possible key
      by_cases here : taking.order.levelKey = key
      · subst here
        by_cases others : 0 < (store.orders.take taking).ordersAt taking.order.levelKey
        · refine .level taking.order.levelKey ?_ others
          rw [level?, sideLevels_take_missing missing]
          exact missing
        · -- The last order of the missing level: the total keeps counting it.
          have gone : taking.left = 0 := by
            by_contra stays
            rw [if_neg fun both => stays both.2] at split
            omega
          refine .total taking.order.bookSide ?_
          have total := OrderMap.ordersOn_take possible taking.order.bookSide
          have before := cover taking.order.bookSide
          rw [if_pos ⟨rfl, gone⟩] at total
          rw [totalOrders, sideLevels_take_missing missing, take_orders]
          change _ < (store.totalOrders _).toNat
          omega
      · rw [if_neg fun both => here both.1, Nat.zero_add] at split
        refine .level key ?_ (split ▸ rests)
        rw [level?_take_of_ne store here]
        exact missing
  | total bookSide more =>
      refine .total bookSide ?_
      rw [OrderMap.ordersOn_take possible bookSide] at more
      rw [take_orders]
      rcases store.totalOrders_take_cases taking bookSide with same | ⟨gone, lower⟩
      · rw [same]
        omega
      · rw [if_pos gone] at more
        rw [lower, SideLevels.decrement_toNat (by omega)]
        omega

theorem Stray.takings (stray : store.Stray) (cover : store.TotalsCover) {takings : List Taking}
    (possible : OrderMap.AllPossible store.orders takings) :
    (takings.foldl OrderBookStore.take store).Stray := by
  induction takings generalizing store with
  | nil => exact stray
  | cons taking takings induction =>
      exact induction (stray.take cover possible.1) (cover.take possible.1) possible.2

theorem Stray.restoreOrder (stray : store.Stray) {order : Order}
    (fresh : store.orders.find? order.orderNumber = none) :
    ¬ (store.restoreOrder order).Counted := by
  intro counted
  cases stray with
  | level key missing rests =>
      have counts := OrderMap.ordersAt_insert fresh key
      rw [Order.countAt] at counts
      by_cases here : order.levelKey = key
      · rw [if_pos here] at counts
        have put := store.level?_restoreOrder order key
        rw [if_pos here, missing] at put
        have one := counted.orders key _ put
        rw [restoreOrder_orders, counts] at one
        change 1 = _ at one
        omega
      · rw [if_neg here, Nat.zero_add] at counts
        refine Stray.not_counted (.level key ?_ ?_) counted
        · rw [level?_restoreOrder, if_neg here]
          exact missing
        · rw [restoreOrder_orders, counts]
          exact rests
  | total bookSide more =>
      have after := counted.totals bookSide
      have counts := OrderMap.ordersOn_insert fresh bookSide
      rw [Order.countOn] at counts
      rw [totalOrders_restoreOrder, restoreOrder_orders, counts] at after
      by_cases here : order.bookSide = bookSide
      · have bound := (store.totalOrders bookSide).toNat_lt
        rw [if_pos here, if_pos here, UInt32.toNat_add] at after
        change ((store.totalOrders bookSide).toNat + 1) % 2 ^ 32 = _ at after
        omega
      · rw [if_neg here, if_neg here] at after
        omega

/-! ## One message -/

def LeaveNone : OrderMap → List Taking → Prop
  | _, [] => True
  | orders, taking :: rest => taking.LeavesNone orders ∧ LeaveNone (orders.take taking) rest

structure Exact (store : OrderBookStore) : Prop where
  counted : store.Counted
  summed : store.Summed

theorem Exact.fits (exact : store.Exact) : store.orders.RestingFits :=
  restingFits_of_ordersOn exact.counted.ordersOn_lt

theorem Exact.takings (exact : store.Exact) {takings : List Taking}
    (possible : OrderMap.AllPossible store.orders takings) :
    LeaveNone store.orders takings ∧ (takings.foldl take store).Exact ∨
      ¬ LeaveNone store.orders takings ∧ (takings.foldl take store).Stray := by
  induction takings generalizing store with
  | nil => exact Or.inl ⟨trivial, exact⟩
  | cons taking takings induction =>
      have summed : (store.take taking).Summed :=
        ⟨exact.summed.levels.take exact.fits possible.1,
          exact.summed.sides.take exact.summed.levels exact.fits possible.1⟩
      by_cases leaves : taking.LeavesNone store.orders
      · have after : (store.take taking).Exact :=
          ⟨exact.counted.take exact.summed.levels exact.fits possible.1 leaves, summed⟩
        rcases induction after possible.2 with ⟨rest, reached⟩ | ⟨rest, reached⟩
        · exact Or.inl ⟨⟨leaves, rest⟩, reached⟩
        · exact Or.inr ⟨fun all => rest all.2, reached⟩
      · refine Or.inr ⟨fun all => leaves all.1, ?_⟩
        rw [Taking.LeavesNone, Classical.not_imp] at leaves
        rcases exact.counted.level_take exact.summed.levels exact.fits possible.1 with
          ⟨level, -, -, after⟩
        rw [if_pos leaves.1] at after
        have stray : (store.take taking).Stray :=
          .level taking.order.levelKey after (Nat.pos_of_ne_zero leaves.2)
        exact stray.takings (exact.counted.totalsCover.take possible.1) possible.2

/-- A message keeps the counts exactly when it leaves no order behind on a level it
empties and no side's counter overflows. -/
theorem Exact.apply_counted_iff (exact : store.Exact) (msg : ItchMsg) :
    (store.apply msg).1.Counted ↔
      LeaveNone store.orders (store.orders.takings msg) ∧
        ∀ bookSide, (store.orders.apply msg).ordersOn bookSide < 2 ^ 32 := by
  have alike := store.apply_alike msg
  have possible := store.orders.takings_possible msg
  have orders := alike.orders
  rw [apply_orders] at orders
  have counted_iff : (store.apply msg).1.Counted ↔
      (((store.orders.takings msg).foldl take store).place (store.orders.placed msg)).Counted :=
    ⟨alike.symm.counted, alike.counted⟩
  rw [counted_iff, orders]
  cases places : store.orders.placed msg with
  | none =>
      rcases exact.takings possible with ⟨leaves, reached⟩ | ⟨leaves, stray⟩
      · exact ⟨fun counted => ⟨leaves, counted.ordersOn_lt⟩, fun _ => reached.counted⟩
      · exact ⟨fun counted => absurd counted stray.not_counted, fun both => absurd both.1 leaves⟩
  | some order =>
      have fresh : ((store.orders.takings msg).foldl take store).orders.find? order.orderNumber =
          none := by
        rw [foldl_take_orders]
        exact OrderMap.placed_fresh places
      rcases exact.takings possible with ⟨leaves, reached⟩ | ⟨leaves, stray⟩
      · exact ⟨fun counted => ⟨leaves, counted.ordersOn_lt⟩,
          fun both => reached.counted.restoreOrder fresh both.2⟩
      · exact ⟨fun counted => absurd counted (stray.restoreOrder fresh),
          fun both => absurd both.1 leaves⟩

end OrderBookStore

/-! ## Runs -/

namespace Market

/-- The message leaves no order behind on a level it empties, and no side has 2^32 live
orders after it. -/
def KeepsCounts (market : Market) (msg : ItchMsg) : Prop :=
  OrderBookStore.LeaveNone market.books.orders (market.books.orders.takings msg) ∧
    ∀ bookSide, (market.books.orders.apply msg).ordersOn bookSide < 2 ^ 32

private theorem apply_exact_iff {market : Market} (exact : market.books.Exact) (msg : ItchMsg) :
    (market.apply msg).1.books.Exact ↔ market.KeepsCounts msg := by
  have alike := storeStep_alike market.books msg
  rw [apply_books, KeepsCounts, ← exact.apply_counted_iff msg]
  constructor
  · intro after
    exact alike.symm.counted after.counted
  · intro counted
    exact ⟨alike.counted counted, summed_storeStep exact.summed exact.fits msg⟩

/-- The level counts are exact in every state of a run exactly when every message keeps
them. -/
theorem levels_counted_iff (messages : List ItchMsg) :
    (∀ n, (run {} (messages.take n)).books.Counted) ↔
      ∀ n msg, messages[n]? = some msg → (run {} (messages.take n)).KeepsCounts msg := by
  have start : ({} : Market).books.Exact :=
    ⟨OrderBookStore.counted_empty, OrderBookStore.levelsSummed_empty,
      OrderBookStore.sidesSummed_empty⟩
  have runs : (∀ n, (run {} (messages.take n)).books.Exact) ↔
      ∀ n msg, messages[n]? = some msg → (run {} (messages.take n)).KeepsCounts msg :=
    forall_take_foldl_iff (fun market msg => (Market.apply market msg).1)
      (fun market => market.books.Exact) KeepsCounts start
      messages fun market msg _ exact => apply_exact_iff exact msg
  rw [← runs]
  constructor
  · intro counted n
    refine ⟨counted n, summed_run _ ?_⟩
    intro earlier before
    rw [List.take_take]
    exact OrderBookStore.restingFits_of_ordersOn (counted _).ordersOn_lt
  · intro exact n
    exact (exact n).counted

def strandedOrder : List ItchMsg :=
  let add (orderNumber : UInt64) (qty : UInt32) : ItchMsg :=
    .addOrder
      { ns := 0, orderNumber, side := ascii 'B', qty, orderbookId := CStr.copy 4 [49, 51, 48, 49]
        group := CStr.copy 4 [68, 65, 89], price := 1000 }
  [add 1 5, add 2 0, .deleted 0 1, .deleted 0 2]

/-- With the first order gone, the level goes although the second rests at it; with
the second gone, the side still counts it. -/
theorem strandedOrder_miscounted :
    let key : LevelKey := ⟨CStr.copy 4 [49, 51, 48, 49], true, 1000⟩
    let early := (run {} (strandedOrder.take 3)).books
    let late := (run {} strandedOrder).books
    (early.level? key = none ∧ early.orders.ordersAt key = 1 ∧ ¬ early.Counted) ∧
      late.totalOrders key.bookSide = 1 ∧ late.orders.ordersOn key.bookSide = 0 ∧
        ¬ late.Counted := by
  intro key early late
  have missing : early.level? key = none := by decide +kernel
  have rests : early.orders.ordersAt key = 1 := by decide +kernel
  have total : late.totalOrders key.bookSide = 1 := by decide +kernel
  have nobody : late.orders.ordersOn key.bookSide = 0 := by decide +kernel
  refine ⟨⟨missing, rests, ?_⟩, total, nobody, ?_⟩
  · exact OrderBookStore.Stray.not_counted (.level key missing (by rw [rests]; decide))
  · exact OrderBookStore.Stray.not_counted (.total key.bookSide (by rw [total, nobody]; decide))

end Market

end ProtoFH
