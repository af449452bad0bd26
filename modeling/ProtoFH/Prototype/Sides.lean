import ProtoFH.Prototype.Levels

/-! # The sides of the prototype's books

The price list of a side is ascending and lists the prices that hold a quantity. Where
every real order has a positive quantity, the live orders alone decide what the levels
are. -/

namespace ProtoFH.Prototype

/-! ## Ascending prices -/

namespace SideLevels

theorem held_of_remove {side after : SideLevels} {price qty : Nat}
    (removed : side.remove price qty = .ok after) :
    ∃ held, side.qty.find? price = some held ∧ qty ≤ held := by
  cases found : side.qty.find? price with
  | none =>
      simp only [remove, found] at removed
      cases removed
  | some held =>
      refine ⟨held, rfl, ?_⟩
      simp only [remove, found] at removed
      split at removed
      · cases removed
      · next enough => exact Nat.not_lt.mp enough

structure Ascending (side : SideLevels) : Prop where
  sorted : side.prices.Pairwise (· < ·)
  keys : ∀ price, price ∈ side.prices ↔ (side.qty.find? price).isSome

theorem ascending_empty : Ascending {} where
  sorted := .nil
  keys price := by simp

theorem Ascending.add {side : SideLevels} (ascending : side.Ascending) (price qty : Nat) :
    (side.add price qty).Ascending := by
  have held := find?_add side price qty
  cases found : side.qty.find? price with
  | none =>
      have fresh : price ∉ side.prices := by
        intro member
        have present := (ascending.keys price).mp member
        rw [found] at present
        cases present
      have inserted := insort_ascending ascending.sorted price fresh
      have prices : (side.add price qty).prices = insort side.prices price := by
        simp only [SideLevels.add, found]
      refine ⟨prices ▸ inserted.1, ?_⟩
      intro other
      rw [prices, inserted.2, held]
      by_cases own : price = other
      · simp [own]
      · simp [own, Ne.symm own, ascending.keys]
  | some cur =>
      have prices : (side.add price qty).prices = side.prices := by
        simp only [SideLevels.add, found]
      refine ⟨prices ▸ ascending.sorted, ?_⟩
      intro other
      rw [prices, held, ascending.keys]
      by_cases own : price = other
      · subst own
        simp [found]
      · simp [own]

theorem Ascending.remove {side after : SideLevels} (ascending : side.Ascending) {price qty : Nat}
    (removed : side.remove price qty = .ok after) : after.Ascending := by
  rcases held_of_remove removed with ⟨held, found, enough⟩
  have present : (side.qty.find? price).isSome := by rw [found]; rfl
  have lookup := find?_remove found removed
  simp only [SideLevels.remove, found, Nat.not_lt.mpr enough, if_false] at removed
  split at removed
  · next all =>
      have erased := eraseIdx_bisectLeft ascending.sorted price ((ascending.keys price).mpr present)
      cases removed
      refine ⟨erased.1, ?_⟩
      intro other
      rw [erased.2, lookup, ascending.keys]
      by_cases own : price = other
      · simp [own, all]
      · simp [own, Ne.symm own]
  · next part =>
      cases removed
      refine ⟨ascending.sorted, ?_⟩
      intro other
      rw [lookup, ascending.keys]
      by_cases own : price = other
      · subst own
        simp [found, part]
      · simp [own]

end SideLevels

namespace OrderBookStore

variable {store after : OrderBookStore}

theorem held_of_take {taking : Taking} (taken : store.take taking = .ok after) :
    ∃ held, store.level? taking.order.levelKey = some held ∧ taking.qty ≤ held := by
  rcases take_eq_ok taken with ⟨-, levels, removed, -⟩
  exact SideLevels.held_of_remove removed

theorem take_of_execute {orderNumber executedQty matchNumber : Nat} {order : Order}
    {execution : Option Execution} (found : store.orders.find? orderNumber = some order)
    (executed : store.execute orderNumber executedQty matchNumber = .ok (after, execution)) :
    ∃ taken, store.take ⟨order, clampedQty order executedQty⟩ = .ok taken := by
  simp only [execute, found] at executed
  rcases except_bind_eq_ok.mp executed with ⟨book, removed, -⟩
  refine ⟨_, except_bind_eq_ok.mpr ⟨book, removed, rfl⟩⟩

def Ascending (store : OrderBookStore) : Prop :=
  ∀ bookSide, (store.sideLevels bookSide).Ascending

theorem ascending_empty : Ascending {} := by
  intro bookSide
  rw [sideLevels]
  split <;> exact SideLevels.ascending_empty

theorem Ascending.put {store : OrderBookStore} (ascending : store.Ascending) (order : Order) :
    (store.put order).Ascending := by
  intro bookSide
  rw [sideLevels_put]
  split
  · exact (ascending _).add _ _
  · exact ascending bookSide

theorem Ascending.take (ascending : store.Ascending) {taking : Taking}
    (taken : store.take taking = .ok after) : after.Ascending := by
  rcases take_eq_ok taken with ⟨-, levels, removed, sides⟩
  intro bookSide
  rw [sides]
  split
  · exact (ascending _).remove removed
  · exact ascending bookSide

end OrderBookStore

/-! ## Levels in stock -/

structure SideLevels.Stocked (side : SideLevels) : Prop extends side.Ascending where
  positive : ∀ price qty, side.qty.find? price = some qty → 0 < qty

namespace SideLevels

private theorem stocked_empty : Stocked {} where
  toAscending := ascending_empty
  positive price qty found := by cases found

theorem Stocked.add {side : SideLevels} (stocked : side.Stocked) {price qty : Nat}
    (some : 0 < qty) : (side.add price qty).Stocked where
  toAscending := stocked.toAscending.add price qty
  positive other total found := by
    rw [find?_add] at found
    split at found
    · cases found
      omega
    · exact stocked.positive other total found

theorem Stocked.remove {side after : SideLevels} (stocked : side.Stocked) {price qty : Nat}
    (removed : side.remove price qty = .ok after) : after.Stocked where
  toAscending := stocked.toAscending.remove removed
  positive other total found := by
    obtain ⟨held, present, enough⟩ := held_of_remove removed
    rw [find?_remove present removed] at found
    split at found
    · split at found
      · cases found
      · cases found
        omega
    · exact stocked.positive other total found

end SideLevels

namespace OrderBookStore

def Stocked (store : OrderBookStore) : Prop := ∀ bookSide, (store.sideLevels bookSide).Stocked

namespace Stocked

variable {store after : OrderBookStore} (stocked : store.Stocked)

theorem empty : Stocked {} := by
  intro bookSide
  rw [sideLevels]
  split <;> exact SideLevels.stocked_empty

include stocked

variable {order : Order}

theorem put (some : 0 < order.remainingQty) : (store.put order).Stocked := by
  intro bookSide
  rw [sideLevels_put]
  split
  · exact (stocked _).add some
  · exact stocked bookSide

theorem take {taking : Taking} (taken : store.take taking = .ok after) : after.Stocked := by
  obtain ⟨-, levels, removed, sides⟩ := take_eq_ok taken
  intro bookSide
  rw [sides]
  split
  · exact (stocked _).remove removed
  · exact stocked bookSide

theorem removeOrder (removed : store.removeOrder order = .ok after) : after.Stocked :=
  stocked.take ((removeOrder_eq_take store order).symm.trans removed)

theorem insert (some : 0 < order.remainingQty) (inserted : store.insert order = .ok after) :
    after.Stocked := by
  rw [OrderBookStore.insert] at inserted
  split at inserted
  · cases inserted
    exact stocked.put some
  · next existing found =>
      obtain ⟨removed, done, written⟩ := except_bind_eq_ok.mp inserted
      cases written
      have counted : Stocked { store with collisions := store.collisions + 1 } := stocked
      exact (counted.removeOrder done).put some

theorem applyAdded {msg : OrderAdded} (some : msg.orderNumber ≠ 0 → 0 < msg.qty)
    (applied : store.applyAdded msg = .ok after) : after.Stocked := by
  rw [OrderBookStore.applyAdded] at applied
  split at applied
  · cases applied
    exact stocked
  · next real => exact stocked.insert (some real) applied

theorem execute {orderNumber executedQty matchNumber : Nat} {execution : Option Execution}
    (executed : store.execute orderNumber executedQty matchNumber = .ok (after, execution)) :
    after.Stocked := by
  cases found : store.orders.find? orderNumber with
  | none =>
      rw [OrderBookStore.execute, found] at executed
      cases executed
      exact stocked
  | some order =>
      obtain ⟨taken, done⟩ := take_of_execute found executed
      rw [execute_of_take matchNumber found done] at executed
      have remaining := stocked.take done
      cases executed
      exact remaining

theorem apply {msg : Message} {execution : Option Execution} (positive : msg.PositiveQty)
    (applied : store.apply msg = .ok (after, execution)) : after.Stocked := by
  cases msg with
  | orderAdded order | orderAddedWithAttributes order attribution orderType =>
      obtain ⟨added, done, written⟩ := except_bind_eq_ok.mp applied
      cases written
      exact stocked.applyAdded positive done
  | orderExecuted ns orderNumber executedQty matchNumber => exact stocked.execute applied
  | orderDeleted ns orderNumber =>
      obtain ⟨deleted, done, written⟩ := except_bind_eq_ok.mp applied
      cases written
      rw [delete] at done
      split at done
      · cases done
        exact stocked
      · exact stocked.removeOrder done
  | orderReplaced ns origOrderNumber newOrderNumber qty price =>
      obtain ⟨replaced, done, written⟩ := except_bind_eq_ok.mp applied
      cases written
      rw [replace] at done
      split at done
      · cases done
        exact stocked
      · obtain ⟨removed, first, second⟩ := except_bind_eq_ok.mp done
        refine (stocked.removeOrder first).insert ?_ second
        exact positive
  | _ =>
      cases applied
      exact stocked

end Stocked

end OrderBookStore

/-! ## What the sides show -/

def SideLevels.levelsAscending (side : SideLevels) : List (Nat × Nat) :=
  side.prices.map fun price => (price, (side.qty.find? price).getD 0)

def Book.bidLevels (book : Book) : List (Nat × Nat) := book.bids.levelsAscending.reverse

def Book.askLevels (book : Book) : List (Nat × Nat) := book.asks.levelsAscending

theorem SideLevels.levelsAscending_congr {left right : SideLevels} (leftAscending : left.Ascending)
    (rightAscending : right.Ascending)
    (same : ∀ price, left.qty.find? price = right.qty.find? price) :
    left.levelsAscending = right.levelsAscending := by
  have prices : left.prices = right.prices := by
    apply List.Pairwise.eq_of_mem_iff leftAscending.sorted rightAscending.sorted
    intro price
    rw [leftAscending.keys, rightAscending.keys, same]
  rw [levelsAscending, levelsAscending, prices]
  exact List.map_congr_left fun price _ => by rw [same]

namespace OrderBookStore

theorem level?_eq {store : OrderBookStore} (covered : store.Covered) (stocked : store.Stocked)
    (key : LevelKey) :
    store.level? key =
      if Orders.restingQty store.orders key = 0 then none
      else some (Orders.restingQty store.orders key) := by
  cases level : store.level? key with
  | none =>
      have nobody : ¬ Orders.RestsAt store.orders key := by
        intro rests
        have present := covered.present key rests
        rw [level] at present
        cases present
      rw [if_pos (Orders.restingQty_of_not_restsAt nobody)]
  | some qty =>
      have held := covered.held key qty level
      have positive := (stocked key.bookSide).positive key.price qty level
      rw [if_neg (by omega), held]

theorem levels_eq {left right : OrderBookStore} (leftCovered : left.Covered)
    (leftStocked : left.Stocked) (rightCovered : right.Covered) (rightStocked : right.Stocked)
    (orders : left.orders = right.orders) (bookSide : BookSide) :
    (left.sideLevels bookSide).levelsAscending = (right.sideLevels bookSide).levelsAscending := by
  apply SideLevels.levelsAscending_congr (leftStocked bookSide).toAscending
    (rightStocked bookSide).toAscending
  intro price
  have leftLevel := level?_eq leftCovered leftStocked ⟨bookSide, price⟩
  have rightLevel := level?_eq rightCovered rightStocked ⟨bookSide, price⟩
  rw [← orders, ← leftLevel] at rightLevel
  exact rightLevel.symm

end OrderBookStore

end ProtoFH.Prototype
