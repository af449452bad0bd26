import ProtoFH.Foundation.Bytes
import ProtoFH.Foundation.OrderedMap

/-! # Price levels

One side of an order book aggregated by price, and a book of two sides. All
quantities are the machine words of the source: sums wrap. -/

namespace ProtoFH

structure Level where
  qty : UInt64 := 0
  orders : UInt32 := 0
deriving DecidableEq

structure SideLevels where
  levels : OrderedMap UInt32 Level := ∅
  totalQty : UInt64 := 0
  totalOrders : UInt32 := 0

namespace SideLevels

def add (side : SideLevels) (price qty : UInt32) : SideLevels :=
  let level := side.levels[price]?.getD {}
  { levels := side.levels.insert price
      { qty := level.qty + qty.toUInt64, orders := level.orders + 1 }
    totalQty := side.totalQty + qty.toUInt64
    totalOrders := side.totalOrders + 1 }

def decrement (count : UInt32) : UInt32 := if count > 0 then count - 1 else count

/-- Takes `qty` off the level at `price`; `orderGone` also takes one order off
the counts. A level that would go negative is left alone. The source reports
that with a `false` that no caller reads, see `removeReturns`. -/
def remove (side : SideLevels) (price qty : UInt32) (orderGone : Bool) : SideLevels :=
  match side.levels[price]? with
  | none => side
  | some level =>
      if level.qty < qty.toUInt64 then side
      else
        let rest : Level :=
          { qty := level.qty - qty.toUInt64
            orders := if orderGone then decrement level.orders else level.orders }
        { levels :=
            if rest.qty = 0 then side.levels.erase price else side.levels.insert price rest
          totalQty := side.totalQty - qty.toUInt64
          totalOrders :=
            if orderGone then decrement side.totalOrders else side.totalOrders }

def removeReturns (side : SideLevels) (price qty : UInt32) : Bool :=
  match side.levels[price]? with
  | none => false
  | some level => !(level.qty < qty.toUInt64)

def qtyAt (side : SideLevels) (price : UInt32) : UInt64 :=
  (side.levels[price]?.map Level.qty).getD 0

@[simp] theorem qtyAt_empty (price : UInt32) : qtyAt {} price = 0 := by
  simp [qtyAt]

theorem qtyAt_add (side : SideLevels) (price qty other : UInt32) :
    (side.add price qty).qtyAt other =
      if price = other then side.qtyAt other + qty.toUInt64 else side.qtyAt other := by
  simp only [qtyAt, add, OrderedMap.lookup_insert]
  split
  · next equal =>
      subst equal
      cases side.levels[price]? <;> rfl
  · rfl

variable {side : SideLevels} {price qty : UInt32}

/-- Removing no more than the level holds takes exactly that off it and leaves
the other prices alone. An absent level holds nothing. -/
theorem qtyAt_remove {orderGone : Bool} (enough : qty.toUInt64 ≤ side.qtyAt price)
    (other : UInt32) :
    (side.remove price qty orderGone).qtyAt other =
      if price = other then side.qtyAt other - qty.toUInt64 else side.qtyAt other := by
  cases found : side.levels[price]? with
  | none =>
      have zero : qty.toUInt64 = 0 := by
        simpa [qtyAt, found] using enough
      simp [remove, found, zero]
  | some level =>
      have held : side.qtyAt price = level.qty := by simp [qtyAt, found]
      rw [held] at enough
      have kept : ¬ level.qty < qty.toUInt64 := UInt64.not_lt.mpr enough
      by_cases equal : price = other
      · subst equal
        rw [if_pos rfl, held]
        by_cases emptied : level.qty - qty.toUInt64 = 0
        · simp [qtyAt, remove, found, kept, emptied]
        · simp [qtyAt, remove, found, kept, emptied]
      · rw [if_neg equal]
        by_cases emptied : level.qty - qty.toUInt64 = 0
        · simp only [qtyAt, remove, found, kept, emptied, if_true, if_false,
            OrderedMap.lookup_erase_of_ne _ equal]
        · simp only [qtyAt, remove, found, kept, emptied, if_false,
            OrderedMap.lookup_insert_of_ne _ _ equal]

theorem remove_of_lt (orderGone : Bool) (short : side.qtyAt price < qty.toUInt64) :
    side.remove price qty orderGone = side := by
  cases found : side.levels[price]? with
  | none => simp only [remove, found]
  | some level =>
      have less : level.qty < qty.toUInt64 := by simpa [qtyAt, found] using short
      simp only [remove, found, less, if_true]

theorem totalQty_remove (orderGone : Bool) (enough : qty.toUInt64 ≤ side.qtyAt price) :
    (side.remove price qty orderGone).totalQty = side.totalQty - qty.toUInt64 := by
  cases found : side.levels[price]? with
  | none =>
      have zero : qty.toUInt64 = 0 := by
        simpa [qtyAt, found] using enough
      simp [remove, found, zero]
  | some level =>
      have kept : ¬ level.qty < qty.toUInt64 := by
        simpa [qtyAt, found] using enough
      simp only [remove, found, kept, if_false]

theorem removeReturns_iff (side : SideLevels) (price : UInt32) {qty : UInt32}
    (positive : 0 < qty) :
    side.removeReturns price qty = true ↔ qty.toUInt64 ≤ side.qtyAt price := by
  have wide : 0 < qty.toUInt64 := by
    rw [UInt64.lt_iff_toNat_lt, UInt32.toNat_toUInt64]
    exact UInt32.lt_iff_toNat_lt.mp positive
  cases found : side.levels[price]? with
  | none => simpa [removeReturns, qtyAt, found] using UInt64.not_le.mpr wide
  | some level => simp [removeReturns, qtyAt, found]

theorem lookup_add (side : SideLevels) (price qty other : UInt32) :
    (side.add price qty).levels[other]? =
      if price = other then
        some
          { qty := side.qtyAt price + qty.toUInt64
            orders := (side.levels[price]?.getD {}).orders + 1 }
      else side.levels[other]? := by
  have held : (side.levels[price]?.getD {}).qty = side.qtyAt price := by
    rw [qtyAt]
    cases side.levels[price]? <;> rfl
  rw [add, OrderedMap.lookup_insert, held]

theorem remove_missing {price : UInt32} (missing : side.levels[price]? = none) (qty : UInt32)
    (orderGone : Bool) : side.remove price qty orderGone = side := by
  rw [remove, missing]

theorem lookup_remove_of_ne (side : SideLevels) {price other : UInt32} (different : price ≠ other)
    (qty : UInt32) (orderGone : Bool) :
    (side.remove price qty orderGone).levels[other]? = side.levels[other]? := by
  rw [remove]
  split
  · rfl
  · split
    · rfl
    · dsimp only
      split
      · exact OrderedMap.lookup_erase_of_ne _ different
      · exact OrderedMap.lookup_insert_of_ne _ _ different

section Present

variable {side : SideLevels} {price qty : UInt32} {level : Level}
  (found : side.levels[price]? = some level) (enough : qty.toUInt64 ≤ level.qty)
include found enough

theorem lookup_remove_self (orderGone : Bool) :
    (side.remove price qty orderGone).levels[price]? =
      if level.qty - qty.toUInt64 = 0 then none
      else some
        { qty := level.qty - qty.toUInt64
          orders := if orderGone then decrement level.orders else level.orders } := by
  have kept : ¬ level.qty < qty.toUInt64 := UInt64.not_lt.mpr enough
  by_cases emptied : level.qty - qty.toUInt64 = 0
  · simp [remove, found, kept, emptied]
  · simp [remove, found, kept, emptied]

theorem totalOrders_remove (orderGone : Bool) :
    (side.remove price qty orderGone).totalOrders =
      if orderGone then decrement side.totalOrders else side.totalOrders := by
  have kept : ¬ level.qty < qty.toUInt64 := UInt64.not_lt.mpr enough
  simp only [remove, found, kept, if_false]

end Present

theorem decrement_toNat {count : UInt32} (positive : 0 < count.toNat) :
    (decrement count).toNat = count.toNat - 1 := by
  have above : 1 ≤ count := UInt32.le_iff_toNat_le.mpr positive
  have counted : count > 0 := UInt32.lt_iff_toNat_lt.mpr positive
  rw [decrement, if_pos counted, UInt32.toNat_sub_of_le _ _ above]
  rfl

end SideLevels

structure Book where
  bids : SideLevels := {}
  asks : SideLevels := {}

namespace Book

/-- `isBid` of a side character: bids for `B`, asks for anything else. -/
def isBid (s : UInt8) : Bool := s = ascii 'B'

def side (book : Book) (s : UInt8) : SideLevels :=
  if isBid s then book.bids else book.asks

def setSide (book : Book) (s : UInt8) (levels : SideLevels) : Book :=
  if isBid s then { book with bids := levels } else { book with asks := levels }

def add (book : Book) (s : UInt8) (price qty : UInt32) : Book :=
  book.setSide s ((book.side s).add price qty)

def remove (book : Book) (s : UInt8) (price qty : UInt32) (orderGone : Bool) : Book :=
  book.setSide s ((book.side s).remove price qty orderGone)

def qtyAt (book : Book) (bid : Bool) (price : UInt32) : UInt64 :=
  (if bid then book.bids else book.asks).qtyAt price

theorem remove_of_lt {book : Book} {s : UInt8} {price qty : UInt32} (orderGone : Bool)
    (short : book.qtyAt (isBid s) price < qty.toUInt64) :
    book.remove s price qty orderGone = book := by
  have same : (book.side s).qtyAt price = book.qtyAt (isBid s) price := rfl
  rw [remove, SideLevels.remove_of_lt orderGone (by rw [same]; exact short)]
  unfold setSide side
  split <;> rfl

end Book

end ProtoFH
