import ProtoFH.Fh.Publish

/-! # The published top of book

Level sums are kept in 64 bits and published in 32. The book section of an update is
the true top of the book exactly as long as the published levels fit their slots, the
sides fit their totals, and no book has a blank id. -/

namespace ProtoFH

/-! ## What is published for a side -/

structure PublishedSide where
  count : UInt8
  levels : List BookLevel
  totalQty : UInt64

def BookSection.side (book : BookSection) (bid : Bool) : PublishedSide :=
  if bid then
    { count := book.levelCountBid
      levels := book.bids.toList.take book.levelCountBid.toNat
      totalQty := book.totalBidQty }
  else
    { count := book.levelCountAsk
      levels := book.asks.toList.take book.levelCountAsk.toNat
      totalQty := book.totalAskQty }

def Better (bid : Bool) (price other : UInt32) : Prop :=
  if bid then other < price else price < other

def SideLevels.bestFirst (side : SideLevels) (bid : Bool) : List (UInt32 × Level) :=
  if bid then side.levels.toList.reverse else side.levels.toList

theorem SideLevels.mem_bestFirst {side : SideLevels} {bid : Bool} {price : UInt32}
    {level : Level} :
    (price, level) ∈ side.bestFirst bid ↔ side.levels[price]? = some level := by
  rw [← OrderedMap.mem_toList]
  cases bid with
  | false => rfl
  | true => exact List.mem_reverse

theorem SideLevels.length_bestFirst (side : SideLevels) (bid : Bool) :
    (side.bestFirst bid).length = side.levels.size := by
  rw [← Std.ExtTreeMap.length_toList]
  cases bid with
  | false => rfl
  | true => exact List.length_reverse

theorem SideLevels.bestFirst_ordered (side : SideLevels) (bid : Bool) :
    (side.bestFirst bid).Pairwise fun first second => Better bid first.1 second.1 := by
  have ascending : side.levels.toList.Pairwise fun first second => first.1 < second.1 :=
    Std.ExtTreeMap.ordered_keys_toList.imp Std.compare_eq_lt.mp
  cases bid with
  | false => exact ascending
  | true => exact List.pairwise_reverse.mpr ascending

private theorem listed_topLevels (best : List (UInt32 × Level)) :
    (topLevels best).toList.take (levelCount best).toNat =
      (best.take bookDepth).map publishedLevel := by
  apply List.ext_getElem?
  intro slot
  rw [levelCount_toNat, List.getElem?_take, List.getElem?_map, List.getElem?_take,
    topLevels, Vector.toList_ofFn, List.getElem?_ofFn]
  by_cases inside : slot < bookDepth
  · by_cases used : slot < best.length
    · simp [inside, used]
    · have beyond : best.length ≤ slot := Nat.not_lt.mp used
      simp [inside, beyond]
  · simp [inside]

/-- The side that `make_update` shows: none for the blank ticker. -/
def Market.shownSide (market : Market) (bookSide : BookSide) : SideLevels :=
  if bookSide.orderbookId = .empty then {} else market.books.sideLevels bookSide

def SideLevels.published (side : SideLevels) (bid : Bool) : PublishedSide where
  count := levelCount (side.bestFirst bid)
  levels := ((side.bestFirst bid).take bookDepth).map publishedLevel
  totalQty := side.totalQty

theorem SideLevels.published_empty (bid : Bool) :
    published {} bid = { count := 0, levels := [], totalQty := 0 } := by
  have noLevels : SideLevels.bestFirst {} bid = [] := by
    cases bid <;> simp [SideLevels.bestFirst]
  rw [published, noLevels]
  rfl

theorem makeUpdate_side (market : Market) (ctx : PubContext) (res : ApplyResult) (env : Envelope)
    (bid : Bool) :
    (makeUpdate market ctx res env).book.side bid =
      (market.shownSide ⟨res.ticker, bid⟩).published bid := by
  have blank : (bookSection none).side bid = SideLevels.published {} bid := by
    rw [SideLevels.published_empty]
    cases bid <;> rfl
  change (bookSection (byTicker market.books.books res.ticker)).side bid = _
  by_cases named : res.ticker = .empty
  · have nothing : market.shownSide ⟨res.ticker, bid⟩ = {} := if_pos named
    rw [byTicker, if_pos named, nothing, blank]
  · have looked : market.shownSide ⟨res.ticker, bid⟩ =
        market.books.sideLevels ⟨res.ticker, bid⟩ := if_neg named
    rw [byTicker, if_neg named, looked, OrderBookStore.sideLevels, OrderBookStore.book]
    cases market.books.books[res.ticker]? with
    | none =>
        rw [blank]
        cases bid <;> rfl
    | some book =>
        rw [SideLevels.published, ← listed_topLevels]
        cases bid <;> rfl

/-! ## The true top of a book -/

/-- What is published for a side is the top of its book: the best prices in strict
order, as many as there are up to ten, with the sums of the orders resting there. -/
structure TopOf (store : OrderBookStore) (bookSide : BookSide) (published : PublishedSide) :
    Prop where
  count : published.count.toNat = min bookDepth (store.sideLevels bookSide).levels.size
  listed : published.levels.length = published.count.toNat
  ordered : published.levels.Pairwise fun first second =>
    Better bookSide.bid first.price second.price
  levels : ∀ shown ∈ published.levels, shown.price ∈ (store.sideLevels bookSide).levels
  best : ∀ price ∈ (store.sideLevels bookSide).levels,
    (∀ shown ∈ published.levels, shown.price ≠ price) →
      ∀ shown ∈ published.levels, Better bookSide.bid shown.price price
  qty : ∀ shown ∈ published.levels,
    shown.qty.toNat = store.orders.restingQty ⟨bookSide.orderbookId, bookSide.bid, shown.price⟩
  total : published.totalQty.toNat =
    ((store.sideLevels bookSide).levels.toList.map fun entry =>
      store.orders.restingQty ⟨bookSide.orderbookId, bookSide.bid, entry.1⟩).sum
  /-- Nothing rests at a price that has no level. -/
  complete : ∀ price, price ∉ (store.sideLevels bookSide).levels →
    store.orders.restingQty ⟨bookSide.orderbookId, bookSide.bid, price⟩ = 0

namespace OrderBookStore

def Backed (store : OrderBookStore) : Prop :=
  ∀ key, store.level? key = none → store.orders.restingQty key = 0

private theorem backed_empty : Backed {} := fun _ _ => KeyedMap.total_empty _

theorem Alike.backed {store other : OrderBookStore} (alike : store.Alike other)
    (backed : other.Backed) : store.Backed := by
  intro key missing
  rw [level?, alike.sideLevels] at missing
  rw [alike.orders]
  exact backed key missing

variable {store : OrderBookStore}

theorem LevelsSummed.backed (summed : store.LevelsSummed) (fits : store.orders.RestingFits) :
    store.Backed := by
  intro key missing
  have sum := summed key
  have nothing : store.qtyAt key = 0 := by
    rw [level?] at missing
    rw [qtyAt_eq, SideLevels.qtyAt, missing]
    rfl
  rw [nothing, ← UInt64.toNat_inj, UInt64.toNat_ofNat_of_lt' (fits key)] at sum
  exact sum.symm

theorem Backed.restoreOrder (backed : store.Backed) {order : Order}
    (fresh : store.orders.find? order.orderNumber = none) : (store.restoreOrder order).Backed := by
  intro key missing
  rw [level?_restoreOrder] at missing
  split at missing
  · cases missing
  · next elsewhere =>
      have sum : OrderMap.restingQty (store.orders.insert order) key =
          order.restingAt key + store.orders.restingQty key :=
        KeyedMap.total_insert_of_absent _ _ fresh
      rw [restoreOrder_orders, sum, Order.restingAt, if_neg elsewhere, backed key missing]

private theorem Summed.apply_backed (summed : store.Summed) (fits : store.orders.RestingFits)
    (msg : ItchMsg) : (store.apply msg).1.Backed :=
  apply_invariant (fun store => store.Summed ∧ store.orders.RestingFits) Alike.backed
    (fun possible before => ⟨before.1.take before.2 possible, before.2.take possible⟩)
    (fun before => before.1.levels.backed before.2)
    (fun fresh before => (before.1.levels.backed before.2).restoreOrder fresh)
    ⟨summed, fits⟩ msg

theorem Backed.sum_levels (backed : store.Backed) (bookSide : BookSide) :
    ((store.sideLevels bookSide).levels.toList.map fun entry =>
      store.orders.restingQty ⟨bookSide.orderbookId, bookSide.bid, entry.1⟩).sum =
        store.orders.sideQty bookSide := by
  have keys : ((store.sideLevels bookSide).levels.toList.map fun entry =>
      (⟨bookSide.orderbookId, bookSide.bid, entry.1⟩ : LevelKey)).Nodup := by
    rw [List.Nodup, List.pairwise_map]
    refine ((store.sideLevels bookSide).bestFirst_ordered false).imp ?_
    intro first second less same
    exact UInt32.ne_of_lt less (LevelKey.mk.inj same).2.2
  have slots := store.orders.sum_total_slots Order.levelKey (fun order => order.remainingQty.toNat)
    keys
  rw [List.map_map] at slots
  refine slots.trans (KeyedMap.total_congr ?_)
  intro orderNumber order found
  rw [Order.restingOn]
  by_cases onSide : order.bookSide = bookSide
  · rw [if_pos onSide]
    by_cases held : store.level? order.levelKey = none
    · -- An order without a level has nothing left.
      have nothing := backed order.levelKey held
      have part : order.restingAt order.levelKey ≤ store.orders.restingQty order.levelKey :=
        KeyedMap.weight_le_total (Order.restingAt · order.levelKey) found
      rw [nothing, Order.restingAt, if_pos rfl] at part
      split <;> omega
    · obtain ⟨level, present⟩ := Option.ne_none_iff_exists'.mp held
      rw [if_pos]
      subst onSide
      exact List.mem_map.mpr ⟨(order.price, level), OrderedMap.mem_toList.mpr present, rfl⟩
  · rw [if_neg onSide, if_neg]
    intro member
    obtain ⟨entry, -, same⟩ := List.mem_map.mp member
    exact onSide (((order.levelKey_eq_iff _).mp same.symm).1)

end OrderBookStore

/-! ## When the top of the book is published -/

namespace OrderBookStore

/-- The sums of a side fit the fields they are published in, and a book that has levels
has an id. -/
structure Publishable (store : OrderBookStore) (bookSide : BookSide) : Prop where
  side : store.orders.sideQty bookSide < 2 ^ 64
  levels : ∀ entry ∈ ((store.sideLevels bookSide).bestFirst bookSide.bid).take bookDepth,
    store.orders.restingQty ⟨bookSide.orderbookId, bookSide.bid, entry.1⟩ < 2 ^ 32
  named : bookSide.orderbookId = .empty → (store.sideLevels bookSide).levels.size = 0

private theorem restingFits_of_sides {store : OrderBookStore}
    (sides : ∀ bookSide, store.orders.sideQty bookSide < 2 ^ 64) : store.orders.RestingFits := by
  intro key
  refine Nat.lt_of_le_of_lt ?_ (sides key.bookSide)
  apply KeyedMap.total_le_total
  intro order
  rw [Order.restingAt, Order.restingOn]
  by_cases here : order.levelKey = key
  · rw [if_pos here, if_pos ((order.levelKey_eq_iff key).mp here).1]
  · rw [if_neg here]
    exact Nat.zero_le _

end OrderBookStore

private theorem publishedLevel_qty {store : OrderBookStore} (summed : store.LevelsSummed)
    {bookSide : BookSide} {entry : UInt32 × Level}
    (present : (store.sideLevels bookSide).levels[entry.1]? = some entry.2) :
    (publishedLevel entry).qty.toNat =
      store.orders.restingQty ⟨bookSide.orderbookId, bookSide.bid, entry.1⟩ % 2 ^ 32 := by
  have sum := summed ⟨bookSide.orderbookId, bookSide.bid, entry.1⟩
  rw [OrderBookStore.qtyAt_eq, SideLevels.qtyAt] at sum
  change ((store.sideLevels bookSide).levels[entry.1]?.map Level.qty).getD 0 = _ at sum
  rw [present] at sum
  change entry.2.qty = _ at sum
  change entry.2.qty.toUInt32.toNat = _
  rw [UInt64.toNat_toUInt32, sum, UInt64.toNat_ofNat']
  omega

private theorem SideLevels.better_of_not_taken (side : SideLevels) (bid : Bool) {depth : Nat}
    {price : UInt32} (present : price ∈ side.levels)
    (left : ∀ entry ∈ (side.bestFirst bid).take depth, entry.1 ≠ price) :
    ∀ entry ∈ (side.bestFirst bid).take depth, Better bid entry.1 price := by
  intro entry taken
  obtain ⟨level, found⟩ := Option.isSome_iff_exists.mp
    (Std.ExtTreeMap.isSome_getElem?_iff_mem.mpr present)
  have member : (price, level) ∈ side.bestFirst bid := mem_bestFirst.mpr found
  have split := List.take_append_drop depth (side.bestFirst bid)
  rw [← split] at member
  have ordered := side.bestFirst_ordered bid
  rw [← split, List.pairwise_append] at ordered
  rcases List.mem_append.mp member with inFront | behind
  · exact absurd rfl (left _ inFront)
  · exact ordered.2.2 entry taken _ behind

namespace OrderBookStore

variable {store : OrderBookStore} {bookSide : BookSide}

theorem topOf_published_iff (summed : store.Summed) (backed : store.Backed) :
    TopOf store bookSide ((store.sideLevels bookSide).published bookSide.bid) ↔
      store.orders.sideQty bookSide < 2 ^ 64 ∧
        ∀ entry ∈ ((store.sideLevels bookSide).bestFirst bookSide.bid).take bookDepth,
          store.orders.restingQty ⟨bookSide.orderbookId, bookSide.bid, entry.1⟩ < 2 ^ 32 := by
  have sum := backed.sum_levels bookSide
  have present {entry : UInt32 × Level}
      (member : entry ∈ ((store.sideLevels bookSide).bestFirst bookSide.bid).take bookDepth) :
      (store.sideLevels bookSide).levels[entry.1]? = some entry.2 :=
    SideLevels.mem_bestFirst.mp (List.mem_of_mem_take member)
  constructor
  · intro top
    constructor
    · have whole := top.total
      rw [sum] at whole
      exact whole ▸ (store.sideLevels bookSide).totalQty.toNat_lt
    · intro entry member
      have whole := top.qty _ (List.mem_map_of_mem member)
      exact whole ▸ (publishedLevel entry).qty.toNat_lt
  · rintro ⟨sideFits, levelsFit⟩
    have length := (store.sideLevels bookSide).length_bestFirst bookSide.bid
    have count : (levelCount ((store.sideLevels bookSide).bestFirst bookSide.bid)).toNat =
        min bookDepth (store.sideLevels bookSide).levels.size := by
      rw [levelCount_toNat, length, Nat.min_comm]
    refine ⟨count, ?_, ?_, ?_, ?_, ?_, ?_, ?_⟩
    · change (List.map _ _).length = (levelCount _).toNat
      rw [count, List.length_map, List.length_take, length]
    · exact List.pairwise_map.mpr
        (((store.sideLevels bookSide).bestFirst_ordered bookSide.bid).sublist
          (List.take_sublist _ _))
    · intro shown member
      obtain ⟨entry, taken, rfl⟩ := List.mem_map.mp member
      exact Std.ExtTreeMap.isSome_getElem?_iff_mem.mp
        (Option.isSome_iff_exists.mpr ⟨entry.2, present taken⟩)
    · intro price level hidden shown member
      obtain ⟨entry, taken, rfl⟩ := List.mem_map.mp member
      exact SideLevels.better_of_not_taken _ _ level
        (fun other inFront => hidden _ (List.mem_map_of_mem inFront)) entry taken
    · intro shown member
      obtain ⟨entry, taken, rfl⟩ := List.mem_map.mp member
      rw [publishedLevel_qty summed.levels (present taken)]
      exact Nat.mod_eq_of_lt (levelsFit entry taken)
    · change (store.totalQty bookSide).toNat = _
      rw [sum, summed.sides, UInt64.toNat_ofNat', Nat.mod_eq_of_lt sideFits]
    · intro price missing
      exact backed _ (Std.ExtTreeMap.getElem?_eq_none missing)

private theorem topOf_nothing_iff (backed : store.Backed) :
    TopOf store bookSide (SideLevels.published {} bookSide.bid) ↔
      (store.sideLevels bookSide).levels.size = 0 := by
  rw [SideLevels.published_empty]
  constructor
  · intro top
    have count : 0 = min bookDepth _ := top.count
    have : bookDepth = 10 := rfl
    omega
  · intro none
    have empty : (store.sideLevels bookSide).levels.toList = [] :=
      List.eq_nil_of_length_eq_zero (Std.ExtTreeMap.length_toList.trans none)
    refine ⟨by rw [none]; rfl, rfl, .nil, nofun, fun _ _ _ => nofun, nofun, ?_, ?_⟩
    · rw [empty]
      rfl
    · intro price missing
      exact backed _ (Std.ExtTreeMap.getElem?_eq_none missing)

end OrderBookStore

theorem topOf_iff {market : Market} (summed : market.books.Summed) (backed : market.books.Backed)
    (ctx : PubContext) (res : ApplyResult) (env : Envelope) (bid : Bool) :
    TopOf market.books ⟨res.ticker, bid⟩ ((makeUpdate market ctx res env).book.side bid) ↔
      market.books.Publishable ⟨res.ticker, bid⟩ := by
  rw [makeUpdate_side, Market.shownSide]
  by_cases blank : res.ticker = .empty
  · rw [if_pos blank]
    refine (OrderBookStore.topOf_nothing_iff backed).trans
      ⟨?_, fun publishable => publishable.named blank⟩
    intro none
    have sum := backed.sum_levels ⟨res.ticker, bid⟩
    rw [List.eq_nil_of_length_eq_zero (Std.ExtTreeMap.length_toList.trans none)] at sum
    have noLevels : (market.books.sideLevels ⟨res.ticker, bid⟩).bestFirst bid = [] :=
      List.eq_nil_of_length_eq_zero ((SideLevels.length_bestFirst _ bid).trans none)
    refine ⟨by rw [← sum]; exact Nat.two_pow_pos 64, ?_, fun _ => none⟩
    rw [noLevels]
    nofun
  · rw [if_neg blank]
    refine (OrderBookStore.topOf_published_iff summed backed).trans ⟨?_, ?_⟩
    · rintro ⟨side, levels⟩
      exact ⟨side, levels, fun none => absurd none blank⟩
    · intro publishable
      exact ⟨publishable.side, publishable.levels⟩

namespace Market

def ShowsTop (market : Market) : Prop :=
  ∀ ctx res env bid,
    TopOf market.books ⟨res.ticker, bid⟩ ((makeUpdate market ctx res env).book.side bid)

private theorem showsTop_iff {market : Market} (summed : market.books.Summed)
    (backed : market.books.Backed) :
    market.ShowsTop ↔ ∀ bookSide, market.books.Publishable bookSide := by
  constructor
  · intro shows bookSide
    exact (topOf_iff summed backed {} { ticker := bookSide.orderbookId } {} bookSide.bid).mp
      (shows {} { ticker := bookSide.orderbookId } {} bookSide.bid)
  · intro publishable ctx res env bid
    exact (topOf_iff summed backed ctx res env bid).mpr (publishable _)

private theorem backed_run (messages : List ItchMsg)
    (fits : ∀ n < messages.length, (run {} (messages.take n)).books.orders.RestingFits) :
    (run {} messages).books.Summed ∧ (run {} messages).books.Backed := by
  refine foldl_invariant_along (fun market : Market => market.books.Summed ∧ market.books.Backed)
    (·.books.orders.RestingFits) ?_ ⟨summed_run [] (by simp), OrderBookStore.backed_empty⟩ fits
  rintro market msg fits ⟨summed, _⟩
  rw [apply_books]
  exact ⟨summed_storeStep summed fits msg,
    (storeStep_alike _ msg).backed (summed.apply_backed fits msg)⟩

/-- Along a run, every update shows the true top of its book exactly as long as every
side and every published level fits its field and no book with levels has a blank id. -/
theorem published_top_iff (messages : List ItchMsg) :
    (∀ n ≤ messages.length, (run {} (messages.take n)).ShowsTop) ↔
      ∀ n ≤ messages.length, ∀ bookSide,
        (run {} (messages.take n)).books.Publishable bookSide := by
  -- What came before fits, so the sums are right and the two sides agree here.
  have here (n : Nat) (within : n ≤ messages.length)
      (before : ∀ m < n, ∀ bookSide, (run {} (messages.take m)).books.Publishable bookSide) :
      (run {} (messages.take n)).ShowsTop ↔
        ∀ bookSide, (run {} (messages.take n)).books.Publishable bookSide := by
    have fits : ∀ m < (messages.take n).length,
        (run {} ((messages.take n).take m)).books.orders.RestingFits := by
      intro m earlier
      rw [List.length_take] at earlier
      rw [List.take_take, Nat.min_eq_left (by omega)]
      exact OrderBookStore.restingFits_of_sides fun bookSide =>
        (before m (by omega) bookSide).side
    obtain ⟨summed, backed⟩ := backed_run _ fits
    exact showsTop_iff summed backed
  constructor
  · intro shows n
    induction n using Nat.strong_induction_on with
    | h n induction =>
        intro within
        exact (here n within fun m earlier => induction m earlier (by omega)).mp (shows n within)
  · intro publishable n within
    exact (here n within fun m earlier => publishable m (by omega)).mpr (publishable n within)

def halvedLevel : List ItchMsg :=
  let add (orderNumber : UInt64) : ItchMsg :=
    .addOrder
      { ns := 0, orderNumber, side := ascii 'B', qty := 0x80000000
        orderbookId := CStr.copy 4 [ascii '1', ascii '3', ascii '0', ascii '1']
        group := CStr.copy 4 [ascii 'D', ascii 'A', ascii 'Y'], price := 1000 }
  [add 1, add 2]

/-- Their level is published as the best bid, with nothing resting there. -/
theorem halvedLevel_published_empty :
    let ticker := CStr.copy 4 [ascii '1', ascii '3', ascii '0', ascii '1']
    let market := run {} halvedLevel
    ((makeUpdate market {} { ticker } {}).book.side true).levels =
        [{ price := 1000, qty := 0, orderCount := 2 }] ∧
      market.books.orders.restingQty ⟨ticker, true, 1000⟩ = 2 ^ 32 := by
  decide +kernel

end Market

end ProtoFH
