import ProtoFH.Foundation.Execution
import ProtoFH.Market.Market

/-! # Facts about every market

Where the names in a market come from: each live order has the book and group of an
`A` or `F`, each instrument those of a message about it. Every live order has a book,
and every book with a trade knows its last one. -/

namespace ProtoFH

def ItchMsg.added : ItchMsg → Option AddOrder
  | .addOrder order => some order
  | .addAttributed order _ _ => some order
  | _ => none

def ItchMsg.book? : ItchMsg → Option (CStr 4 × CStr 4)
  | .directory entry => some (entry.orderbookId, entry.group)
  | .tradingState _ orderbookId group _ => some (orderbookId, group)
  | .shortSellState _ orderbookId group _ => some (orderbookId, group)
  | .addOrder order => some (order.orderbookId, order.group)
  | .addAttributed order _ _ => some (order.orderbookId, order.group)
  | _ => none

variable {msg : ItchMsg}

theorem ItchMsg.book?_of_added {order : AddOrder} (added : msg.added = some order) :
    msg.book? = some (order.orderbookId, order.group) := by
  cases msg <;> simp_all [ItchMsg.added, ItchMsg.book?]

/-! ## Orders -/

namespace OrderMap

theorem apply_origin {orders : OrderMap} {msg : ItchMsg} {orderNumber : UInt64} {order : Order}
    (found : (orders.apply msg).find? orderNumber = some order) :
    (∃ number old, orders.find? number = some old ∧ old.orderbookId = order.orderbookId ∧
        old.group = order.group) ∨
      ∃ added, msg.added = some added ∧ added.orderbookId = order.orderbookId ∧
        added.group = order.group := by
  have erased {number : UInt64} (here : (orders.erase number).find? orderNumber = some order) :
      orders.find? orderNumber = some order := by
    rw [KeyedMap.find?_erase] at here
    split at here
    · cases here
    · exact here
  have placed {added : AddOrder} {orderType : UInt8}
      (here : (orders.place added orderType).find? orderNumber = some order) :
      orders.find? orderNumber = some order ∨ added.toOrder orderType = order := by
    unfold place at here
    split at here
    · exact .inl here
    · rw [KeyedMap.find?_insert] at here
      split at here
      · exact .inr (Option.some.inj here)
      · exact .inl here
  cases msg with
  | addOrder added | addAttributed added attribution orderType =>
      rcases placed found with old | rfl
      · exact .inl ⟨_, _, old, rfl, rfl⟩
      · exact .inr ⟨added, rfl, rfl, rfl⟩
  | executed ns number executedQty matchNumber =>
      change (orders.fill number executedQty).find? orderNumber = some order at found
      unfold fill at found
      split at found
      · exact .inl ⟨_, _, found, rfl, rfl⟩
      · next passive live =>
          simp only at found
          split at found
          · exact .inl ⟨_, _, erased found, rfl, rfl⟩
          · rw [KeyedMap.find?_insert] at found
            split at found
            · cases found
              exact .inl ⟨number, passive, live, rfl, rfl⟩
            · exact .inl ⟨_, _, found, rfl, rfl⟩
  | deleted ns number => exact .inl ⟨_, _, erased found, rfl, rfl⟩
  | replaced ns origOrderNumber newOrderNumber qty price =>
      change (orders.replace origOrderNumber newOrderNumber qty price).find? orderNumber =
        some order at found
      unfold replace at found
      split at found
      · exact .inl ⟨_, _, found, rfl, rfl⟩
      · next original live =>
          rw [KeyedMap.find?_insert] at found
          split at found
          · cases found
            exact .inl ⟨origOrderNumber, original, live, rfl, rfl⟩
          · exact .inl ⟨_, _, erased found, rfl, rfl⟩
  | _ => exact .inl ⟨_, _, found, rfl, rfl⟩

end OrderMap

/-! ## Instruments -/

variable {orderbookId : CStr 4}

theorem RefData.apply_origin {refdata : RefData} {inst : Instrument}
    (found : (refdata.apply msg).instruments[orderbookId]? = some inst) :
    (∃ old, refdata.instruments[orderbookId]? = some old ∧ old.group = inst.group) ∨
      msg.book? = some (orderbookId, inst.group) := by
  have filled {id : CStr 4} (group : CStr 4) {change : Instrument → Instrument}
      (here : (refdata.modify id change).instruments[orderbookId]? = some inst)
      (keeps : ∀ inst, (change inst).group = (inst.fillGroup group).group) :
      (∃ old, refdata.instruments[orderbookId]? = some old ∧ old.group = inst.group) ∨
        some (id, group) = some (orderbookId, inst.group) := by
    rw [modify_lookup] at here
    split at here
    · next own =>
        have equal := Option.some.inj here
        have groups : inst.group = ((refdata.get orderbookId).fillGroup group).group := by
          rw [← equal, keeps]
        cases known : refdata.instruments[orderbookId]? with
        | none =>
            have blank : refdata.get orderbookId = { orderbookId } := by simp [get, known]
            rw [blank] at groups
            exact .inr (by rw [own, groups]; rfl)
        | some old =>
            have same : refdata.get orderbookId = old := by simp [get, known]
            rw [same] at groups
            simp only [Instrument.fillGroup] at groups
            split at groups
            · exact .inr (by rw [own, groups])
            · exact .inl ⟨old, rfl, groups.symm⟩
    · exact .inl ⟨inst, here, rfl⟩
  cases msg with
  | directory entry =>
      change (refdata.modify entry.orderbookId (·.describe entry)).instruments[orderbookId]? =
        some inst at found
      rw [modify_lookup] at found
      split at found
      · next own =>
          right
          rw [← Option.some.inj found, ← own]
          rfl
      · exact .inl ⟨inst, found, rfl⟩
  | tradingState ns id group state | shortSellState ns id group state =>
      exact filled group found fun _ => rfl
  | addOrder order =>
      simp only [apply] at found
      split at found
      · exact filled order.group found fun _ => rfl
      · exact .inl ⟨inst, found, rfl⟩
  | _ => exact .inl ⟨inst, found, rfl⟩

/-! ## Names -/

structure Market.Named (allowed : CStr 4 → CStr 4 → Prop) (market : Market) : Prop where
  orders : ∀ orderNumber order, market.books.orders.find? orderNumber = some order →
    allowed order.orderbookId order.group
  instruments : ∀ orderbookId inst, market.refdata.instruments[orderbookId]? = some inst →
    allowed orderbookId inst.group

namespace Market.Named

variable {allowed : CStr 4 → CStr 4 → Prop} {market : Market}

theorem empty : Named allowed {} where
  orders orderNumber order found := by simp at found
  instruments orderbookId inst found := by simp at found

theorem apply (named : Named allowed market) {msg : ItchMsg}
    (names : ∀ orderbookId group, msg.book? = some (orderbookId, group) →
      allowed orderbookId group) :
    Named allowed (market.apply msg).1 where
  orders orderNumber order found := by
    rw [Market.apply_orders] at found
    rcases OrderMap.apply_origin found with ⟨number, old, live, id, group⟩ | ⟨add, added, id, group⟩
    · rw [← id, ← group]
      exact named.orders number old live
    · rw [← id, ← group]
      exact names _ _ (ItchMsg.book?_of_added added)
  instruments orderbookId inst found := by
    rw [Market.apply_refdata] at found
    rcases RefData.apply_origin found with ⟨old, known, group⟩ | named'
    · rw [← group]
      exact named.instruments orderbookId old known
    · exact names _ _ named'

theorem run (messages : List ItchMsg)
    (names : ∀ msg ∈ messages, ∀ orderbookId group, msg.book? = some (orderbookId, group) →
      allowed orderbookId group) : Named allowed (Market.run {} messages) := by
  induction messages using List.reverseRecOn with
  | nil => exact empty
  | append_singleton earlier msg induction =>
      rw [Market.run_concat]
      apply apply
      · exact induction fun other member => names other (List.mem_append_left _ member)
      · exact names msg (by simp)

end Market.Named

/-! ## The ticker a message reports -/

namespace Market

theorem apply_tape_cases (market : Market) (msg : ItchMsg) :
    (∃ ns orderNumber executedQty matchNumber order,
        msg = .executed ns orderNumber executedQty matchNumber ∧
        market.books.orders.find? orderNumber = some order ∧
        (market.apply msg).2.ticker = order.orderbookId ∧
        (market.apply msg).1.tape = market.tape.record
          (executionOf order executedQty matchNumber) (market.basePrice order.orderbookId)) ∨
      (market.apply msg).1.tape = market.tape ∧
        (msg.type = ascii 'E' → (market.apply msg).2.ticker = .empty) := by
  have quiet (silent : (storeStep market.books msg).2 = none) :
      (market.apply msg).1.tape = market.tape := by rw [apply_tape, silent]
  cases msg with
  | executed ns orderNumber executedQty matchNumber =>
      have execution := storeStep_execution market.books
        (.executed ns orderNumber executedQty matchNumber)
      rw [apply_executed_result]
      cases found : market.books.orders.find? orderNumber with
      | none =>
          simp only [found, Option.map_none] at execution
          exact .inr ⟨quiet execution, fun _ => rfl⟩
      | some order =>
          simp only [found, Option.map_some] at execution
          refine .inl ⟨ns, orderNumber, executedQty, matchNumber, order, rfl, found, rfl, ?_⟩
          rw [apply_tape, execution]
          rfl
  | _ => exact .inr ⟨quiet (storeStep_execution market.books _), fun fill => by cases fill⟩

variable {orderbookId : CStr 4}

theorem apply_stats_of_ne (market : Market) (msg : ItchMsg)
    (other : (market.apply msg).2.ticker ≠ orderbookId) :
    (market.apply msg).1.tape.stats[orderbookId]? = market.tape.stats[orderbookId]? := by
  rcases market.apply_tape_cases msg with
    ⟨ns, orderNumber, executedQty, matchNumber, order, -, -, ticker, tape⟩ | ⟨tape, -⟩
  · rw [ticker] at other
    rw [tape]
    exact OrderedMap.lookup_insert_of_ne _ _ other
  · rw [tape]

theorem apply_instruments_of_ne (market : Market) (msg : ItchMsg)
    (other : (market.apply msg).2.ticker ≠ orderbookId) :
    (market.apply msg).1.refdata.instruments[orderbookId]? =
      market.refdata.instruments[orderbookId]? := by
  have kept {id : CStr 4} (elsewhere : id ≠ orderbookId) (change : Instrument → Instrument) :
      (market.refdata.modify id change).instruments[orderbookId]? =
        market.refdata.instruments[orderbookId]? := by
    rw [RefData.modify_lookup, if_neg elsewhere]
  rw [apply_refdata]
  cases msg with
  | directory entry | tradingState ns id group state | shortSellState ns id group state =>
      exact kept other _
  | addOrder order =>
      rw [apply_addOrder_result] at other
      simp only [RefData.apply]
      split
      · next reference =>
          rw [if_pos reference] at other
          exact kept other _
      · rfl
  | _ => rfl

variable {market : Market} {msg : ItchMsg}

/-- The states of an instrument after a message: only an `H` or `Y` of its own changes
them, and a new one starts with the defaults. -/
theorem apply_states {inst : Instrument}
    (found : (market.apply msg).1.refdata.instruments[orderbookId]? = some inst) :
    inst.tradingState =
        (match msg with
        | .tradingState _ id _ state =>
            if id = orderbookId then state else (market.refdata.get orderbookId).tradingState
        | _ => (market.refdata.get orderbookId).tradingState) ∧
      inst.shortSellState =
        match msg with
        | .shortSellState _ id _ state =>
            if id = orderbookId then state else (market.refdata.get orderbookId).shortSellState
        | _ => (market.refdata.get orderbookId).shortSellState := by
  have known (found : market.refdata.instruments[orderbookId]? = some inst) :
      market.refdata.get orderbookId = inst := by simp [RefData.get, found]
  have modified {id : CStr 4} {change : Instrument → Instrument}
      (found : (market.refdata.modify id change).instruments[orderbookId]? = some inst) :
      id = orderbookId ∧ change (market.refdata.get orderbookId) = inst ∨
        id ≠ orderbookId ∧ market.refdata.get orderbookId = inst := by
    rw [RefData.modify_lookup] at found
    split at found
    · next own => exact .inl ⟨own, Option.some.inj found⟩
    · next other => exact .inr ⟨other, known found⟩
  rw [apply_refdata] at found
  cases msg with
  | directory entry =>
      rcases modified found with ⟨own, rfl⟩ | ⟨other, rfl⟩ <;> exact ⟨rfl, rfl⟩
  | tradingState ns id group state =>
      rcases modified found with ⟨own, rfl⟩ | ⟨other, rfl⟩
      · exact ⟨(if_pos own).symm, rfl⟩
      · exact ⟨(if_neg other).symm, rfl⟩
  | shortSellState ns id group state =>
      rcases modified found with ⟨own, rfl⟩ | ⟨other, rfl⟩
      · exact ⟨rfl, (if_pos own).symm⟩
      · exact ⟨rfl, (if_neg other).symm⟩
  | addOrder order =>
      simp only [RefData.apply] at found
      split at found
      · rcases modified found with ⟨own, rfl⟩ | ⟨other, rfl⟩ <;> exact ⟨rfl, rfl⟩
      · rw [known found]
        exact ⟨rfl, rfl⟩
  | _ =>
      rw [known found]
      exact ⟨rfl, rfl⟩

theorem apply_instruments_isSome (known : market.refdata.instruments[orderbookId]?.isSome) :
    (market.apply msg).1.refdata.instruments[orderbookId]?.isSome := by
  have kept (id : CStr 4) (change : Instrument → Instrument) :
      (market.refdata.modify id change).instruments[orderbookId]?.isSome := by
    rw [RefData.modify_lookup]
    split
    · rfl
    · exact known
  rw [apply_refdata]
  cases msg with
  | directory entry | tradingState ns id group state | shortSellState ns id group state =>
      exact kept _ _
  | addOrder order =>
      simp only [RefData.apply]
      split
      · exact kept _ _
      · exact known
  | _ => exact known

theorem Named.ticker {allowed : CStr 4 → CStr 4 → Prop} (named : Named allowed market)
    (names : ∀ orderbookId group, msg.book? = some (orderbookId, group) →
      allowed orderbookId group) :
    (market.apply msg).2.ticker = .empty ∨
      ∃ group, allowed (market.apply msg).2.ticker group := by
  cases msg with
  | directory entry | tradingState ns id group state | shortSellState ns id group state =>
      exact .inr ⟨_, names _ _ rfl⟩
  | addOrder order =>
      right
      rw [apply_addOrder_result]
      split <;> exact ⟨_, names _ _ rfl⟩
  | addAttributed order attribution orderType => exact .inr ⟨_, names _ _ rfl⟩
  | executed ns orderNumber executedQty matchNumber =>
      rw [apply_executed_result]
      cases found : market.books.orders.find? orderNumber with
      | none => exact .inl rfl
      | some order => exact .inr ⟨_, named.orders _ _ found⟩
  | deleted ns orderNumber =>
      rw [apply_deleted_result]
      cases found : market.books.orders.find? orderNumber with
      | none => exact .inl rfl
      | some order => exact .inr ⟨_, named.orders _ _ found⟩
  | replaced ns origOrderNumber newOrderNumber qty price =>
      rw [apply_replaced_result]
      cases found : market.books.orders.find? origOrderNumber with
      | none => exact .inl rfl
      | some order => exact .inr ⟨_, named.orders _ _ found⟩
  | _ => exact .inl rfl

end Market

/-! ## Books -/

def OrderBookStore.Housed (store : OrderBookStore) : Prop :=
  ∀ orderNumber order, store.orders.find? orderNumber = some order →
    store.books[order.orderbookId]?.isSome

namespace OrderBookStore.Housed

variable {store : OrderBookStore}

/-- Books are only ever added or replaced, so it is enough that each order lies in the
book that was written or in one that an order was in before. -/
theorem write (housed : store.Housed) {after : OrderBookStore} {orderbookId : CStr 4} {book : Book}
    (books : after.books = store.books.insert orderbookId book)
    (origin : ∀ orderNumber order, after.orders.find? orderNumber = some order →
      order.orderbookId = orderbookId ∨ ∃ number old, store.orders.find? number = some old ∧
        old.orderbookId = order.orderbookId) : after.Housed := by
  intro orderNumber order found
  rw [books, OrderedMap.lookup_insert]
  split
  · rfl
  · next elsewhere =>
      rcases origin orderNumber order found with here | ⟨number, old, live, same⟩
      · exact absurd here.symm elsewhere
      · rw [← same]
        exact housed number old live

theorem restoreOrder (housed : store.Housed) (order : Order) :
    (store.restoreOrder order).Housed := by
  apply housed.write rfl
  intro orderNumber found live
  rw [restoreOrder_orders, KeyedMap.find?_insert] at live
  split at live
  · exact .inl (by rw [Option.some.inj live])
  · exact .inr ⟨_, _, live, rfl⟩

theorem removeOrder (housed : store.Housed) (order : Order) :
    (store.removeOrder order).Housed := by
  apply housed.write rfl
  intro orderNumber found live
  rw [removeOrder_orders, KeyedMap.find?_erase] at live
  split at live
  · cases live
  · exact .inr ⟨_, _, live, rfl⟩

theorem insert (housed : store.Housed) (order : Order) : (store.insert order).Housed := by
  unfold OrderBookStore.insert
  split
  · exact housed.restoreOrder order
  · next stale found =>
      let counted : OrderBookStore := { store with collisions := store.collisions + 1 }
      have removed : (counted.removeOrder stale).Housed :=
        removeOrder (show counted.Housed from housed) stale
      exact removed.restoreOrder order

theorem execute (housed : store.Housed) (orderNumber : UInt64) (executedQty : UInt32)
    (matchNumber : UInt64) : (store.execute orderNumber executedQty matchNumber).1.Housed := by
  cases found : store.orders.find? orderNumber with
  | none =>
      rw [OrderBookStore.execute, found]
      exact housed
  | some passive =>
      let qty := clampedQty passive executedQty
      let book := (store.book passive.orderbookId).remove passive.side passive.price qty
        (passive.remainingQty - qty = 0)
      have books : (store.execute orderNumber executedQty matchNumber).1.books =
          store.books.insert passive.orderbookId book := by
        rw [OrderBookStore.execute, found]
        rfl
      apply housed.write books
      intro number order live
      rw [execute_orders] at live
      have filled : (store.orders.apply (.executed 0 orderNumber executedQty matchNumber)).find?
          number = some order := live
      rcases OrderMap.apply_origin filled with ⟨other, old, before, id, -⟩ | ⟨add, added, -, -⟩
      · exact .inr ⟨other, old, before, id⟩
      · cases added

theorem apply (housed : store.Housed) (msg : ItchMsg) : (store.apply msg).1.Housed := by
  have add (order : AddOrder) (orderType : UInt8) : (store.applyAdd order orderType).Housed := by
    unfold applyAdd
    split
    · exact housed
    · exact housed.insert _
  cases msg with
  | addOrder order => exact add order space
  | addAttributed order attribution orderType => exact add order orderType
  | executed ns orderNumber executedQty matchNumber =>
      exact housed.execute orderNumber executedQty matchNumber
  | deleted ns orderNumber =>
      change (store.erase orderNumber).Housed
      unfold OrderBookStore.erase
      split
      · exact housed
      · exact housed.removeOrder _
  | replaced ns origOrderNumber newOrderNumber qty price =>
      change (store.replace origOrderNumber newOrderNumber qty price).Housed
      unfold OrderBookStore.replace
      split
      · exact housed
      · exact (housed.removeOrder _).insert _
  | _ => exact housed

end OrderBookStore.Housed

theorem Market.housed_run (messages : List ItchMsg) : (run {} messages).books.Housed := by
  induction messages using List.reverseRecOn with
  | nil =>
      intro orderNumber order found
      simp [run] at found
  | append_singleton earlier msg housed =>
      rw [run_concat, apply_books]
      cases msg with
      | addOrder order =>
          by_cases reference : order.orderNumber = 0
          · simpa [storeStep, reference] using housed
          · simpa [storeStep, reference] using housed.apply (.addOrder order)
      | _ => exact housed.apply _

/-! ## Trades -/

/-- The machine words that count live orders and a book's trades on the wire have room. -/
structure Market.WithinCounters (market : Market) : Prop where
  orders : market.books.orders.size < 2 ^ 32
  trades : ∀ orderbookId, (market.tape.statsOf orderbookId).tradeCount.toNat < 2 ^ 32

def TradeTape.Traded (tape : TradeTape) : Prop :=
  ∀ (orderbookId : CStr 4) (stats : BookStats), tape.stats[orderbookId]? = some stats →
    stats.lastPrice.isSome ∧ stats.lastQty.isSome ∧ 0 < stats.tradeCount.toNat

theorem TradeTape.statsOf_record_self (tape : TradeTape) (execution : Execution)
    (basePrice : Option UInt32) :
    (tape.record execution basePrice).statsOf execution.orderbookId =
      (tape.statsOf execution.orderbookId).record execution basePrice := by
  simp [statsOf, record]

theorem TradeTape.statsOf_record_of_ne (tape : TradeTape) {execution : Execution}
    (basePrice : Option UInt32) (other : execution.orderbookId ≠ orderbookId) :
    (tape.record execution basePrice).statsOf orderbookId = tape.statsOf orderbookId := by
  simp [statsOf, record, OrderedMap.lookup_insert, other]

theorem BookStats.record_tradeCount {stats : BookStats} (room : stats.tradeCount.toNat < 2 ^ 32)
    (execution : Execution) (basePrice : Option UInt32) :
    (stats.record execution basePrice).tradeCount.toNat = stats.tradeCount.toNat + 1 := by
  change (stats.tradeCount + 1).toNat = _
  rw [UInt64.toNat_add, UInt64.toNat_one, Nat.mod_eq_of_lt (by omega)]

theorem TradeTape.Traded.record {tape : TradeTape} (traded : tape.Traded) {execution : Execution}
    (room : (tape.statsOf execution.orderbookId).tradeCount.toNat < 2 ^ 32)
    (basePrice : Option UInt32) : (tape.record execution basePrice).Traded := by
  intro orderbookId stats found
  change (tape.stats.insert _ _)[orderbookId]? = some stats at found
  rw [OrderedMap.lookup_insert] at found
  split at found
  · rw [← Option.some.inj found, BookStats.record_tradeCount room]
    exact ⟨rfl, rfl, Nat.succ_pos _⟩
  · exact traded orderbookId stats found

theorem Market.traded_run (messages : List ItchMsg)
    (within : ∀ n < messages.length, (run {} (messages.take n)).WithinCounters) :
    (run {} messages).tape.Traded := by
  refine foldl_invariant_along (fun market : Market => market.tape.Traded) WithinCounters ?_ ?_
    within
  · intro market msg within traded
    rw [apply_tape]
    split
    · exact traded
    · exact traded.record (within.trades _) _
  · intro orderbookId stats found
    simp at found

private theorem OrderMap.size_apply_le (orders : OrderMap) (msg : ItchMsg) :
    (orders.apply msg).size ≤ orders.size + 1 := by
  have place (order : AddOrder) (orderType : UInt8) :
      (orders.place order orderType).size ≤ orders.size + 1 := by
    unfold OrderMap.place
    split
    · exact Nat.le_succ _
    · exact KeyedMap.size_insert_le _ _
  cases msg with
  | addOrder order => exact place order space
  | addAttributed order attribution orderType => exact place order orderType
  | executed ns orderNumber executedQty matchNumber =>
      change (orders.fill orderNumber executedQty).size ≤ _
      unfold OrderMap.fill
      split
      · exact Nat.le_succ _
      · simp only
        split
        · exact Nat.le_succ_of_le (KeyedMap.size_erase_le _ _)
        · exact KeyedMap.size_insert_le _ _
  | deleted ns orderNumber => exact Nat.le_succ_of_le (KeyedMap.size_erase_le _ _)
  | replaced ns origOrderNumber newOrderNumber qty price =>
      change (orders.replace origOrderNumber newOrderNumber qty price).size ≤ _
      unfold OrderMap.replace
      split
      · exact Nat.le_succ _
      · apply Nat.le_trans (KeyedMap.size_insert_le _ _)
        exact Nat.succ_le_succ (KeyedMap.size_erase_le _ _)
  | _ => exact Nat.le_succ _

private theorem Market.apply_tradeCount_le {market : Market} (within : market.WithinCounters)
    (msg : ItchMsg) (orderbookId : CStr 4) :
    ((market.apply msg).1.tape.statsOf orderbookId).tradeCount.toNat ≤
      (market.tape.statsOf orderbookId).tradeCount.toNat + 1 := by
  rw [apply_tape]
  split
  · exact Nat.le_succ _
  · next execution _ =>
      by_cases own : execution.orderbookId = orderbookId
      · subst own
        rw [TradeTape.statsOf_record_self, BookStats.record_tradeCount (within.trades _)]
      · rw [TradeTape.statsOf_record_of_ne _ _ own]
        exact Nat.le_succ _

theorem Market.tradeCount_le_apply {market : Market}
    (room : (market.tape.statsOf orderbookId).tradeCount.toNat < 2 ^ 32) (msg : ItchMsg) :
    (market.tape.statsOf orderbookId).tradeCount.toNat ≤
      ((market.apply msg).1.tape.statsOf orderbookId).tradeCount.toNat := by
  rw [apply_tape]
  split
  · exact Nat.le_refl _
  · next execution _ =>
      by_cases own : execution.orderbookId = orderbookId
      · subst own
        rw [TradeTape.statsOf_record_self, BookStats.record_tradeCount room]
        exact Nat.le_succ _
      · rw [TradeTape.statsOf_record_of_ne _ _ own]

theorem Market.withinCounters_of_length {messages : List ItchMsg}
    (few : messages.length < 2 ^ 32) : (run {} messages).WithinCounters := by
  suffices counted : (run {} messages).books.orders.size ≤ messages.length ∧
      ∀ orderbookId, ((run {} messages).tape.statsOf orderbookId).tradeCount.toNat ≤
        messages.length from
    ⟨Nat.lt_of_le_of_lt counted.1 few,
      fun orderbookId => Nat.lt_of_le_of_lt (counted.2 orderbookId) few⟩
  induction messages using List.reverseRecOn with
  | nil =>
      refine ⟨Nat.le_refl _, ?_⟩
      intro orderbookId
      simp [run, TradeTape.statsOf]
  | append_singleton earlier msg induction =>
      rw [List.length_append, List.length_singleton] at few ⊢
      rcases induction (by omega) with ⟨orders, trades⟩
      have within : (run {} earlier).WithinCounters :=
        ⟨by omega, fun orderbookId => Nat.lt_of_le_of_lt (trades orderbookId) (by omega)⟩
      rw [run_concat]
      refine ⟨?_, ?_⟩
      · rw [apply_orders]
        exact Nat.le_trans (OrderMap.size_apply_le _ _) (Nat.succ_le_succ orders)
      · intro orderbookId
        exact Nat.le_trans (apply_tradeCount_le within msg orderbookId)
          (Nat.succ_le_succ (trades orderbookId))

def WireStable (orderbookId group : CStr 4) : Prop :=
  orderbookId.trimmed = orderbookId ∧ group.trimmed = group

theorem ItchMsg.Trimmed.wireStable (trimmed : msg.Trimmed) {orderbookId group : CStr 4}
    (named : msg.book? = some (orderbookId, group)) : WireStable orderbookId group := by
  cases msg <;> simp only [ItchMsg.book?, Option.some.injEq, Prod.mk.injEq, reduceCtorEq] at named
  case directory entry =>
      rcases named with ⟨rfl, rfl⟩
      exact ⟨trimmed.1, trimmed.2.2⟩
  all_goals
    rcases named with ⟨rfl, rfl⟩
    exact trimmed

end ProtoFH
