import ProtoFH.Foundation.Execution
import ProtoFH.Market.LevelTotals

/-! # Conservation of shares

What happens to orders is a history of three kinds of events: an order comes in, a
part of it is executed, and what is left of it is removed. Over any such history the
quantity that came in is what was executed, what is still live and what was removed.
The store goes through the history of its messages, and its counters and the tape add
up the executions. -/

namespace ProtoFH

inductive OrderEvent where
  | inserted (order : Order)
  | executed (orderNumber : UInt64) (execution : Execution)
  | removed (order : Order)
deriving DecidableEq

namespace OrderEvent

def insertedQty : OrderEvent → Nat
  | .inserted order => order.remainingQty.toNat
  | _ => 0

def executedQty : OrderEvent → Nat
  | .executed _ execution => execution.qty.toNat
  | _ => 0

def removedQty : OrderEvent → Nat
  | .removed order => order.remainingQty.toNat
  | _ => 0

def executions : OrderEvent → Nat
  | .executed .. => 1
  | _ => 0

def executedOf (orderNumber : UInt64) : OrderEvent → Nat
  | .executed number execution => if number = orderNumber then execution.qty.toNat else 0
  | _ => 0

def Opens (orderNumber : UInt64) : OrderEvent → Prop
  | .inserted order => order.orderNumber = orderNumber
  | _ => False

inductive Step : OrderMap → OrderEvent → OrderMap → Prop where
  | inserted {orders : OrderMap} {order : Order} :
      orders.find? order.orderNumber = none →
        Step orders (.inserted order) (orders.insert order)
  | executed {orders : OrderMap} {taking : Taking} {execution : Execution} :
      taking.Possible orders → execution.qty = taking.qty →
        Step orders (.executed taking.order.orderNumber execution) (orders.take taking)
  | removed {orders : OrderMap} {order : Order} :
      orders.find? order.orderNumber = some order →
        Step orders (.removed order) (orders.erase order.orderNumber)

end OrderEvent

def OrderMap.remaining (orders : OrderMap) : Nat :=
  orders.total fun order => order.remainingQty.toNat

def OrderMap.remainingOf (orders : OrderMap) (orderNumber : UInt64) : Nat :=
  ((orders.find? orderNumber).map fun order => order.remainingQty.toNat).getD 0

def sumOf (measure : OrderEvent → Nat) (events : List OrderEvent) : Nat :=
  (events.map measure).sum

theorem sumOf_cons (measure : OrderEvent → Nat) (event : OrderEvent) (events : List OrderEvent) :
    sumOf measure (event :: events) = measure event + sumOf measure events :=
  List.sum_cons

theorem sumOf_append (measure : OrderEvent → Nat) (earlier later : List OrderEvent) :
    sumOf measure (earlier ++ later) = sumOf measure earlier + sumOf measure later := by
  rw [sumOf, List.map_append, List.sum_append]
  rfl

/-! ## Histories conserve -/

namespace OrderEvent

variable {before after : OrderMap}

private theorem Step.conserves {event : OrderEvent} (stepped : Step before event after) :
    before.remaining + event.insertedQty =
      event.executedQty + event.removedQty + after.remaining := by
  cases stepped with
  | @inserted order fresh =>
      have added : OrderMap.remaining (before.insert order) =
          order.remainingQty.toNat + before.remaining :=
        KeyedMap.total_insert_of_absent order _ fresh
      change before.remaining + order.remainingQty.toNat = 0 + 0 + OrderMap.remaining _
      omega
  | @executed taking execution possible same =>
      have taken := OrderMap.total_take possible fun order => order.remainingQty.toNat
      have parts := possible.qty_add_left
      have left : (if taking.left = 0 then 0 else taking.remainder.remainingQty.toNat) =
          taking.left.toNat := by
        split
        · next gone => rw [gone]; rfl
        · rfl
      rw [left] at taken
      change before.total _ + 0 = execution.qty.toNat + 0 + (before.take taking).total _
      rw [same]
      omega
  | @removed order live =>
      have gone : before.remaining =
          order.remainingQty.toNat + OrderMap.remaining (before.erase order.orderNumber) :=
        KeyedMap.total_erase _ live
      change before.remaining + 0 = 0 + order.remainingQty.toNat + OrderMap.remaining _
      omega

theorem history_conserves {events : List OrderEvent} (history : History Step before events after) :
    before.remaining + sumOf insertedQty events =
      sumOf executedQty events + sumOf removedQty events + after.remaining := by
  induction history with
  | nil => exact (Nat.add_comm _ _).trans (by rw [sumOf, sumOf, sumOf]; rfl)
  | cons stepped _ induction =>
      have single := stepped.conserves
      rw [sumOf_cons, sumOf_cons, sumOf_cons]
      omega

theorem Step.executes {event : OrderEvent} (stepped : Step before event after)
    {orderNumber : UInt64} (closed : ¬ event.Opens orderNumber) :
    event.executedOf orderNumber + after.remainingOf orderNumber ≤
      before.remainingOf orderNumber := by
  cases stepped with
  | @inserted order fresh =>
      have other : order.orderNumber ≠ orderNumber := closed
      rw [OrderMap.remainingOf, KeyedMap.find?_insert, if_neg other]
      exact Nat.le_of_eq (Nat.zero_add _)
  | @executed taking execution possible same =>
      have parts := possible.qty_add_left
      by_cases own : taking.order.orderNumber = orderNumber
      · subst own
        rw [executedOf, if_pos rfl, same, OrderMap.remainingOf, OrderMap.remainingOf,
          possible.live, OrderMap.take]
        split
        · rw [KeyedMap.find?_erase_self]
          change taking.qty.toNat + 0 ≤ taking.order.remainingQty.toNat
          omega
        · have stored : (before.insert taking.remainder).find? taking.order.orderNumber =
              some taking.remainder :=
            KeyedMap.find?_insert_self before taking.remainder
          rw [stored]
          exact Nat.le_of_eq parts
      · have kept : (before.take taking).find? orderNumber = before.find? orderNumber := by
          rw [OrderMap.take]
          split
          · rw [KeyedMap.find?_erase, if_neg own]
          · rw [KeyedMap.find?_insert]
            exact if_neg own
        rw [executedOf, if_neg own, OrderMap.remainingOf, kept, Nat.zero_add]
        exact Nat.le_refl _
  | @removed order live =>
      rw [OrderMap.remainingOf, OrderMap.remainingOf, KeyedMap.find?_erase]
      split
      · exact Nat.zero_le _
      · exact Nat.le_of_eq (Nat.zero_add _)

theorem history_executes {events : List OrderEvent} (history : History Step before events after)
    {orderNumber : UInt64} (closed : ∀ event ∈ events, ¬ event.Opens orderNumber) :
    sumOf (executedOf orderNumber) events ≤ before.remainingOf orderNumber := by
  induction history with
  | nil => exact Nat.zero_le _
  | cons stepped _ induction =>
      rw [List.forall_mem_cons] at closed
      have single := stepped.executes closed.1
      have rest := induction closed.2
      rw [sumOf_cons]
      omega

private theorem history_executes_inserted {earlier during later : List OrderEvent} {order : Order}
    (history : History Step before (earlier ++ .inserted order :: during ++ later) after)
    (closed : ∀ event ∈ during, ¬ event.Opens order.orderNumber) :
    sumOf (executedOf order.orderNumber) during ≤ order.remainingQty.toNat := by
  rcases history.exists_middle with ⟨_, front, _⟩
  rcases front.exists_middle with ⟨_, _, own⟩
  cases own with
  | cons stepped rest =>
      have bound := history_executes rest closed
      cases stepped with
      | inserted fresh =>
          rw [OrderMap.remainingOf, KeyedMap.find?_insert_self] at bound
          exact bound

end OrderEvent

/-! ## The history of the store -/

namespace OrderMap

/-- `insert`: a stale order under the number is removed first. -/
def insertEvents (orders : OrderMap) (order : Order) : List OrderEvent :=
  ((orders.find? order.orderNumber).map .removed).toList ++ [.inserted order]

theorem insertEvents_history (orders : OrderMap) (order : Order) :
    History OrderEvent.Step orders (orders.insertEvents order) (orders.insert order) := by
  rw [insertEvents]
  cases found : orders.find? order.orderNumber with
  | none => exact .cons (.inserted found) (.nil _)
  | some stale =>
      have number : stale.orderNumber = order.orderNumber := KeyedMap.key_of_find? found
      rw [← number] at found
      rw [← KeyedMap.erase_insert_self, ← number]
      refine .cons (.removed found) (.cons (.inserted ?_) (.nil _))
      rw [← number]
      exact KeyedMap.find?_erase_self _ _

end OrderMap

namespace OrderBookStore

def orderEvents (store : OrderBookStore) : ItchMsg → List OrderEvent
  | .addOrder msg =>
      if msg.orderNumber = 0 then [] else store.orders.insertEvents (msg.toOrder space)
  | .addAttributed msg _ orderType =>
      if msg.orderNumber = 0 then [] else store.orders.insertEvents (msg.toOrder orderType)
  | .executed _ orderNumber executedQty matchNumber =>
      ((store.execute orderNumber executedQty matchNumber).2.map (.executed orderNumber)).toList
  | .deleted _ orderNumber => ((store.orders.find? orderNumber).map .removed).toList
  | .replaced _ origOrderNumber newOrderNumber qty price =>
      match store.orders.find? origOrderNumber with
      | none => []
      | some order =>
          .removed order :: OrderMap.insertEvents (store.orders.erase origOrderNumber)
            { order with orderNumber := newOrderNumber, price := price, remainingQty := qty }
  | _ => []

theorem execute_history (store : OrderBookStore) (orderNumber : UInt64) (executedQty : UInt32)
    (matchNumber : UInt64) :
    History OrderEvent.Step store.orders
      ((store.execute orderNumber executedQty matchNumber).2.map (.executed orderNumber)).toList
      (store.orders.fill orderNumber executedQty) := by
  rw [execute, OrderMap.fill]
  cases found : store.orders.find? orderNumber with
  | none => exact .nil _
  | some order =>
      have number : order.orderNumber = orderNumber := KeyedMap.key_of_find? found
      subst number
      have possible : Taking.Possible ⟨order, clampedQty order executedQty⟩ store.orders :=
        ⟨found, clampedQty_le order executedQty⟩
      exact .cons (.executed possible rfl) (.nil _)

private theorem apply_history (store : OrderBookStore) (msg : ItchMsg) :
    History OrderEvent.Step store.orders (store.orderEvents msg) (store.orders.apply msg) := by
  cases msg with
  | addOrder added | addAttributed added attribution orderType =>
      rw [orderEvents, OrderMap.apply, OrderMap.place]
      split
      · exact .nil _
      · exact OrderMap.insertEvents_history _ _
  | executed ns orderNumber executedQty matchNumber =>
      exact store.execute_history orderNumber executedQty matchNumber
  | deleted ns orderNumber =>
      rw [orderEvents, OrderMap.apply]
      cases found : store.orders.find? orderNumber with
      | none =>
          rw [KeyedMap.erase_of_find?_eq_none found]
          exact .nil _
      | some order =>
          have number : order.orderNumber = orderNumber := KeyedMap.key_of_find? found
          subst number
          exact .cons (.removed found) (.nil _)
  | replaced ns origOrderNumber newOrderNumber qty price =>
      rw [orderEvents, OrderMap.apply, OrderMap.replace]
      cases found : store.orders.find? origOrderNumber with
      | none => exact .nil _
      | some order =>
          have number : order.orderNumber = origOrderNumber := KeyedMap.key_of_find? found
          subst number
          exact .cons (.removed found) (OrderMap.insertEvents_history _ _)
  | _ => exact .nil _

end OrderBookStore

/-! ## The counters and the tape -/

/-- The counters of the store and of the tape all tell the same volume and number of
executions, and the books of the tape add up to them. -/
structure Market.Booked (market : Market) (volume count : Nat) : Prop where
  executedVolume : market.books.executedVolume.toNat = volume
  executionCount : market.books.executionCount.toNat = count
  totalVolume : market.tape.totalVolume.toNat = volume
  tradeCount : market.tape.tradeCount.toNat = count
  volumes : OrderedMap.total market.tape.stats (fun _ stats => stats.volume.toNat) = volume
  trades : OrderedMap.total market.tape.stats (fun _ stats => stats.tradeCount.toNat) = count

private theorem Market.booked_empty : ({} : Market).Booked 0 0 where
  executedVolume := rfl
  executionCount := rfl
  totalVolume := rfl
  tradeCount := rfl
  volumes := OrderedMap.total_empty _
  trades := OrderedMap.total_empty _

theorem TradeTape.total_record (tape : TradeTape) (execution : Execution)
    (basePrice : Option UInt32) (field : BookStats → UInt64) (part : UInt64)
    (recorded : ∀ stats : BookStats,
      field (stats.record execution basePrice) = field stats + part)
    (blank : field {} = 0)
    (fits : OrderedMap.total tape.stats (fun _ stats => (field stats).toNat) + part.toNat <
      2 ^ 64) :
    OrderedMap.total (tape.record execution basePrice).stats
        (fun _ stats => (field stats).toNat) =
      OrderedMap.total tape.stats (fun _ stats => (field stats).toNat) + part.toNat := by
  have written := OrderedMap.total_insert tape.stats execution.orderbookId
    ((tape.statsOf execution.orderbookId).record execution basePrice)
    fun _ stats => (field stats).toNat
  change OrderedMap.total (tape.stats.insert _ _) _ = _
  rw [recorded, statsOf] at written
  rw [statsOf]
  cases found : tape.stats[execution.orderbookId]? with
  | none =>
      rw [found] at written
      change _ + 0 = (field {} + part).toNat + _ at written
      rw [blank, UInt64.zero_add] at written
      exact written.trans (Nat.add_comm _ _)
  | some stats =>
      have within := OrderedMap.weight_le_total (fun _ stats => (field stats).toNat) found
      rw [found] at written
      change _ + (field stats).toNat = (field stats + part).toNat + _ at written
      rw [UInt64.toNat_add, Nat.mod_eq_of_lt (by omega)] at written
      change OrderedMap.total (tape.stats.insert _ (stats.record execution basePrice)) _ = _
      change OrderedMap.total (tape.stats.insert _ (stats.record execution basePrice)) _ + _ = _
        at written
      omega

def OrderBookStore.tally (store : OrderBookStore) : UInt64 × UInt64 :=
  (store.executedVolume, store.executionCount)

def tallied (tally : UInt64 × UInt64) : Option Execution → UInt64 × UInt64
  | none => tally
  | some execution => (tally.1 + execution.qty.toUInt64, tally.2 + 1)

namespace OrderBookStore

theorem insert_tally (store : OrderBookStore) (order : Order) :
    (store.insert order).tally = store.tally := by
  unfold insert
  split <;> rfl

theorem applyAdd_tally (store : OrderBookStore) (order : AddOrder) (orderType : UInt8) :
    (store.applyAdd order orderType).tally = store.tally := by
  unfold applyAdd
  split
  · rfl
  · exact insert_tally store _

private theorem execute_tally (store : OrderBookStore) (orderNumber : UInt64) (executedQty : UInt32)
    (matchNumber : UInt64) :
    (store.execute orderNumber executedQty matchNumber).1.tally =
      tallied store.tally (store.execute orderNumber executedQty matchNumber).2 := by
  cases found : store.orders.find? orderNumber with
  | none | some order =>
      simp only [execute, found]
      rfl

theorem apply_tally (store : OrderBookStore) (msg : ItchMsg) :
    (store.apply msg).1.tally = tallied store.tally (store.apply msg).2 := by
  cases msg with
  | addOrder order => exact store.applyAdd_tally order space
  | addAttributed order attribution orderType => exact store.applyAdd_tally order orderType
  | executed ns orderNumber executedQty matchNumber => exact store.execute_tally _ _ _
  | deleted ns orderNumber =>
      change (store.erase orderNumber).tally = store.tally
      unfold erase
      split <;> rfl
  | replaced ns origOrderNumber newOrderNumber qty price =>
      change (store.replace _ _ _ _).tally = store.tally
      unfold replace
      split
      · rfl
      · exact insert_tally (store.removeOrder _) _
  | _ => rfl

theorem executed_orderEvents (store : OrderBookStore) (msg : ItchMsg) :
    sumOf OrderEvent.executedQty (store.orderEvents msg) =
        ((store.apply msg).2.map fun execution => execution.qty.toNat).getD 0 ∧
      sumOf OrderEvent.executions (store.orderEvents msg) =
        ((store.apply msg).2.map fun _ => 1).getD 0 := by
  have removed (order : Option Order) :
      sumOf OrderEvent.executedQty (order.map .removed).toList = 0 ∧
        sumOf OrderEvent.executions (order.map .removed).toList = 0 := by
    cases order <;> exact ⟨rfl, rfl⟩
  have inserted (orders : OrderMap) (order : Order) :
      sumOf OrderEvent.executedQty (orders.insertEvents order) = 0 ∧
        sumOf OrderEvent.executions (orders.insertEvents order) = 0 := by
    rw [OrderMap.insertEvents, sumOf_append, sumOf_append, (removed _).1, (removed _).2]
    exact ⟨rfl, rfl⟩
  cases msg with
  | addOrder order | addAttributed order attribution orderType =>
      rw [orderEvents]
      split
      · exact ⟨rfl, rfl⟩
      · exact inserted _ _
  | executed ns orderNumber executedQty matchNumber =>
      rw [orderEvents, apply]
      cases (store.execute orderNumber executedQty matchNumber).2 <;> exact ⟨rfl, rfl⟩
  | deleted ns orderNumber => exact removed _
  | replaced ns origOrderNumber newOrderNumber qty price =>
      rw [orderEvents]
      cases store.orders.find? origOrderNumber with
      | none => exact ⟨rfl, rfl⟩
      | some order =>
          rw [sumOf_cons, sumOf_cons, (inserted _ _).1, (inserted _ _).2]
          exact ⟨rfl, rfl⟩
  | _ => exact ⟨rfl, rfl⟩

end OrderBookStore

namespace Market

theorem storeStep_executes (books : OrderBookStore) (msg : ItchMsg) :
    (storeStep books msg).2 = (books.apply msg).2 ∧
      (storeStep books msg).1.tally = tallied books.tally (books.apply msg).2 := by
  cases msg with
  | addOrder order =>
      by_cases reference : order.orderNumber = 0
      · rw [storeStep, if_pos reference]
        exact ⟨rfl, rfl⟩
      · rw [storeStep, if_neg reference]
        exact ⟨rfl, books.apply_tally _⟩
  | _ => exact ⟨rfl, books.apply_tally _⟩

theorem Booked.apply {market : Market} {volume count : Nat} (booked : market.Booked volume count)
    (msg : ItchMsg)
    (fits : volume + sumOf OrderEvent.executedQty (market.books.orderEvents msg) < 2 ^ 64)
    (few : count + sumOf OrderEvent.executions (market.books.orderEvents msg) < 2 ^ 64) :
    (market.apply msg).1.Booked
      (volume + sumOf OrderEvent.executedQty (market.books.orderEvents msg))
      (count + sumOf OrderEvent.executions (market.books.orderEvents msg)) := by
  have tape := market.apply_tape msg
  have tally : (market.apply msg).1.books.tally = _ :=
    (congrArg _ (market.apply_books msg)).trans (storeStep_executes market.books msg).2
  rw [(storeStep_executes market.books msg).1] at tape
  rw [(market.books.executed_orderEvents msg).1] at fits ⊢
  rw [(market.books.executed_orderEvents msg).2] at few ⊢
  cases executed : (market.books.apply msg).2 with
  | none =>
      rw [executed] at tape tally
      have volumes := congrArg Prod.fst tally
      have counts := congrArg Prod.snd tally
      refine ⟨(congrArg _ volumes).trans booked.executedVolume,
        (congrArg _ counts).trans booked.executionCount, ?_, ?_, ?_, ?_⟩ <;> rw [tape]
      · exact booked.totalVolume
      · exact booked.tradeCount
      · exact booked.volumes
      · exact booked.trades
  | some execution =>
      rw [executed] at tape tally fits few
      change volume + execution.qty.toNat < 2 ^ 64 at fits
      change count + 1 < 2 ^ 64 at few
      have qty : execution.qty.toUInt64.toNat = execution.qty.toNat := UInt32.toNat_toUInt64 _
      have volumes : (market.apply msg).1.books.executedVolume =
        market.books.executedVolume + execution.qty.toUInt64 := congrArg Prod.fst tally
      have counts : (market.apply msg).1.books.executionCount =
        market.books.executionCount + 1 := congrArg Prod.snd tally
      refine ⟨?_, ?_, ?_, ?_, ?_, ?_⟩
      · rw [volumes, UInt64.toNat_add, booked.executedVolume, qty]
        exact Nat.mod_eq_of_lt fits
      · rw [counts, UInt64.toNat_add, booked.executionCount]
        exact Nat.mod_eq_of_lt few
      · rw [tape]
        change (market.tape.totalVolume + execution.qty.toUInt64).toNat = _
        rw [UInt64.toNat_add, booked.totalVolume, qty]
        exact Nat.mod_eq_of_lt fits
      · rw [tape]
        change (market.tape.tradeCount + 1).toNat = _
        rw [UInt64.toNat_add, booked.tradeCount]
        exact Nat.mod_eq_of_lt few
      · rw [tape]
        have sum := market.tape.total_record execution (market.basePrice execution.orderbookId)
          BookStats.volume execution.qty.toUInt64 (fun _ => rfl) rfl
        rw [booked.volumes, qty] at sum
        exact sum fits
      · rw [tape]
        have sum := market.tape.total_record execution (market.basePrice execution.orderbookId)
          BookStats.tradeCount 1 (fun _ => rfl) rfl
        rw [booked.trades] at sum
        exact sum few

/-! ## Runs -/

def orderHistory (messages : List ItchMsg) : List OrderEvent :=
  emitted (fun market msg => (market.apply msg).1) (fun market msg => market.books.orderEvents msg)
    ({} : Market) messages

theorem orderHistory_concat (messages : List ItchMsg) (msg : ItchMsg) :
    orderHistory (messages ++ [msg]) =
      orderHistory messages ++ (run {} messages).books.orderEvents msg := by
  rw [orderHistory, emitted_append]
  exact congrArg _ (List.append_nil _)

theorem run_history (messages : List ItchMsg) :
    History OrderEvent.Step ∅ (orderHistory messages) (run {} messages).books.orders := by
  refine History.emitted (fun market : Market => market.books.orders) ?_ {} messages
  intro market msg
  rw [apply_orders]
  exact market.books.apply_history msg

private theorem run_booked (messages : List ItchMsg)
    (fits : sumOf OrderEvent.executedQty (orderHistory messages) < 2 ^ 64)
    (few : sumOf OrderEvent.executions (orderHistory messages) < 2 ^ 64) :
    (run {} messages).Booked (sumOf OrderEvent.executedQty (orderHistory messages))
      (sumOf OrderEvent.executions (orderHistory messages)) := by
  induction messages using List.reverseRecOn with
  | nil => exact booked_empty
  | append_singleton earlier msg induction =>
      rw [orderHistory_concat, sumOf_append] at fits few
      rw [orderHistory_concat, sumOf_append, sumOf_append, run_concat]
      have before := induction (by omega) (by omega)
      exact before.apply msg fits few

/-- Every share that came in was executed, is live or was removed; no order is executed
for more than came in; and store and tape agree on what was executed, in all and summed
over the books. -/
theorem shares_conserved (messages : List ItchMsg)
    (fits : sumOf OrderEvent.insertedQty (orderHistory messages) < 2 ^ 64)
    (few : sumOf OrderEvent.executions (orderHistory messages) < 2 ^ 64) :
    let market := run {} messages
    let events := orderHistory messages
    sumOf OrderEvent.insertedQty events =
        market.books.executedVolume.toNat + market.books.orders.remaining +
          sumOf OrderEvent.removedQty events ∧
      (∀ earlier order during later,
        events = earlier ++ .inserted order :: during ++ later →
        (∀ event ∈ during, ¬ event.Opens order.orderNumber) →
          sumOf (OrderEvent.executedOf order.orderNumber) during ≤ order.remainingQty.toNat) ∧
      (market.tape.totalVolume = market.books.executedVolume ∧
        market.books.executedVolume.toNat =
          OrderedMap.total market.tape.stats fun _ stats => stats.volume.toNat) ∧
      market.tape.tradeCount = market.books.executionCount ∧
        market.books.executionCount.toNat =
          OrderedMap.total market.tape.stats fun _ stats => stats.tradeCount.toNat := by
  have conserved := OrderEvent.history_conserves (run_history messages)
  rw [OrderMap.remaining, KeyedMap.total_empty, Nat.zero_add] at conserved
  have booked := run_booked messages (by omega) few
  intro market events
  refine ⟨?_, ?_, ⟨?_, ?_⟩, ?_, ?_⟩
  · rw [booked.executedVolume, Nat.add_right_comm]
    exact conserved
  · intro earlier order during later split closed
    have history := run_history messages
    change History OrderEvent.Step ∅ events _ at history
    rw [split] at history
    exact OrderEvent.history_executes_inserted history closed
  · exact UInt64.toNat_inj.mp (booked.totalVolume.trans booked.executedVolume.symm)
  · exact booked.executedVolume.trans booked.volumes.symm
  · exact UInt64.toNat_inj.mp (booked.tradeCount.trans booked.executionCount.symm)
  · exact booked.executionCount.trans booked.trades.symm

theorem shares_conserved_crossedReplace :
    sumOf OrderEvent.insertedQty (orderHistory crossedReplace) = 170 ∧
      (run {} crossedReplace).books.executedVolume.toNat +
        (run {} crossedReplace).books.orders.remaining +
          sumOf OrderEvent.removedQty (orderHistory crossedReplace) = 170 := by
  have total : sumOf OrderEvent.insertedQty (orderHistory crossedReplace) = 170 := by
    decide +kernel
  have conserved := (shares_conserved crossedReplace (by rw [total]; decide)
    (by decide +kernel)).1
  exact ⟨total, conserved.symm.trans total⟩

end Market

end ProtoFH
