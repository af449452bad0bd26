import ProtoFH.Market.Market
import ProtoFH.Prototype.Refinement

/-! # The C++ market agrees with the prototype

Fed the same payloads, the C++ market holds the prototype's orders, levels, counters
and trade statistics at every point the prototype reaches, as long as the prototype's
numbers fit in 64 bits. -/

namespace ProtoFH

/-! ## Trades -/

structure TradeStats where
  tradeCount : UInt64
  volume : UInt64
  notional : UInt64
  lastPrice : Option Nat
  lastQty : Option Nat

def BookStats.trades (stats : BookStats) : TradeStats where
  tradeCount := stats.tradeCount
  volume := stats.volume
  notional := stats.notional
  lastPrice := stats.lastPrice.map UInt32.toNat
  lastQty := stats.lastQty.map UInt32.toNat

def Prototype.BookStats.trades (stats : Prototype.BookStats) : TradeStats where
  tradeCount := .ofNat stats.tradeCount
  volume := .ofNat stats.volume
  notional := .ofNat stats.notional
  lastPrice := stats.lastPrice
  lastQty := stats.lastQty

private theorem BookStats.trades_record {stats : BookStats} {proto : Prototype.BookStats}
    (same : proto.trades = stats.trades) (execution : Execution) (basePrice : Option UInt32)
    (protoBase : Option Nat) :
    (proto.record execution.view protoBase).trades = (stats.record execution basePrice).trades := by
  simp only [Prototype.BookStats.trades, trades, TradeStats.mk.injEq] at same
  simp [Prototype.BookStats.trades, trades, Prototype.BookStats.record, record, Execution.view,
    UInt64.ofNat_add, UInt64.ofNat_mul, same]

namespace TradeTape

structure Refines (tape : TradeTape) (proto : Prototype.TradeTape) : Prop where
  same : ∀ orderbookId : CStr 4,
    (proto.stats.find? orderbookId.bytes).map Prototype.BookStats.trades =
      tape.stats[orderbookId]?.map BookStats.trades
  known : ∀ orderbookId stats, proto.stats.find? orderbookId = some stats →
    ∃ own : CStr 4, own.bytes = orderbookId

theorem refines_empty : Refines {} {} where
  same orderbookId := by simp
  known orderbookId stats found := by cases found

namespace Refines

variable {tape : TradeTape} {proto : Prototype.TradeTape} (refines : tape.Refines proto)
include refines

theorem statsOf (orderbookId : CStr 4) :
    (proto.statsOf orderbookId.bytes).trades = (tape.statsOf orderbookId).trades := by
  have same := refines.same orderbookId
  rw [Prototype.TradeTape.statsOf, TradeTape.statsOf]
  cases found : tape.stats[orderbookId]? with
  | none =>
      rw [found, Option.map_none, Option.map_eq_none_iff] at same
      rw [same]
      rfl
  | some stats =>
      rw [found, Option.map_some, Option.map_eq_some_iff] at same
      rcases same with ⟨held, present, equal⟩
      rw [present]
      exact equal

theorem record (execution : Execution) (timestamp : Nat) (basePrice : Option UInt32)
    (protoBase : Option Nat) :
    (tape.record execution basePrice).Refines
      (proto.record execution.view timestamp protoBase) where
  same orderbookId := by
    have own : execution.view.orderbookId = execution.orderbookId.bytes := rfl
    simp only [Prototype.TradeTape.record, TradeTape.record, Dict.find?_set,
      OrderedMap.lookup_insert, own, CStr.bytes_inj]
    split
    · exact congrArg some (BookStats.trades_record (refines.statsOf _) execution basePrice _)
    · exact refines.same orderbookId
  known orderbookId stats found := by
    simp only [Prototype.TradeTape.record, Dict.find?_set] at found
    split at found
    · next own => exact ⟨execution.orderbookId, own⟩
    · exact refines.known orderbookId stats found

end Refines

end TradeTape

/-! ## Instruments -/

namespace RefData

/-! Both sides are compared by what an observation of each makes of an instrument. -/

section Observed

variable {γ : Type} {observe : Instrument → γ} {protoObserve : Prototype.Instrument → γ}
  {refdata : RefData} {proto : Prototype.RefData}
  (same : ∀ orderbookId : CStr 4, (proto.instruments.find? orderbookId.bytes).map protoObserve =
    refdata.instruments[orderbookId]?.map observe)
include same

theorem observed_get (orderbookId : CStr 4)
    (fresh : protoObserve { orderbookId := orderbookId.bytes } = observe { orderbookId }) :
    protoObserve (proto.get orderbookId.bytes) = observe (refdata.get orderbookId) := by
  have own := same orderbookId
  rw [Prototype.RefData.get, RefData.get]
  cases found : refdata.instruments[orderbookId]? with
  | none =>
      rw [found, Option.map_none, Option.map_eq_none_iff] at own
      rw [own]
      exact fresh
  | some inst =>
      rw [found, Option.map_some, Option.map_eq_some_iff] at own
      rcases own with ⟨held, present, equal⟩
      rw [present]
      exact equal

theorem observed_modify (orderbookId : CStr 4) {change : Instrument → Instrument}
    {protoChange : Prototype.Instrument → Prototype.Instrument}
    (equal : protoObserve (protoChange (proto.get orderbookId.bytes)) =
      observe (change (refdata.get orderbookId))) (other : CStr 4) :
    ((proto.modify orderbookId.bytes protoChange).instruments.find? other.bytes).map
        protoObserve = (refdata.modify orderbookId change).instruments[other]?.map observe := by
  rw [modify_lookup]
  simp only [Prototype.RefData.modify, Dict.find?_set, CStr.bytes_inj]
  split
  · next own =>
      subst own
      exact congrArg some equal
  · exact same other

end Observed

end RefData

/-! ## Markets -/

private theorem Prototype.Market.run_concat_eq_ok {market last : Prototype.Market}
    {messages : List Prototype.Message} {msg : Prototype.Message}
    (ran : market.run (messages ++ [msg]) = .ok last) :
    ∃ before, market.run messages = .ok before ∧ before.apply msg = .ok last := by
  rw [Prototype.Market.run, List.foldlM_append] at ran
  rcases except_bind_eq_ok.mp ran with ⟨before, earlier, step⟩
  rw [List.foldlM_cons] at step
  rcases except_bind_eq_ok.mp step with ⟨after, applied, done⟩
  cases done
  exact ⟨before, earlier, applied⟩

theorem Prototype.Market.run_concat_ok {market before last : Prototype.Market}
    {messages : List Prototype.Message} {msg : Prototype.Message}
    (ran : market.run messages = .ok before) (applied : before.apply msg = .ok last) :
    market.run (messages ++ [msg]) = .ok last := by
  rw [Prototype.Market.run, List.foldlM_append]
  refine except_bind_eq_ok.mpr ⟨before, ran, ?_⟩
  rw [List.foldlM_cons, applied]
  rfl

namespace Market

/-- The messages that the prototype is fed may differ from those the C++ market is fed, as
long as an observation of them agrees. -/
theorem run_simulates {γ : Type} {observe : Prototype.Message → γ}
    (related : Market → Prototype.Market → Prop) {messages : List ItchMsg}
    {seen : List Prototype.Message}
    (same : seen.map observe = messages.map fun msg => observe msg.view) (start : related {} {})
    (step : ∀ earlier msg later before view proto after, messages = earlier ++ msg :: later →
      before.map observe = (earlier.map fun msg => observe msg.view) →
      observe view = observe msg.view → Prototype.Market.run {} before = .ok proto →
      related (run {} earlier) proto → proto.apply view = .ok after →
      related ((run {} earlier).apply msg).1 after)
    {proto : Prototype.Market} (ran : Prototype.Market.run {} seen = .ok proto) :
    related (run {} messages) proto := by
  have reached (earlier later : List ItchMsg) (split : messages = earlier ++ later)
      {before : List Prototype.Message} {proto : Prototype.Market}
      (alike : before.map observe = earlier.map fun msg => observe msg.view)
      (ran : Prototype.Market.run {} before = .ok proto) : related (run {} earlier) proto := by
    -- from the right end: the last message of `earlier` is the step
    induction earlier using List.reverseRecOn generalizing later before proto with
    | nil =>
        rw [List.map_nil, List.map_eq_nil_iff] at alike
        subst alike
        cases ran
        exact start
    | append_singleton earlier msg induction =>
        rw [List.append_assoc, List.singleton_append] at split
        rw [List.map_append, List.map_singleton, List.map_eq_append_iff] at alike
        obtain ⟨front, last, rfl, alikeFront, alikeLast⟩ := alike
        obtain ⟨view, rfl, alikeView⟩ := List.map_eq_singleton_iff.mp alikeLast
        obtain ⟨before, ranFront, applied⟩ := Prototype.Market.run_concat_eq_ok ran
        rw [run_concat]
        exact step earlier msg later front view before proto split alikeFront alikeView ranFront
          (induction (msg :: later) split alikeFront ranFront) applied
  exact reached messages [] (List.append_nil messages).symm same ran

private theorem storeStep_refines {books : OrderBookStore} {proto after : Prototype.OrderBookStore}
    {msg : ItchMsg} {execution : Option Prototype.Execution} (refines : books.Refines proto)
    (stepped : Prototype.Market.storeStep proto msg.view = .ok (after, execution))
    (fits : after.LevelsFit) :
    (storeStep books msg).1.Refines after ∧
      execution = (storeStep books msg).2.map Execution.view := by
  cases msg with
  | addOrder order =>
      simp only [ItchMsg.view, Prototype.Market.storeStep] at stepped
      rw [storeStep]
      by_cases zero : order.orderNumber = 0
      · rw [if_pos (order.view_isReference.mpr zero)] at stepped
        cases stepped
        rw [if_pos zero]
        exact ⟨refines, rfl⟩
      · rw [if_neg (mt order.view_isReference.mp zero)] at stepped
        rw [if_neg zero]
        exact refines.apply stepped fits
  | _ => exact refines.apply stepped fits

structure Refines (market : Market) (proto : Prototype.Market) : Prop where
  books : market.books.Refines proto.books
  tape : market.tape.Refines proto.tape

theorem Refines.apply {market : Market} {proto after : Prototype.Market}
    (refines : market.Refines proto) {msg : ItchMsg} (applied : proto.apply msg.view = .ok after)
    (fits : after.books.LevelsFit) : (market.apply msg).1.Refines after := by
  rcases Prototype.Market.apply_eq_ok applied with ⟨execution, stepped, taped, -⟩
  rcases storeStep_refines refines.books stepped fits with ⟨books, rfl⟩
  refine ⟨apply_books market msg ▸ books, ?_⟩
  rw [apply_tape, taped]
  cases (storeStep market.books msg).2 with
  | none => exact refines.tape
  | some execution => exact refines.tape.record execution _ _ _

end Market

/-! ## Numbers that fit -/

namespace Prototype

def OrderBookStore.counts (store : OrderBookStore) : List Nat :=
  [store.collisions, store.orphanExecutes, store.orphanDeletes, store.orphanReplaces,
    store.refPriceIgnored, store.executedVolume, store.executionCount]

structure Market.Fits (market : Market) : Prop where
  levels : market.books.LevelsFit
  counters : ∀ count ∈ market.books.counts, count < 2 ^ 64
  trades : ∀ orderbookId stats, market.tape.stats.find? orderbookId = some stats →
    stats.tradeCount < 2 ^ 64 ∧ stats.volume < 2 ^ 64 ∧ stats.notional < 2 ^ 64

def OrderBookStore.quantities (store : OrderBookStore) : List Nat :=
  store.books.values.flatMap fun book => book.bids.qty.values ++ book.asks.qty.values

private theorem OrderBookStore.levelsFit_iff (store : OrderBookStore) :
    store.LevelsFit ↔ ∀ qty ∈ store.quantities, qty < 2 ^ 64 := by
  simp only [quantities, List.mem_flatMap, List.mem_append, Dict.mem_values]
  constructor
  · rintro fits qty ⟨book, ⟨orderbookId, found⟩, ⟨price, held⟩ | ⟨price, held⟩⟩
    · apply fits ⟨⟨orderbookId, true⟩, price⟩ qty
      simpa [level?, sideLevels, OrderBookStore.book, found] using held
    · apply fits ⟨⟨orderbookId, false⟩, price⟩ qty
      simpa [level?, sideLevels, OrderBookStore.book, found] using held
  · intro small key qty held
    apply small
    rw [level?, sideLevels, OrderBookStore.book] at held
    cases found : store.books.find? key.bookSide.orderbookId with
    | none =>
        rw [found] at held
        split at held <;> cases held
    | some book =>
        rw [found] at held
        refine ⟨book, ⟨_, found⟩, ?_⟩
        split at held
        · exact Or.inl ⟨_, held⟩
        · exact Or.inr ⟨_, held⟩

instance (market : Market) : Decidable market.Fits :=
  decidable_of_iff
    ((∀ qty ∈ market.books.quantities, qty < 2 ^ 64) ∧
      (∀ count ∈ market.books.counts, count < 2 ^ 64) ∧
      ∀ stats ∈ market.tape.stats.values,
        stats.tradeCount < 2 ^ 64 ∧ stats.volume < 2 ^ 64 ∧ stats.notional < 2 ^ 64)
    (by
      simp only [← OrderBookStore.levelsFit_iff, Dict.mem_values]
      exact ⟨fun ⟨levels, counters, trades⟩ => ⟨levels, counters, fun orderbookId stats found =>
          trades stats ⟨orderbookId, found⟩⟩,
        fun fits => ⟨fits.levels, fits.counters, fun stats ⟨orderbookId, found⟩ =>
          fits.trades orderbookId stats found⟩⟩)

end Prototype

structure BookStats.Agrees (stats : BookStats) (proto : Prototype.BookStats) : Prop where
  tradeCount : stats.tradeCount.toNat = proto.tradeCount
  volume : stats.volume.toNat = proto.volume
  notional : stats.notional.toNat = proto.notional
  lastPrice : stats.lastPrice.map UInt32.toNat = proto.lastPrice
  lastQty : stats.lastQty.map UInt32.toNat = proto.lastQty

structure Market.Agrees (market : Market) (proto : Prototype.Market) : Prop where
  /-- The same order numbers are live, with the same book, group, side, price and
  remaining quantity. -/
  orders : market.books.orders.Refines proto.books.orders
  /-- The same prices hold the same quantities on both sides of every book. -/
  levels : ∀ key : LevelKey,
    proto.books.level? key.view = (market.books.level? key).map (·.qty.toNat)
  knownLevels : ∀ key qty, proto.books.level? key = some qty → ∃ own : LevelKey, own.view = key
  collisions : market.books.collisions.toNat = proto.books.collisions
  orphanExecutes : market.books.orphanExecutes.toNat = proto.books.orphanExecutes
  orphanDeletes : market.books.orphanDeletes.toNat = proto.books.orphanDeletes
  orphanReplaces : market.books.orphanReplaces.toNat = proto.books.orphanReplaces
  refPriceIgnored : market.books.refPriceIgnored.toNat = proto.books.refPriceIgnored
  executedVolume : market.books.executedVolume.toNat = proto.books.executedVolume
  executionCount : market.books.executionCount.toNat = proto.books.executionCount
  /-- The same books have traded, with the same statistics. -/
  trades : ∀ orderbookId : CStr 4, Option.Rel BookStats.Agrees market.tape.stats[orderbookId]?
    (proto.tape.stats.find? orderbookId.bytes)
  knownTrades : ∀ orderbookId stats, proto.tape.stats.find? orderbookId = some stats →
    ∃ own : CStr 4, own.bytes = orderbookId
  /-- The prototype's price lists are strictly ascending and list the keys of the
  quantities. -/
  ascending : proto.books.Ascending

theorem toNat_eq_of_ofNat {word : UInt64} {number : Nat} (same : word = .ofNat number)
    (small : number < 2 ^ 64) : word.toNat = number := by
  rw [same, UInt64.toNat_ofNat_of_lt' small]

private theorem BookStats.agrees_of_trades {stats : BookStats} {proto : Prototype.BookStats}
    (same : proto.trades = stats.trades)
    (small : proto.tradeCount < 2 ^ 64 ∧ proto.volume < 2 ^ 64 ∧ proto.notional < 2 ^ 64) :
    stats.Agrees proto := by
  simp only [Prototype.BookStats.trades, trades, TradeStats.mk.injEq] at same
  rcases same with ⟨tradeCount, volume, notional, lastPrice, lastQty⟩
  exact ⟨toNat_eq_of_ofNat tradeCount.symm small.1,
    toNat_eq_of_ofNat volume.symm small.2.1,
    toNat_eq_of_ofNat notional.symm small.2.2, lastPrice.symm, lastQty.symm⟩

open Prototype.OrderBookStore (counts)

namespace Market

theorem Refines.agrees {market : Market} {proto : Prototype.Market}
    (refines : market.Refines proto) (fits : proto.Fits) : market.Agrees proto := by
  have counters := refines.books.counters
  simp only [OrderBookStore.counters, Prototype.OrderBookStore.counters,
    StoreCounters.mk.injEq] at counters
  rcases counters with ⟨collisions, orphanExecutes, orphanDeletes, orphanReplaces,
    refPriceIgnored, executedVolume, executionCount⟩
  exact
    { orders := refines.books.orders
      levels := refines.books.levels
      knownLevels := refines.books.known
      collisions := toNat_eq_of_ofNat collisions (fits.counters _ (by simp [counts]))
      orphanExecutes := toNat_eq_of_ofNat orphanExecutes (fits.counters _ (by simp [counts]))
      orphanDeletes := toNat_eq_of_ofNat orphanDeletes (fits.counters _ (by simp [counts]))
      orphanReplaces := toNat_eq_of_ofNat orphanReplaces (fits.counters _ (by simp [counts]))
      refPriceIgnored := toNat_eq_of_ofNat refPriceIgnored (fits.counters _ (by simp [counts]))
      executedVolume := toNat_eq_of_ofNat executedVolume (fits.counters _ (by simp [counts]))
      executionCount := toNat_eq_of_ofNat executionCount (fits.counters _ (by simp [counts]))
      trades := fun orderbookId => by
        have same := refines.tape.same orderbookId
        cases held : proto.tape.stats.find? orderbookId.bytes with
        | none =>
            rw [held, Option.map_none, eq_comm, Option.map_eq_none_iff] at same
            rw [same]
            exact .none
        | some stats =>
            rw [held, Option.map_some, eq_comm, Option.map_eq_some_iff] at same
            rcases same with ⟨own, present, equal⟩
            rw [present]
            exact .some (BookStats.agrees_of_trades equal.symm (fits.trades _ stats held))
      knownTrades := refines.tape.known
      ascending := refines.books.ascending }

end Market

/-! ## Runs -/

theorem ItchMsg.view_of_decodes {payloads : List Bytes} {messages : List ItchMsg}
    {seen : List Prototype.Message} (decoded : payloads.mapM decode = .ok messages)
    (accepted : payloads.mapM Prototype.Message.decode = .ok seen)
    (nulFree : ∀ payload ∈ payloads, NulFree payload) : seen = messages.map ItchMsg.view := by
  rw [← List.map_id seen]
  exact mapM_map_congr (fun payload member _ _ accepted decoded =>
    view_of_decode decoded accepted (nulFree payload member)) accepted decoded

namespace Market

/-- Fed payloads that both decoders accept, the markets agree wherever the prototype
gets without raising. -/
theorem agrees_with_prototype {payloads : List Bytes} {messages : List ItchMsg}
    {seen : List Prototype.Message} {proto : Prototype.Market}
    (decoded : payloads.mapM decode = .ok messages)
    (accepted : payloads.mapM Prototype.Message.decode = .ok seen)
    (nulFree : ∀ payload ∈ payloads, NulFree payload)
    (fits : ∀ n reached, Prototype.Market.run {} (seen.take n) = .ok reached → reached.Fits)
    (ran : Prototype.Market.run {} seen = .ok proto) : (run {} messages).Agrees proto := by
  have views := ItchMsg.view_of_decodes decoded accepted nulFree
  subst views
  have last : proto.Fits := by
    apply fits (messages.map ItchMsg.view).length
    rw [List.take_length]
    exact ran
  refine (run_simulates Refines (List.map_id (messages.map ItchMsg.view))
    ⟨OrderBookStore.refines_empty, TradeTape.refines_empty⟩ ?_ ran).agrees last
  intro earlier msg later viewed view before after split same (sameView : view = msg.view) ranBefore
    refines applied
  subst sameView
  rw [List.map_id] at same
  subst same
  have upTo : (messages.map ItchMsg.view).take (earlier.length + 1) =
      earlier.map ItchMsg.view ++ [msg.view] := by
    rw [split, ← List.map_take, List.take_length_add_append, List.map_append]
    rfl
  have ranAfter : Prototype.Market.run {} ((messages.map ItchMsg.view).take (earlier.length + 1)) =
      .ok after := by
    rw [upTo]
    exact Prototype.Market.run_concat_ok ranBefore applied
  exact refines.apply applied (fits _ after ranAfter).levels

def tradedFeed : List Bytes :=
  let number : Bytes := [0, 0, 0, 0, 0, 0, 0, 1]
  [[ascii 'A', 0, 0, 0, 0] ++ number ++ [ascii 'B', 0, 0, 0, 10, ascii '1', ascii '3', ascii '0',
      ascii '1', ascii 'D', ascii 'A', ascii 'Y', space, 0, 0, 3, 232],
    [ascii 'E', 0, 0, 0, 0] ++ number ++ [0, 0, 0, 5] ++ [0, 0, 0, 0, 0, 0, 0, 9],
    [ascii 'D', 0, 0, 0, 0] ++ number, [ascii 'D', 0, 0, 0, 0] ++ number]

def tradedSeen : List Prototype.Message :=
  [.orderAdded
      { ns := 0, orderNumber := 1, side := [ascii 'B'], qty := 10
        orderbookId := [ascii '1', ascii '3', ascii '0', ascii '1']
        group := [ascii 'D', ascii 'A', ascii 'Y'], price := 1000 },
    .orderExecuted 0 1 5 9, .orderDeleted 0 1, .orderDeleted 0 1]

theorem tradedFeed_agrees :
    ∃ messages proto, tradedFeed.mapM decode = .ok messages ∧
      Prototype.Market.run {} tradedSeen = .ok proto ∧ (run {} messages).Agrees proto := by
  have decodes : ∃ messages, tradedFeed.mapM decode = .ok messages :=
    except_exists_of_isOk (by decide +kernel)
  have runs : ∃ proto, Prototype.Market.run {} tradedSeen = .ok proto :=
    except_exists_of_isOk (by decide +kernel)
  rcases decodes with ⟨messages, decoded⟩
  rcases runs with ⟨proto, ran⟩
  have small : ∀ n < 5, ∀ reached ∈ (Prototype.Market.run {} (tradedSeen.take n)).toOption,
      reached.Fits := by
    decide +kernel
  refine ⟨messages, proto, decoded, ran, agrees_with_prototype decoded
    (by decide +kernel : tradedFeed.mapM Prototype.Message.decode = .ok tradedSeen)
    (by decide +kernel) ?_ ran⟩
  intro n reached ranTo
  apply small (min n 4) (by omega)
  have upTo : tradedSeen.take n = tradedSeen.take (min n 4) := List.take_eq_take_min
  rw [← upTo, ranTo]
  rfl

end Market

end ProtoFH
