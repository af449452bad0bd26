import ProtoFH.Fh.Publish
import ProtoFH.Prototype.TickTables

/-! # The published short-sell price

Both implementations compute the short-sell price from the restriction, the last or
else the reference price, the tick direction and the tick table. They keep the same
values for these, except that the C++ tape also tests a trade against the price that
stands for "no price". -/

namespace ProtoFH

theorem toNat_noPrice : noPrice.toNat = Prototype.noPrice := rfl

/-! ## Reference data -/

structure ShortSellTerms where
  restriction : Text
  referencePrice : Option Nat
  tickTableId : Option Nat

def Instrument.terms (inst : Instrument) : ShortSellTerms where
  restriction := charText inst.shortSellState
  referencePrice := inst.referencePrice.map UInt32.toNat
  tickTableId := inst.tickTableId.map UInt32.toNat

def Prototype.Instrument.terms (inst : Prototype.Instrument) : ShortSellTerms where
  restriction := inst.shortSellState
  referencePrice := inst.referencePrice
  tickTableId := inst.tickTableId

namespace RefData

structure Refines (refdata : RefData) (proto : Prototype.RefData) : Prop where
  terms : ∀ orderbookId : CStr 4,
    (proto.instruments.find? orderbookId.bytes).map Prototype.Instrument.terms =
      refdata.instruments[orderbookId]?.map Instrument.terms
  tables : ∀ tableId : UInt32, Option.Rel TickTable.Refines refdata.tickTables[tableId]?
    (proto.tickTables.find? tableId.toNat)

theorem refines_empty : Refines {} {} where
  terms orderbookId := by simp
  tables tableId := by
    have none : ({} : RefData).tickTables[tableId]? = none := by simp
    rw [none]
    exact .none

namespace Refines

variable {refdata : RefData} {proto : Prototype.RefData} (refines : refdata.Refines proto)
include refines

theorem get (orderbookId : CStr 4) :
    (proto.get orderbookId.bytes).terms = (refdata.get orderbookId).terms :=
  observed_get refines.terms orderbookId rfl

theorem modify (orderbookId : CStr 4) {change : Instrument → Instrument}
    {protoChange : Prototype.Instrument → Prototype.Instrument}
    (alike : ∀ inst other, Prototype.Instrument.terms other = Instrument.terms inst →
      (protoChange other).terms = (change inst).terms) :
    (refdata.modify orderbookId change).Refines
      (proto.modify orderbookId.bytes protoChange) where
  terms := observed_modify refines.terms orderbookId (alike _ _ (refines.get orderbookId))
  tables := refines.tables

theorem addTick (tableId priceStart tickSize : UInt32) :
    (refdata.addTick tableId priceStart tickSize).Refines
      (proto.addTick tableId.toNat priceStart.toNat tickSize.toNat) where
  terms := refines.terms
  tables other := by
    have own := refines.tables tableId
    simp only [RefData.addTick, Prototype.RefData.addTick, OrderedMap.lookup_insert,
      Dict.find?_set, UInt32.toNat_inj]
    split
    · refine .some (TickTable.Refines.add ?_ priceStart tickSize)
      generalize refdata.tickTables[tableId]? = table at own
      generalize proto.tickTables.find? tableId.toNat = protoTable at own
      cases own with
      | none => exact TickTable.refines_empty
      | some related => exact related
    · exact refines.tables other

theorem apply (msg : ItchMsg) : (refdata.apply msg).Refines (proto.apply msg.view) := by
  cases msg with
  | directory entry =>
      simp only [ItchMsg.view, Prototype.RefData.apply, RefData.apply]
      refine refines.modify entry.orderbookId fun inst other same => ?_
      simp only [Prototype.Instrument.terms, Instrument.terms, ShortSellTerms.mk.injEq] at same ⊢
      exact ⟨same.1, same.2.1, rfl⟩
  | tickSize ns tableId size priceStart => exact refines.addTick tableId priceStart size
  | tradingState ns orderbookId group state =>
      simp only [ItchMsg.view, Prototype.RefData.apply, RefData.apply]
      exact refines.modify orderbookId fun inst other same => same
  | shortSellState ns orderbookId group state =>
      simp only [ItchMsg.view, Prototype.RefData.apply, RefData.apply]
      refine refines.modify orderbookId fun inst other same => ?_
      simp only [Prototype.Instrument.terms, Instrument.terms, ShortSellTerms.mk.injEq] at same ⊢
      exact ⟨trivial, same.2⟩
  | addOrder order =>
      simp only [ItchMsg.view, Prototype.RefData.apply, RefData.apply]
      by_cases zero : order.orderNumber = 0
      · rw [if_pos zero, if_pos (order.view_isReference.mpr zero)]
        refine refines.modify order.orderbookId fun inst other same => ?_
        simp only [Prototype.Instrument.terms, Instrument.terms, ShortSellTerms.mk.injEq] at same ⊢
        exact ⟨same.1, rfl, same.2.2⟩
      · rw [if_neg zero, if_neg (mt order.view_isReference.mp zero)]
        exact refines
  | systemEvent ns group event => exact ⟨refines.terms, refines.tables⟩
  | _ => exact refines

theorem referencePrice (orderbookId : CStr 4) :
    (proto.instruments.find? orderbookId.bytes).bind Prototype.Instrument.referencePrice =
      (refdata.instruments[orderbookId]?.bind Instrument.referencePrice).map UInt32.toNat := by
  have same := refines.terms orderbookId
  cases found : refdata.instruments[orderbookId]? with
  | none =>
      rw [found, Option.map_none, Option.map_eq_none_iff] at same
      rw [same]
      rfl
  | some inst =>
      rw [found, Option.map_some, Option.map_eq_some_iff] at same
      rcases same with ⟨held, present, equal⟩
      rw [present]
      exact congrArg ShortSellTerms.referencePrice equal

end Refines

theorem refines_unlabelled_iff {refdata : RefData} {proto : Prototype.RefData}
    {msg : Prototype.Message} :
    refdata.Refines (proto.apply msg.unlabelled) ↔ refdata.Refines (proto.apply msg) := by
  have modify (orderbookId : Text) {change other : Prototype.Instrument → Prototype.Instrument}
      (same : ∀ inst, (change inst).terms = (other inst).terms) :
      refdata.Refines (proto.modify orderbookId change) ↔
        refdata.Refines (proto.modify orderbookId other) := by
    have terms (own : CStr 4) :
        ((proto.modify orderbookId change).instruments.find? own.bytes).map
            Prototype.Instrument.terms =
          ((proto.modify orderbookId other).instruments.find? own.bytes).map
            Prototype.Instrument.terms := by
      simp only [Prototype.RefData.modify, Dict.find?_set]
      split
      · exact congrArg some (same _)
      · rfl
    exact ⟨fun refines => ⟨fun own => (terms own).symm.trans (refines.terms own), refines.tables⟩,
      fun refines => ⟨fun own => (terms own).trans (refines.terms own), refines.tables⟩⟩
  cases msg with
  | orderbookDirectory | tradingState | shortSellRestriction =>
      simp only [Prototype.Message.unlabelled, Prototype.Message.relabel, Prototype.RefData.apply]
      exact modify _ fun _ => rfl
  | orderAdded order =>
      change refdata.Refines (if order.orderNumber = 0 then _ else _) ↔
        refdata.Refines (if order.orderNumber = 0 then _ else _)
      split
      · exact modify _ fun _ => rfl
      · rfl
  | systemEvent ns group event =>
      exact ⟨fun refines => ⟨refines.terms, refines.tables⟩,
        fun refines => ⟨refines.terms, refines.tables⟩⟩
  | _ => rfl

end RefData

/-! ## Tick directions -/

namespace BookStats

structure SameTick (stats : BookStats) (proto : Prototype.BookStats) : Prop where
  hasLast : stats.hasLast = stats.lastPrice.isSome
  lastPrice : proto.lastPrice = stats.lastPrice.map UInt32.toNat
  uptick : proto.uptick = stats.uptick

private theorem sameTick_empty : SameTick {} {} := ⟨rfl, rfl, rfl⟩

def TestKnown (stats : BookStats) (price : UInt32) (basePrice : Option UInt32) : Prop :=
  stats.lastPrice.or basePrice = some noPrice → stats.tickTest price basePrice = stats.uptick

variable {stats : BookStats} {proto : Prototype.BookStats}

private theorem tickTest_eq (hasLast : stats.hasLast = stats.lastPrice.isSome) (price : UInt32)
    (basePrice : Option UInt32) :
    stats.tickTest price basePrice =
      match stats.lastPrice.or basePrice with
      | none => stats.uptick
      | some effectiveLtp =>
          if price > effectiveLtp then true
          else if price < effectiveLtp then false
          else stats.uptick := by
  rw [tickTest, hasLast]
  cases stats.lastPrice <;> rfl

theorem SameTick.tickTest (same : stats.SameTick proto) {price : UInt32}
    {basePrice : Option UInt32} (known : stats.TestKnown price basePrice) :
    proto.tickTest price.toNat (basePrice.map UInt32.toNat) = stats.tickTest price basePrice := by
  have effective : proto.lastPrice.or (basePrice.map UInt32.toNat) =
      (stats.lastPrice.or basePrice).map UInt32.toNat := by
    rw [same.lastPrice, Option.map_or]
  have test := tickTest_eq same.hasLast price basePrice
  rw [Prototype.BookStats.tickTest, effective]
  cases ltp : stats.lastPrice.or basePrice with
  | none =>
      rw [ltp] at test
      rw [test]
      exact same.uptick
  | some effectiveLtp =>
      rw [ltp] at test
      by_cases unknown : effectiveLtp = noPrice
      · rw [unknown] at ltp ⊢
        rw [known ltp]
        exact same.uptick
      · have real : effectiveLtp.toNat ≠ Prototype.noPrice := fun equal =>
          unknown (UInt32.toNat_inj.mp equal)
        simp only [Option.map_some, real, if_false, test, gt_iff_lt, UInt32.lt_iff_toNat_lt,
          same.uptick]

theorem SameTick.record (same : stats.SameTick proto) {execution : Execution}
    {other : Prototype.Execution} (price : other.price = execution.price.toNat)
    {basePrice : Option UInt32} (known : stats.TestKnown execution.price basePrice) :
    (stats.record execution basePrice).SameTick
      (proto.record other (basePrice.map UInt32.toNat)) where
  hasLast := rfl
  lastPrice := congrArg some price
  uptick := by
    rw [Prototype.BookStats.record, price]
    exact same.tickTest known

end BookStats

def TradeTape.SameTicks (tape : TradeTape) (proto : Prototype.TradeTape) (ticker : CStr 4) :
    Prop :=
  Option.Rel BookStats.SameTick tape.stats[ticker]? (proto.stats.find? ticker.bytes)

theorem TradeTape.SameTicks.record {tape : TradeTape} {proto : Prototype.TradeTape}
    {ticker : CStr 4} (same : tape.SameTicks proto ticker) {execution : Execution}
    {other : Prototype.Execution} (own : other.orderbookId = execution.orderbookId.bytes)
    (price : other.price = execution.price.toNat) {basePrice : Option UInt32}
    (known : execution.orderbookId = ticker →
      (tape.statsOf ticker).TestKnown execution.price basePrice) (timestamp : Nat) :
    (tape.record execution basePrice).SameTicks
      (proto.record other timestamp (basePrice.map UInt32.toNat)) ticker := by
  simp only [SameTicks, Prototype.TradeTape.record, TradeTape.record, Dict.find?_set,
    OrderedMap.lookup_insert, own, CStr.bytes_inj]
  split
  · next isTicker =>
      rw [isTicker]
      refine .some (BookStats.SameTick.record ?_ price (known isTicker))
      rw [SameTicks] at same
      rw [TradeTape.statsOf, Prototype.TradeTape.statsOf]
      generalize tape.stats[ticker]? = stats at same
      generalize proto.stats.find? ticker.bytes = protoStats at same
      cases same with
      | none => exact BookStats.sameTick_empty
      | some related => exact related
  · exact same

/-! ## Markets -/

namespace Market

structure Tracks (ticker : CStr 4) (market : Market) (proto : Prototype.Market) : Prop where
  orders : ∃ viewed, market.books.orders.Refines viewed ∧
    Prototype.Orders.Alike proto.books.orders viewed
  refdata : market.refdata.Refines proto.refdata
  ticks : market.tape.SameTicks proto.tape ticker

private theorem tracks_empty (ticker : CStr 4) : Tracks ticker {} {} where
  orders := ⟨_, OrderBookStore.refines_empty.orders, .refl _⟩
  refdata := RefData.refines_empty
  ticks := by
    have none : ({} : Market).tape.stats[ticker]? = none := by simp
    rw [TradeTape.SameTicks, none]
    exact .none

/-- The trade that a message makes in the book, if any, is tested against a price, or its
test changes nothing. -/
def TestKnown (market : Market) (ticker : CStr 4) (msg : ItchMsg) : Prop :=
  ∀ execution ∈ (storeStep market.books msg).2, execution.orderbookId = ticker →
    (market.tape.statsOf ticker).TestKnown execution.price (market.basePrice ticker)

private theorem execution_view {orders : Prototype.Orders} {books : OrderBookStore}
    (refines : books.orders.Refines orders) (msg : ItchMsg) :
    orders.execution msg.view = (storeStep books msg).2.map Execution.view := by
  rw [storeStep_execution]
  cases msg with
  | executed ns orderNumber executedQty matchNumber =>
      simp only [ItchMsg.view, Prototype.Orders.execution, refines.same]
      cases books.orders.find? orderNumber with
      | none => rfl
      | some order =>
          simp only [Option.map_some, OrderBookStore.clampedQty_view]
          rfl
  | _ => rfl

variable {market : Market} {proto after : Prototype.Market} {ticker : CStr 4}
  (tracks : Tracks ticker market proto) {msg : ItchMsg} {seen : Prototype.Message}
  (same : seen.unlabelled = msg.view.unlabelled)
include tracks same

theorem Tracks.execution :
    (Prototype.Orders.execution proto.books.orders seen).map (fun execution =>
        (execution.orderbookId, execution.price)) =
      (storeStep market.books msg).2.map fun execution =>
        (execution.orderbookId.bytes, execution.price.toNat) := by
  obtain ⟨viewed, refines, alike⟩ := tracks.orders
  rw [alike.execution, same, ← (Prototype.Orders.Alike.refl viewed).execution,
    execution_view refines, Option.map_map]
  rfl

theorem Tracks.apply (known : market.TestKnown ticker msg)
    (applied : proto.apply seen = .ok after) :
    Tracks ticker (market.apply msg).1 after := by
  rcases Prototype.Market.apply_eq_ok applied with ⟨execution, stepped, taped, referenced, -⟩
  have executions := tracks.execution same
  obtain ⟨viewed, refines, alike⟩ := tracks.orders
  refine ⟨⟨viewed.apply msg.view, ?_, ?_⟩, ?_, ?_⟩
  · rw [apply_orders]
    exact refines.apply msg
  · rw [Prototype.Market.apply_books applied (alike.keyed refines.keyed)]
    have alikeView := (Prototype.Orders.Alike.refl viewed).apply msg.view
    rw [← same] at alikeView
    exact fun orderNumber => (alike.apply seen orderNumber).trans (alikeView orderNumber).symm
  · rw [apply_refdata, referenced, ← RefData.refines_unlabelled_iff, same,
      RefData.refines_unlabelled_iff]
    exact tracks.refdata.apply msg
  · rw [apply_tape, taped, Prototype.Market.storeStep_execution stepped]
    cases traded : (storeStep market.books msg).2 with
    | none =>
        rw [traded, Option.map_none, Option.map_eq_none_iff] at executions
        rw [executions]
        exact tracks.ticks
    | some execution =>
        rw [traded, Option.map_some, Option.map_eq_some_iff] at executions
        obtain ⟨other, reported, equal⟩ := executions
        obtain ⟨own, price⟩ := Prod.ext_iff.mp equal
        dsimp only at own price
        have base : proto.basePrice other.orderbookId = _ :=
          own ▸ tracks.refdata.referencePrice execution.orderbookId
        rw [reported]
        simp only [Prototype.Market.tapeStep, base]
        refine tracks.ticks.record own price (fun isTicker => ?_) _
        have tested := known execution traded isTicker
        rwa [← isTicker] at tested ⊢

end Market

/-! ## Short-sell prices -/

/-- A tick that may be added to a last price: nothing is added to "no price", and the
sum fits in 32 bits. -/
def TickFits (ltp tick : UInt32) : Prop :=
  if ltp = noPrice then tick = 0 else ltp.toNat + tick.toNat < 2 ^ 32

private theorem add_tick_eq_iff (ltp tick : UInt32) :
    (ltp + tick).toNat =
        (if ltp.toNat = Prototype.noPrice then Prototype.noPrice else ltp.toNat + tick.toNat) ↔
      TickFits ltp tick := by
  have unknown : ltp.toNat = Prototype.noPrice ↔ ltp = noPrice := UInt32.toNat_inj (b := noPrice)
  rw [TickFits]
  by_cases none : ltp = noPrice
  · rw [if_pos (unknown.mpr none), if_pos none, none, ← toNat_noPrice, UInt32.toNat_inj]
    simp
  · have ltpSmall := ltp.toNat_lt
    have tickSmall := tick.toNat_lt
    rw [if_neg (mt unknown.mp none), if_neg none, UInt32.toNat_add]
    omega

theorem computeSsp_eq_iff {restricted : UInt8} {basePrice lastPrice : Option UInt32}
    {uptick : Bool} {ticks : Option TickTable} {protoTicks : Option Prototype.TickTable}
    (same : ∀ price : UInt32, protoTicks.bind (·.tickSize price.toNat) =
      (ticks.bind (·.tickSize price)).map UInt32.toNat) :
    (computeSsp restricted basePrice lastPrice lastPrice.isSome uptick ticks).toNat =
        Prototype.computeSsp (charText restricted) (basePrice.map UInt32.toNat)
          (lastPrice.map UInt32.toNat) uptick protoTicks ↔
      (restricted = ascii '1' → ∀ ltp, lastPrice.or basePrice = some ltp → uptick = false →
        ∀ tick, ticks.bind (·.tickSize ltp) = some tick → TickFits ltp tick) := by
  have flag : charText restricted = [ascii '1'] ↔ restricted = ascii '1' :=
    charText_eq_iff (by decide)
  have effective : (if lastPrice.isSome then lastPrice else basePrice) =
      lastPrice.or basePrice := by
    cases lastPrice <;> rfl
  rw [computeSsp, Prototype.computeSsp, effective, ← Option.map_or]
  by_cases free : restricted ≠ ascii '1'
  · rw [if_pos free, if_pos (mt flag.mp free)]
    exact ⟨fun _ restriction => absurd restriction free, fun _ => rfl⟩
  · rw [if_neg free, if_neg (by rw [not_not] at free ⊢; exact flag.mpr free)]
    rw [not_not] at free
    cases known : lastPrice.or basePrice with
    | none => simp [toNat_noPrice]
    | some ltp =>
        simp only [Option.map_some, same, free, true_imp_iff, Option.some_inj, forall_eq']
        cases uptick with
        | true =>
            simp only [if_true, Bool.true_eq_false, false_imp_iff, iff_true]
            split
            · assumption
            · rfl
        | false =>
            cases ticks.bind (·.tickSize ltp) with
            | none => simp [toNat_noPrice]
            | some tick => simpa using add_tick_eq_iff ltp tick

namespace Market

def SspExact (market : Market) (ticker : CStr 4) (inst : Instrument) : Prop :=
  inst.shortSellState = ascii '1' →
    ∀ ltp, (market.tape.stats[ticker]?.bind BookStats.lastPrice).or inst.referencePrice =
      some ltp →
    market.tape.stats[ticker]?.any BookStats.uptick = false →
    ∀ tick, (inst.tickTableId.bind (market.refdata.tickTables[·]?)).bind (·.tickSize ltp) =
      some tick →
    TickFits ltp tick

theorem Tracks.shortSellPrice_iff {market : Market} {proto : Prototype.Market}
    {ticker : CStr 4} (tracks : Tracks ticker market proto) {inst : Instrument}
    (found : market.refdata.instruments[ticker]? = some inst) :
    ∃ protoInst, proto.refdata.instruments.find? ticker.bytes = some protoInst ∧
      ((shortSellPrice market ticker inst).toNat = proto.shortSellPrice ticker.bytes protoInst ↔
        market.SspExact ticker inst) := by
  have terms := tracks.refdata.terms ticker
  rw [found, Option.map_some, Option.map_eq_some_iff] at terms
  rcases terms with ⟨protoInst, present, equal⟩
  simp only [Prototype.Instrument.terms, Instrument.terms, ShortSellTerms.mk.injEq] at equal
  rcases equal with ⟨restriction, referencePrice, tickTableId⟩
  refine ⟨protoInst, present, ?_⟩
  have ticks := tracks.ticks
  rw [TradeTape.SameTicks] at ticks
  have tables (price : UInt32) :
      (protoInst.tickTableId.bind (proto.refdata.tickTables.find? ·)).bind
          (·.tickSize price.toNat) =
        ((inst.tickTableId.bind (market.refdata.tickTables[·]?)).bind (·.tickSize price)).map
          UInt32.toNat := by
    rw [tickTableId]
    cases inst.tickTableId with
    | none => rfl
    | some tableId =>
        have table := tracks.refdata.tables tableId
        simp only [Option.map_some, Option.bind_some]
        generalize market.refdata.tickTables[tableId]? = own at table
        generalize proto.refdata.tickTables.find? tableId.toNat = other at table
        cases table with
        | none => rfl
        | some related => exact related.tickSize price
  rw [shortSellPrice, Prototype.Market.shortSellPrice, SspExact, restriction, referencePrice]
  generalize market.tape.stats[ticker]? = stats at ticks
  generalize proto.tape.stats.find? ticker.bytes = protoStats at ticks
  cases ticks with
  | none => exact computeSsp_eq_iff tables
  | some same =>
      simp only [Option.bind_some, Option.any_some, same.hasLast, same.lastPrice, same.uptick]
      exact computeSsp_eq_iff tables

private theorem testKnown_of_type (market : Market) (ticker : CStr 4) {msg : ItchMsg}
    (other : msg.type ≠ ascii 'E') : market.TestKnown ticker msg := by
  intro execution traded
  rw [storeStep_execution] at traded
  cases msg with
  | executed ns orderNumber executedQty matchNumber => exact absurd rfl other
  | _ => cases traded

/-- Where every trade of the book was tested against a price, its published short-sell
price is the prototype's exactly when the tick, where one is added, fits. -/
theorem published_ssp_iff {payloads : List Bytes} {messages : List ItchMsg}
    {seen : List Prototype.Message} {proto : Prototype.Market}
    (decoded : payloads.mapM decode = .ok messages)
    (accepted : payloads.mapM Prototype.Message.decode = .ok seen)
    (nulFree : ∀ payload ∈ payloads, NulFreeIn idFields payload)
    (ran : Prototype.Market.run {} seen = .ok proto)
    {res : ApplyResult} {inst : Instrument} (named : res.ticker ≠ .empty)
    (known : ∀ earlier msg later, messages = earlier ++ msg :: later →
      (run {} earlier).TestKnown res.ticker msg)
    (found : (run {} messages).refdata.instruments[res.ticker]? = some inst)
    (ctx : PubContext) (env : Envelope) :
    ∃ protoInst, proto.refdata.instruments.find? res.ticker.bytes = some protoInst ∧
      ((makeUpdate (run {} messages) ctx res env).state.shortSellPrice.toNat =
          proto.shortSellPrice res.ticker.bytes protoInst ↔
        (run {} messages).SspExact res.ticker inst) := by
  have views : seen.map Prototype.Message.unlabelled =
      messages.map fun msg => msg.view.unlabelled :=
    mapM_map_congr (fun payload member _ _ accepted decoded =>
      ItchMsg.relabel_of_decode decoded accepted (nulFree payload member)
        fun _ _ _ _ => rfl) accepted decoded
  have tracks : Tracks res.ticker (run {} messages) proto := by
    refine run_simulates (Tracks res.ticker) views (tracks_empty res.ticker) ?_ ran
    intro earlier msg later _ view before after split _ same _ tracks applied
    exact tracks.apply same (known earlier msg later split) applied
  have published : (makeUpdate (run {} messages) ctx res env).state.shortSellPrice =
      shortSellPrice (run {} messages) res.ticker inst := by
    rw [makeUpdate, byTicker, if_neg named, found]
    rfl
  rw [published]
  exact tracks.shortSellPrice_iff found

/-- Book `1301` gets a tick table with ticks of 5, a short-sell restriction and a
reference price. -/
def restrictedFeed (referencePrice : Bytes) : List Bytes :=
  let ns : Bytes := [0, 0, 0, 0]
  let orderbookId : Bytes := [ascii '1', ascii '3', ascii '0', ascii '1']
  let group : Bytes := [ascii 'D', ascii 'A', ascii 'Y', space]
  [[ascii 'L'] ++ ns ++ [0, 0, 0, 1] ++ [0, 0, 0, 5] ++ [0, 0, 0, 0],
    [ascii 'R'] ++ ns ++ orderbookId ++ List.replicate 12 (ascii 'X') ++ group ++
      [0, 0, 0, 100] ++ [0, 0, 0, 1] ++ [0, 0, 0, 1] ++ [0, 0, 78, 32] ++ [0, 0, 0, 10],
    [ascii 'Y'] ++ ns ++ orderbookId ++ group ++ [ascii '1'],
    [ascii 'A'] ++ ns ++ List.replicate 8 0 ++ [ascii 'B'] ++ [0, 0, 0, 0] ++ orderbookId ++
      group ++ referencePrice]

def restrictedTicker : CStr 4 := .copy 4 [ascii '1', ascii '3', ascii '0', ascii '1']

def restrictedPrices (referencePrice : Bytes) : Option (Nat × Nat) := do
  let messages ← ((restrictedFeed referencePrice).mapM decode).toOption
  let seen ← ((restrictedFeed referencePrice).mapM Prototype.Message.decode).toOption
  let proto ← (Prototype.Market.run {} seen).toOption
  let protoInst ← proto.refdata.instruments.find? restrictedTicker.bytes
  let update := makeUpdate (run {} messages) {} { ticker := restrictedTicker } {}
  return (update.state.shortSellPrice.toNat, proto.shortSellPrice restrictedTicker.bytes protoInst)

/-- With the reference price "no price", a tick is added to it. -/
theorem unpriced_diverges :
    restrictedPrices [127, 255, 255, 255] = some (0x7FFFFFFF + 5, Prototype.noPrice) := by
  decide +kernel

def pricedMessages : List ItchMsg :=
  ((restrictedFeed [0, 0, 3, 232]).mapM decode).toOption.getD []

def pricedSeen : List Prototype.Message :=
  ((restrictedFeed [0, 0, 3, 232]).mapM Prototype.Message.decode).toOption.getD []

def pricedInstrument : Instrument where
  orderbookId := restrictedTicker
  isin := .copy 12 (List.replicate 12 (ascii 'X'))
  group := .copy 4 [ascii 'D', ascii 'A', ascii 'Y']
  roundLot := some 100
  tickTableId := some 1
  priceDecimals := some 1
  upperLimit := some 20000
  lowerLimit := some 10
  shortSellState := ascii '1'
  referencePrice := some 1000
  directoryMissing := false

theorem priced_exact : (run {} pricedMessages).SspExact restrictedTicker pricedInstrument := by
  intro restricted ltp known down tick ticked
  have ltp_eq : (((run {} pricedMessages).tape.stats[restrictedTicker]?.bind
      BookStats.lastPrice).or pricedInstrument.referencePrice) = some 1000 := by
    decide +kernel
  rw [ltp_eq] at known
  cases known
  have tick_eq : ((pricedInstrument.tickTableId.bind
      ((run {} pricedMessages).refdata.tickTables[·]?)).bind (·.tickSize 1000)) = some 5 := by
    decide +kernel
  rw [tick_eq] at ticked
  cases ticked
  rw [TickFits]
  decide

theorem priced_agrees :
    ∃ (proto : Prototype.Market) (protoInst : Prototype.Instrument),
      Prototype.Market.run {} pricedSeen = .ok proto ∧
      proto.refdata.instruments.find? restrictedTicker.bytes = some protoInst ∧
      let update := makeUpdate (run {} pricedMessages) {} { ticker := restrictedTicker } {}
      update.state.shortSellPrice.toNat =
        proto.shortSellPrice restrictedTicker.bytes protoInst := by
  have found : (run {} pricedMessages).refdata.instruments[restrictedTicker]? =
      some pricedInstrument := by
    decide +kernel
  have noTrades : ∀ msg ∈ pricedMessages, msg.type ≠ ascii 'E' := by decide +kernel
  have runs : ∃ proto, Prototype.Market.run {} pricedSeen = .ok proto :=
    except_exists_of_isOk (by decide +kernel)
  rcases runs with ⟨proto, ran⟩
  rcases published_ssp_iff
    (by decide +kernel : (restrictedFeed [0, 0, 3, 232]).mapM decode = .ok pricedMessages)
    (by decide +kernel :
      (restrictedFeed [0, 0, 3, 232]).mapM Prototype.Message.decode = .ok pricedSeen)
    (by decide +kernel) ran
    (show ({ ticker := restrictedTicker } : ApplyResult).ticker ≠ .empty by decide)
    (fun earlier msg later split => testKnown_of_type _ _ (noTrades msg (by simp [split])))
    found {} {} with ⟨protoInst, present, same⟩
  exact ⟨proto, protoInst, ran, present, same.mpr priced_exact⟩

end Market

end ProtoFH
