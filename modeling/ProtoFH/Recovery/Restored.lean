import ProtoFH.Foundation.Execution
import ProtoFH.Market.LevelTotals
import ProtoFH.Recovery.Dump

/-! # What recovery rebuilds, entry by entry

The market restored from given tables, read through its lookups: each order, each
price level, each tick row, and per ticker the trades and the states. Tickers have
one entry in the market but may have several rows in the tables, one per group; the
last row in key order decides. -/

namespace ProtoFH

/-! ## Tick rows -/

theorem mem_tickRows {tables : List (UInt32 × OrderedMap UInt32 UInt32)}
    {lookup : UInt32 → Option (OrderedMap UInt32 UInt32)}
    (listed : ∀ table rows, (table, rows) ∈ tables ↔ lookup table = some rows) {rec : TickRecord} :
    rec ∈ tickRows tables ↔
      (lookup rec.tableId).bind (·[rec.priceStart]?) = some rec.tickSize := by
  simp only [tickRows, List.mem_flatMap, List.mem_map, Option.bind_eq_some_iff]
  constructor
  · rintro ⟨⟨table, rows⟩, member, ⟨start, size⟩, row, rfl⟩
    exact ⟨rows, (listed table rows).mp member, OrderedMap.mem_toList.mp row⟩
  · rintro ⟨rows, found, row⟩
    exact ⟨(rec.tableId, rows), (listed _ _).mpr found, (rec.priceStart, rec.tickSize),
      OrderedMap.mem_toList.mpr row, rfl⟩

theorem read_tickRows {tables : List (UInt32 × OrderedMap UInt32 UInt32)}
    {lookup : UInt32 → Option (OrderedMap UInt32 UInt32)}
    (listed : ∀ table rows, (table, rows) ∈ tables ↔ lookup table = some rows)
    (table start : UInt32) (read : σ → Option UInt32) {step : σ → TickRecord → σ}
    (steps : ∀ state rec, read (step state rec) =
      if rec.tableId = table ∧ rec.priceStart = start then some rec.tickSize else read state)
    (init : σ) :
    read ((tickRows tables).foldl step init) =
      ((lookup table).bind (·[start]?)).or (read init) := by
  let write (rec : TickRecord) : Option UInt32 :=
    if rec.tableId = table ∧ rec.priceStart = start then some rec.tickSize else none
  have writes (state : σ) (rec : TickRecord) :
      read (step state rec) = (write rec).or (read state) := by
    rw [steps]
    by_cases here : rec.tableId = table ∧ rec.priceStart = start <;> simp [write, here]
  rw [read_foldl read writes]
  congr 1
  -- What is written for this row is what the tables hold for it.
  have held (rec : TickRecord) (member : rec ∈ tickRows tables) (size : UInt32)
      (wrote : write rec = some size) : (lookup table).bind (·[start]?) = some size := by
    by_cases here : rec.tableId = table ∧ rec.priceStart = start
    · rw [show write rec = some rec.tickSize from if_pos here] at wrote
      rw [← here.1, ← here.2, ← wrote]
      exact (mem_tickRows listed).mp member
    · rw [show write rec = none from if_neg here] at wrote
      cases wrote
  cases found : (lookup table).bind (·[start]?) with
  | none =>
      rw [lastWrite_eq_none_iff]
      intro rec member
      cases wrote : write rec with
      | none => rfl
      | some size => rw [held rec member size wrote] at found; cases found
  | some size =>
      have row : ({ tableId := table, priceStart := start, tickSize := size } : TickRecord) ∈
          tickRows tables := (mem_tickRows listed).mpr found
      apply lastWrite_eq_some row (by simp [write])
      intro rec member other wrote
      have same := held rec member other wrote
      rw [found] at same
      exact (Option.some.inj same).symm

namespace Tables

def tickRow (tables : Tables) (table start : UInt32) : Option UInt32 :=
  tables.ticks[table]?.bind (·[start]?)

private theorem foldl_rowRefdata_tickTables (rows : List UpdateRecord) (refdata : RefData) :
    (rows.foldl UpdateRecord.rowRefdata refdata).tickTables = refdata.tickTables := by
  induction rows generalizing refdata with
  | nil => rfl
  | cons row rows induction =>
      rw [List.foldl_cons, induction]
      unfold UpdateRecord.rowRefdata UpdateRecord.restoreInstrument
      split
      · rfl
      · split <;> rfl

theorem restored_tickRow (tables : Tables) (table start : UInt32) :
    tables.restored.market.refdata.tickRow table start = tables.tickRow table start := by
  have rows : tables.restored.market.refdata.tickRow table start =
      ((tickRows tables.ticks.toList).foldl RefData.tickRecord {}).tickRow table start := by
    have same : tables.restored.market.refdata.tickTables = _ :=
      foldl_rowRefdata_tickTables tables.rows _
    rw [RefData.tickRow, same]
    rfl
  have listed (id : UInt32) (rows : OrderedMap UInt32 UInt32) :
      (id, rows) ∈ tables.ticks.toList ↔ tables.ticks[id]? = some rows := OrderedMap.mem_toList
  have written := read_tickRows listed table start
    (fun refdata : RefData => refdata.tickRow table start)
    (fun refdata rec => refdata.tickRow_addTick rec.tableId rec.priceStart rec.tickSize table start)
    {}
  have empty : ({} : RefData).tickRow table start = none := by simp [RefData.tickRow]
  rw [empty, Option.or_none] at written
  exact rows.trans written

/-! ## Orders and levels -/

theorem restored_order (tables : Tables) (orderNumber : UInt64) :
    tables.restored.market.books.orders.find? orderNumber =
      (tables.orders.find? orderNumber).map fun rec => rec.wired.toOrder := by
  have orders (recs : List OrderRecord) (store : OrderBookStore) :
      (recs.foldl OrderBookStore.orderRecord store).orders =
        recs.foldl (fun map rec => map.insert rec.wired.toOrder) store.orders := by
    induction recs generalizing store with
    | nil => rfl
    | cons rec recs induction => exact induction _
  have restored : tables.restored.market.books.orders = _ := orders tables.orders.values {}
  rw [restored]
  exact KeyedMap.find?_foldl_values tables.orders (fun rec => rec.wired.toOrder) (fun _ => rfl)
    orderNumber

theorem restored_levelsSummed (tables : Tables) :
    tables.restored.market.books.LevelsSummed := by
  have books : tables.restored.market.books =
      (tables.orders.values.map fun rec => rec.wired.toOrder).foldl
        OrderBookStore.restoreOrder {} := by
    rw [List.foldl_map]
    rfl
  rw [books]
  apply OrderBookStore.levelsSummed_empty.restoreAll
  · rw [List.map_map]
    exact tables.orders.nodup_keys
  · intro order member
    exact KeyedMap.find?_empty _

end Tables

/-! ## Trades -/

structure TradeSummary where
  tradeCount : UInt64
  volume : UInt64
  notional : UInt64
  lastPrice : Option UInt32
  lastQty : Option UInt32
  lastMatchNumber : UInt64
deriving DecidableEq

def BookStats.summary (stats : BookStats) : TradeSummary where
  tradeCount := stats.tradeCount
  volume := stats.volume
  notional := stats.notional
  lastPrice := stats.lastPrice
  lastQty := stats.lastQty
  lastMatchNumber := stats.lastMatchNumber

private theorem toUInt64_toUInt32 {count : UInt64} (small : count.toNat < 2 ^ 32) :
    count.toUInt32.toUInt64 = count := by
  rw [← UInt64.toNat_inj, UInt32.toNat_toUInt64, UInt64.toNat_toUInt32, Nat.mod_eq_of_lt small]

def TradeSection.stats (trade : TradeSection) : BookStats where
  tradeCount := trade.tradeCount.toUInt64
  volume := trade.cumQty
  notional := trade.cumTurnover
  lastPrice := some trade.lastPrice
  lastQty := some trade.lastQty
  lastMatchNumber := trade.lastMatchNumber
  hasLast := true
  uptick := false

theorem tradeSection_summary {stats : BookStats} (price : stats.lastPrice.isSome)
    (qty : stats.lastQty.isSome) (few : stats.tradeCount.toNat < 2 ^ 32) (ctx : PubContext)
    (ticker : CStr 4) : (tradeSection ctx ticker (some stats)).stats.summary = stats.summary := by
  rcases Option.isSome_iff_exists.mp price with ⟨lastPrice, priceKnown⟩
  rcases Option.isSome_iff_exists.mp qty with ⟨lastQty, qtyKnown⟩
  simp [tradeSection, TradeSection.stats, BookStats.summary, toUInt64_toUInt32 few, priceKnown,
    qtyKnown]

namespace Tables

def tradesIn (ticker : CStr 4) (key : RowKey) (row : BookRow) : Option BookStats :=
  if key.ticker.trimmed = ticker ∧ ticker ≠ .empty ∧ row.trade.tradeCount > 0 then
    some row.trade.stats
  else none

theorem restored_stats (tables : Tables) (ticker : CStr 4) :
    tables.restored.market.tape.stats[ticker]? =
      OrderedMap.lastWhere tables.books (tradesIn ticker) := by
  have steps (tape : TradeTape) (entry : RowKey × BookRow) :
      ((dumpRow entry).rowTape tape).stats[ticker]? =
        (tradesIn ticker entry.1 entry.2).or tape.stats[ticker]? := by
    have name : (dumpRow entry).envelope.ticker = entry.1.ticker.trimmed := rfl
    have trade : (dumpRow entry).trade = entry.2.trade := rfl
    unfold UpdateRecord.rowTape UpdateRecord.restoreTrades tradesIn
    rw [name, trade]
    by_cases blank : entry.1.ticker.trimmed = .empty
    · rw [if_pos blank, if_neg]
      · rfl
      · rintro ⟨own, named, -⟩
        exact named (own ▸ blank)
    · rw [if_neg blank]
      by_cases traded : entry.2.trade.tradeCount > 0
      · rw [if_pos traded, TradeTape.restoreStats, OrderedMap.lookup_insert]
        by_cases own : entry.1.ticker.trimmed = ticker
        · rw [if_pos own, if_pos ⟨own, own ▸ blank, traded⟩]
          rfl
        · rw [if_neg own, if_neg (fun both => own both.1)]
          rfl
      · rw [if_neg traded, if_neg (fun all => traded all.2.2)]
        rfl
  rw [restored_tape]
  refine (read_foldl (fun tape : TradeTape => tape.stats[ticker]?) steps
    tables.books.toList {}).trans ?_
  simp [OrderedMap.lastWhere]

/-! ## States -/

/-- A state that recovery takes over: not NUL and not the `?` of an unknown one. -/
def StateKnown (state : UInt8) : Prop := state ≠ 0 ∧ state ≠ ascii '?'

instance (state : UInt8) : Decidable (StateKnown state) :=
  inferInstanceAs (Decidable (_ ∧ _))

private theorem restore_states (inst : Instrument) (group : CStr 4) (static : StaticSection)
    (directorySeen : Bool) (tradingState shortSellState : UInt8)
    (referencePrice : Option UInt32) :
    (inst.restore group static directorySeen tradingState shortSellState
        referencePrice).tradingState =
        (if StateKnown tradingState then tradingState else inst.tradingState) ∧
      (inst.restore group static directorySeen tradingState shortSellState
        referencePrice).shortSellState =
        if StateKnown shortSellState then shortSellState else inst.shortSellState := by
  cases directorySeen <;> exact ⟨rfl, rfl⟩

def stateIn (field : StateSection → UInt8) (ticker : CStr 4) (key : RowKey) (row : BookRow) :
    Option UInt8 :=
  if key.ticker.trimmed = ticker ∧ ticker ≠ .empty ∧ StateKnown (field row.state) then
    some (field row.state)
  else none

theorem stateIn_known {field : StateSection → UInt8} {ticker : CStr 4} {key : RowKey}
    {row : BookRow} {state : UInt8} (found : stateIn field ticker key row = some state) :
    StateKnown state := by
  unfold stateIn at found
  split at found
  · next own => rw [← Option.some.inj found]; exact own.2.2
  · cases found

theorem rowRefdata_get (refdata : RefData) (entry : RowKey × BookRow) (ticker : CStr 4) :
    (((dumpRow entry).rowRefdata refdata).get ticker).tradingState =
        (stateIn StateSection.tradingState ticker entry.1 entry.2).getD
          (refdata.get ticker).tradingState ∧
      (((dumpRow entry).rowRefdata refdata).get ticker).shortSellState =
        (stateIn StateSection.shortSellRestriction ticker entry.1 entry.2).getD
          (refdata.get ticker).shortSellState := by
  have name : (dumpRow entry).envelope.ticker = entry.1.ticker.trimmed := rfl
  have state : (dumpRow entry).state = entry.2.state := rfl
  by_cases own : entry.1.ticker.trimmed = ticker ∧ ticker ≠ .empty
  · have named : ¬ entry.1.ticker.trimmed = .empty := by rw [own.1]; exact own.2
    unfold UpdateRecord.rowRefdata UpdateRecord.restoreInstrument
    rw [name, if_neg named]
    by_cases taken : (dumpRow entry).directorySeen ∨ (dumpRow entry).anyState
    · rw [if_pos taken, own.1]
      have written (change : Instrument → Instrument) :
          (refdata.modify ticker change).get ticker = change (refdata.get ticker) := by
        rw [RefData.get, RefData.modify_lookup, if_pos rfl]
        rfl
      have restored := restore_states (refdata.get ticker) (dumpRow entry).envelope.group
        (dumpRow entry).static (dumpRow entry).directorySeen (dumpRow entry).state.tradingState
        (dumpRow entry).state.shortSellRestriction (dumpRow entry).restoredReferencePrice
      have picked (field : StateSection → UInt8) (kept : UInt8) :
          (stateIn field ticker entry.1 entry.2).getD kept =
            if StateKnown (field entry.2.state) then field entry.2.state else kept := by
        by_cases known : StateKnown (field entry.2.state)
        · rw [stateIn, if_pos ⟨own.1, own.2, known⟩, if_pos known]
          rfl
        · rw [stateIn, if_neg (fun all => known all.2.2), if_neg known]
          rfl
      rw [written, restored.1, restored.2, picked, picked]
      exact ⟨rfl, rfl⟩
    · -- A row with nothing to restore has `?` for both states.
      rw [if_neg taken]
      have unknown : (dumpRow entry).anyState = false := by
        cases any : (dumpRow entry).anyState with
        | false => rfl
        | true => exact absurd (.inr any) taken
      simp only [UpdateRecord.anyState, state, ne_eq, decide_eq_false_iff_not, not_or,
        Decidable.not_not] at unknown
      simp [stateIn, StateKnown, unknown]
  · have skip (field : StateSection → UInt8) : stateIn field ticker entry.1 entry.2 = none := by
      unfold stateIn
      rw [if_neg]
      exact fun all => own ⟨all.1, all.2.1⟩
    rw [skip, skip]
    have kept : ((dumpRow entry).rowRefdata refdata).get ticker = refdata.get ticker := by
      unfold UpdateRecord.rowRefdata UpdateRecord.restoreInstrument
      split
      · rfl
      · next named =>
          split
          · rw [RefData.get, RefData.modify_lookup, if_neg]
            · rfl
            · rw [name] at named ⊢
              intro same
              exact own ⟨same, same ▸ named⟩
          · rfl
    rw [kept]
    exact ⟨rfl, rfl⟩

theorem restored_states (tables : Tables) (ticker : CStr 4) :
    (tables.restored.market.refdata.get ticker).tradingState =
        (OrderedMap.lastWhere tables.books (stateIn StateSection.tradingState ticker)).getD
          (ascii 'V') ∧
      (tables.restored.market.refdata.get ticker).shortSellState =
        (OrderedMap.lastWhere tables.books (stateIn StateSection.shortSellRestriction ticker)).getD
          (ascii '0') := by
  let start := (tickRows tables.ticks.toList).foldl RefData.tickRecord {}
  have fresh : start.get ticker = { orderbookId := ticker } := by
    have none : start.instruments = ∅ := by
      rw [foldl_frame RefData.instruments]
      exact fun _ _ _ => rfl
    simp [RefData.get, none]
  have folded (observe : Instrument → UInt8) (field : StateSection → UInt8)
      (steps : ∀ refdata entry, observe (((dumpRow entry).rowRefdata refdata).get ticker) =
        (stateIn field ticker entry.1 entry.2).getD (observe (refdata.get ticker))) :
      observe (tables.restored.market.refdata.get ticker) =
        (OrderedMap.lastWhere tables.books (stateIn field ticker)).getD
          (observe { orderbookId := ticker }) := by
    have read := read_foldl (fun refdata : RefData => some (observe (refdata.get ticker)))
      (fun refdata entry => by rw [steps refdata entry, Option.or_some]) tables.books.toList start
    rw [fresh, Option.or_some] at read
    rw [restored_refdata]
    exact Option.some.inj read
  exact ⟨folded Instrument.tradingState _ fun refdata entry =>
    (rowRefdata_get refdata entry ticker).1,
    folded Instrument.shortSellState _ fun refdata entry => (rowRefdata_get refdata entry ticker).2⟩

def instrumentIn (ticker : CStr 4) (key : RowKey) (row : BookRow) : Option Unit :=
  if key.ticker.trimmed = ticker ∧ ticker ≠ .empty ∧
      ((dumpRow (key, row)).directorySeen ∨ (dumpRow (key, row)).anyState) then some ()
  else none

theorem restored_instrument (tables : Tables) (ticker : CStr 4) :
    tables.restored.market.refdata.instruments[ticker]?.isSome =
      (OrderedMap.lastWhere tables.books (instrumentIn ticker)).isSome := by
  let present (refdata : RefData) : Option Unit := refdata.instruments[ticker]?.map fun _ => ()
  have steps (refdata : RefData) (entry : RowKey × BookRow) :
      present ((dumpRow entry).rowRefdata refdata) =
        (instrumentIn ticker entry.1 entry.2).or (present refdata) := by
    have name : (dumpRow entry).envelope.ticker = entry.1.ticker.trimmed := rfl
    unfold UpdateRecord.rowRefdata UpdateRecord.restoreInstrument
    rw [name]
    by_cases blank : entry.1.ticker.trimmed = .empty
    · rw [if_pos blank, instrumentIn, if_neg (fun all => all.2.1 (all.1 ▸ blank)), Option.none_or]
    · rw [if_neg blank]
      by_cases taken : (dumpRow entry).directorySeen ∨ (dumpRow entry).anyState
      · rw [if_pos taken]
        change Option.map _ (RefData.instruments _)[ticker]? = _
        rw [RefData.modify_lookup]
        by_cases own : entry.1.ticker.trimmed = ticker
        · rw [if_pos own, instrumentIn, if_pos ⟨own, own ▸ blank, taken⟩]
          rfl
        · rw [if_neg own, instrumentIn, if_neg (fun all => own all.1), Option.none_or]
      · rw [if_neg taken, instrumentIn, if_neg (fun all => taken all.2.2), Option.none_or]
  have start : present ((tickRows tables.ticks.toList).foldl RefData.tickRecord {}) = none := by
    have none : ((tickRows tables.ticks.toList).foldl RefData.tickRecord {}).instruments = ∅ := by
      rw [foldl_frame RefData.instruments]
      exact fun _ _ _ => rfl
    simp [present, none]
  have read := read_foldl present steps tables.books.toList
    ((tickRows tables.ticks.toList).foldl RefData.tickRecord {})
  rw [← restored_refdata, start, Option.or_none] at read
  rw [OrderedMap.lastWhere, ← read, Option.isSome_map]

theorem instrumentIn_of_known {ticker : CStr 4} {key : RowKey} {row : BookRow}
    (own : key.ticker.trimmed = ticker) (named : ticker ≠ .empty)
    (known : StateKnown row.state.tradingState) : instrumentIn ticker key row = some () :=
  if_pos ⟨own, named, .inr (decide_eq_true (.inl known.2))⟩

end Tables

end ProtoFH
