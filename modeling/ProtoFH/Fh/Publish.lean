import ProtoFH.Market.LevelCounts
import ProtoFH.Wire.Framer

/-! # Publishing

The records the feed handler builds: one `UPDATE` per published message, and the
full dump of its market that rebases a database. -/

namespace ProtoFH

structure PubContext where
  lastSysEvent : OrderedMap (CStr 4) UInt8 := ∅
  lastTradeNs : OrderedMap (CStr 4) UInt64 := ∅

namespace PubContext

def note (ctx : PubContext) (res : ApplyResult) (exchNs : UInt64) : PubContext :=
  match res.trade with
  | none => ctx
  | some execution =>
      { ctx with lastTradeNs := ctx.lastTradeNs.insert execution.orderbookId exchNs }

def noteEvent (ctx : PubContext) (group : CStr 4) (event : UInt8) : PubContext :=
  { ctx with lastSysEvent := ctx.lastSysEvent.insert group event }

/-- The latest event that applies to a group: its own, else the system-wide one,
else NUL. -/
def eventFor (ctx : PubContext) (group : CStr 4) : UInt8 :=
  match ctx.lastSysEvent[group]? with
  | some event => event
  | none => ctx.lastSysEvent[(CStr.empty : CStr 4)]?.getD 0

end PubContext

/-- What `make_update` is told about the message it publishes. -/
structure Envelope where
  epoch : UInt64 := 0
  pubSeq : UInt64 := 0
  session : Bytes := []
  exchSeq : UInt64 := 0
  exchNs : UInt64 := 0
  trigger : UInt8 := 0

/-! ## The sections of an update -/

/-- An `int64_t` with -1 for "unknown", cast to `uint32_t`. -/
def castU32 (value : Option UInt32) : UInt32 := value.getD 0xFFFFFFFF

def byTicker (map : OrderedMap (CStr 4) α) (ticker : CStr 4) : Option α :=
  if ticker = .empty then none else map[ticker]?

def publishedGroup (inst : Option Instrument) (res : ApplyResult) : CStr 4 :=
  match inst with
  | some inst => if res.group = .empty then inst.group else res.group
  | none => res.group

def staticSection (market : Market) : Option Instrument → StaticSection
  | some inst =>
      if inst.directoryMissing then
        { isin := inst.isin
          flags := if market.books.collisions > 0 then flagOrderCollisionSeen else 0 }
      else
        { isin := inst.isin
          roundLot := castU32 inst.roundLot
          tickTableId := castU32 inst.tickTableId
          priceDecimals := (castU32 inst.priceDecimals).toUInt8
          upperLimit := castU32 inst.upperLimit
          lowerLimit := castU32 inst.lowerLimit
          flags :=
            if market.books.collisions > 0 then flagDirectorySeen ||| flagOrderCollisionSeen
            else flagDirectorySeen }
  | none => { flags := if market.books.collisions > 0 then flagOrderCollisionSeen else 0 }

/-- `compute_ssp` on the market's own data for one instrument. -/
def shortSellPrice (market : Market) (ticker : CStr 4) (inst : Instrument) : UInt32 :=
  let stats := market.tape.stats[ticker]?
  computeSsp inst.shortSellState inst.referencePrice (stats.bind BookStats.lastPrice)
    (stats.any BookStats.hasLast) (stats.any BookStats.uptick)
    (inst.tickTableId.bind (market.refdata.tickTables[·]?))

def stateSection (market : Market) (ctx : PubContext) (ticker group : CStr 4) :
    Option Instrument → StateSection
  | some inst =>
      { tradingState := inst.tradingState
        shortSellRestriction := inst.shortSellState
        referencePrice := inst.referencePrice.getD 0
        lastSystemEvent := ctx.eventFor group
        shortSellPrice := shortSellPrice market ticker inst }
  | none =>
      { tradingState := ascii '?'
        shortSellRestriction := ascii '?'
        referencePrice := 0
        lastSystemEvent := ctx.eventFor group
        shortSellPrice := noPrice }

def publishedLevel (entry : UInt32 × Level) : BookLevel where
  price := entry.1
  qty := entry.2.qty.toUInt32
  orderCount := entry.2.orders

def topLevels (best : List (UInt32 × Level)) : Vector BookLevel bookDepth :=
  Vector.ofFn fun slot => (best[slot.val]?.map publishedLevel).getD {}

def levelCount (best : List (UInt32 × Level)) : UInt8 :=
  UInt8.ofNat (min best.length bookDepth)

def bookSection : Option Book → BookSection
  | some book =>
      { levelCountBid := levelCount book.bids.levels.toList.reverse
        levelCountAsk := levelCount book.asks.levels.toList
        bids := topLevels book.bids.levels.toList.reverse
        asks := topLevels book.asks.levels.toList
        totalBidQty := book.bids.totalQty
        totalAskQty := book.asks.totalQty
        totalBidOrders := book.bids.totalOrders
        totalAskOrders := book.asks.totalOrders }
  | none => {}

def tradeSection (ctx : PubContext) (ticker : CStr 4) : Option BookStats → TradeSection
  | some stats =>
      { lastPrice := stats.lastPrice.getD 0
        lastQty := stats.lastQty.getD 0
        lastMatchNumber := stats.lastMatchNumber
        lastTradeNs := ctx.lastTradeNs[ticker]?.getD 0
        cumQty := stats.volume
        cumTurnover := stats.notional
        tradeCount := stats.tradeCount.toUInt32 }
  | none => {}

/-- The remaining quantity after the operation: an execution's is looked up, an
order that is gone has none. -/
def deltaQty (market : Market) (delta : OrderDelta) : UInt32 :=
  match delta.op with
  | .D => 0
  | .E => ((market.books.orders.find? delta.orderNumber).map Order.remainingQty).getD 0
  | _ => delta.qty

def deltaSection (market : Market) : Option OrderDelta → DeltaSection
  | some delta =>
      { op := if delta.op = .F then ascii 'A' else delta.op.toByte
        orderNumber := delta.orderNumber
        origOrderNumber := delta.origOrderNumber
        side := delta.side
        price := if delta.op = .D then 0 else delta.price
        qty := deltaQty market delta
        orderType := delta.orderType }
  | none => { op := ascii '#' }

/-- `make_update`: the full record for the book a result names. Copying the
market's strings into the record's character arrays keeps them; only the session
is cut at ten characters. -/
def makeUpdate (market : Market) (ctx : PubContext) (res : ApplyResult) (env : Envelope) :
    UpdateRecord :=
  let inst := byTicker market.refdata.instruments res.ticker
  let group := publishedGroup inst res
  { envelope :=
      { epoch := env.epoch
        pubSeq := env.pubSeq
        session := CStr.copy 10 env.session
        exchSeq := env.exchSeq
        exchNs := env.exchNs
        trigger := env.trigger
        ticker := res.ticker
        group := group }
    static := staticSection market inst
    state := stateSection market ctx res.ticker group inst
    book := bookSection (byTicker market.books.books res.ticker)
    trade := tradeSection ctx res.ticker (byTicker market.tape.stats res.ticker)
    delta := deltaSection market res.delta }

/-! ## The full dump -/

def Order.toRecord (order : Order) : OrderRecord where
  orderNumber := order.orderNumber
  ticker := order.orderbookId
  group := order.group
  side := order.side
  price := order.price
  qtyRemaining := order.remainingQty
  orderType := order.orderType

def knownTickers (market : Market) : List (CStr 4) :=
  let mark (tickers : OrderedMap (CStr 4) Bool) (ticker : CStr 4) := tickers.insert ticker true
  let refdata := (market.refdata.instruments.toList.map Prod.fst).foldl mark ∅
  ((market.books.books.toList.map Prod.fst).foldl mark refdata).toList.map Prod.fst

/-- The result a dump row is built from: a ticker whose group neither the reference
data nor a live order knows gets no row. -/
def dumpResult (market : Market) (ticker : CStr 4) : Option ApplyResult :=
  let known := market.refdata.instruments[ticker]?.any fun inst => inst.group ≠ .empty
  if known then some { ticker }
  else
    (market.books.orders.values.find? fun order => order.orderbookId = ticker).map
      fun order => { ticker, group := order.group }

def syncRecords (market : Market) (ctx : PubContext) (session : Bytes)
    (lastExchSeq epoch : UInt64) : List Record :=
  let env : Envelope :=
    { epoch, pubSeq := 0, session, exchSeq := lastExchSeq
      exchNs := market.seconds * 1000000000, trigger := ascii '#' }
  [Record.syncBegin] ++
    (tickRows (market.refdata.tickTables.toList.map fun table => (table.1, table.2.rows))).map
      Record.tick ++
    market.books.orders.values.map (fun order => Record.order order.toRecord) ++
    ((knownTickers market).filterMap (dumpResult market)).map
      (fun res => Record.update (makeUpdate market ctx res env)) ++
    ctx.lastSysEvent.toList.map
      (fun entry => Record.update (makeUpdate market ctx { group := entry.1 } env)) ++
    [Record.syncEnd { session := CStr.copy 10 session, lastExchSeq, epoch }]

def buildSyncDump (market : Market) (ctx : PubContext) (session : Bytes)
    (lastExchSeq epoch : UInt64) : Bytes :=
  encodeAll (syncRecords market ctx session lastExchSeq epoch)

theorem levelCount_toNat (best : List (UInt32 × Level)) :
    (levelCount best).toNat = min best.length bookDepth := by
  have small : min best.length bookDepth < 2 ^ 8 := by
    have : bookDepth = 10 := rfl
    omega
  rw [levelCount, UInt8.toNat_ofNat', Nat.mod_eq_of_lt small]

theorem levelCount_le (best : List (UInt32 × Level)) : (levelCount best).toNat ≤ bookDepth := by
  rw [levelCount_toNat]
  exact Nat.min_le_right _ _

theorem makeUpdate_shallow (market : Market) (ctx : PubContext) (res : ApplyResult)
    (env : Envelope) : (makeUpdate market ctx res env).Shallow := by
  change (bookSection _).levelCountBid.toNat ≤ bookDepth ∧
    (bookSection _).levelCountAsk.toNat ≤ bookDepth
  cases byTicker market.books.books res.ticker with
  | none => exact ⟨Nat.zero_le _, Nat.zero_le _⟩
  | some book => exact ⟨levelCount_le _, levelCount_le _⟩

/-! ## Published short-sell prices -/

def StateSection.PriceRule (state : StateSection) : Prop :=
  state.shortSellRestriction ≠ ascii '1' → state.shortSellPrice = 0

def Market.Describes (market : Market) (ticker : CStr 4) : Prop :=
  ticker ≠ .empty ∧ market.refdata.instruments[ticker]?.isSome

private theorem byTicker_isSome (map : OrderedMap (CStr 4) α) (ticker : CStr 4) :
    (byTicker map ticker).isSome = true ↔ ticker ≠ .empty ∧ map[ticker]?.isSome = true := by
  rw [byTicker]
  split
  · next blank => simp [blank]
  · next named => simp [named]

theorem stateSection_priceRule_iff (market : Market) (ctx : PubContext) (ticker group : CStr 4)
    (inst : Option Instrument) :
    (stateSection market ctx ticker group inst).PriceRule ↔ inst.isSome = true := by
  cases inst with
  | none =>
      have unknown : ascii '?' ≠ ascii '1' := by decide
      have priced : noPrice ≠ 0 := by decide
      refine ⟨fun rule => absurd (rule unknown) priced, fun known => ?_⟩
      cases known
  | some inst =>
      refine ⟨fun _ => rfl, fun _ unrestricted => ?_⟩
      exact if_pos unrestricted

theorem makeUpdate_priceRule_iff (market : Market) (ctx : PubContext) (res : ApplyResult)
    (env : Envelope) :
    (makeUpdate market ctx res env).state.PriceRule ↔
      market.Describes (makeUpdate market ctx res env).envelope.ticker :=
  (stateSection_priceRule_iff market ctx res.ticker _ _).trans (byTicker_isSome _ _)

private theorem exists_makeUpdate_of_mem_syncRecords {market : Market} {ctx : PubContext}
    {session : Bytes} {lastExchSeq epoch : UInt64} {record : UpdateRecord}
    (member : Record.update record ∈ syncRecords market ctx session lastExchSeq epoch) :
    ∃ res env, record = makeUpdate market ctx res env := by
  simp only [syncRecords, List.mem_append, List.mem_map, List.mem_singleton, reduceCtorEq,
    and_false, exists_false, or_false, false_or, Record.update.injEq] at member
  rcases member with ⟨res, -, built⟩ | ⟨entry, -, built⟩
  · exact ⟨res, _, built.symm⟩
  · exact ⟨_, _, built.symm⟩

/-- An update, live or of a dump, keeps the rule exactly if the reference data has an
instrument for its ticker. -/
theorem short_sell_price_zero_iff (market : Market) (ctx : PubContext) :
    (∀ (res : ApplyResult) (env : Envelope),
      (makeUpdate market ctx res env).state.PriceRule ↔
        market.Describes (makeUpdate market ctx res env).envelope.ticker) ∧
    ∀ (session : Bytes) (lastExchSeq epoch : UInt64) (record : UpdateRecord),
      Record.update record ∈ syncRecords market ctx session lastExchSeq epoch →
        (record.state.PriceRule ↔ market.Describes record.envelope.ticker) := by
  refine ⟨makeUpdate_priceRule_iff market ctx, ?_⟩
  intro session lastExchSeq epoch record member
  obtain ⟨res, env, rfl⟩ := exists_makeUpdate_of_mem_syncRecords member
  exact makeUpdate_priceRule_iff market ctx res env

def earlyOrder : ItchMsg :=
  .addOrder
    { ns := 0, orderNumber := 1, side := ascii 'B', qty := 100
      orderbookId := CStr.copy 4 [49, 51, 48, 49], group := CStr.copy 4 [68, 65, 89]
      price := 1000 }

/-- Its update has no known restriction and yet the price `NO_PRICE`. -/
theorem earlyOrder_priced :
    let applied := ({} : Market).apply earlyOrder
    let state := (makeUpdate applied.1 {} applied.2 { trigger := applied.2.trigger }).state
    state.shortSellRestriction = ascii '?' ∧ state.shortSellPrice = noPrice ∧
      ¬ state.PriceRule := by
  refine ⟨by decide +kernel, by decide +kernel, ?_⟩
  intro rule
  have zero := rule (by decide +kernel)
  revert zero
  decide +kernel

end ProtoFH
