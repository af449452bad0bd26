import ProtoFH.Market.Invariants
import ProtoFH.Recovery.FullSync

/-! # The round trip of a full sync

A market dumped into a database and rebuilt from the database's own dump. -/

namespace ProtoFH

/-! ## Which rows are dumped -/

def GroupKnown (market : Market) (ticker : CStr 4) : Prop :=
  (∃ inst, market.refdata.instruments[ticker]? = some inst ∧ inst.group ≠ .empty) ∨
    ∃ orderNumber order, market.books.orders.find? orderNumber = some order ∧
      order.orderbookId = ticker

variable {market : Market} {ticker : CStr 4}

theorem dumpResult_eq_some {res : ApplyResult} (dumped : dumpResult market ticker = some res) :
    res.ticker = ticker ∧ GroupKnown market ticker := by
  unfold dumpResult at dumped
  simp only at dumped
  split at dumped
  · next known =>
      rw [← Option.some.inj dumped]
      cases found : market.refdata.instruments[ticker]? with
      | none => rw [found] at known; cases known
      | some inst =>
          have grouped : inst.group ≠ .empty := by simpa [found] using known
          exact ⟨rfl, .inl ⟨inst, found, grouped⟩⟩
  · rcases Option.map_eq_some_iff.mp dumped with ⟨order, found, rfl⟩
    have member := List.mem_of_find?_eq_some found
    have own : order.orderbookId = ticker := by simpa using List.find?_some found
    exact ⟨rfl, .inr ⟨_, order, KeyedMap.mem_values.mp member, own⟩⟩

private theorem exists_dumpResult (known : GroupKnown market ticker) :
    ∃ res, dumpResult market ticker = some res := by
  unfold dumpResult
  simp only
  split
  · exact ⟨_, rfl⟩
  · next unknown =>
      rcases known with ⟨inst, found, grouped⟩ | ⟨orderNumber, order, found, own⟩
      · rw [found] at unknown
        simp [grouped] at unknown
      · cases first : market.books.orders.values.find? fun order => order.orderbookId = ticker with
        | some other => exact ⟨_, rfl⟩
        | none =>
            have member : order ∈ market.books.orders.values :=
              KeyedMap.mem_values.mpr (by rw [KeyedMap.key_of_find? found, found])
            have different := List.find?_eq_none.mp first order member
            simp [own] at different

private theorem mem_knownTickers
    (known : market.refdata.instruments[ticker]?.isSome ∨ market.books.books[ticker]?.isSome) :
    ticker ∈ knownTickers market := by
  have marked (tickers : List (CStr 4)) (map : OrderedMap (CStr 4) Bool) :
      (tickers.foldl (fun map ticker => map.insert ticker true) map)[ticker]? =
        (lastWrite (fun other => if other = ticker then some true else none) tickers).or
          map[ticker]? := by
    apply read_foldl (fun map : OrderedMap (CStr 4) Bool => map[ticker]?)
    intro map other
    rw [OrderedMap.lookup_insert]
    split <;> rfl
  have written {tickers : List (CStr 4)} (member : ticker ∈ tickers) :
      lastWrite (fun other => if other = ticker then some true else none) tickers = some true := by
    apply lastWrite_eq_some member (if_pos rfl)
    intro other _ found wrote
    split at wrote
    · exact (Option.some.inj wrote).symm
    · cases wrote
  have listed {α : Type} {map : OrderedMap (CStr 4) α} (present : map[ticker]?.isSome) :
      ticker ∈ map.toList.map Prod.fst := by
    rcases Option.isSome_iff_exists.mp present with ⟨value, found⟩
    exact List.mem_map.mpr ⟨(ticker, value), OrderedMap.mem_toList.mpr found, rfl⟩
  unfold knownTickers
  simp only
  apply listed
  rw [marked, marked]
  rcases known with instrument | book
  · rw [written (listed instrument)]
    cases lastWrite _ (market.books.books.toList.map Prod.fst) <;> rfl
  · rw [written (listed book)]
    rfl

private theorem mem_syncRows {fh : Fh} {rec : UpdateRecord} (member : rec ∈ fh.syncRows) :
    rec.envelope.ticker = .empty ∨
      ∃ ticker res, dumpResult fh.market ticker = some res ∧
        rec = makeUpdate fh.market fh.ctx res fh.syncEnvelope := by
  rcases List.mem_append.mp member with row | event
  · rcases List.mem_map.mp row with ⟨res, inResults, rfl⟩
    rcases List.mem_filterMap.mp inResults with ⟨ticker, -, dumped⟩
    exact .inr ⟨ticker, res, dumped, rfl⟩
  · rcases List.mem_map.mp event with ⟨entry, -, rfl⟩
    exact .inl rfl

/-! ## The parts of the round trip -/

section Parts

variable {fh : Fh} (stable : fh.market.Named WireStable)

include stable

theorem wireStable_of_groupKnown {ticker : CStr 4} (known : GroupKnown fh.market ticker) :
    ticker.trimmed = ticker := by
  rcases known with ⟨inst, found, -⟩ | ⟨orderNumber, order, found, rfl⟩
  · exact (stable.instruments ticker inst found).1
  · exact (stable.orders orderNumber order found).1

theorem roundTrip_orders (prior : Tables) :
    (fh.synced prior).restored.market.books.orders = fh.market.books.orders := by
  apply KeyedMap.ext_find?
  intro orderNumber
  rw [Tables.restored_order, Fh.synced_order, Option.map_map]
  cases found : fh.market.books.orders.find? orderNumber with
  | none => rfl
  | some order =>
      have names := stable.orders orderNumber order found
      simp only [Option.map_some, Function.comp_apply, OrderRecord.wired, Order.toRecord,
        OrderRecord.toOrder, names.1, names.2]

theorem roundTrip_qtyAt (prior : Tables) (key : LevelKey) :
    (fh.synced prior).restored.market.books.qtyAt key =
      UInt64.ofNat (fh.market.books.orders.restingQty key) := by
  rw [(fh.synced prior).restored_levelsSummed key, roundTrip_orders stable prior]

theorem syncRows_unique {row other : UpdateRecord} (member : row ∈ fh.syncRows)
    (inRows : other ∈ fh.syncRows) (named : row.wired.key.ticker ≠ .empty)
    (same : other.wired.key.ticker = row.wired.key.ticker) : other = row := by
  have source {rec : UpdateRecord} (here : rec ∈ fh.syncRows)
      (name : rec.wired.key.ticker = row.wired.key.ticker) :
      ∃ res, dumpResult fh.market row.wired.key.ticker = some res ∧
        rec = makeUpdate fh.market fh.ctx res fh.syncEnvelope := by
    have wiredName : rec.wired.key.ticker = rec.envelope.ticker.trimmed := rfl
    rcases mem_syncRows here with blank | ⟨ticker, res, dumped, rfl⟩
    · rw [wiredName, blank] at name
      exact absurd name.symm named
    · rcases dumpResult_eq_some dumped with ⟨own, known⟩
      have equal : ticker = row.wired.key.ticker := by
        rw [← name, ← wireStable_of_groupKnown stable known, ← own]
        rfl
      exact ⟨res, equal ▸ dumped, rfl⟩
  rcases source member rfl with ⟨res, dumped, row_eq⟩
  rcases source inRows same with ⟨res', dumped', other_eq⟩
  rw [dumped] at dumped'
  rw [row_eq, other_eq, Option.some.inj dumped']

private theorem synced_stored (prior : Tables) {row : UpdateRecord} (member : row ∈ fh.syncRows)
    (named : row.wired.key.ticker ≠ .empty) :
    (fh.synced prior).books[row.wired.key]?.map BookRow.trade = some row.trade := by
  rw [fh.synced_trade prior]
  apply lastWrite_eq_some member (if_pos rfl)
  intro other inRows found wrote
  split at wrote
  · next same =>
      rw [syncRows_unique stable member inRows named (by rw [same])] at wrote
      exact (Option.some.inj wrote).symm
  · cases wrote

private theorem synced_only (prior : Tables) {row : UpdateRecord} (member : row ∈ fh.syncRows)
    (named : row.wired.key.ticker ≠ .empty) {key : RowKey} {stored : BookRow}
    (found : (fh.synced prior).books[key]? = some stored)
    (same : key.ticker.trimmed = row.wired.key.ticker) : key = row.wired.key := by
  have written := fh.synced_trade prior key
  rw [found] at written
  rcases exists_of_lastWrite_eq_some written.symm with ⟨other, inRows, wrote⟩
  split at wrote
  · next isKey =>
      have ticker : other.wired.key.ticker = row.wired.key.ticker := by
        rw [← same, ← isKey]
        exact (CStr.trimmed_trimmed _).symm
      rw [← isKey, syncRows_unique stable member inRows named ticker]
  · cases wrote

theorem roundTrip_stats (prior : Tables) {ticker : CStr 4} {stats : BookStats}
    (named : ticker ≠ .empty) (known : GroupKnown fh.market ticker)
    (housed : fh.market.books.Housed) (traded : fh.market.tape.stats[ticker]? = some stats)
    (counted : stats.tradeCount.toUInt32 > 0) :
    (fh.synced prior).restored.market.tape.stats[ticker]? =
      some (tradeSection fh.ctx ticker (some stats)).stats := by
  have trimmed := wireStable_of_groupKnown stable known
  rcases exists_dumpResult known with ⟨res, dumped⟩
  have own := (dumpResult_eq_some dumped).1
  have listed : ticker ∈ knownTickers fh.market := by
    apply mem_knownTickers
    rcases known with ⟨inst, found, -⟩ | ⟨orderNumber, order, found, rfl⟩
    · exact .inl (by rw [found]; rfl)
    · exact .inr (housed orderNumber order found)
  let row := makeUpdate fh.market fh.ctx res fh.syncEnvelope
  have member : row ∈ fh.syncRows :=
    List.mem_append_left _ (List.mem_map.mpr
      ⟨res, List.mem_filterMap.mpr ⟨ticker, listed, dumped⟩, rfl⟩)
  have name : row.wired.key.ticker = ticker := by
    change res.ticker.trimmed = ticker
    rw [own, trimmed]
  have trade : row.trade = tradeSection fh.ctx ticker (some stats) := by
    change tradeSection fh.ctx res.ticker (byTicker fh.market.tape.stats res.ticker) = _
    rw [own, byTicker, if_neg named, traded]
  have rowNamed : row.wired.key.ticker ≠ .empty := by rwa [name]
  rcases Option.map_eq_some_iff.mp (synced_stored stable prior member rowNamed) with
    ⟨stored, found, storedTrade⟩
  rw [Tables.restored_stats, OrderedMap.lastWhere_eq_some_iff]
  refine ⟨row.wired.key, stored, found, ?_, ?_⟩
  · rw [Tables.tradesIn, storedTrade, trade, if_pos]
    exact ⟨by rw [name, trimmed], named, counted⟩
  · intro other beyondRow beyondFound beyond
    rw [Tables.tradesIn, if_neg]
    rintro ⟨same, -, -⟩
    rw [synced_only stable prior member rowNamed beyondFound (by rw [same, name])] at beyond
    simp at beyond

end Parts

theorem fullSync_recovers (fh : Fh) (prior : IngestServer) {chunks : List Bytes}
    (sent : chunks.flatten = encodeAll fh.fullSync) :
    recoverFromDb (chunks.foldl IngestServer.onData prior.accept).tables.dumpState =
      some (fh.synced prior.accept.tables).restored := by
  have received : chunks.foldl IngestServer.onData (prior.accept.withBuffer []) =
      (prior.accept.handleAll fh.fullSync).withBuffer [] :=
    IngestServer.onData_chunks fh.fullSync_sound rfl rfl sent
  have tables : (chunks.foldl IngestServer.onData prior.accept).tables =
      fh.synced prior.accept.tables := by
    rw [show prior.accept = prior.accept.withBuffer [] from rfl, received, fh.handleAll_fullSync]
    rfl
  rw [tables]
  exact Tables.recoverFromDb_dumpState (fh.synced_shallow _)

theorem named_wireStable {payloads : List Bytes}
    (nulFree : ∀ payload ∈ payloads, NulFree payload) :
    (Market.run {} (messages payloads)).Named WireStable := by
  apply Market.Named.run
  intro msg member orderbookId group named
  rcases mem_messages.mp member with ⟨payload, inPayloads, decoded⟩
  exact (decode_trimmed decoded (nulFree payload inPayloads)).wireStable named

/-- A market within its counters, dumped into a database that held anything and
rebuilt from there: the orders, the levels, the tick tables, the trades of every
named ticker with a known group, and the position are the same. -/
theorem fullSync_roundTrip {payloads : List Bytes}
    (nulFree : ∀ payload ∈ payloads, NulFree payload)
    (within : ∀ n ≤ (messages payloads).length,
      (Market.run {} ((messages payloads).take n)).WithinCounters)
    (ctx : PubContext) {session : Bytes} (alpha : Alpha 10 session) (lastExchSeq epoch : UInt64)
    (prior : IngestServer) {chunks : List Bytes}
    (sent : chunks.flatten = encodeControl .reset ++
      buildSyncDump (Market.run {} (messages payloads)) ctx session lastExchSeq epoch) :
    let market := Market.run {} (messages payloads)
    let db := chunks.foldl IngestServer.onData prior.accept
    ∃ restarted, recoverFromDb db.tables.dumpState = some restarted ∧
      restarted.market.books.orders = market.books.orders ∧
      (∀ key, restarted.market.books.qtyAt key = market.books.qtyAt key) ∧
      (∀ table start, restarted.market.refdata.tickRow table start =
        market.refdata.tickRow table start) ∧
      (∀ ticker stats, market.tape.stats[ticker]? = some stats → ticker ≠ .empty →
        GroupKnown market ticker →
          restarted.market.tape.stats[ticker]?.map BookStats.summary = some stats.summary) ∧
      restarted.recovered = { session, lastExchSeq, epoch } := by
  intro market db
  let fh : Fh := { market, ctx, session, lastExchSeq, epoch }
  have stable : fh.market.Named WireStable := named_wireStable nulFree
  have whole : market.WithinCounters := by
    have last := within (messages payloads).length (Nat.le_refl _)
    rwa [List.take_length] at last
  have summed : market.books.LevelsSummed :=
    (Market.summed_run _ fun n inside =>
      OrderMap.restingFits_of_size (within n (Nat.le_of_lt inside)).orders).levels
  have traded : market.tape.Traded :=
    Market.traded_run _ fun n inside => within n (Nat.le_of_lt inside)
  have dump : chunks.flatten = encodeAll fh.fullSync := by
    rw [sent]
    rfl
  refine ⟨_, fullSync_recovers fh prior dump, roundTrip_orders stable _, ?_, ?_, ?_, ?_⟩
  · intro key
    rw [roundTrip_qtyAt stable]
    exact (summed key).symm
  · intro table start
    rw [Tables.restored_tickRow, Fh.synced_tickRow]
  · intro ticker stats found named known
    rcases traded ticker stats found with ⟨price, qty, counted⟩
    have few : stats.tradeCount.toNat < 2 ^ 32 := by
      have bound := whole.trades ticker
      rwa [TradeTape.statsOf, found] at bound
    have positive : stats.tradeCount.toUInt32 > 0 := by
      rw [gt_iff_lt, UInt32.lt_iff_toNat_lt, UInt64.toNat_toUInt32, Nat.mod_eq_of_lt few]
      exact counted
    rw [roundTrip_stats stable _ named known (Market.housed_run _) found positive]
    exact congrArg some (tradeSection_summary price qty few ctx ticker)
  · change ({ session := (CStr.copy 10 session).trimmed.trimmed.bytes, lastExchSeq, epoch } :
      RecoveredMeta) = _
    rw [CStr.trimmed_trimmed, CStr.trimmed_copy_bytes alpha]

/-- A bid of 200 shares in book `1301` at 1000, and a fill of 100 of them. -/
def tradedLog : List Bytes :=
  [[ascii 'A', 0, 0, 0, 7, 0, 0, 0, 0, 0, 0, 0, 1, ascii 'B', 0, 0, 0, 200,
      ascii '1', ascii '3', ascii '0', ascii '1', ascii 'D', ascii 'A', ascii 'Y', space,
      0, 0, 3, 232],
    [ascii 'E', 0, 0, 0, 8, 0, 0, 0, 0, 0, 0, 0, 1, 0, 0, 0, 100, 0, 0, 0, 0, 0, 0, 0, 5]]

theorem fullSync_roundTrip_traded :
    let market := Market.run {} (messages tradedLog)
    let dump := encodeControl .reset ++ buildSyncDump market {} [ascii 'S'] 2 1
    ∃ restarted,
      recoverFromDb ([dump].foldl IngestServer.onData ({} : IngestServer).accept).tables.dumpState =
        some restarted ∧ restarted.recovered = ⟨[ascii 'S'], 2, 1⟩ := by
  have few : (messages tradedLog).length < 2 ^ 32 := by decide
  have nulFree : ∀ payload ∈ tradedLog, NulFree payload := by decide
  rcases fullSync_roundTrip nulFree
      (fun n _ => Market.withinCounters_of_length
        (Nat.lt_of_le_of_lt (List.length_take_le' _ _) few))
      {} (show Alpha 10 [ascii 'S'] by decide) 2 1 {}
      (show [encodeControl .reset ++ buildSyncDump (Market.run {} (messages tradedLog)) {}
        [ascii 'S'] 2 1].flatten = _ from List.append_nil _) with
    ⟨restarted, recovered, -, -, -, -, position⟩
  exact ⟨restarted, recovered, position⟩

/-! ## A level that outgrows its word -/

/-- A bid for 2^32 - 1 shares of book `1301` at 1000. -/
def crowdOrder (orderNumber : UInt64) : AddOrder where
  ns := 0
  orderNumber := orderNumber
  side := ascii 'B'
  qty := 0xFFFFFFFF
  orderbookId := CStr.copy 4 [ascii '1', ascii '3', ascii '0', ascii '1']
  group := CStr.copy 4 [ascii 'D', ascii 'A', ascii 'Y']
  price := 1000

def crowdTail : Bytes :=
  [ascii 'B', 255, 255, 255, 255, ascii '1', ascii '3', ascii '0', ascii '1', ascii 'D',
    ascii 'A', ascii 'Y', space, 0, 0, 3, 232]

def crowdPayload (orderNumber : UInt64) : Bytes :=
  [ascii 'A', 0, 0, 0, 0] ++ (bePutU64 orderNumber ++ crowdTail)

theorem drop_crowdPayload (orderNumber : UInt64) (count : Nat) :
    (crowdPayload orderNumber).drop (5 + (8 + count)) = crowdTail.drop count := by
  rw [crowdPayload, ← List.drop_drop, drop_append_of_length _ 5 rfl, ← List.drop_drop,
    drop_append_of_length _ 8 (bePutU64_length _)]

private theorem decode_crowdPayload (orderNumber : UInt64) :
    decode (crowdPayload orderNumber) = .ok (.addOrder (crowdOrder orderNumber)) := by
  have length : (crowdPayload orderNumber).length = expectedLen .A := by
    simp [crowdPayload, crowdTail, expectedLen]
  have number : beGetU64 ((crowdPayload orderNumber).drop 5) = orderNumber := by
    rw [crowdPayload, drop_append_of_length _ 5 rfl, beGetU64_put]
  have fields : decodeAdd (crowdPayload orderNumber) = crowdOrder orderNumber := by
    unfold decodeAdd
    rw [number, show 13 = 5 + (8 + 0) from rfl, show 14 = 5 + (8 + 1) from rfl,
      show 18 = 5 + (8 + 5) from rfl, show 22 = 5 + (8 + 9) from rfl,
      show 26 = 5 + (8 + 13) from rfl]
    simp only [drop_crowdPayload]
    rfl
  have found : decode (crowdPayload orderNumber) =
      if (crowdPayload orderNumber).length = expectedLen .A then
        .ok (decodeFields (crowdPayload orderNumber) .A)
      else .error "length mismatch for message type" := rfl
  rw [found, if_pos length, decodeFields, fields]

theorem nulFree_crowdPayload (orderNumber : UInt64) : NulFree (crowdPayload orderNumber) := by
  have type : MsgType.ofByte? (beGetU8 (crowdPayload orderNumber)) = some .A := rfl
  have id : (crowdPayload orderNumber).drop 18 = _ := drop_crowdPayload orderNumber 5
  have group : (crowdPayload orderNumber).drop 22 = _ := drop_crowdPayload orderNumber 9
  simp only [NulFree, NulFreeIn, type, alphaFields, List.forall_mem_cons, id, group]
  exact ⟨by decide, by decide, by simp⟩

def crowdLevel : LevelKey :=
  ⟨CStr.copy 4 [ascii '1', ascii '3', ascii '0', ascii '1'], true, 1000⟩

def crowd (size : Nat) : List Bytes :=
  (List.range size).map fun index => crowdPayload (UInt64.ofNat (index + 1))

theorem messages_crowd_succ (size : Nat) :
    messages (crowd (size + 1)) =
      messages (crowd size) ++ [.addOrder (crowdOrder (UInt64.ofNat (size + 1)))] := by
  rw [crowd, List.range_succ, List.map_append, messages, List.filterMap_append]
  change messages (crowd size) ++ messages [crowdPayload _] = _
  rw [messages_cons, decode_crowdPayload]
  rfl

structure Crowded (size : Nat) (market : Market) : Prop where
  summed : market.books.LevelsSummed
  resting : market.books.orders.restingQty crowdLevel = size * (2 ^ 32 - 1)
  numbered : ∀ orderNumber order, market.books.orders.find? orderNumber = some order →
    orderNumber.toNat ≤ size
  first : 0 < size → market.books.orders.find? 1 = some ((crowdOrder 1).toOrder space)
  untraded : market.tape = {}

theorem crowded_run {size : Nat} (bound : size < 2 ^ 64) :
    Crowded size (Market.run {} (messages (crowd size))) := by
  induction size with
  | zero =>
      exact
        { summed := OrderBookStore.levelsSummed_empty
          resting := by
            rw [Nat.zero_mul]
            exact KeyedMap.total_empty _
          numbered := fun orderNumber order found => by cases found
          first := fun positive => absurd positive (Nat.lt_irrefl 0)
          untraded := rfl }
  | succ size induction =>
      have before := induction (by omega)
      let order := (crowdOrder (UInt64.ofNat (size + 1))).toOrder space
      have number : order.orderNumber.toNat = size + 1 := UInt64.toNat_ofNat_of_lt' bound
      have real : (crowdOrder (UInt64.ofNat (size + 1))).orderNumber ≠ 0 := by
        intro zero
        rw [show order.orderNumber = 0 from zero, UInt64.toNat_zero] at number
        omega
      have fresh : (Market.run {} (messages (crowd size))).books.orders.find?
          order.orderNumber = none := by
        cases found : (Market.run {} (messages (crowd size))).books.orders.find?
            order.orderNumber with
        | none => rfl
        | some other =>
            have small := before.numbered _ _ found
            omega
      have books : (Market.run {} (messages (crowd (size + 1)))).books =
          (Market.run {} (messages (crowd size))).books.restoreOrder order := by
        rw [messages_crowd_succ, Market.run_concat, Market.apply_books]
        simp only [Market.storeStep, real, if_false, OrderBookStore.apply,
          OrderBookStore.applyAdd, OrderBookStore.insert]
        rw [show ((crowdOrder (UInt64.ofNat (size + 1))).toOrder space).orderNumber =
          order.orderNumber from rfl, fresh]
      have tape : (Market.run {} (messages (crowd (size + 1)))).tape =
          (Market.run {} (messages (crowd size))).tape := by
        rw [messages_crowd_succ, Market.run_concat, Market.apply_tape, Market.storeStep_execution]
      refine ⟨?_, ?_, ?_, ?_, ?_⟩
      · rw [books]
        exact before.summed.restoreOrder fresh
      · have sum : OrderMap.restingQty
            ((Market.run {} (messages (crowd size))).books.orders.insert order) crowdLevel =
            order.restingAt crowdLevel + _ := KeyedMap.total_insert_of_absent _ _ fresh
        have own : order.restingAt crowdLevel = 2 ^ 32 - 1 := if_pos rfl
        rw [books, OrderBookStore.restoreOrder_orders, sum, own]
        have resting := before.resting
        rw [OrderMap.restingQty] at resting
        rw [resting, Nat.succ_mul, Nat.add_comm]
      · intro orderNumber other found
        rw [books, OrderBookStore.restoreOrder_orders, KeyedMap.find?_insert] at found
        split at found
        · next same => rw [← same, number]
        · exact Nat.le_succ_of_le (before.numbered _ _ found)
      · intro _
        rw [books, OrderBookStore.restoreOrder_orders, KeyedMap.find?_insert]
        cases size with
        | zero => rfl
        | succ size =>
            have different : order.orderNumber ≠ 1 := by
              intro one
              rw [one, UInt64.toNat_one] at number
              omega
            rw [if_neg different]
            exact before.first (Nat.succ_pos _)
      · rw [tape]
        exact before.untraded

def crowdDelete : Bytes := [ascii 'D', 0, 0, 0, 0, 0, 0, 0, 0, 0, 0, 0, 1]

def crowdLog (size : Nat) : List Bytes := crowd size ++ [crowdDelete]

theorem messages_crowdLog (size : Nat) :
    messages (crowdLog size) = messages (crowd size) ++ [.deleted 0 1] := by
  rw [crowdLog, messages, List.filterMap_append]
  rfl

theorem nulFree_crowdLog (size : Nat) : ∀ payload ∈ crowdLog size, NulFree payload := by
  intro payload member
  rcases List.mem_append.mp member with bid | deletion
  · rcases List.mem_map.mp bid with ⟨index, -, rfl⟩
    exact nulFree_crowdPayload _
  · rw [List.mem_singleton.mp deletion]
    decide

section Overflow

-- The size is kept as a variable: it is far too large to build the list of bids.
variable {size : Nat} (large : size = 2 ^ 32 + 2)

include large

theorem crowd_qtyAt :
    (Market.run {} (messages (crowd size))).books.qtyAt crowdLevel = 0xFFFFFFFE := by
  have crowded := crowded_run (show size < 2 ^ 64 by omega)
  have sum : size * (2 ^ 32 - 1) = 18446744078004518910 := by omega
  rw [crowded.summed crowdLevel, crowded.resting, sum]
  decide

theorem crowdLog_books :
    let before := (Market.run {} (messages (crowd size))).books
    let after := (Market.run {} (messages (crowdLog size))).books
    after.qtyAt crowdLevel = before.qtyAt crowdLevel ∧ after.orders = before.orders.erase 1 := by
  intro before after
  have crowded := crowded_run (show size < 2 ^ 64 by omega)
  let order := (crowdOrder 1).toOrder space
  have found : before.orders.find? 1 = some order := crowded.first (by omega)
  have after_eq : after = before.removeOrder order := by
    change (Market.run {} (messages (crowdLog size))).books = _
    rw [messages_crowdLog, Market.run_concat, Market.apply_books]
    change before.erase 1 = _
    rw [OrderBookStore.erase, found]
  have short : (before.book order.orderbookId).qtyAt (Book.isBid order.side) order.price <
      order.remainingQty.toUInt64 := by
    change before.qtyAt crowdLevel < 0xFFFFFFFF
    rw [crowd_qtyAt large]
    decide
  refine ⟨?_, ?_⟩
  · rw [after_eq, OrderBookStore.removeOrder, Book.remove_of_lt true short,
      OrderBookStore.qtyAt_setBook]
    split <;> rfl
  · rw [after_eq]
    rfl

private theorem crowdLog_restored (prior : Tables) {fh : Fh}
    (market : fh.market = Market.run {} (messages (crowdLog size))) :
    (fh.synced prior).restored.market.books.qtyAt crowdLevel = 0xFFFFFFFFFFFFFFFF := by
  have crowded := crowded_run (show size < 2 ^ 64 by omega)
  have stable : fh.market.Named WireStable := by
    rw [market]
    exact named_wireStable (nulFree_crowdLog size)
  have own : ((crowdOrder 1).toOrder space).restingAt crowdLevel = 2 ^ 32 - 1 := if_pos rfl
  have erased : OrderMap.restingQty (Market.run {} (messages (crowd size))).books.orders
      crowdLevel = ((crowdOrder 1).toOrder space).restingAt crowdLevel +
        OrderMap.restingQty fh.market.books.orders crowdLevel := by
    rw [market, (crowdLog_books large).2]
    exact KeyedMap.total_erase _ (crowded.first (by omega))
  rw [crowded.resting, own] at erased
  have rest : OrderMap.restingQty fh.market.books.orders crowdLevel = 18446744073709551615 := by
    omega
  rw [roundTrip_qtyAt stable, rest]
  decide

/-- After that many bids at one level and the deletion of one of them, none of it with a
NUL byte or a trade, the level that is rebuilt is not the one that was dumped. -/
theorem crowdLog_not_restored :
    (∀ payload ∈ crowdLog size, NulFree payload) ∧
      (Market.run {} (messages (crowdLog size))).tape = {} ∧
      (Market.run {} (messages (crowdLog size))).books.qtyAt crowdLevel = 0xFFFFFFFE ∧
      ∃ restarted,
        recoverFromDb (({} : IngestServer).accept.onData (encodeControl .reset ++
          buildSyncDump (Market.run {} (messages (crowdLog size))) {} [] 0 1)).tables.dumpState =
            some restarted ∧
        restarted.market.books.qtyAt crowdLevel = 0xFFFFFFFFFFFFFFFF := by
  have crowded := crowded_run (show size < 2 ^ 64 by omega)
  let fh : Fh := { market := Market.run {} (messages (crowdLog size)), epoch := 1 }
  have dump : encodeControl .reset ++ buildSyncDump fh.market {} [] 0 1 =
      encodeAll fh.fullSync := rfl
  have sent : [encodeAll fh.fullSync].flatten = encodeAll fh.fullSync := List.append_nil _
  have recovered := fullSync_recovers fh {} sent
  rw [List.foldl_cons, List.foldl_nil, ← dump] at recovered
  refine ⟨nulFree_crowdLog size, ?_, ?_, _, recovered, ?_⟩
  · rw [messages_crowdLog, Market.run_concat, Market.apply_tape, Market.storeStep_execution]
    exact crowded.untraded
  · rw [(crowdLog_books large).1, crowd_qtyAt large]
  · exact crowdLog_restored large _ rfl

end Overflow

/-- 2^32 + 2 bids wrap their level around to less than one of them. -/
theorem crowdedLevel_not_restored :
    (∀ payload ∈ crowdLog (2 ^ 32 + 2), NulFree payload) ∧
      (Market.run {} (messages (crowdLog (2 ^ 32 + 2)))).tape = {} ∧
      (Market.run {} (messages (crowdLog (2 ^ 32 + 2)))).books.qtyAt crowdLevel = 0xFFFFFFFE ∧
      ∃ restarted,
        recoverFromDb (({} : IngestServer).accept.onData (encodeControl .reset ++
          buildSyncDump (Market.run {} (messages (crowdLog (2 ^ 32 + 2)))) {} [] 0
            1)).tables.dumpState = some restarted ∧
        restarted.market.books.qtyAt crowdLevel = 0xFFFFFFFFFFFFFFFF :=
  crowdLog_not_restored rfl

end ProtoFH
