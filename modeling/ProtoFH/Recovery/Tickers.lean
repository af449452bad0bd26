import ProtoFH.Market.Invariants
import ProtoFH.Recovery.Loss

/-! # Tickers with several rows

The market has one entry per ticker, the database one row per ticker and group, each
as of the last message under that group. Recovery goes through the rows in key order
and the last one wins, which need not be the latest. -/

namespace ProtoFH

def SameTrades (restarted market : Market) (ticker : CStr 4) : Prop :=
  (restarted.tape.statsOf ticker).summary = (market.tape.statsOf ticker).summary

def SameStates (restarted market : Market) (ticker : CStr 4) : Prop :=
  ∀ inst, market.refdata.instruments[ticker]? = some inst →
    ∃ other, restarted.refdata.instruments[ticker]? = some other ∧
      other.tradingState = inst.tradingState ∧ other.shortSellState = inst.shortSellState

def TickersSurvive (restarted market : Market) : Prop :=
  ∀ ticker, SameTrades restarted market ticker ∧ SameStates restarted market ticker

def TickerStable (orderbookId _group : CStr 4) : Prop :=
  orderbookId.trimmed = orderbookId ∧ orderbookId ≠ .empty

/-- A state written to a row stands if recovery takes it over, and the last state beyond
the row that it takes over, if there is one, is the same. -/
def StateStands (books : OrderedMap RowKey BookRow) (field : StateSection → UInt8)
    (ticker : CStr 4) (key : RowKey) (state : UInt8) : Prop :=
  Tables.StateKnown state ∧
    ∀ other, OrderedMap.lastBeyond books (Tables.stateIn field ticker) key = some other →
      other = state

/-- What a message must meet for the rows of its ticker to stay in order. A fill may
not leave trades beyond the row it updates, and a state must stand. -/
def KeepsRowOrder (fh : Fh) (tables : Tables) (seq : UInt64) (msg : ItchMsg) : Prop :=
  let key := (fh.updateFor seq msg).wired.key
  match msg with
  | .executed .. => OrderedMap.lastBeyond tables.books (Tables.tradesIn key.ticker) key = none
  | .tradingState _ orderbookId _ state =>
      StateStands tables.books StateSection.tradingState orderbookId key state
  | .shortSellState _ orderbookId _ state =>
      StateStands tables.books StateSection.shortSellRestriction orderbookId key state
  | _ => True

instance (orderbookId group : CStr 4) : Decidable (TickerStable orderbookId group) :=
  inferInstanceAs (Decidable (_ ∧ _))

instance (books : OrderedMap RowKey BookRow) (field : StateSection → UInt8) (ticker : CStr 4)
    (key : RowKey) (state : UInt8) : Decidable (StateStands books field ticker key state) :=
  inferInstanceAs (Decidable (Tables.StateKnown state ∧
    ∀ other ∈ OrderedMap.lastBeyond books (Tables.stateIn field ticker) key, other = state))

instance (fh : Fh) (tables : Tables) (seq : UInt64) (msg : ItchMsg) :
    Decidable (KeepsRowOrder fh tables seq msg) :=
  match msg with
  | .executed .. => inferInstanceAs (Decidable (OrderedMap.lastBeyond _ _ _ = none))
  | .tradingState .. | .shortSellState .. => inferInstanceAs (Decidable (StateStands _ _ _ _ _))
  | .seconds .. | .systemEvent .. | .tickSize .. | .directory .. | .addOrder ..
  | .addAttributed .. | .deleted .. | .replaced .. | .endOfSnapshot .. =>
      inferInstanceAs (Decidable True)

/-! ## One state of a ticker -/

section State

variable {ticker : CStr 4} {default : UInt8} (knownDefault : Tables.StateKnown default)
  (field : StateSection → UInt8) (books : OrderedMap RowKey BookRow)

include knownDefault

theorem restored_state_known :
    Tables.StateKnown
      ((OrderedMap.lastWhere books (Tables.stateIn field ticker)).getD default) := by
  cases last : OrderedMap.lastWhere books (Tables.stateIn field ticker) with
  | none => exact knownDefault
  | some state =>
      rcases (OrderedMap.lastWhere_eq_some_iff _ _ _).mp last with ⟨key, row, -, found, -⟩
      exact Tables.stateIn_known found

theorem restored_state_insert_iff {key : RowKey} (row : BookRow)
    (own : key.ticker.trimmed = ticker) (named : ticker ≠ .empty) :
    (OrderedMap.lastWhere (books.insert key row) (Tables.stateIn field ticker)).getD default =
        field row.state ↔ StateStands books field ticker key (field row.state) := by
  constructor
  · intro equal
    refine ⟨?_, ?_⟩
    · rw [← equal]
      exact restored_state_known knownDefault field _
    · intro other beyond
      rw [OrderedMap.lastWhere_insert_of_beyond beyond] at equal
      exact equal
  · rintro ⟨known, same⟩
    cases beyond : OrderedMap.lastBeyond books (Tables.stateIn field ticker) key with
    | some other =>
        rw [OrderedMap.lastWhere_insert_of_beyond beyond]
        exact same other beyond
    | none =>
        have picked : Tables.stateIn field ticker key row = some (field row.state) :=
          if_pos ⟨own, named, known⟩
        rw [OrderedMap.lastWhere_insert_of_none beyond picked]
        rfl

theorem restored_state_kept {state : UInt8}
    (before : (OrderedMap.lastWhere books (Tables.stateIn field ticker)).getD default = state)
    (key : RowKey) : StateStands books field ticker key state := by
  refine ⟨?_, ?_⟩
  · rw [← before]
    exact restored_state_known knownDefault field books
  · intro other beyond
    rw [OrderedMap.lastWhere_of_beyond beyond] at before
    exact before

end State

/-! ## The trades of a ticker -/

section Trades

variable {ticker : CStr 4} {books : OrderedMap RowKey BookRow} {key : RowKey} {row : BookRow}
  (own : key.ticker.trimmed = ticker) (named : ticker ≠ .empty) {ctx : PubContext}

structure BookStats.Publishable (stats : BookStats) : Prop where
  price : stats.lastPrice.isSome
  qty : stats.lastQty.isSome
  traded : 0 < stats.tradeCount.toNat
  few : stats.tradeCount.toNat < 2 ^ 32

variable {stats : BookStats}

private theorem tradeSection_count (publishable : stats.Publishable) :
    (tradeSection ctx ticker (some stats)).tradeCount.toNat = stats.tradeCount.toNat := by
  change stats.tradeCount.toUInt32.toNat = _
  rw [UInt64.toNat_toUInt32, Nat.mod_eq_of_lt publishable.few]

include own named

theorem tradesIn_published (publishable : stats.Publishable)
    (published : row.trade = tradeSection ctx ticker (some stats)) :
    ∃ restored, Tables.tradesIn ticker key row = some restored ∧
      restored.summary = stats.summary := by
  have counted : row.trade.tradeCount > 0 := by
    rw [published, gt_iff_lt, UInt32.lt_iff_toNat_lt, tradeSection_count publishable]
    exact publishable.traded
  refine ⟨row.trade.stats, if_pos ⟨own, named, counted⟩, ?_⟩
  rw [published]
  exact tradeSection_summary publishable.price publishable.qty publishable.few ctx ticker

theorem restored_trades_kept {stats : Option BookStats}
    (published : row.trade = tradeSection ctx ticker stats)
    (publishable : ∀ known, stats = some known → known.Publishable)
    (untraded : stats = none → OrderedMap.lastWhere books (Tables.tradesIn ticker) = none)
    (before : ((OrderedMap.lastWhere books (Tables.tradesIn ticker)).getD {}).summary =
      (stats.getD {}).summary) :
    ((OrderedMap.lastWhere (books.insert key row) (Tables.tradesIn ticker)).getD {}).summary =
      (stats.getD {}).summary := by
  cases beyond : OrderedMap.lastBeyond books (Tables.tradesIn ticker) key with
  | some last =>
      rw [OrderedMap.lastWhere_insert_of_beyond beyond]
      rwa [OrderedMap.lastWhere_of_beyond beyond] at before
  | none =>
      cases stats with
      | some known =>
          rcases tradesIn_published own named (publishable known rfl) published with
            ⟨restored, picked, same⟩
          rw [OrderedMap.lastWhere_insert_of_none beyond picked]
          exact same
      | none =>
          have silent : OrderedMap.lastWhere (books.insert key row) (Tables.tradesIn ticker) =
              none := by
            rw [OrderedMap.lastWhere_eq_none_iff]
            intro other stored found
            rw [OrderedMap.lookup_insert] at found
            split at found
            · rw [← Option.some.inj found, Tables.tradesIn, if_neg]
              rintro ⟨-, -, counted⟩
              rw [published] at counted
              exact absurd counted (show ¬ (0 : UInt32) > 0 by decide)
            · exact (OrderedMap.lastWhere_eq_none_iff _ _).mp (untraded rfl) other stored found
          rw [silent]

private theorem restored_trades_fill_iff (publishable : stats.Publishable)
    (published : row.trade = tradeSection ctx ticker (some stats))
    (older : ∀ (other : RowKey) (stored : BookRow), books[other]? = some stored →
      other.ticker.trimmed = ticker → stored.trade.tradeCount.toNat < stats.tradeCount.toNat) :
    ((OrderedMap.lastWhere (books.insert key row) (Tables.tradesIn ticker)).getD {}).summary =
        stats.summary ↔
      OrderedMap.lastBeyond books (Tables.tradesIn ticker) key = none := by
  constructor
  · intro same
    cases beyond : OrderedMap.lastBeyond books (Tables.tradesIn ticker) key with
    | none => rfl
    | some last =>
        rw [OrderedMap.lastWhere_insert_of_beyond beyond] at same
        rcases (OrderedMap.lastBeyond_eq_some_iff _ _ _ _).mp beyond with
          ⟨other, stored, -, found, picked, -⟩
        unfold Tables.tradesIn at picked
        split at picked
        · next theirs =>
            have count : last.tradeCount = stats.tradeCount := congrArg TradeSummary.tradeCount same
            have less := older other stored found theirs.1
            rw [← count, ← Option.some.inj picked] at less
            change _ < stored.trade.tradeCount.toUInt64.toNat at less
            rw [UInt32.toNat_toUInt64] at less
            exact absurd less (Nat.lt_irrefl _)
        · cases picked
  · intro nothing
    rcases tradesIn_published own named publishable published with ⟨restored, picked, same⟩
    rw [OrderedMap.lastWhere_insert_of_none nothing picked]
    exact same

end Trades

/-! ## What the tables know about the market -/

structure Tracked (market : Market) (tables : Tables) : Prop where
  named : market.Named TickerStable
  traded : market.tape.Traded
  tapeNamed : ∀ (ticker : CStr 4) (stats : BookStats), market.tape.stats[ticker]? = some stats →
    ticker ≠ .empty
  counts : ∀ (key : RowKey) (row : BookRow), tables.books[key]? = some row →
    row.trade.tradeCount.toNat ≤ (market.tape.statsOf key.ticker.trimmed).tradeCount.toNat
  unknown : ∀ (key : RowKey) (row : BookRow), tables.books[key]? = some row →
    market.refdata.instruments[key.ticker.trimmed]? = none →
      ¬ Tables.StateKnown row.state.tradingState ∧
        ¬ Tables.StateKnown row.state.shortSellRestriction

variable {msg : ItchMsg}

theorem receive_update (fh : Fh) (tables : Tables) (seq : UInt64) (clock : msg.isClock = false) :
    ∃ row, (tables.receive (fh.onDecoded seq msg).2).books =
        tables.books.insert (fh.updateFor seq msg).wired.key row ∧
      row.trade = (fh.updateFor seq msg).trade ∧ row.state = (fh.updateFor seq msg).state := by
  rw [fh.onDecoded_update seq clock]
  exact ⟨_, rfl, rfl, rfl⟩

section Published

variable (fh : Fh) (seq : UInt64) (msg : ItchMsg)

theorem updateFor_ticker :
    (fh.updateFor seq msg).wired.key.ticker = (fh.market.apply msg).2.ticker.trimmed := rfl

private theorem updateFor_trade {ticker : CStr 4} (own : (fh.market.apply msg).2.ticker = ticker)
    (named : ticker ≠ .empty) :
    (fh.updateFor seq msg).trade =
      tradeSection (fh.contextAfter msg) ticker (fh.market.apply msg).1.tape.stats[ticker]? := by
  change tradeSection _ (fh.market.apply msg).2.ticker (byTicker _ _) = _
  rw [own, byTicker, if_neg named]

theorem updateFor_states {ticker : CStr 4} (own : (fh.market.apply msg).2.ticker = ticker)
    (named : ticker ≠ .empty) :
    match (fh.market.apply msg).1.refdata.instruments[ticker]? with
    | some inst =>
        (fh.updateFor seq msg).state.tradingState = inst.tradingState ∧
          (fh.updateFor seq msg).state.shortSellRestriction = inst.shortSellState
    | none =>
        (fh.updateFor seq msg).state.tradingState = ascii '?' ∧
          (fh.updateFor seq msg).state.shortSellRestriction = ascii '?' := by
  have looked : byTicker (fh.market.apply msg).1.refdata.instruments
      (fh.market.apply msg).2.ticker =
        (fh.market.apply msg).1.refdata.instruments[ticker]? := by
    rw [own, byTicker, if_neg named]
  have state : (fh.updateFor seq msg).state = stateSection (fh.market.apply msg).1
      (fh.contextAfter msg) (fh.market.apply msg).2.ticker _ (byTicker _ _) := rfl
  rw [state, looked]
  cases (fh.market.apply msg).1.refdata.instruments[ticker]? <;> exact ⟨rfl, rfl⟩

end Published

private theorem updateFor_count (fh : Fh) (seq : UInt64) (msg : ItchMsg) :
    (fh.updateFor seq msg).trade.tradeCount.toNat ≤
      ((fh.market.apply msg).1.tape.statsOf (fh.market.apply msg).2.ticker).tradeCount.toNat := by
  change (tradeSection _ _ (byTicker (fh.market.apply msg).1.tape.stats
    (fh.market.apply msg).2.ticker)).tradeCount.toNat ≤ _
  cases found : byTicker (fh.market.apply msg).1.tape.stats (fh.market.apply msg).2.ticker with
  | none => exact Nat.zero_le _
  | some stats =>
      unfold byTicker at found
      split at found
      · cases found
      · have same : (fh.market.apply msg).1.tape.statsOf (fh.market.apply msg).2.ticker =
            stats := by
          rw [TradeTape.statsOf, found]
          rfl
        rw [same]
        change stats.tradeCount.toUInt32.toNat ≤ _
        rw [UInt64.toNat_toUInt32]
        exact Nat.mod_le _ _

theorem ticker_trimmed {market : Market} (named : market.Named TickerStable)
    (names : ∀ orderbookId group, msg.book? = some (orderbookId, group) →
      TickerStable orderbookId group) :
    (market.apply msg).2.ticker.trimmed = (market.apply msg).2.ticker := by
  rcases named.ticker names with blank | ⟨group, stable⟩
  · rw [blank]
    rfl
  · exact stable.1

private theorem apply_clock (market : Market) (clock : msg.isClock = true) :
    (market.apply msg).1.tape = market.tape ∧ (market.apply msg).1.refdata = market.refdata := by
  cases msg <;> first | exact ⟨rfl, rfl⟩ | cases clock

section Step

variable {fh : Fh} {tables : Tables} (tracked : Tracked fh.market tables) {msg : ItchMsg}
  (names : ∀ orderbookId group, msg.book? = some (orderbookId, group) →
    TickerStable orderbookId group)
  (few : ∀ ticker, (fh.market.tape.statsOf ticker).tradeCount.toNat < 2 ^ 32)

include tracked names few

theorem Tracked.step (seq : UInt64) :
    Tracked (fh.market.apply msg).1 (tables.receive (fh.onDecoded seq msg).2) where
  named := tracked.named.apply names
  traded := by
    rw [Market.apply_tape]
    split
    · exact tracked.traded
    · exact tracked.traded.record (few _) _
  tapeNamed := by
    intro ticker stats found
    rcases fh.market.apply_tape_cases msg with
      ⟨ns, orderNumber, executedQty, matchNumber, order, -, live, -, tape⟩ | ⟨tape, -⟩
    · rw [tape] at found
      change (fh.market.tape.stats.insert order.orderbookId _)[ticker]? = some stats at found
      rw [OrderedMap.lookup_insert] at found
      split at found
      · next own =>
          rw [← own]
          exact (tracked.named.orders orderNumber order live).2
      · exact tracked.tapeNamed ticker stats found
    · rw [tape] at found
      exact tracked.tapeNamed ticker stats found
  counts := by
    intro key row found
    have older (found : tables.books[key]? = some row) := Nat.le_trans
      (tracked.counts key row found) (Market.tradeCount_le_apply (few key.ticker.trimmed) msg)
    cases clock : msg.isClock with
    | true =>
        rw [fh.onDecoded_clock seq clock] at found
        exact older found
    | false =>
        rcases receive_update fh tables seq clock with ⟨written, books, trade, -⟩
        rw [books, OrderedMap.lookup_insert] at found
        split at found
        · next own =>
            rw [← Option.some.inj found, trade, ← own, updateFor_ticker, CStr.trimmed_trimmed,
              ticker_trimmed tracked.named names]
            exact updateFor_count fh seq msg
        · exact older found
  unknown := by
    intro key row found missing
    have before : fh.market.refdata.instruments[key.ticker.trimmed]? = none := by
      cases known : fh.market.refdata.instruments[key.ticker.trimmed]? with
      | none => rfl
      | some inst =>
          have still : (fh.market.apply msg).1.refdata.instruments[key.ticker.trimmed]?.isSome :=
            Market.apply_instruments_isSome (by rw [known]; rfl)
          rw [missing] at still
          cases still
    cases clock : msg.isClock with
    | true =>
        rw [fh.onDecoded_clock seq clock] at found
        exact tracked.unknown key row found before
    | false =>
        rcases receive_update fh tables seq clock with ⟨written, books, -, state⟩
        rw [books, OrderedMap.lookup_insert] at found
        split at found
        · next own =>
            rw [← Option.some.inj found, state]
            have question : ¬ Tables.StateKnown (ascii '?') := by decide
            rw [← own, updateFor_ticker, CStr.trimmed_trimmed,
              ticker_trimmed tracked.named names] at missing
            by_cases blank : (fh.market.apply msg).2.ticker = .empty
            · have none : (fh.updateFor seq msg).state = stateSection (fh.market.apply msg).1
                  (fh.contextAfter msg) (fh.market.apply msg).2.ticker _
                  (byTicker (fh.market.apply msg).1.refdata.instruments
                    (fh.market.apply msg).2.ticker) := rfl
              rw [none, byTicker, if_pos blank]
              exact ⟨question, question⟩
            · have states := updateFor_states fh seq msg rfl blank
              rw [missing] at states
              rw [states.1, states.2]
              exact ⟨question, question⟩
        · exact tracked.unknown key row found before

omit names few

theorem Tracked.untraded {ticker : CStr 4} (missing : fh.market.tape.stats[ticker]? = none) :
    OrderedMap.lastWhere tables.books (Tables.tradesIn ticker) = none := by
  rw [OrderedMap.lastWhere_eq_none_iff]
  intro key row found
  rw [Tables.tradesIn, if_neg]
  rintro ⟨own, -, counted⟩
  have none : (fh.market.tape.statsOf key.ticker.trimmed).tradeCount.toNat = 0 := by
    rw [TradeTape.statsOf, own, missing]
    rfl
  have bound := tracked.counts key row found
  rw [none] at bound
  rw [gt_iff_lt, UInt32.lt_iff_toNat_lt, UInt32.toNat_zero] at counted
  omega

theorem Tracked.states {ticker : CStr 4}
    (same : SameStates tables.restored.market fh.market ticker) :
    (OrderedMap.lastWhere tables.books (Tables.stateIn StateSection.tradingState ticker)).getD
        (ascii 'V') = (fh.market.refdata.get ticker).tradingState ∧
      (OrderedMap.lastWhere tables.books
        (Tables.stateIn StateSection.shortSellRestriction ticker)).getD (ascii '0') =
          (fh.market.refdata.get ticker).shortSellState := by
  cases known : fh.market.refdata.instruments[ticker]? with
  | some inst =>
      rcases same inst known with ⟨other, found, trading, shortSell⟩
      have restored := tables.restored_states ticker
      rw [← restored.1, ← restored.2]
      simp [RefData.get, known, found, trading, shortSell]
  | none =>
      have silent (field : StateSection → UInt8)
          (unknown : ∀ (key : RowKey) (row : BookRow), tables.books[key]? = some row →
            key.ticker.trimmed = ticker → ¬ Tables.StateKnown (field row.state)) :
          OrderedMap.lastWhere tables.books (Tables.stateIn field ticker) = none := by
        rw [OrderedMap.lastWhere_eq_none_iff]
        intro key row found
        rw [Tables.stateIn, if_neg]
        rintro ⟨own, -, knownState⟩
        exact unknown key row found own knownState
      rw [silent _ fun key row found own => (tracked.unknown key row found (own ▸ known)).1,
        silent _ fun key row found own => (tracked.unknown key row found (own ▸ known)).2]
      simp [RefData.get, known]

end Step

theorem sameStates_iff {tables : Tables} {market : Market} {ticker : CStr 4} {inst : Instrument}
    (found : market.refdata.instruments[ticker]? = some inst) :
    SameStates tables.restored.market market ticker ↔
      tables.restored.market.refdata.instruments[ticker]?.isSome ∧
        (OrderedMap.lastWhere tables.books (Tables.stateIn StateSection.tradingState ticker)).getD
            (ascii 'V') = inst.tradingState ∧
          (OrderedMap.lastWhere tables.books
            (Tables.stateIn StateSection.shortSellRestriction ticker)).getD (ascii '0') =
              inst.shortSellState := by
  have restored := tables.restored_states ticker
  constructor
  · intro same
    rcases same inst found with ⟨other, present, trading, shortSell⟩
    have get : tables.restored.market.refdata.get ticker = other := by simp [RefData.get, present]
    rw [get] at restored
    exact ⟨by rw [present]; rfl, by rw [← restored.1, trading], by rw [← restored.2, shortSell]⟩
  · rintro ⟨present, trading, shortSell⟩ known knownFound
    rw [found] at knownFound
    cases knownFound
    rcases Option.isSome_iff_exists.mp present with ⟨other, here⟩
    have get : tables.restored.market.refdata.get ticker = other := by simp [RefData.get, here]
    rw [get] at restored
    exact ⟨other, here, by rw [restored.1, trading], by rw [restored.2, shortSell]⟩

theorem survive_other {tables after : Tables} {key : RowKey} {row : BookRow} {market next : Market}
    {ticker : CStr 4} (books : after.books = tables.books.insert key row)
    (other : key.ticker.trimmed ≠ ticker)
    (stats : next.tape.stats[ticker]? = market.tape.stats[ticker]?)
    (instruments : next.refdata.instruments[ticker]? = market.refdata.instruments[ticker]?)
    (survive : SameTrades tables.restored.market market ticker ∧
      SameStates tables.restored.market market ticker) :
    SameTrades after.restored.market next ticker ∧
      SameStates after.restored.market next ticker := by
  have trades (row : BookRow) : Tables.tradesIn ticker key row = none :=
    if_neg fun own => other own.1
  have states (field : StateSection → UInt8) (row : BookRow) :
      Tables.stateIn field ticker key row = none := if_neg fun own => other own.1
  refine ⟨?_, ?_⟩
  · have same := survive.1
    rw [SameTrades, TradeTape.statsOf, TradeTape.statsOf, Tables.restored_stats] at same ⊢
    rw [books, OrderedMap.lastWhere_insert_skip trades, stats]
    exact same
  · intro inst found
    have before := found
    rw [instruments] at before
    have present (row : BookRow) : Tables.instrumentIn ticker key row = none :=
      if_neg fun own => other own.1
    have same := (sameStates_iff before).mp survive.2
    rw [Tables.restored_instrument] at same
    refine (sameStates_iff found).mpr ?_ inst found
    rw [Tables.restored_instrument, books, OrderedMap.lastWhere_insert_skip present,
      OrderedMap.lastWhere_insert_skip (states _), OrderedMap.lastWhere_insert_skip (states _)]
    exact same

/-! ## The ticker of a message -/

section Own

variable {fh : Fh} {tables after : Tables} (tracked : Tracked fh.market tables) {msg : ItchMsg}
  {seq : UInt64} {row : BookRow}
  (books : after.books = tables.books.insert (fh.updateFor seq msg).wired.key row)
  (own : (fh.updateFor seq msg).wired.key.ticker.trimmed = (fh.market.apply msg).2.ticker)
  (named : (fh.market.apply msg).2.ticker ≠ .empty)

include tracked books own named

theorem trades_own_iff (trade : row.trade = (fh.updateFor seq msg).trade)
    (few : ∀ ticker, (fh.market.tape.statsOf ticker).tradeCount.toNat < 2 ^ 32)
    (fewAfter : ∀ ticker, ((fh.market.apply msg).1.tape.statsOf ticker).tradeCount.toNat < 2 ^ 32)
    (survive : SameTrades tables.restored.market fh.market (fh.market.apply msg).2.ticker) :
    SameTrades after.restored.market (fh.market.apply msg).1 (fh.market.apply msg).2.ticker ↔
      (msg.type = ascii 'E' → OrderedMap.lastBeyond tables.books
        (Tables.tradesIn (fh.market.apply msg).2.ticker) (fh.updateFor seq msg).wired.key =
          none) := by
  rw [updateFor_trade fh seq msg rfl named] at trade
  rw [SameTrades, TradeTape.statsOf, TradeTape.statsOf, Tables.restored_stats] at survive ⊢
  rw [books]
  rcases fh.market.apply_tape_cases msg with
    ⟨ns, orderNumber, executedQty, matchNumber, order, fill, -, ticker, tape⟩ | ⟨tape, orphan⟩
  · let execution := Market.executionOf order executedQty matchNumber
    rcases Exists.intro _ (rfl : (fh.market.tape.statsOf order.orderbookId).record execution
      (fh.market.basePrice order.orderbookId) = _) with ⟨stats, stats_eq⟩
    have filled : (fh.market.apply msg).1.tape.stats[(fh.market.apply msg).2.ticker]? =
        some stats := by
      rw [tape, ticker, ← stats_eq]
      exact OrderedMap.lookup_insert_self _ _ _
    have counted : stats.tradeCount.toNat =
        (fh.market.tape.statsOf order.orderbookId).tradeCount.toNat + 1 := by
      rw [← stats_eq, BookStats.record_tradeCount (few order.orderbookId)]
    have publishable : stats.Publishable := by
      refine ⟨by rw [← stats_eq]; rfl, by rw [← stats_eq]; rfl, by omega, ?_⟩
      have bound := fewAfter (fh.market.apply msg).2.ticker
      rwa [TradeTape.statsOf, filled] at bound
    have isFill : msg.type = ascii 'E' := by rw [fill]; rfl
    rw [filled] at trade ⊢
    refine (restored_trades_fill_iff own named publishable trade ?_).trans
      ⟨fun nothing _ => nothing, fun nothing => nothing isFill⟩
    intro other stored found theirs
    have bound := tracked.counts other stored found
    rw [theirs, ticker] at bound
    omega
  · rw [tape] at trade ⊢
    refine iff_of_true (restored_trades_kept own named trade ?_ ?_ survive) ?_
    · intro stats known
      rcases tracked.traded _ stats known with ⟨price, qty, traded⟩
      have bound := few (fh.market.apply msg).2.ticker
      rw [TradeTape.statsOf, known] at bound
      exact ⟨price, qty, traded, bound⟩
    · exact tracked.untraded
    · intro fill
      exact absurd (orphan fill) named

omit tracked in
theorem states_own_iff (state : row.state = (fh.updateFor seq msg).state) {inst : Instrument}
    (found : (fh.market.apply msg).1.refdata.instruments[(fh.market.apply msg).2.ticker]? =
      some inst) :
    SameStates after.restored.market (fh.market.apply msg).1 (fh.market.apply msg).2.ticker ↔
      StateStands tables.books StateSection.tradingState (fh.market.apply msg).2.ticker
          (fh.updateFor seq msg).wired.key inst.tradingState ∧
        StateStands tables.books StateSection.shortSellRestriction
          (fh.market.apply msg).2.ticker (fh.updateFor seq msg).wired.key inst.shortSellState := by
  have states := updateFor_states fh seq msg rfl named
  simp only [found, ← state] at states
  have trading := restored_state_insert_iff (show Tables.StateKnown (ascii 'V') by decide)
    StateSection.tradingState tables.books row own named
  have shortSell := restored_state_insert_iff (show Tables.StateKnown (ascii '0') by decide)
    StateSection.shortSellRestriction tables.books row own named
  rw [states.1] at trading
  rw [states.2] at shortSell
  rw [sameStates_iff found, books, trading, shortSell]
  constructor
  · exact And.right
  · rintro ⟨⟨known, same⟩, restricted⟩
    refine ⟨?_, ⟨known, same⟩, restricted⟩
    rw [Tables.restored_instrument, books]
    exact OrderedMap.lastWhere_insert_isSome
      (Tables.instrumentIn_of_known own named (by rw [states.1]; exact known)) _

end Own

/-! ## Steps and runs -/

section Survival

variable {fh : Fh} {tables : Tables} (tracked : Tracked fh.market tables) {msg : ItchMsg}
  (names : ∀ orderbookId group, msg.book? = some (orderbookId, group) →
    TickerStable orderbookId group)
  (few : ∀ ticker, (fh.market.tape.statsOf ticker).tradeCount.toNat < 2 ^ 32)
  (fewAfter : ∀ ticker, ((fh.market.apply msg).1.tape.statsOf ticker).tradeCount.toNat < 2 ^ 32)
  (survive : TickersSurvive tables.restored.market fh.market)

private theorem survive_blank {market : Market} (tracked : Tracked market tables) :
    SameTrades tables.restored.market market .empty ∧
      SameStates tables.restored.market market .empty := by
  have silent : OrderedMap.lastWhere tables.books (Tables.tradesIn .empty) = none := by
    rw [OrderedMap.lastWhere_eq_none_iff]
    intro key row _
    exact if_neg fun own => own.2.1 rfl
  refine ⟨?_, ?_⟩
  · rw [SameTrades, TradeTape.statsOf, TradeTape.statsOf, Tables.restored_stats, silent]
    cases found : market.tape.stats[(CStr.empty : CStr 4)]? with
    | none => rfl
    | some stats => exact absurd rfl (tracked.tapeNamed _ stats found)
  · intro inst found
    exact absurd rfl (tracked.named.instruments _ inst found).2

include tracked names few survive

private theorem survive_step_blank (seq : UInt64) (clock : msg.isClock = false)
    (blank : (fh.market.apply msg).2.ticker = .empty) :
    TickersSurvive (tables.receive (fh.onDecoded seq msg).2).restored.market
        (fh.market.apply msg).1 ∧ KeepsRowOrder fh tables seq msg := by
  rcases receive_update fh tables seq clock with ⟨row, books, -, -⟩
  refine ⟨?_, ?_⟩
  · intro ticker
    by_cases own : (fh.market.apply msg).2.ticker = ticker
    · rw [← own, blank]
      exact survive_blank (tracked.step names few seq)
    · refine survive_other books ?_ (Market.apply_stats_of_ne _ _ own)
        (Market.apply_instruments_of_ne _ _ own) (survive ticker)
      rw [updateFor_ticker, CStr.trimmed_trimmed, ticker_trimmed tracked.named names]
      exact own
  · cases msg with
    | executed ns orderNumber executedQty matchNumber =>
        change OrderedMap.lastBeyond tables.books (Tables.tradesIn
          (fh.updateFor seq _).wired.key.ticker) _ = none
        rw [updateFor_ticker, blank]
        refine (OrderedMap.lastWhere_eq_none_iff _ _).mpr fun key row _ => ?_
        rw [show Tables.tradesIn (CStr.empty : CStr 4).trimmed key row = none from
          if_neg fun own => own.2.1 rfl, ite_self]
    | tradingState ns orderbookId group state | shortSellState ns orderbookId group state =>
        exact absurd blank (names _ _ rfl).2
    | _ => trivial

include fewAfter

/-- The exact step: from a state in which everything survives, a message leads to
another such state exactly if it keeps the rows of its ticker in order. -/
theorem survive_step_iff (seq : UInt64) :
    TickersSurvive (tables.receive (fh.onDecoded seq msg).2).restored.market
        (fh.market.apply msg).1 ↔ KeepsRowOrder fh tables seq msg := by
  cases clock : msg.isClock with
  | true =>
      have same := apply_clock fh.market clock
      rw [fh.onDecoded_clock seq clock]
      refine iff_of_true ?_ ?_
      · intro ticker
        have before := survive ticker
        rw [SameTrades, SameStates] at before ⊢
        rw [same.1, same.2]
        exact before
      · cases msg <;> trivial
  | false =>
      by_cases blank : (fh.market.apply msg).2.ticker = .empty
      · have both := survive_step_blank tracked names few survive seq clock blank
        exact iff_of_true both.1 both.2
      rcases receive_update fh tables seq clock with ⟨row, books, trade, state⟩
      have own : (fh.updateFor seq msg).wired.key.ticker.trimmed =
          (fh.market.apply msg).2.ticker := by
        rw [updateFor_ticker, CStr.trimmed_trimmed, ticker_trimmed tracked.named names]
      -- Only the ticker of the message is at stake.
      have only : TickersSurvive (tables.receive (fh.onDecoded seq msg).2).restored.market
          (fh.market.apply msg).1 ↔
            SameTrades (tables.receive (fh.onDecoded seq msg).2).restored.market
              (fh.market.apply msg).1 (fh.market.apply msg).2.ticker ∧
            SameStates (tables.receive (fh.onDecoded seq msg).2).restored.market
              (fh.market.apply msg).1 (fh.market.apply msg).2.ticker := by
        refine ⟨fun all => all _, fun here ticker => ?_⟩
        by_cases same : (fh.market.apply msg).2.ticker = ticker
        · rw [← same]
          exact here
        · exact survive_other books (by rw [own]; exact same) (Market.apply_stats_of_ne _ _ same)
            (Market.apply_instruments_of_ne _ _ same) (survive ticker)
      have trades := trades_own_iff tracked books own blank trade few fewAfter (survive _).1
      have before := tracked.states (survive (fh.market.apply msg).2.ticker).2
      have trading := restored_state_kept (by decide) StateSection.tradingState tables.books
        before.1 (fh.updateFor seq msg).wired.key
      have shortSell := restored_state_kept (by decide) StateSection.shortSellRestriction
        tables.books before.2 (fh.updateFor seq msg).wired.key
      have kept (unchanged : ∀ inst,
          (fh.market.apply msg).1.refdata.instruments[(fh.market.apply msg).2.ticker]? =
              some inst →
            inst.tradingState =
              (fh.market.refdata.get (fh.market.apply msg).2.ticker).tradingState ∧
            inst.shortSellState =
              (fh.market.refdata.get (fh.market.apply msg).2.ticker).shortSellState) :
          SameStates (tables.receive (fh.onDecoded seq msg).2).restored.market
            (fh.market.apply msg).1 (fh.market.apply msg).2.ticker := by
        intro inst found
        have equal := unchanged inst found
        rw [← equal.1] at trading
        rw [← equal.2] at shortSell
        exact (states_own_iff books own blank state found).mpr ⟨trading, shortSell⟩ inst found
      rw [only, trades]
      cases msg with
      | executed ns orderNumber executedQty matchNumber =>
          have states := kept fun inst found => Market.apply_states found
          have key : (fh.updateFor seq
              (.executed ns orderNumber executedQty matchNumber)).wired.key.ticker = _ :=
            ticker_trimmed tracked.named names
          simp only [KeepsRowOrder, key]
          exact ⟨fun both => both.1 rfl, fun nothing => ⟨fun _ => nothing, states⟩⟩
      | tradingState ns orderbookId group trade' =>
          have found :
              (fh.market.apply (.tradingState ns orderbookId group trade')).1.refdata.instruments[
              orderbookId]? = some { (fh.market.refdata.get orderbookId).fillGroup group with
                tradingState := trade' } := by
            rw [Market.apply_refdata]
            exact (RefData.modify_lookup _ _ _ _).trans (if_pos rfl)
          have states := states_own_iff books own blank state found
          exact ⟨fun both => (states.mp both.2).1,
            fun keeps => ⟨fun fill => (by cases fill), states.mpr ⟨keeps, shortSell⟩⟩⟩
      | shortSellState ns orderbookId group restriction =>
          have found : (fh.market.apply (.shortSellState ns orderbookId group
              restriction)).1.refdata.instruments[orderbookId]? =
                some { (fh.market.refdata.get orderbookId).fillGroup group with
                  shortSellState := restriction } := by
            rw [Market.apply_refdata]
            exact (RefData.modify_lookup _ _ _ _).trans (if_pos rfl)
          have states := states_own_iff books own blank state found
          exact ⟨fun both => (states.mp both.2).2,
            fun keeps => ⟨fun fill => (by cases fill), states.mpr ⟨trading, keeps⟩⟩⟩
      | _ =>
          refine iff_of_true ⟨fun fill => ?_, kept fun inst found => Market.apply_states found⟩
            trivial
          cases fill

end Survival

namespace LiveState

private theorem start_tracked (prior : Tables) (epoch : UInt64) :
    Tracked {} (rebased prior epoch) where
  named := Market.Named.empty
  traded := fun ticker stats found => by simp at found
  tapeNamed := fun ticker stats found => by simp at found
  counts := fun key row found => by simp [rebased] at found
  unknown := fun key row found => by simp [rebased] at found

private theorem start_survive (prior : Tables) (epoch : UInt64) :
    TickersSurvive (rebased prior epoch).restored.market {} := by
  intro ticker
  have silent {value : Type} (pick : RowKey → BookRow → Option value) :
      OrderedMap.lastWhere (rebased prior epoch).books pick = none := by
    rw [OrderedMap.lastWhere_eq_none_iff]
    intro key row found
    simp [rebased] at found
  refine ⟨?_, fun inst found => by simp at found⟩
  rw [SameTrades, TradeTape.statsOf, TradeTape.statsOf, Tables.restored_stats, silent]
  simp

section Run

variable {prior : Tables} {epoch : UInt64} {session : Bytes} {log : ExchangeLog}
  (stable : ∀ msg ∈ messages log.payloads, ∀ orderbookId group,
    msg.book? = some (orderbookId, group) → TickerStable orderbookId group)
  (few : ∀ count ticker, ((run prior epoch session log count).fh.market.tape.statsOf
    ticker).tradeCount.toNat < 2 ^ 32)

include stable few

private theorem run_tracked (count : Nat) :
    Tracked (run prior epoch session log count).fh.market
      (run prior epoch session log count).db.tables := by
  induction count with
  | zero =>
      rcases coldStart_settled prior epoch session with ⟨-, fh, tables⟩
      change Tracked (coldStart prior epoch session).fh.market
        (coldStart prior epoch session).db.tables
      rw [fh, tables]
      exact start_tracked prior epoch
  | succ count induction =>
      cases next : log.payloads[count]? with
      | none => rwa [run_past _ _ _ next]
      | some payload =>
          have stepped := run_succ prior epoch session next
          cases decoded : decode payload with
          | error reason =>
              rw [decoded] at stepped
              rwa [stepped]
          | ok msg =>
              rw [decoded] at stepped
              rw [stepped.1, stepped.2, onDecoded_market]
              exact induction.step
                (stable msg (mem_messages.mpr ⟨payload, List.mem_of_getElem? next, decoded⟩))
                (few count) _

/-- Trades and states of every ticker survive a crash at every point of a log exactly
if each message keeps the rows of its ticker in order. -/
theorem tickers_survive_iff :
    (∀ count, ∃ restarted,
        recoverFromDb (run prior epoch session log count).db.stateReply = some restarted ∧
          TickersSurvive restarted.market (run prior epoch session log count).fh.market) ↔
      ∀ count payload msg, log.payloads[count]? = some payload → decode payload = .ok msg →
        KeepsRowOrder (run prior epoch session log count).fh
          (run prior epoch session log count).db.tables (UInt64.ofNat (count + 1)) msg := by
  have tracked (count : Nat) := run_tracked stable few count
  have named {count : Nat} {payload : Bytes} {msg : ItchMsg}
      (next : log.payloads[count]? = some payload) (decoded : decode payload = .ok msg) :=
    stable msg (mem_messages.mpr ⟨payload, List.mem_of_getElem? next, decoded⟩)
  have after {count : Nat} {payload : Bytes} {msg : ItchMsg}
      (next : log.payloads[count]? = some payload) (decoded : decode payload = .ok msg) :
      (run prior epoch session log (count + 1)).fh.market =
          ((run prior epoch session log count).fh.market.apply msg).1 ∧
        (run prior epoch session log (count + 1)).db.tables =
          (run prior epoch session log count).db.tables.receive
            ((run prior epoch session log count).fh.onDecoded
              (UInt64.ofNat (count + 1)) msg).2 := by
    have stepped := run_succ prior epoch session next
    rw [decoded] at stepped
    exact ⟨by rw [stepped.1, onDecoded_market], stepped.2⟩
  have step {count : Nat} {payload : Bytes} {msg : ItchMsg}
      (next : log.payloads[count]? = some payload) (decoded : decode payload = .ok msg)
      (survive : TickersSurvive (run prior epoch session log count).db.tables.restored.market
        (run prior epoch session log count).fh.market) :
      TickersSurvive (run prior epoch session log (count + 1)).db.tables.restored.market
          (run prior epoch session log (count + 1)).fh.market ↔
        KeepsRowOrder (run prior epoch session log count).fh
          (run prior epoch session log count).db.tables (UInt64.ofNat (count + 1)) msg := by
    have fewAfter := few (count + 1)
    rw [(after next decoded).1] at fewAfter
    rw [(after next decoded).1, (after next decoded).2]
    exact survive_step_iff (tracked count) (named next decoded) (few count) fewAfter survive _
  constructor
  · intro survive
    have restored (count : Nat) :
        TickersSurvive (run prior epoch session log count).db.tables.restored.market
          (run prior epoch session log count).fh.market := by
      rcases survive count with ⟨restarted, recovered, same⟩
      rw [(run_recoverable prior epoch session log count).1] at recovered
      cases recovered
      exact same
    intro count payload msg next decoded
    exact (step next decoded (restored count)).mp (restored (count + 1))
  · intro keeps count
    refine ⟨_, (run_recoverable prior epoch session log count).1, ?_⟩
    induction count with
    | zero =>
        rcases coldStart_settled prior epoch session with ⟨-, fh, tables⟩
        change TickersSurvive (coldStart prior epoch session).db.tables.restored.market
          (coldStart prior epoch session).fh.market
        rw [fh, tables]
        exact start_survive prior epoch
    | succ count induction =>
        cases next : log.payloads[count]? with
        | none => rwa [run_past _ _ _ next]
        | some payload =>
            cases decoded : decode payload with
            | error reason =>
                have stepped := run_succ prior epoch session next
                rw [decoded] at stepped
                rwa [stepped]
            | ok msg =>
                exact (step next decoded induction).mpr (keeps count payload msg next decoded)

end Run

/-- An order in book `1301` under a group, and a fill of it. -/
def filledUnder (group : UInt8) (orderNumber : UInt8) : List Bytes :=
  [[ascii 'A', 0, 0, 0, 7, 0, 0, 0, 0, 0, 0, 0, orderNumber, ascii 'B', 0, 0, 0, 200,
      ascii '1', ascii '3', ascii '0', ascii '1', group, space, space, space, 0, 0, 3, 232],
    [ascii 'E', 0, 0, 0, 8, 0, 0, 0, 0, 0, 0, 0, orderNumber, 0, 0, 0, 100,
      0, 0, 0, 0, 0, 0, 0, orderNumber]]

/-- Fills of one ticker under groups `A` and `Z`, in that order. -/
def orderedLog : ExchangeLog where
  payloads := filledUnder (ascii 'A') 1 ++ filledUnder (ascii 'Z') 2
  numbered := by decide

def crossedLog : ExchangeLog where
  payloads := filledUnder (ascii 'Z') 1 ++ filledUnder (ascii 'A') 2
  numbered := by decide

theorem tickers_survive_ordered :
    ∃ restarted, recoverFromDb (run {} 1 [] orderedLog 4).db.stateReply = some restarted ∧
      TickersSurvive restarted.market (run {} 1 [] orderedLog 4).fh.market := by
  have length : (messages orderedLog.payloads).length = 4 := by decide
  have stable : ∀ msg ∈ messages orderedLog.payloads, ∀ orderbookId group,
      msg.book? = some (orderbookId, group) → TickerStable orderbookId group := by
    have checked : ∀ msg ∈ messages orderedLog.payloads, ∀ book ∈ msg.book?,
        TickerStable book.1 book.2 := by decide +kernel
    exact fun msg member orderbookId group => checked msg member (orderbookId, group)
  have few (count : Nat) (ticker : CStr 4) : ((run {} 1 [] orderedLog count).fh.market.tape.statsOf
      ticker).tradeCount.toNat < 2 ^ 32 := by
    rw [run_market]
    refine (Market.withinCounters_of_length ?_).trades ticker
    have sublist : (messages (orderedLog.payloads.take count)).length ≤ 4 := by
      rw [← length]
      exact ((List.take_sublist _ _).filterMap _).length_le
    omega
  refine (tickers_survive_iff stable few).mpr ?_ 4
  have checked : ∀ count < 4, ∀ payload ∈ orderedLog.payloads[count]?,
      ∀ msg ∈ (decode payload).toOption, KeepsRowOrder (run {} 1 [] orderedLog count).fh
        (run {} 1 [] orderedLog count).db.tables (UInt64.ofNat (count + 1)) msg := by
    decide +kernel
  intro count payload msg next decoded
  exact checked count (List.getElem?_eq_some_iff.mp next).1 payload next msg (by rw [decoded]; rfl)

/-- The fill under group `A` comes second, but the row of group `Z` is read last. -/
theorem tickers_lost :
    ∃ restarted, recoverFromDb (run {} 1 [] crossedLog 4).db.stateReply = some restarted ∧
      ((run {} 1 [] crossedLog 4).fh.market.tape.statsOf
        (CStr.copy 4 [ascii '1', ascii '3', ascii '0', ascii '1'])).tradeCount = 2 ∧
      (restarted.market.tape.statsOf
        (CStr.copy 4 [ascii '1', ascii '3', ascii '0', ascii '1'])).tradeCount = 1 := by
  refine ⟨_, (run_recoverable {} 1 [] crossedLog 4).1, ?_, ?_⟩
  · rw [run_market]
    decide +kernel
  · decide +kernel

end LiveState

end ProtoFH
