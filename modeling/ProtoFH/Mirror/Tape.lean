import ProtoFH.Foundation.Ring
import ProtoFH.Mirror.Invariant

/-! # The trade tapes of the database

The database appends a tape entry for every update triggered by an `E`, matched or not.
Beside a run of the feed handler and its database stands the list of the executions
that were matched and published since the last `RESET`; the tapes are to hold the last
of them. -/

namespace ProtoFH

theorem pushTape_eq (tape : List TapeEntry) (entry : TapeEntry) :
    pushTape tape entry = lastFew tapeCap (tape ++ [entry]) := by
  rw [pushTape, lastFew, List.length_append, List.length_singleton]

def Tables.tapeOf (tables : Tables) (key : RowKey) : List TapeEntry :=
  (tables.books[key]?.map BookRow.tape).getD []

def TapeEntry.blank : TapeEntry := { ns := 0, price := 0, qty := 0, matchNumber := 0 }

theorem Tables.tapeOf_store (tables : Tables) (rec : UpdateRecord) (key : RowKey) :
    (tables.store rec).tapeOf key =
      if rec.key = key ∧ rec.envelope.trigger = ascii 'E' then
        pushTape (tables.tapeOf key) rec.tapeEntry
      else tables.tapeOf key := by
  change ((tables.books.insert rec.key (rec.toRow (tables.tapeOf rec.key)))[key]?.map
    BookRow.tape).getD [] = _
  rw [OrderedMap.lookup_insert]
  by_cases here : rec.key = key
  · subst here
    by_cases traded : rec.envelope.trigger = ascii 'E' <;>
      simp [UpdateRecord.toRow, traded]
  · rw [if_neg here, if_neg fun both => here both.1]
    rfl

private theorem Fh.tapeOf_synced (fh : Fh) (prior : Tables) (key : RowKey) :
    (fh.synced prior).tapeOf key = [] := by
  have rows : (fh.syncedRows prior).tapeOf key = (fh.syncedOrders prior).tapeOf key := by
    apply foldl_frame fun tables : Tables => tables.tapeOf key
    intro tables rec member
    have trigger : rec.wired.envelope.trigger = ascii '#' := by
      rcases List.mem_append.mp member with row | event
      · obtain ⟨res, -, rfl⟩ := List.mem_map.mp row
        rfl
      · obtain ⟨entry, -, rfl⟩ := List.mem_map.mp event
        rfl
    rw [Tables.tapeOf_store, if_neg]
    rintro ⟨-, traded⟩
    rw [trigger] at traded
    exact absurd traded (by decide)
  have kept (tables : Tables) (rec : SyncEndRecord) :
      (tables.adoptMeta rec).countSyncCompleted.tapeOf key = tables.tapeOf key := rfl
  rw [Fh.synced, kept, rows, Tables.tapeOf, syncedOrders_books]
  simp

/-! ## What a message publishes -/

/-- The entry of the execution that a message is, if it was matched, and the row it is
published under. -/
def Fh.matched (fh : Fh) (seq : UInt64) (msg : ItchMsg) : Option (RowKey × TapeEntry) :=
  (fh.market.apply msg).2.trade.map fun execution =>
    ((fh.updateFor seq msg).wired.key,
      { ns := makeTimestamp (fh.market.apply msg).1.seconds msg.ns
        price := execution.price
        qty := execution.qty
        matchNumber := execution.matchNumber })

def ItchMsg.isExecution : ItchMsg → Bool
  | .executed .. => true
  | _ => false

private theorem ItchMsg.type_eq_E_iff (msg : ItchMsg) :
    msg.type = ascii 'E' ↔ msg.isExecution = true := by
  cases msg <;> simp only [type, isExecution] <;> decide

variable {msg : ItchMsg}

theorem Market.trade_of_other (market : Market) (other : msg.isExecution = false) :
    (market.apply msg).2.trade = none := by
  cases msg with
  | executed => cases other
  | addOrder order | deleted nanos orderNumber | replaced nanos orig number qty price =>
      simp only [apply, route]
      split <;> rfl
  | _ => rfl

private theorem Fh.tapeOf_receive (fh : Fh) (tables : Tables) (seq : UInt64) (msg : ItchMsg)
    (key : RowKey) :
    (tables.receive (fh.onDecoded seq msg).2).tapeOf key =
      if msg.isExecution ∧ (fh.updateFor seq msg).wired.key = key then
        pushTape (tables.tapeOf key) (fh.updateFor seq msg).tapeEntry
      else tables.tapeOf key := by
  cases clock : msg.isClock with
  | true =>
      have other : msg.isExecution = false := by
        cases msg <;> first | rfl | cases clock
      rw [fh.onDecoded_clock seq clock, other]
      simp [Tables.receive]
  | false =>
      rw [fh.onDecoded_update seq clock]
      have trigger : (fh.updateFor seq msg).wired.envelope.trigger = msg.type :=
        Market.apply_trigger _ _
      have stored : (tables.receive (some (fh.updateFor seq msg))).tapeOf key =
          (tables.store (fh.updateFor seq msg).wired).tapeOf key := rfl
      have entry : (fh.updateFor seq msg).wired.tapeEntry = (fh.updateFor seq msg).tapeEntry := rfl
      simp only [stored, Tables.tapeOf_store, trigger, ItchMsg.type_eq_E_iff, entry, and_comm]

theorem Market.trade_eq_some {market : Market} {execution : Execution}
    (traded : (market.apply msg).2.trade = some execution) :
    (market.apply msg).2.ticker = execution.orderbookId ∧
      (storeStep market.books msg).2 = some execution ∧ msg.isExecution = true := by
  cases kind : msg.isExecution with
  | false =>
      rw [trade_of_other market kind] at traded
      cases traded
  | true =>
      cases msg <;> try cases kind
      rename_i nanos orderNumber executedQty matchNumber
      rw [apply_executed_result] at traded ⊢
      rw [storeStep_execution]
      cases found : market.books.orders.find? orderNumber with
      | none => rw [found] at traded; cases traded
      | some order =>
          rw [found] at traded
          cases traded
          exact ⟨rfl, by simp only [found, Option.map_some], rfl⟩

theorem Fh.tapeEntry_matched {fh : Fh} {seq : UInt64} {execution : Execution}
    (traded : (fh.market.apply msg).2.trade = some execution) :
    (fh.updateFor seq msg).tapeEntry =
      if execution.orderbookId = .empty then .blank
      else
        { ns := makeTimestamp (fh.market.apply msg).1.seconds msg.ns
          price := execution.price
          qty := execution.qty
          matchNumber := execution.matchNumber } := by
  obtain ⟨ticker, stepped, kind⟩ := Market.trade_eq_some traded
  have section_eq : (fh.updateFor seq msg).trade =
      tradeSection (fh.contextAfter msg) execution.orderbookId
        (byTicker (fh.market.apply msg).1.tape.stats execution.orderbookId) := by
    rw [← ticker]
    rfl
  have entry : (fh.updateFor seq msg).tapeEntry =
      { ns := (fh.updateFor seq msg).trade.lastTradeNs
        price := (fh.updateFor seq msg).trade.lastPrice
        qty := (fh.updateFor seq msg).trade.lastQty
        matchNumber := (fh.updateFor seq msg).trade.lastMatchNumber } := rfl
  rw [entry, section_eq]
  by_cases blank : execution.orderbookId = .empty
  · rw [byTicker, if_pos blank, if_pos blank]
    rfl
  · have noted : (fh.contextAfter msg).lastTradeNs[execution.orderbookId]? =
        some (makeTimestamp (fh.market.apply msg).1.seconds msg.ns) := by
      have context : fh.contextAfter msg = fh.ctx.note (fh.market.apply msg).2
          (makeTimestamp (fh.market.apply msg).1.seconds msg.ns) := by
        cases msg <;> first | rfl | cases kind
      rw [context, PubContext.note, traded]
      exact OrderedMap.lookup_insert_self _ _ _
    have recorded : (fh.market.apply msg).1.tape.stats[execution.orderbookId]? =
        some ((fh.market.tape.statsOf execution.orderbookId).record execution
          (fh.market.basePrice execution.orderbookId)) := by
      rw [Market.apply_tape, stepped]
      exact OrderedMap.lookup_insert_self _ _ _
    rw [byTicker, if_neg blank, if_neg blank, recorded]
    simp only [tradeSection, noted, BookStats.record, Option.getD_some]

private theorem Fh.updateFor_orphan {fh : Fh} (seq : UInt64) (kind : msg.isExecution = true)
    (orphan : (fh.market.apply msg).2.trade = none) :
    (fh.updateFor seq msg).wired.key = ⟨.empty, .empty⟩ ∧
      (fh.updateFor seq msg).tapeEntry = .blank := by
  have result : (fh.market.apply msg).2 = { trigger := ascii 'E' } := by
    cases msg <;> try cases kind
    rename_i nanos orderNumber executedQty matchNumber
    rw [Market.apply_executed_result] at orphan ⊢
    cases found : fh.market.books.orders.find? orderNumber with
    | none => rfl
    | some order => rw [found] at orphan; cases orphan
  rw [Fh.updateFor, result]
  exact ⟨rfl, rfl⟩

/-! ## Runs -/

/-- What can happen to a feed handler that publishes a log to its database: the next
message, or a link that is lost, misses some messages and is restored. -/
inductive LinkEvent where
  | message
  | outage (missed : Nat)
deriving DecidableEq

/-- A run, the number of messages given to the feed handler, and the matched executions
it published since the last `RESET`. -/
structure TapeRun where
  live : LiveState
  position : Nat := 0
  published : List (RowKey × TapeEntry) := []

namespace TapeRun

def start (prior : Tables) (epoch : UInt64) (session : Bytes) : TapeRun :=
  { live := .coldStart prior epoch session }

def executions (run : TapeRun) (payload : Bytes) : List (RowKey × TapeEntry) :=
  match decode payload with
  | .error _ => []
  | .ok msg => (run.live.fh.matched (UInt64.ofNat (run.position + 1)) msg).toList

def onMessage (run : TapeRun) (payload : Bytes) : TapeRun where
  live := run.live.onMessage (UInt64.ofNat (run.position + 1)) payload
  position := run.position + 1
  published := run.published ++ run.executions payload

def miss (log : ExchangeLog) (run : TapeRun) : TapeRun :=
  match log.payloads[run.position]? with
  | none => run
  | some payload =>
      { live :=
          { run.live with
            fh := (run.live.fh.onMessage (UInt64.ofNat (run.position + 1)) payload).1 }
        position := run.position + 1
        published := run.published ++ run.executions payload }

/-- `try_db_connect` on a link that works: what it sends, if anything, is a full sync,
and that begins with a `RESET`. -/
def reconnect (run : TapeRun) : TapeRun :=
  let running : Running := { fh := run.live.fh, position := run.position }
  let system := ({ db := run.live.db } : System).tryDbConnect running .greeted .sent
  { live := { run.live with db := system.db.onData system.wire }
    position := run.position
    published := if system.wire = [] then run.published else [] }

def step (log : ExchangeLog) (run : TapeRun) : LinkEvent → TapeRun
  | .message =>
      match log.payloads[run.position]? with
      | none => run
      | some payload => run.onMessage payload
  | .outage missed => ((miss log)^[missed] run).reconnect

def after (prior : Tables) (epoch : UInt64) (session : Bytes) (log : ExchangeLog)
    (events : List LinkEvent) : TapeRun :=
  events.foldl (step log) (start prior epoch session)

def under (run : TapeRun) (key : RowKey) : List TapeEntry :=
  (run.published.filter fun entry => entry.1 = key).map Prod.snd

def Exact (run : TapeRun) : Prop :=
  ∀ key, run.live.db.tables.tapeOf key = lastFew tapeCap (run.under key)

structure Level (log : ExchangeLog) (run : TapeRun) : Prop where
  settled : run.live.Settled (run.position + 1)
  within : run.position ≤ log.payloads.length
  last : run.live.fh.lastExchSeq.toNat ≤ run.position

/-! ### One message -/

variable {log : ExchangeLog} {run : TapeRun} {payload : Bytes}

private theorem under_append (run : TapeRun) (later : List (RowKey × TapeEntry)) (key : RowKey) :
    ({ run with published := run.published ++ later } : TapeRun).under key =
      run.under key ++ (later.filter fun entry => entry.1 = key).map Prod.snd := by
  rw [under, List.filter_append, List.map_append]
  rfl

/-- When the tapes stay exact at an execution. An order without a ticker trades without
a trade section, which must then have had nothing to say; and an orphan goes unseen only
among nothing but orphans. -/
def Records (run : TapeRun) (msg : ItchMsg) : Prop :=
  match (run.live.fh.market.apply msg).2.trade with
  | some execution =>
      execution.orderbookId = .empty →
        makeTimestamp (run.live.fh.market.apply msg).1.seconds msg.ns = 0 ∧
          execution.price = 0 ∧ execution.qty = 0 ∧ execution.matchNumber = 0
  | none => run.live.db.tables.tapeOf ⟨.empty, .empty⟩ = List.replicate tapeCap .blank

def Genuine (log : ExchangeLog) (run : TapeRun) : LinkEvent → Prop
  | .outage _ => True
  | .message =>
      ∀ payload, log.payloads[run.position]? = some payload →
        ∀ msg, decode payload = .ok msg → msg.isExecution = true → run.Records msg

theorem next_bound (next : log.payloads[run.position]? = some payload) :
    run.position + 1 ≤ log.payloads.length ∧ run.position + 1 < 2 ^ 64 := by
  have inside := (List.getElem?_eq_some_iff.mp next).1
  exact ⟨inside, Nat.lt_of_le_of_lt inside log.numbered⟩

theorem onDecoded_last (fh : Fh) (seq : UInt64) (msg : ItchMsg) :
    (fh.onDecoded seq msg).1.lastExchSeq = seq := by
  cases clock : msg.isClock with
  | true => rw [fh.onDecoded_clock seq clock]
  | false => rw [fh.onDecoded_update seq clock]

theorem Level.onMessage (level : run.Level log)
    (next : log.payloads[run.position]? = some payload) :
    (run.onMessage payload).Level log := by
  obtain ⟨inside, bound⟩ := next_bound next
  cases decoded : decode payload with
  | error reason =>
      have same : (run.onMessage payload).live = run.live := LiveState.onMessage_error decoded
      refine ⟨?_, inside, ?_⟩
      · rw [same]
        exact ⟨level.settled.connected, level.settled.idle, level.settled.outside,
          Nat.lt_succ_of_lt level.settled.behind⟩
      · rw [same]
        exact Nat.le_succ_of_le level.last
  | ok msg =>
      obtain ⟨settled, fh, -⟩ := level.settled.onMessage bound decoded
      refine ⟨settled, inside, ?_⟩
      change (run.live.onMessage _ payload).fh.lastExchSeq.toNat ≤ _
      rw [fh, onDecoded_last, toNat_seq next]
      exact Nat.le_refl _

variable {msg : ItchMsg}

theorem Level.tapeOf_onMessage (level : run.Level log)
    (next : log.payloads[run.position]? = some payload) (decoded : decode payload = .ok msg)
    (key : RowKey) :
    (run.onMessage payload).live.db.tables.tapeOf key =
      if msg.isExecution ∧
          (run.live.fh.updateFor (UInt64.ofNat (run.position + 1)) msg).wired.key = key then
        pushTape (run.live.db.tables.tapeOf key)
          (run.live.fh.updateFor (UInt64.ofNat (run.position + 1)) msg).tapeEntry
      else run.live.db.tables.tapeOf key := by
  obtain ⟨-, -, tables⟩ := level.settled.onMessage (next_bound next).2 decoded
  change (run.live.onMessage _ payload).db.tables.tapeOf key = _
  rw [tables, Fh.tapeOf_receive]

theorem under_onMessage (run : TapeRun) (decoded : decode payload = .ok msg) (key : RowKey) :
    (run.onMessage payload).under key =
      run.under key ++
        (((run.live.fh.matched (UInt64.ofNat (run.position + 1)) msg).toList.filter
          fun entry => entry.1 = key).map Prod.snd) := by
  have executions : run.executions payload =
      (run.live.fh.matched (UInt64.ofNat (run.position + 1)) msg).toList := by
    rw [TapeRun.executions, decoded]
  rw [← executions, ← under_append]
  rfl

private theorem Exact.onMessage_other (exact' : run.Exact) (level : run.Level log)
    (next : log.payloads[run.position]? = some payload)
    (other : ∀ msg, decode payload = .ok msg → msg.isExecution = false) :
    (run.onMessage payload).Exact := by
  intro key
  cases decoded : decode payload with
  | error reason =>
      have same : (run.onMessage payload).live = run.live := LiveState.onMessage_error decoded
      have nothing : run.executions payload = [] := by rw [executions, decoded]
      rw [same, under, TapeRun.onMessage, nothing, List.append_nil]
      exact exact' key
  | ok msg =>
      have kind := other msg decoded
      have nothing : run.live.fh.matched (UInt64.ofNat (run.position + 1)) msg = none := by
        rw [Fh.matched, Market.trade_of_other _ kind]
        rfl
      rw [level.tapeOf_onMessage next decoded, under_onMessage run decoded, nothing, kind]
      simpa using exact' key

theorem Exact.onMessage_matched (exact' : run.Exact) (level : run.Level log)
    (next : log.payloads[run.position]? = some payload) (decoded : decode payload = .ok msg)
    {execution : Execution} (traded : (run.live.fh.market.apply msg).2.trade = some execution) :
    (run.onMessage payload).Exact ↔
      (execution.orderbookId = .empty →
        makeTimestamp (run.live.fh.market.apply msg).1.seconds msg.ns = 0 ∧
          execution.price = 0 ∧ execution.qty = 0 ∧ execution.matchNumber = 0) := by
  obtain ⟨-, -, kind⟩ := Market.trade_eq_some traded
  set update := run.live.fh.updateFor (UInt64.ofNat (run.position + 1)) msg with published
  let real : TapeEntry :=
    { ns := makeTimestamp (run.live.fh.market.apply msg).1.seconds msg.ns
      price := execution.price
      qty := execution.qty
      matchNumber := execution.matchNumber }
  have recorded : update.tapeEntry = if execution.orderbookId = .empty then .blank else real :=
    Fh.tapeEntry_matched traded
  have matched : run.live.fh.matched (UInt64.ofNat (run.position + 1)) msg =
      some (update.wired.key, real) := by
    rw [Fh.matched, traded]
    rfl
  have blank : real = .blank ↔
      makeTimestamp (run.live.fh.market.apply msg).1.seconds msg.ns = 0 ∧
        execution.price = 0 ∧ execution.qty = 0 ∧ execution.matchNumber = 0 :=
    TapeEntry.mk.injEq .. ▸ Iff.rfl
  rw [← blank]
  have here : (run.onMessage payload).live.db.tables.tapeOf update.wired.key =
      lastFew tapeCap ((run.onMessage payload).under update.wired.key) ↔
        update.tapeEntry = real := by
    rw [level.tapeOf_onMessage next decoded, under_onMessage run decoded, matched,
      if_pos ⟨kind, rfl⟩, pushTape_eq, exact', lastFew_push]
    simp only [Option.toList_some, List.filter_cons, decide_true, if_true, List.filter_nil,
      List.map_cons, List.map_nil]
    exact lastFew_push_inj (by decide)
  have elsewhere (key : RowKey) (off : update.wired.key ≠ key) :
      (run.onMessage payload).live.db.tables.tapeOf key =
        lastFew tapeCap ((run.onMessage payload).under key) := by
    rw [level.tapeOf_onMessage next decoded, under_onMessage run decoded, matched,
      if_neg fun both => off both.2]
    simpa [off] using exact' key
  have whole : (run.onMessage payload).Exact ↔ update.tapeEntry = real := by
    rw [← here]
    constructor
    · exact fun all => all _
    · intro one key
      by_cases same : update.wired.key = key
      · rw [← same]
        exact one
      · exact elsewhere key same
  rw [whole, recorded]
  by_cases ticker : execution.orderbookId = .empty
  · rw [if_pos ticker]
    exact ⟨fun same _ => same.symm, fun same => (same ticker).symm⟩
  · rw [if_neg ticker]
    exact ⟨fun _ none => absurd none ticker, fun _ => rfl⟩

private theorem Exact.onMessage_orphan (exact' : run.Exact) (level : run.Level log)
    (next : log.payloads[run.position]? = some payload) (decoded : decode payload = .ok msg)
    (kind : msg.isExecution = true) (orphan : (run.live.fh.market.apply msg).2.trade = none) :
    (run.onMessage payload).Exact ↔
      run.live.db.tables.tapeOf ⟨.empty, .empty⟩ = List.replicate tapeCap .blank := by
  obtain ⟨key, entry⟩ :=
    Fh.updateFor_orphan (UInt64.ofNat (run.position + 1)) kind orphan
  have nothing : run.live.fh.matched (UInt64.ofNat (run.position + 1)) msg = none := by
    rw [Fh.matched, orphan]
    rfl
  have same (key : RowKey) : (run.onMessage payload).under key = run.under key := by
    rw [under_onMessage run decoded, nothing]
    simp
  have bounded : (run.live.db.tables.tapeOf ⟨.empty, .empty⟩).length ≤ tapeCap := by
    rw [exact', length_lastFew]
    exact Nat.min_le_right _ _
  have tapes (other : RowKey) := level.tapeOf_onMessage next decoded other
  simp only [kind, key, entry, true_and] at tapes
  rw [← lastFew_push_eq_self_iff (by decide) bounded, ← pushTape_eq]
  constructor
  · intro all
    have here := all ⟨.empty, .empty⟩
    rw [tapes, if_pos rfl, same, ← exact'] at here
    exact here
  · intro unseen other
    rw [tapes, same, ← exact']
    split
    · next here =>
        rw [← here]
        exact unseen
    · rfl

private theorem Level.exact_message (level : run.Level log) (exact' : run.Exact) :
    (run.step log .message).Exact ↔ run.Genuine log .message := by
  cases next : log.payloads[run.position]? with
  | none =>
      simp only [step, Genuine, next]
      exact ⟨fun _ _ no => (nomatch no), fun _ => exact'⟩
  | some payload =>
      simp only [step, Genuine, next, Option.some.injEq, forall_eq']
      by_cases execution : ∃ msg, decode payload = .ok msg ∧ msg.isExecution = true
      · obtain ⟨msg, decoded, kind⟩ := execution
        have only : (∀ other, decode payload = .ok other → other.isExecution = true →
            run.Records other) ↔ run.Records msg := by
          rw [decoded]
          exact ⟨fun all => all msg rfl kind, fun one other same _ => Except.ok.inj same ▸ one⟩
        rw [only, Records]
        cases traded : (run.live.fh.market.apply msg).2.trade with
        | some execution => exact exact'.onMessage_matched level next decoded traded
        | none => exact exact'.onMessage_orphan level next decoded kind traded
      · refine ⟨fun _ msg decoded kind => absurd ⟨msg, decoded, kind⟩ execution, fun _ => ?_⟩
        apply exact'.onMessage_other level next
        intro msg decoded
        exact Bool.eq_false_iff.mpr fun kind => execution ⟨msg, decoded, kind⟩

/-! ### An outage -/

/-- What a run is after some messages that the database missed: it is as it was, or its
feed handler is ahead. -/
structure Missed (log : ExchangeLog) (before run : TapeRun) : Prop where
  db : run.live.db = before.live.db
  later : before.position ≤ run.position
  within : run.position ≤ log.payloads.length
  last : run.live.fh.lastExchSeq.toNat ≤ run.position
  ahead : run.published = before.published ∨
    before.position < run.live.fh.lastExchSeq.toNat

theorem Missed.miss {before : TapeRun} (missed : Missed log before run) :
    Missed log before (run.miss log) := by
  cases next : log.payloads[run.position]? with
  | none =>
      have same : run.miss log = run := by simp only [TapeRun.miss, next]
      rw [same]
      exact missed
  | some payload =>
      have inside := (next_bound next).1
      cases decoded : decode payload with
      | error reason =>
          have same : run.miss log = { run with position := run.position + 1 } := by
            simp only [TapeRun.miss, next, executions, Fh.onMessage, decoded, List.append_nil]
          rw [same]
          exact ⟨missed.db, Nat.le_succ_of_le missed.later, inside,
            Nat.le_succ_of_le missed.last, missed.ahead⟩
      | ok msg =>
          have last : (run.miss log).live.fh.lastExchSeq.toNat = run.position + 1 := by
            simp only [TapeRun.miss, next, Fh.onMessage, decoded, onDecoded_last]
            exact toNat_seq next
          have db : (run.miss log).live.db = run.live.db := by simp only [TapeRun.miss, next]
          have position : (run.miss log).position = run.position + 1 := by
            simp only [TapeRun.miss, next]
          refine ⟨db.trans missed.db, ?_, ?_, ?_, .inr ?_⟩
          · rw [position]
            exact Nat.le_succ_of_le missed.later
          · rw [position]
            exact inside
          · rw [position, last]
          · rw [last]
            exact Nat.lt_succ_of_le missed.later

theorem Level.missed (level : run.Level log) (count : Nat) :
    Missed log run ((TapeRun.miss log)^[count] run) := by
  induction count with
  | zero => exact ⟨rfl, Nat.le_refl _, level.within, level.last, .inl rfl⟩
  | succ count induction =>
      rw [Function.iterate_succ_apply']
      exact induction.miss

private theorem accept_settled {state : LiveState} {next : Nat} (settled : state.Settled next) :
    state.db.accept.tables = state.db.tables := by
  simp only [IngestServer.accept, IngestServer.dropConnection, settled.connected,
    settled.outside, if_true, Bool.false_eq_true, if_false]

private theorem fullSync_nonempty (fh : Fh) : encodeAll fh.fullSync ≠ [] := by
  intro empty
  have first : Record.reset ∈ fh.fullSync := by simp [fh.fullSync_eq]
  exact absurd (List.flatMap_eq_nil_iff.mp empty _ first) (by decide)

private theorem reconnect_eq (run : TapeRun) :
    run.reconnect =
      if run.live.db.accept.tables.dbMeta.epoch ≠ run.live.fh.epoch ∨
          run.live.db.accept.tables.dbMeta.lastExchSeq ≠ run.live.fh.lastExchSeq then
        { live :=
            { run.live with db := run.live.db.accept.onData (encodeAll run.live.fh.fullSync) }
          position := run.position }
      else { run with live := { run.live with db := run.live.db.accept.onData [] } } := by
  simp only [reconnect, System.tryDbConnect, System.connectHello_greeted]
  split
  · have sync : ({ run.live.fh with dbConnected := true } : Fh).fullSync =
        run.live.fh.fullSync := rfl
    simp only [System.pushFullSync, System.send, sync, if_true, List.nil_append,
      fullSync_nonempty, if_false]
  · simp only [if_true]

theorem Level.outage (level : run.Level log) (count : Nat) :
    (run.step log (.outage count)).Level log ∧
      ((∀ key, (run.step log (.outage count)).live.db.tables.tapeOf key = []) ∧
          (run.step log (.outage count)).published = [] ∨
        (run.step log (.outage count)).live.db.tables = run.live.db.tables ∧
          (run.step log (.outage count)).published = run.published) := by
  have missed := level.missed count
  have stepped : run.step log (.outage count) = ((TapeRun.miss log)^[count] run).reconnect := rfl
  rw [stepped, reconnect_eq]
  generalize (TapeRun.miss log)^[count] run = later at missed
  have tables : later.live.db.accept.tables = run.live.db.tables := by
    rw [missed.db]
    exact accept_settled level.settled
  split
  · have synced : later.live.db.accept.onData (encodeAll later.live.fh.fullSync) =
        { later.live.db.accept with
          tables := later.live.fh.synced later.live.db.accept.tables, inSync := false } := by
      rw [IngestServer.onData_encodeAll rfl rfl later.live.fh.fullSync_sound,
        Fh.handleAll_fullSync]
    rw [synced]
    refine ⟨⟨⟨rfl, rfl, rfl, ?_⟩, missed.within, missed.last⟩, .inl ⟨?_, rfl⟩⟩
    · exact Nat.lt_succ_of_le missed.last
    · exact Fh.tapeOf_synced _ _
  · next same =>
      have nothing : later.live.db.accept.onData (encodeAll []) =
          later.live.db.accept.handleAll [] :=
        IngestServer.onData_encodeAll rfl rfl (by simp)
      have idle : later.live.db.accept.onData [] = later.live.db.accept := nothing
      rw [idle]
      have behind := level.settled.behind
      refine ⟨⟨⟨rfl, rfl, rfl, ?_⟩, missed.within, missed.last⟩, .inr ⟨tables, ?_⟩⟩
      · change later.live.db.accept.tables.dbMeta.lastExchSeq.toNat < _
        rw [tables]
        exact Nat.lt_of_lt_of_le behind (Nat.succ_le_succ missed.later)
      · -- A message that decodes would have taken the feed handler ahead of the database.
        rcases missed.ahead with kept | ahead
        · exact kept
        · rw [tables, not_or, not_not, not_not] at same
          rw [← same.2] at ahead
          omega

private theorem Level.exact_outage (level : run.Level log) (exact' : run.Exact) (count : Nat) :
    (run.step log (.outage count)).Exact := by
  intro key
  obtain ⟨-, ⟨tapes, published⟩ | ⟨tables, published⟩⟩ := level.outage count
  · rw [tapes, under, published]
    rfl
  · rw [tables, under, published]
    exact exact' key

theorem Level.step (level : run.Level log) (event : LinkEvent) :
    (run.step log event).Level log := by
  cases event with
  | outage count => exact (level.outage count).1
  | message =>
      cases next : log.payloads[run.position]? with
      | none =>
          simp only [TapeRun.step, next]
          exact level
      | some payload =>
          simp only [TapeRun.step, next]
          exact level.onMessage next

theorem start_level (prior : Tables) (epoch : UInt64) (session : Bytes) :
    (start prior epoch session).Level log := by
  obtain ⟨settled, fh, -⟩ := LiveState.coldStart_settled prior epoch session
  refine ⟨settled, Nat.zero_le _, ?_⟩
  change (LiveState.coldStart prior epoch session).fh.lastExchSeq.toNat ≤ 0
  rw [fh]
  exact Nat.le_refl 0

private theorem start_exact (prior : Tables) (epoch : UInt64) (session : Bytes) :
    (start prior epoch session).Exact := by
  intro key
  obtain ⟨-, -, tables⟩ := LiveState.coldStart_settled prior epoch session
  change (LiveState.coldStart prior epoch session).db.tables.tapeOf key = _
  rw [tables]
  rfl

/-- The tapes hold the executions at every point of a run exactly if every `E` of it
matches an order with a ticker, but for executions whose entry cannot be told from an
empty one. -/
theorem exact_throughout_iff (prior : Tables) (epoch : UInt64) (session : Bytes)
    (log : ExchangeLog) (events : List LinkEvent) :
    (∀ count, (after prior epoch session log (events.take count)).Exact) ↔
      ∀ count event, events[count]? = some event →
        (after prior epoch session log (events.take count)).Genuine log event := by
  have level (count : Nat) : (after prior epoch session log (events.take count)).Level log :=
    foldl_invariant (Level log) (fun _ event _ level => level.step event)
      (start_level prior epoch session)
  have rule := forall_take_foldl_iff (TapeRun.step log) (fun run => run.Level log ∧ run.Exact)
    (Genuine log) ⟨start_level prior epoch session, start_exact prior epoch session⟩ events ?_
  · exact Iff.trans ⟨fun all count => ⟨level count, all count⟩, fun all count => (all count).2⟩ rule
  · rintro run event - ⟨here, exact'⟩
    cases event with
    | outage count =>
        exact iff_of_true ⟨here.step _, here.exact_outage exact' count⟩ trivial
    | message =>
        rw [← here.exact_message exact']
        exact ⟨And.right, fun exact' => ⟨here.step _, exact'⟩⟩

/-- An `E` for order 7, which no message has added. -/
def orphanLog : ExchangeLog where
  payloads := [ItchMsg.encode (.executed 0 7 100 1)]
  numbered := by decide

/-- The orphan is on the tape of the blank row. -/
theorem orphan_on_tape :
    (after {} 1 [] orphanLog [.message]).live.db.tables.tapeOf ⟨.empty, .empty⟩ = [.blank] ∧
      (after {} 1 [] orphanLog [.message]).published = [] ∧
      ¬ (after {} 1 [] orphanLog [.message]).Exact := by
  have tape : (after {} 1 [] orphanLog [.message]).live.db.tables.tapeOf ⟨.empty, .empty⟩ =
      [.blank] := by
    decide +kernel
  have published : (after {} 1 [] orphanLog [.message]).published = [] := by decide +kernel
  refine ⟨tape, published, fun exact' => ?_⟩
  have here := exact' ⟨.empty, .empty⟩
  rw [tape, under, published] at here
  cases here

end TapeRun

end ProtoFH
