import ProtoFH.Web.Feed
import ProtoFH.Web.Forward

/-! # Trades in the rings

An entry of a trade ring stands for the last execution of its ticker up to the exchange
sequence it is stamped with. A live `E` is stamped with its own sequence, but the row of
a snapshot with that of the last update of the row, whatever that was. So a trade that is
shown can be shown again, once a snapshot has passed it or is ahead of it. -/

namespace ProtoFH.Web

namespace Feed

variable {feed : Feed} {ticker : Text}

/-! ## Rings -/

def Before (feed : Feed) (ticker : Text) (trade later : RingTrade) : Prop :=
  ∃ execution next, feed.executionAt ticker trade.exchSeq = some execution ∧
    feed.executionAt ticker later.exchSeq = some next ∧ execution < next

/-- Every entry of a ring is of an execution, and they are in strictly increasing order. -/
structure Distinct (feed : Feed) (ticker : Text) (ring : List RingTrade) : Prop where
  known : ∀ trade ∈ ring, (feed.executionAt ticker trade.exchSeq).isSome
  ordered : ring.Pairwise (feed.Before ticker)

theorem Before.trans {first second third : RingTrade} (front : feed.Before ticker first second)
    (back : feed.Before ticker second third) : feed.Before ticker first third := by
  obtain ⟨execution, middle, isFirst, isMiddle, less⟩ := front
  obtain ⟨other, last, isOther, isLast, more⟩ := back
  have same : middle = other := Option.some.inj (isMiddle.symm.trans isOther)
  exact ⟨execution, last, isFirst, isLast, Nat.lt_trans (same ▸ less) more⟩

theorem distinct_nil : feed.Distinct ticker [] := ⟨nofun, .nil⟩

theorem Distinct.push_iff {ring : List RingTrade} (distinct : feed.Distinct ticker ring)
    {trade : RingTrade} (known : (feed.executionAt ticker trade.exchSeq).isSome) :
    feed.Distinct ticker (pushRing ring trade) ↔
      ∀ newest, ring.getLast? = some newest → feed.Before ticker newest trade := by
  constructor
  · intro pushed newest final
    obtain ⟨front, rfl⟩ := List.getLast?_eq_some_iff.mp final
    -- The oldest entries go, but never the last two.
    have kept : pushRing (front ++ [newest]) trade =
        front.drop (front.length + 2 - tradeRingSize) ++ [newest, trade] := by
      have room : front.length + 2 - tradeRingSize ≤ front.length := by
        rw [tradeRingSize]
        omega
      rw [pushRing, List.length_append, List.length_singleton, List.append_assoc,
        List.drop_append_of_le_length room]
      rfl
    have ordered := pushed.ordered
    rw [kept] at ordered
    have lastTwo := (List.pairwise_append.mp ordered).2.1
    exact (List.pairwise_cons.mp lastTwo).1 trade List.mem_cons_self
  · intro later
    have all : feed.Distinct ticker (ring ++ [trade]) := by
      refine ⟨?_, List.pairwise_append.mpr ⟨distinct.ordered, List.pairwise_singleton _ _, ?_⟩⟩
      · intro other member
        rcases List.mem_append.mp member with inRing | final
        · exact distinct.known other inRing
        · rw [List.mem_singleton.mp final]
          exact known
      · intro other inRing new isNew
        rw [List.mem_singleton.mp isNew]
        rcases List.eq_nil_or_concat ring with rfl | ⟨front, newest, rfl⟩
        · cases inRing
        · have next := later newest (by simp)
          rw [List.concat_eq_append] at inRing
          rcases List.mem_append.mp inRing with inFront | isNewest
          · have ordered := distinct.ordered
            rw [List.concat_eq_append] at ordered
            have earlier := (List.pairwise_append.mp ordered).2.2 other inFront newest
              List.mem_cons_self
            exact earlier.trans next
          · rw [List.mem_singleton.mp isNewest]
            exact next
    refine ⟨fun other member => all.known other (List.mem_of_mem_drop member), ?_⟩
    exact all.ordered.sublist (List.drop_sublist _ _)

end Feed

/-! ## What the calls do to the rings -/

namespace State

def ring (state : State) (ticker : Text) : List RingTrade :=
  (state.trades.find? ticker).getD []

theorem ring_appendTrade (state : State) (ticker other : Text) (trade : RingTrade) :
    (state.appendTrade ticker trade).ring other =
      if ticker = other then pushRing (state.ring other) trade else state.ring other := by
  simp only [ring, appendTrade, Dict.find?_set]
  split
  · next same => rw [same]; rfl
  · rfl

private theorem ring_enterEpoch (state : State) (epoch : Nat) (ticker : Text) :
    (state.enterEpoch epoch).ring ticker = state.ring ticker ∨
      (state.enterEpoch epoch).ring ticker = [] := by
  rw [enterEpoch]
  split
  · exact .inl rfl
  · split
    · exact .inl rfl
    · exact .inr rfl

theorem ring_applyUpdate (state : State) (rec : Update) (ticker : Text) :
    (state.applyUpdate rec).ring ticker =
      if rec.envelope.trigger = [ascii 'E'] ∧ rec.envelope.ticker = ticker then
        pushRing ((state.enterEpoch rec.envelope.epoch).ring ticker) rec.ringTrade
      else (state.enterEpoch rec.envelope.epoch).ring ticker := by
  have entered : ∀ other : Text,
      ({ (state.enterEpoch rec.envelope.epoch).countGap rec.envelope.pubSeq with
          tickers := ((state.enterEpoch rec.envelope.epoch).countGap
            rec.envelope.pubSeq).tickers.set rec.envelope.ticker rec } : State).ring other =
        (state.enterEpoch rec.envelope.epoch).ring other := fun _ => rfl
  by_cases traded : rec.envelope.trigger = [ascii 'E']
  · simp only [applyUpdate, traded, if_true, true_and, ← entered ticker]
    exact ring_appendTrade _ _ _ _
  · simp only [applyUpdate, traded, if_false, false_and]
    exact entered ticker

/-- The row of a snapshot is newer than what is cached, has a last trade, and the ring of
its ticker no entry that is stamped as late: it is appended to the ring. -/
structure Seeds (state : State) (rec : Update) : Prop where
  newer : ∀ cached, state.tickers.find? rec.envelope.ticker = some cached →
    cached.envelope.exchSeq < rec.envelope.exchSeq
  traded : rec.trade.lastTradeNs ≠ 0 ∧ rec.trade.lastQty ≠ 0
  later : ∀ newest, (state.ring rec.envelope.ticker).getLast? = some newest →
    newest.exchSeq < rec.envelope.exchSeq

private theorem seedTrade_eq (state : State) (ticker : Text) (rec : Update) :
    state.seedTrade ticker rec =
      if (rec.trade.lastTradeNs ≠ 0 ∧ rec.trade.lastQty ≠ 0) ∧
          ∀ newest ∈ (state.ring ticker).getLast?, newest.exchSeq < rec.envelope.exchSeq then
        state.appendTrade ticker rec.ringTrade
      else state := by
  rw [seedTrade, ← ring]
  by_cases untraded : rec.trade.lastTradeNs = 0 ∨ rec.trade.lastQty = 0
  · rw [if_pos untraded, if_neg fun both => by tauto]
  · rw [if_neg untraded]
    have traded : rec.trade.lastTradeNs ≠ 0 ∧ rec.trade.lastQty ≠ 0 := by tauto
    cases final : (state.ring ticker).getLast? with
    | none => simp [traded]
    | some newest =>
        by_cases late : newest.exchSeq ≥ rec.envelope.exchSeq
        · simp [late]
        · simp [late, traded, Nat.lt_of_not_le late]

theorem ring_mergeRow (progress : State × Nat) (rec : Update) (ticker : Text) :
    (progress.1.Seeds rec → (mergeRow progress rec).1.ring ticker =
        if rec.envelope.ticker = ticker then pushRing (progress.1.ring ticker) rec.ringTrade
        else progress.1.ring ticker) ∧
      (¬ progress.1.Seeds rec → (mergeRow progress rec).1.ring ticker =
        progress.1.ring ticker) := by
  have stored : (storeRow progress rec).1.ring ticker =
      if (rec.trade.lastTradeNs ≠ 0 ∧ rec.trade.lastQty ≠ 0) ∧
          ∀ newest ∈ (progress.1.ring rec.envelope.ticker).getLast?,
            newest.exchSeq < rec.envelope.exchSeq then
        if rec.envelope.ticker = ticker then pushRing (progress.1.ring ticker) rec.ringTrade
        else progress.1.ring ticker
      else progress.1.ring ticker := by
    let cached : State :=
      { progress.1 with tickers := progress.1.tickers.set rec.envelope.ticker rec }
    have same (other : Text) : cached.ring other = progress.1.ring other := rfl
    have seeded : (storeRow progress rec).1.ring ticker =
        (cached.seedTrade rec.envelope.ticker rec).ring ticker := rfl
    rw [seeded, seedTrade_eq, same]
    split
    · rw [ring_appendTrade, same]
    · rw [same]
  constructor
  · intro seeds
    have isStored : mergeRow progress rec = storeRow progress rec := by
      rw [mergeRow]
      split
      · next cached found => rw [if_neg (Nat.not_le.mpr (seeds.newer cached found))]
      · rfl
    rw [isStored, stored, if_pos ⟨seeds.traded, seeds.later⟩]
  · intro unseeded
    rcases mergeRow_cases progress rec with same | ⟨isStored, newer⟩
    · rw [same]
    · rw [isStored, stored, if_neg]
      rintro ⟨traded, later⟩
      exact unseeded ⟨newer, traded, later⟩

def Takes (state : State) (snapEpoch : Nat) : Prop :=
  ∀ last, state.lastEpoch = some last → last ≤ snapEpoch

def opened (state : State) (snapEpoch : Nat) : State :=
  match state.lastEpoch with
  | none => state.adoptEpoch snapEpoch
  | some last =>
      if snapEpoch > last then (state.restart snapEpoch).adoptEpoch snapEpoch else state

theorem mergeSnapshot_taken {state : State} {snapEpoch : Nat} (takes : state.Takes snapEpoch)
    (rows : List Update) :
    state.mergeSnapshot rows snapEpoch = (state.opened snapEpoch).mergeRows rows := by
  cases known : state.lastEpoch with
  | none => simp only [mergeSnapshot, opened, known]
  | some last =>
      simp only [mergeSnapshot, opened, known, if_neg (Nat.not_lt.mpr (takes last known))]
      split <;> rfl

private theorem mergeSnapshot_discarded {state : State} {snapEpoch : Nat}
    (discards : ¬ state.Takes snapEpoch) (rows : List Update) :
    (state.mergeSnapshot rows snapEpoch).1 = state := by
  obtain ⟨last, older⟩ := not_forall.mp discards
  obtain ⟨known, newer⟩ := Classical.not_imp.mp older
  rw [mergeSnapshot, known]
  simp only [if_pos (Nat.lt_of_not_le newer)]

private theorem ring_opened (state : State) (snapEpoch : Nat) (ticker : Text) :
    (state.opened snapEpoch).ring ticker = state.ring ticker ∨
      (state.opened snapEpoch).ring ticker = [] := by
  rw [opened]
  split
  · exact .inl rfl
  · split
    · exact .inr rfl
    · exact .inl rfl

end State

/-! ## The calls of a feed -/

section FromFeed

variable {feed : Feed} {rec : Update}

theorem Call.FromFeed.live (fromFeed : Call.FromFeed feed.records (.update rec))
    (traded : rec.envelope.trigger = [ascii 'E']) :
    rec.envelope.exchSeq ∈ feed.executions rec.envelope.ticker := by
  obtain ⟨sent, inFeed, decoded⟩ := fromFeed
  obtain ⟨-, exchSeq, trigger, ticker, -⟩ := decoded_update decoded
  rw [trigger, List.singleton_inj] at traded
  exact Feed.mem_executions.mpr ⟨sent, inFeed, traded, ticker.symm, exchSeq.symm⟩

private theorem feedTables_row {past : List UpdateRecord} {key : RowKey} {row : BookRow}
    (stored : (feedTables past).books[key]? = some row) :
    ∃ sent ∈ past, sent.key = key ∧ sent.envelope.exchSeq = row.lastExchSeq ∧
      sent.trade = row.trade := by
  induction past using List.reverseRecOn with
  | nil => simp [feedTables] at stored
  | append_singleton past sent induction =>
      have step : feedTables (past ++ [sent]) = (feedTables past).applyUpdate sent false := by
        rw [feedTables, List.foldl_append]
        rfl
      have earlier (stored : (feedTables past).books[key]? = some row) :
          ∃ other ∈ past ++ [sent], other.key = key ∧
            other.envelope.exchSeq = row.lastExchSeq ∧ other.trade = row.trade := by
        obtain ⟨other, member, same⟩ := induction stored
        exact ⟨other, List.mem_append_left _ member, same⟩
      rw [step, Tables.applyUpdate] at stored
      simp only [Bool.false_eq_true, if_false] at stored
      split at stored
      · exact earlier stored
      · change ((feedTables past).books.insert sent.key _)[key]? = some row at stored
        rw [OrderedMap.lookup_insert] at stored
        split at stored
        · next own =>
            cases stored
            exact ⟨sent, by simp, own, rfl, rfl⟩
        · exact earlier stored

theorem Call.FromFeed.row {rows : List Update} {snapEpoch : Nat}
    (fromFeed : Call.FromFeed feed.records (.merge rows snapEpoch)) (member : rec ∈ rows)
    (traded : rec.trade.lastTradeNs ≠ 0) :
    (feed.executionAt rec.envelope.ticker rec.envelope.exchSeq).isSome := by
  obtain ⟨past, isPast, decoded, -⟩ := fromFeed
  have reply : (Except.ok (.update rec) : Codec Record) ∈
      rows.map (fun rec => .ok (.update rec)) := List.mem_map_of_mem member
  rw [← decoded, Tables.snap, List.map_map, List.mem_map] at reply
  obtain ⟨⟨key, row⟩, inBooks, isRec⟩ := reply
  obtain ⟨-, exchSeq, -, ticker, trade⟩ := decoded_update isRec
  obtain ⟨sent, inPast, rfl, sameSeq, sameTrade⟩ :=
    feedTables_row (OrderedMap.mem_toList.mp inBooks)
  have sentTraded : sent.trade.lastTradeNs ≠ 0 := by
    rw [trade] at traded
    intro untraded
    apply traded
    change row.trade.lastTradeNs.toNat = 0
    rw [← sameTrade, untraded]
    rfl
  obtain ⟨before, after, rfl⟩ := List.append_of_mem inPast
  have isFront : before ++ [sent] <+: feed.records := by
    refine List.IsPrefix.trans ⟨after, ?_⟩ isPast
    simp
  obtain ⟨execution, inFront, isExecution, sameTicker⟩ := feed.traded before sent isFront sentTraded
  have inTime : execution.envelope.exchSeq.toNat ≤ sent.envelope.exchSeq.toNat := by
    have ascending := feed.ascending.sublist isFront.sublist
    rcases List.mem_append.mp inFront with inBefore | isSent
    · have less := (List.pairwise_append.mp ascending).2.2 execution inBefore sent
        List.mem_cons_self
      exact Nat.le_of_lt (UInt64.lt_iff_toNat_lt.mp less)
    · rw [List.mem_singleton.mp isSent]
  have shown : rec.envelope.ticker = shownTicker sent := ticker
  have stamped : rec.envelope.exchSeq = sent.envelope.exchSeq.toNat := by
    rw [sameSeq]
    exact exchSeq
  rw [shown, stamped]
  exact Feed.executionAt_isSome (Feed.mem_executions.mpr
    ⟨execution, isFront.subset inFront, isExecution, sameTicker, rfl⟩) inTime

end FromFeed

/-! ## Shown once -/

/-- The part of a call after which `on_ticker_update` is called for the row before
`count`: a snapshot is merged row by row. -/
def Call.upTo (count : Nat) : Call → Call
  | .update rec => .update rec
  | .merge rows snapEpoch => .merge (rows.take count) snapEpoch

private theorem Call.exists_upTo (call : Call) : ∃ count, call.upTo count = call := by
  cases call with
  | update rec => exact ⟨0, rfl⟩
  | merge rows snapEpoch => exact ⟨rows.length, by rw [upTo, List.take_length]⟩

namespace State

def ShowsOnce (feed : Feed) (state : State) : Prop :=
  ∀ ticker, feed.Distinct ticker (state.ring ticker)

/-- The ring of the row's ticker is empty, or there was an execution between its newest
entry and the row. -/
def NewTrade (feed : Feed) (state : State) (rec : Update) : Prop :=
  ∀ newest, (state.ring rec.envelope.ticker).getLast? = some newest →
    ∃ execution ∈ feed.executions rec.envelope.ticker,
      newest.exchSeq < execution ∧ execution ≤ rec.envelope.exchSeq

/-- The call adds no trade to a ring that the ring already shows: a live `E` is stamped
later than the newest entry, and a row that is appended has a new trade. -/
def Unseen (feed : Feed) (state : State) : Call → Prop
  | .update rec =>
      rec.envelope.trigger = [ascii 'E'] → ∀ newest,
        ((state.enterEpoch rec.envelope.epoch).ring rec.envelope.ticker).getLast? = some newest →
          newest.exchSeq < rec.envelope.exchSeq
  | .merge rows snapEpoch =>
      state.Takes snapEpoch → ∀ count rec, rows[count]? = some rec →
        let merging := state.call (.merge (rows.take count) snapEpoch)
        merging.Seeds rec → merging.NewTrade feed rec

variable {feed : Feed} {state : State}

private theorem showsOnce_empty : ShowsOnce feed {} := fun _ => Feed.distinct_nil

theorem ShowsOnce.push_iff (shows : state.ShowsOnce feed) {later : State} {ticker : Text}
    {trade : RingTrade} (known : (feed.executionAt ticker trade.exchSeq).isSome)
    (pushed : ∀ other, later.ring other =
      if ticker = other then pushRing (state.ring other) trade else state.ring other) :
    later.ShowsOnce feed ↔
      ∀ newest, (state.ring ticker).getLast? = some newest → feed.Before ticker newest trade := by
  rw [← (shows ticker).push_iff known]
  constructor
  · intro all
    have here := all ticker
    rwa [pushed, if_pos rfl] at here
  · intro here other
    rw [pushed]
    split
    · next same => exact same ▸ here
    · exact shows other

theorem ShowsOnce.of_cleared (shows : state.ShowsOnce feed) {later : State}
    (kept : ∀ ticker, later.ring ticker = state.ring ticker ∨ later.ring ticker = []) :
    later.ShowsOnce feed := by
  intro ticker
  rcases kept ticker with same | cleared
  · rw [same]
    exact shows ticker
  · rw [cleared]
    exact Feed.distinct_nil

theorem ShowsOnce.update_iff (shows : state.ShowsOnce feed) {rec : Update}
    (fromFeed : Call.FromFeed feed.records (.update rec)) :
    (state.applyUpdate rec).ShowsOnce feed ↔ state.Unseen feed (.update rec) := by
  have entered := shows.of_cleared (ring_enterEpoch state rec.envelope.epoch)
  by_cases traded : rec.envelope.trigger = [ascii 'E']
  · have own := Feed.executionAt_self (fromFeed.live traded)
    have pushed (other : Text) := ring_applyUpdate state rec other
    simp only [traded, true_and] at pushed
    have known : (feed.executionAt rec.envelope.ticker rec.ringTrade.exchSeq).isSome :=
      Option.isSome_iff_exists.mpr ⟨_, own⟩
    rw [entered.push_iff known pushed]
    simp only [Unseen, traded, forall_const]
    refine forall₂_congr fun newest final => ?_
    have shown := (entered rec.envelope.ticker).known newest (List.mem_of_getLast? final)
    obtain ⟨execution, isExecution⟩ := Option.isSome_iff_exists.mp shown
    constructor
    · rintro ⟨last, next, isLast, isNext, less⟩
      obtain ⟨other, -, beyond, within⟩ := (Feed.executionAt_lt_iff isLast isNext).mp less
      exact Nat.lt_of_lt_of_le beyond within
    · intro earlier
      exact ⟨execution, _, isExecution, own, (Feed.executionAt_lt_iff isExecution own).mpr
        ⟨_, fromFeed.live traded, earlier, Nat.le_refl _⟩⟩
  · have kept (other : Text) := ring_applyUpdate state rec other
    simp only [traded, false_and, if_false] at kept
    refine iff_of_true (entered.of_cleared fun other => .inl (kept other)) ?_
    exact fun isTraded => absurd isTraded traded

private theorem ShowsOnce.row_iff {progress : State × Nat} (shows : progress.1.ShowsOnce feed)
    {rec : Update}
    (known : rec.trade.lastTradeNs ≠ 0 →
      (feed.executionAt rec.envelope.ticker rec.envelope.exchSeq).isSome) :
    (mergeRow progress rec).1.ShowsOnce feed ↔
      (progress.1.Seeds rec → progress.1.NewTrade feed rec) := by
  by_cases seeds : progress.1.Seeds rec
  · have isKnown := known seeds.traded.1
    rw [shows.push_iff isKnown fun other => (ring_mergeRow progress rec other).1 seeds]
    simp only [seeds, true_imp_iff, NewTrade]
    refine forall₂_congr fun newest final => ?_
    have shown := (shows rec.envelope.ticker).known newest (List.mem_of_getLast? final)
    obtain ⟨execution, isExecution⟩ := Option.isSome_iff_exists.mp shown
    obtain ⟨next, isNext⟩ := Option.isSome_iff_exists.mp isKnown
    rw [← Feed.executionAt_lt_iff isExecution isNext]
    constructor
    · rintro ⟨last, other, isLast, isOther, less⟩
      rw [isExecution, Option.some_inj] at isLast
      have sameNext : next = other := Option.some.inj (isNext.symm.trans isOther)
      rw [isLast, sameNext]
      exact less
    · exact fun less => ⟨execution, next, isExecution, isNext, less⟩
  · refine iff_of_true (shows.of_cleared fun other => .inl ?_) fun isSeeds => absurd isSeeds seeds
    exact (ring_mergeRow progress rec other).2 seeds

private theorem seeds_mergeRows (state : State) (rows : List Update) (rec : Update) :
    (state.mergeRows rows).1.Seeds rec ↔ (rows.foldl mergeRow (state, 0)).1.Seeds rec :=
  ⟨fun seeds => ⟨seeds.newer, seeds.traded, seeds.later⟩,
    fun seeds => ⟨seeds.newer, seeds.traded, seeds.later⟩⟩

private theorem ShowsOnce.call_iff (shows : state.ShowsOnce feed) {call : Call}
    (fromFeed : call.FromFeed feed.records) :
    (∀ count, (state.call (call.upTo count)).ShowsOnce feed) ↔ state.Unseen feed call := by
  cases call with
  | update rec =>
      rw [← shows.update_iff fromFeed]
      exact ⟨fun all => all 0, fun one _ => one⟩
  | merge rows snapEpoch =>
      by_cases takes : state.Takes snapEpoch
      · have merging (count : Nat) : state.call (.merge (rows.take count) snapEpoch) =
            ((state.opened snapEpoch).mergeRows (rows.take count)).1 := by
          rw [call, mergeSnapshot_taken takes]
        have opened := shows.of_cleared (ring_opened state snapEpoch)
        have rule := forall_take_foldl_iff mergeRow (fun progress => progress.1.ShowsOnce feed)
          (fun progress rec => progress.1.Seeds rec → progress.1.NewTrade feed rec)
          (show (state.opened snapEpoch, 0).1.ShowsOnce feed from opened) rows
          fun progress rec member shows => shows.row_iff (fromFeed.row member)
        simp only [Call.upTo, Unseen, merging, takes, true_imp_iff, seeds_mergeRows]
        exact rule
      · have same (count : Nat) : state.call (.merge (rows.take count) snapEpoch) = state :=
          mergeSnapshot_discarded takes _
        simp only [Call.upTo, Unseen, same]
        exact iff_of_true (fun _ => shows) fun taken => absurd taken takes

/-- The rings show every execution at most once and in order, whenever a row or an update
has been applied, exactly if no call adds a trade that is already shown. -/
theorem shown_once_iff (feed : Feed) (calls : List Call)
    (fromFeed : ∀ call ∈ calls, call.FromFeed feed.records) :
    (∀ n call, calls[n]? = some call → ∀ count,
        ((run (calls.take n)).call (call.upTo count)).ShowsOnce feed) ↔
      ∀ n call, calls[n]? = some call → (run (calls.take n)).Unseen feed call := by
  have advance {n : Nat} {next : Call} (found : calls[n]? = some next) :
      run (calls.take (n + 1)) = (run (calls.take n)).call next := by
    rw [run, List.take_add_one, found, List.foldl_append]
    rfl
  have step {n : Nat} {next : Call} (found : calls[n]? = some next)
      (shows : (run (calls.take n)).ShowsOnce feed) :=
    shows.call_iff (fromFeed next (List.mem_of_getElem? found))
  -- Between the calls the rings are as the last of their points left them.
  have between (points : ∀ n call, calls[n]? = some call →
      (run (calls.take n)).ShowsOnce feed →
        ∀ count, ((run (calls.take n)).call (call.upTo count)).ShowsOnce feed) (n : Nat) :
      (run (calls.take n)).ShowsOnce feed := by
    induction n with
    | zero => exact showsOnce_empty
    | succ n induction =>
        cases found : calls[n]? with
        | none =>
            rw [List.take_add_one, found]
            simpa using induction
        | some next =>
            obtain ⟨count, whole⟩ := next.exists_upTo
            have last := points n next found induction count
            rwa [whole, ← advance found] at last
  constructor
  · intro points n call found
    exact (step found (between (fun n call found _ => points n call found) n)).mp
      (points n call found)
  · intro unseen n call found
    have points (n : Nat) (call : Call) (found : calls[n]? = some call)
        (shows : (run (calls.take n)).ShowsOnce feed) :=
          (step found shows).mpr (unseen n call found)
    exact points n call found (between points n)

end State

/-! ## A trade shown twice -/

def filledLog : ExchangeLog where
  payloads :=
    let add (orderNumber : UInt64) : ItchMsg :=
      .addOrder
        { ns := 0, orderNumber, side := ascii 'B', qty := 100
          orderbookId := CStr.copy 4 [49, 51, 48, 49], group := CStr.copy 4 [68, 65, 89]
          price := 1000 }
    [(add 7).encode, ItchMsg.encode (.executed 5 7 40 1), (add 8).encode]
  numbered := by decide

def filledFeed : Feed := logFeed 1 [] filledLog

def filledLive : List Update := decodedUpdates (filledFeed.records.map ProtoFH.encodeUpdate)

def passedCalls : List Call :=
  (filledLive.take 2).map .update ++
    [.merge (decodedUpdates (feedTables filledFeed.records).snap.rows) 1]

/-- The fill is shown twice: by its own update, and by the row that has passed it. -/
theorem passedCalls_twice :
    (∀ call ∈ passedCalls, call.FromFeed filledFeed.records) ∧
      (liveUpdates passedCalls).Pairwise
        (fun earlier later => earlier.position < later.position) ∧
      ((State.run passedCalls).ring [49, 51, 48, 49]).map
        (fun trade => filledFeed.executionAt [49, 51, 48, 49] trade.exchSeq) = [some 2, some 2] ∧
      ¬ (State.run passedCalls).ShowsOnce filledFeed := by
  have twice : ((State.run passedCalls).ring [49, 51, 48, 49]).map
      (fun trade => filledFeed.executionAt [49, 51, 48, 49] trade.exchSeq) =
        [some 2, some 2] := by
    decide +kernel
  refine ⟨?_, by decide +kernel, twice, fun shows => ?_⟩
  · intro call member
    rcases List.mem_append.mp member with live | snapshot
    · obtain ⟨rec, inLive, rfl⟩ := List.mem_map.mp live
      exact fromFeed_live (List.mem_of_mem_take inLive)
    · rw [List.mem_singleton.mp snapshot]
      exact ⟨_, List.prefix_refl _, map_decodeRecord (by decide +kernel), by decide +kernel⟩
  · obtain ⟨first, rest, isRing, isFirst, others⟩ := List.map_eq_cons_iff.mp twice
    obtain ⟨second, none, isRest, isSecond, -⟩ := List.map_eq_cons_iff.mp others
    have ordered := (shows [49, 51, 48, 49]).ordered
    rw [isRing, isRest] at ordered
    obtain ⟨execution, next, isExecution, isNext, less⟩ :=
      (List.pairwise_cons.mp ordered).1 second List.mem_cons_self
    rw [isFirst, Option.some_inj] at isExecution
    rw [isSecond, Option.some_inj] at isNext
    omega

theorem filledLive_once :
    filledLive.length = 3 ∧
      ∀ n call, (filledLive.map Call.update)[n]? = some call → ∀ count,
        ((State.run ((filledLive.map Call.update).take n)).call (call.upTo count)).ShowsOnce
          filledFeed := by
  have three : filledLive.length = 3 := by decide +kernel
  refine ⟨three, (State.shown_once_iff filledFeed (filledLive.map .update) ?_).mpr ?_⟩
  · intro call member
    obtain ⟨rec, inLive, rfl⟩ := List.mem_map.mp member
    exact fromFeed_live inLive
  · intro n call found
    rw [List.getElem?_map] at found
    obtain ⟨rec, position, rfl⟩ := Option.map_eq_some_iff.mp found
    -- Only the second one is an `E`, and it meets no entry.
    have empty : ∀ n < 3, ∀ rec ∈ filledLive[n]?,
        rec.envelope.trigger = [ascii 'E'] →
          ((State.run ((filledLive.map Call.update).take n)).enterEpoch
            rec.envelope.epoch).ring rec.envelope.ticker = [] := by
      decide +kernel
    intro traded newest final
    have inside := (List.getElem?_eq_some_iff.mp position).1
    rw [empty n (three ▸ inside) rec position traded] at final
    cases final

end ProtoFH.Web
