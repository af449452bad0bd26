import ProtoFH.Web.Forward
import ProtoFH.Web.Receiver
import ProtoFH.Web.SnapReply

/-! # Fetching snapshots

jnxweb asks the database for a snapshot when it starts and after every restart of the feed,
and again when that fails. A newer request replaces the one under way. The queries and the
timers are objects that the reactor calls for as long as they are registered, so all that were
ever made are kept here. A run is any order of datagrams, of calls of a query, of timers and of
the final shutdown. -/

namespace ProtoFH.Web

/-- The settings of `SnapshotBootstrap`, with delays in milliseconds. `dbAddr` says whether the
address of the database was given. -/
structure BootstrapConfig where
  dbAddr : Bool := true
  restartDebounce : Nat := 1500
  retryDelay : Nat := 1000
  maxAttempts : Nat := 3

structure Request where
  expectedEpoch : Option Nat
  attempt : Nat
deriving DecidableEq

inductive TimerCall where
  | beginFetch (request : Request)
  | beginRetry (request : Request)

/-- `TimerHandle`, live until it is cancelled or has been called. -/
structure BootTimer where
  delay : Nat
  call : TimerCall
  live : Bool := true

/-- A `SnapshotQuery` with what its `on_done` captures. -/
structure Fetch where
  query : SnapshotQuery
  request : Request

/-- `SnapshotBootstrap` with the state and all its queries and timers. `raised` says that an
exception has left a callback, which ends the program. -/
structure Bootstrap where
  state : State := {}
  queries : List Fetch := []
  timers : List BootTimer := []
  query : Option Nat := none
  debounceTimer : Option Nat := none
  retryTimer : Option Nat := none
  applying : Bool := false
  raised : Bool := false
  closed : Bool := false

/-- What the reactor calls. `refused` is the error of a connection that fails at once. -/
inductive BootEvent where
  | datagram (data : Bytes) (refused : Option Text)
  | query (id : Nat) (event : QueryEvent)
  | timer (id : Nat) (refused : Option Text)
  | close

namespace Bootstrap

def cancelTimer (timers : List BootTimer) : Option Nat → List BootTimer
  | none => timers
  | some id => timers.modify id fun timer => { timer with live := false }

def cancelPending (boot : Bootstrap) : Bootstrap :=
  { boot with
    timers := cancelTimer (cancelTimer boot.timers boot.debounceTimer) boot.retryTimer
    debounceTimer := none
    retryTimer := none }

def cancelQuery (boot : Bootstrap) : Bootstrap :=
  match boot.query with
  | none => boot
  | some id =>
      { boot with
        queries := boot.queries.modify id fun fetch => { fetch with query := fetch.query.cancel }
        query := none }

variable (config : BootstrapConfig)

def maybeRetry (boot : Bootstrap) (request : Request) : Bootstrap :=
  if request.attempt ≥ config.maxAttempts then boot
  else
    { boot with
      timers := boot.timers ++
        [{ delay := config.retryDelay
           call := .beginRetry { request with attempt := request.attempt + 1 } }]
      retryTimer := some boot.timers.length }

/-- `_begin`. A connection that is refused at once is reported by the constructor of the
query, so before `_query` is set. -/
def beginFetch (boot : Bootstrap) (request : Request) (refused : Option Text) : Bootstrap :=
  let made := { boot with
    debounceTimer := none
    queries := boot.queries ++ [{ query := .start refused, request }] }
  let called := if refused.isSome then maybeRetry config { made with query := none } request
    else made
  { called with query := some boot.queries.length }

def schedule (boot : Bootstrap) (request : Request) (delay : Nat) (refused : Option Text) :
    Bootstrap :=
  let free := boot.cancelPending.cancelQuery
  if delay = 0 then free.beginFetch config request refused
  else
    { free with
      timers := free.timers ++ [{ delay, call := .beginFetch request }]
      debounceTimer := some free.timers.length }

def onRestart (boot : Bootstrap) (epoch : Nat) (refused : Option Text) : Bootstrap :=
  if config.dbAddr = false ∨ boot.applying then boot
  else boot.schedule config { expectedEpoch := some epoch, attempt := 1 } config.restartDebounce
    refused

def callBack (refused : Option Text) (boot : Bootstrap) : Notice → Bootstrap
  | .restart epoch => boot.onRestart config epoch refused
  | .tickerUpdate _ => boot

def moveTo (boot : Bootstrap) (state : State) (refused : Option Text) : Bootstrap :=
  (state.notices.drop boot.state.notices.length).foldl (callBack config refused)
    { boot with state }

def merge (boot : Bootstrap) (rows : List Update) (snapEpoch : Int) : Bootstrap :=
  let applying := { boot with applying := true }
  let merged := applying.moveTo config (boot.state.mergeSnapshot rows snapEpoch.toNat).1 none
  { merged with applying := false }

/-- `_on_done`. The epochs of a database are not negative. -/
def onDone (boot : Bootstrap) (request : Request) (outcome : Except SnapError (List Update × Int)) :
    Bootstrap :=
  let done := { boot with query := none }
  match outcome with
  | .error _ => done.maybeRetry config request
  | .ok (rows, snapEpoch) =>
      match request.expectedEpoch with
      | none => done.merge config rows snapEpoch
      | some expected =>
          if snapEpoch ≠ expected then done.maybeRetry config request
          else done.merge config rows snapEpoch

/-- The reactor calls a query, which may call `on_done`. -/
def callQuery (boot : Bootstrap) (id : Nat) (event : QueryEvent) : Bootstrap :=
  match boot.queries[id]? with
  | none => boot
  | some fetch =>
      let stepped := fetch.query.step event
      let called := { boot with
        queries := boot.queries.set id { fetch with query := stepped }
        raised := boot.raised || stepped.raised.isSome }
      match stepped.done.drop fetch.query.done.length with
      | [] => called
      | outcome :: _ => called.onDone config fetch.request outcome

/-- A timer is due. `_begin_retry` forgets the timer that has called it. -/
def callTimer (boot : Bootstrap) (id : Nat) (refused : Option Text) : Bootstrap :=
  match boot.timers[id]? with
  | none => boot
  | some timer =>
      if timer.live then
        let called := { boot with timers := boot.timers.set id { timer with live := false } }
        match timer.call with
        | .beginFetch request => called.beginFetch config request refused
        | .beginRetry request =>
            beginFetch config { called with retryTimer := none } request refused
      else boot

/-- `_handle_datagram` -/
def onDatagram (boot : Bootstrap) (data : Bytes) (refused : Option Text) : Bootstrap :=
  match handleDatagram boot.state data with
  | .ok state => boot.moveTo config state refused
  | .error _ => { boot with raised := true }

def close (boot : Bootstrap) : Bootstrap := { boot.cancelPending.cancelQuery with closed := true }

def start (refused : Option Text) : Bootstrap :=
  if config.dbAddr then
    ({} : Bootstrap).schedule config { expectedEpoch := none, attempt := 1 } 0 refused
  else {}

def step (boot : Bootstrap) (event : BootEvent) : Bootstrap :=
  if boot.raised ∨ boot.closed then boot
  else
    match event with
    | .datagram data refused => boot.onDatagram config data refused
    | .query id event => boot.callQuery config id event
    | .timer id refused => boot.callTimer config id refused
    | .close => boot.close

def run (refused : Option Text) (events : List BootEvent) : Bootstrap :=
  events.foldl (step config) (start config refused)

end Bootstrap

/-! ## A snapshot seeds the state

When the last bytes of a reply arrive, every row of the tables is shown, or something newer is. -/

namespace State

def ShownFrom (state : State) (ticker : Text) (exchSeq : Nat) : Prop :=
  ∃ shown, state.tickers.find? ticker = some shown ∧ exchSeq ≤ shown.envelope.exchSeq

theorem ShownFrom.mergeRow {progress : State × Nat} {ticker : Text} {exchSeq : Nat}
    (shown : progress.1.ShownFrom ticker exchSeq) (rec : Update) :
    (mergeRow progress rec).1.ShownFrom ticker exchSeq := by
  obtain ⟨cached, found, newer⟩ := shown
  rcases mergeRow_cases progress rec with same | ⟨stored, replaces⟩
  · rw [same]
    exact ⟨cached, found, newer⟩
  · rw [stored, ShownFrom, storeRow_tickers]
    by_cases isTicker : rec.envelope.ticker = ticker
    · refine ⟨rec, by rw [Dict.find?_set, if_pos isTicker], ?_⟩
      exact newer.trans (Nat.le_of_lt (replaces cached (isTicker ▸ found)))
    · exact ⟨cached, by rw [Dict.find?_set, if_neg isTicker]; exact found, newer⟩

private theorem shownFrom_mergeRow (progress : State × Nat) (rec : Update) :
    (State.mergeRow progress rec).1.ShownFrom rec.envelope.ticker rec.envelope.exchSeq := by
  rw [State.mergeRow]
  have stored : (storeRow progress rec).1.ShownFrom rec.envelope.ticker rec.envelope.exchSeq :=
    ⟨rec, by rw [storeRow_tickers, Dict.find?_set, if_pos rfl], le_rfl⟩
  split
  · next cached found =>
      split
      · next newer => exact ⟨cached, found, newer⟩
      · exact stored
  · exact stored

theorem mergeRows_lastEpoch (state : State) (rows : List Update) :
    (state.mergeRows rows).1.lastEpoch = state.lastEpoch := by
  suffices ∀ progress : State × Nat,
      (rows.foldl mergeRow progress).1.lastEpoch = progress.1.lastEpoch from this (state, 0)
  induction rows with
  | nil => exact fun _ => rfl
  | cons row rows induction =>
      exact fun progress => (induction _).trans (mergeRow_lastEpoch progress row)

theorem mergeRows_shows (state : State) (rows : List Update) :
    (∀ rec ∈ rows,
      (state.mergeRows rows).1.ShownFrom rec.envelope.ticker rec.envelope.exchSeq) ∧
    ∀ ticker exchSeq, state.ShownFrom ticker exchSeq →
      (state.mergeRows rows).1.ShownFrom ticker exchSeq := by
  suffices ∀ progress : State × Nat,
      (∀ rec ∈ rows, (rows.foldl mergeRow progress).1.ShownFrom rec.envelope.ticker
        rec.envelope.exchSeq) ∧
      ∀ ticker exchSeq, progress.1.ShownFrom ticker exchSeq →
        (rows.foldl mergeRow progress).1.ShownFrom ticker exchSeq from this (state, 0)
  induction rows with
  | nil => exact fun progress => ⟨nofun, fun _ _ shown => shown⟩
  | cons row rows induction =>
      intro progress
      obtain ⟨later, kept⟩ := induction (mergeRow progress row)
      refine ⟨List.forall_mem_cons.mpr ⟨?_, later⟩, fun ticker exchSeq shown => ?_⟩
      · exact kept _ _ (shownFrom_mergeRow progress row)
      · exact kept ticker exchSeq (shown.mergeRow row)

private theorem mergeSnapshot_shows {state : State} {epoch : Nat}
    (notAhead : ∀ last, state.lastEpoch = some last → last ≤ epoch) (rows : List Update) :
    (state.mergeSnapshot rows epoch).1.lastEpoch = some epoch ∧
    (∀ rec ∈ rows,
      (state.mergeSnapshot rows epoch).1.ShownFrom rec.envelope.ticker rec.envelope.exchSeq) ∧
    (state.lastEpoch = some epoch → ∀ ticker exchSeq, state.ShownFrom ticker exchSeq →
      (state.mergeSnapshot rows epoch).1.ShownFrom ticker exchSeq) := by
  rw [mergeSnapshot]
  cases last : state.lastEpoch with
  | none =>
      refine ⟨mergeRows_lastEpoch _ rows, (mergeRows_shows _ rows).1, fun same => ?_⟩
      cases same
  | some known =>
      have bound := notAhead known last
      dsimp only
      rw [if_neg (by omega)]
      split
      · next newer =>
          refine ⟨mergeRows_lastEpoch _ rows, (mergeRows_shows _ rows).1, fun same => ?_⟩
          cases same
          omega
      · next current =>
          have same : known = epoch := by omega
          refine ⟨?_, (mergeRows_shows state rows).1, fun _ => (mergeRows_shows state rows).2⟩
          rw [mergeRows_lastEpoch state rows, last, same]

end State

namespace SnapshotQuery

private theorem step_last {query : SnapshotQuery} (unfinished : query.finished = false)
    (reading : query.reading = true) {data : Bytes} (nonempty : data ≠ [])
    (whole : DbQuery.Terminated (query.recvBuf ++ data)) :
    query.step (.readable (.done data)) =
      DbQuery.finish { query with recvBuf := query.recvBuf ++ data }
        (snapReader.read (decodeReplace (query.recvBuf ++ data))) := by
  simp only [step, DbQuery.step, unfinished, reading, Bool.false_eq_true, if_false, if_true,
    DbQuery.onReadable, nonempty, whole]

end SnapshotQuery

private theorem rows_of_entries {tables : Tables} (legible : tables.Legible) {rows : List Update}
    (decoded : tables.books.toList.map (fun entry =>
        decodeRecord (ProtoFH.encodeUpdate (tables.makeDumpUpdate entry.1 entry.2))) =
      rows.map fun row => .ok (.update row)) :
    ∀ entry ∈ tables.books.toList, ∃ row ∈ rows,
      row.envelope.ticker = entry.1.ticker.trimmed.bytes ∧
        row.envelope.exchSeq = entry.2.lastExchSeq.toNat := by
  intro entry member
  have outcome : decodeRecord (ProtoFH.encodeUpdate (tables.makeDumpUpdate entry.1 entry.2)) ∈
      rows.map fun row => (.ok (.update row) : Codec Record) := by
    rw [← decoded]
    exact List.mem_map_of_mem member
  obtain ⟨row, inRows, same⟩ := List.mem_map.mp outcome
  rw [(legible.isAscii member).decode_eq] at same
  refine ⟨row, inRows, ?_⟩
  cases read : BookFields.decode (tables.makeDumpUpdate entry.1 entry.2).book.values with
  | error error =>
      rw [read] at same
      cases same
  | ok book =>
      rw [read] at same
      cases same
      exact ⟨rfl, rfl⟩

namespace Bootstrap

variable {boot : Bootstrap} {config : BootstrapConfig}

theorem moveTo_applying (applying : boot.applying = true) (state : State) (refused : Option Text) :
    boot.moveTo config state refused = { boot with state } := by
  rw [moveTo]
  generalize state.notices.drop boot.state.notices.length = notices
  induction notices with
  | nil => rfl
  | cons notice notices induction =>
      rw [List.foldl_cons]
      cases notice with
      | tickerUpdate ticker => exact induction
      | restart epoch =>
          rw [callBack, onRestart, if_pos (.inr applying)]
          exact induction

private theorem state_onDone {request : Request} {rows : List Update} {epoch : Nat}
    (expected : ∀ other, request.expectedEpoch = some other → other = epoch) :
    (boot.onDone config request (.ok (rows, (epoch : Int)))).state =
      (boot.state.mergeSnapshot rows epoch).1 := by
  have merged : (merge config { boot with query := none } rows epoch).state =
      (boot.state.mergeSnapshot rows epoch).1 := by
    rw [merge]
    simp only [moveTo_applying, Int.toNat_natCast]
  unfold onDone
  cases asked : request.expectedEpoch with
  | none => exact merged
  | some other =>
      dsimp only
      rw [if_neg (by rw [expected other asked]; simp)]
      exact merged

/-- In any state that a run can reach: when the last bytes of the reply of the database arrive
at the query under way, and the database has caught up, the state is in the epoch of the
database and shows every row, at the row's exchange sequence or a later one. Nothing that the
state showed of that epoch is lost or set back. -/
theorem reply_seeds_the_state {refused : Option Text} {events : List BootEvent}
    (running : (run config refused events).raised = false ∧
      (run config refused events).closed = false)
    {id : Nat} {fetch : Fetch} (found : (run config refused events).queries[id]? = some fetch)
    (unfinished : fetch.query.finished = false) (reading : fetch.query.reading = true)
    {tables : Tables} (legible : tables.Legible) (shallow : tables.Shallow) {rssKb : Nat}
    {data : Bytes} (nonempty : data ≠ [])
    (whole : fetch.query.recvBuf ++ data = tables.respond rssKb (label "SNAP"))
    (expected : ∀ epoch, fetch.request.expectedEpoch = some epoch →
      epoch = tables.dbMeta.epoch.toNat)
    (notAhead : ∀ last, (run config refused events).state.lastEpoch = some last →
      last ≤ tables.dbMeta.epoch.toNat) :
    let before := (run config refused events).state
    let after := (run config refused (events ++ [.query id (.readable (.done data))])).state
    after.lastEpoch = some tables.dbMeta.epoch.toNat ∧
    (∀ entry ∈ tables.books.toList,
      after.ShownFrom entry.1.ticker.trimmed.bytes entry.2.lastExchSeq.toNat) ∧
    (before.lastEpoch = some tables.dbMeta.epoch.toNat → ∀ ticker exchSeq,
      before.ShownFrom ticker exchSeq → after.ShownFrom ticker exchSeq) := by
  intro before after
  obtain ⟨rows, parsed, decoded⟩ := (Tables.parseSnapReply_iff legible rssKb).mpr shallow
  have ended : DbQuery.Terminated (fetch.query.recvBuf ++ data) :=
    whole ▸ terminated_text tables.snap
  have stepped := SnapshotQuery.step_last unfinished reading nonempty ended
  have reported : (fetch.query.step (.readable (.done data))).done.drop fetch.query.done.length =
      [.ok (rows, (tables.dbMeta.epoch.toNat : Int))] := by
    rw [stepped, whole]
    simp only [DbQuery.finish, unfinished, snapReader, parsed, Bool.false_eq_true, if_false,
      List.drop_left]
  have merged : after = (before.mergeSnapshot rows tables.dbMeta.epoch.toNat).1 := by
    have called : after = (callQuery config (run config refused events) id
        (.readable (.done data))).state := by
      simp only [after, run, List.foldl_append, List.foldl_cons, List.foldl_nil]
      rw [← run, step, if_neg (by simp [running])]
    rw [called, callQuery, found]
    simp only [reported]
    exact state_onDone expected
  obtain ⟨epoch, shown, kept⟩ := State.mergeSnapshot_shows notAhead rows
  rw [merged]
  refine ⟨epoch, fun entry member => ?_, kept⟩
  obtain ⟨row, inRows, ticker, exchSeq⟩ := rows_of_entries legible decoded entry member
  rw [← ticker, ← exchSeq]
  exact shown row inRows

/-! A reply that arrives in two pieces. -/

open SnapshotQuery (seedingReply twoBooks twoBooks_legible twoBooks_shallow)

def seedingEvents : List BootEvent :=
  [.query 0 (.writable none (.done 5)), .query 0 (.readable (.done (seedingReply.take 20)))]

theorem reply_seeds_the_state_inTwoPieces :
    (run {} none (seedingEvents ++
      [.query 0 (.readable (.done (seedingReply.drop 20)))])).state.lastEpoch = some 0 := by
  have unknown : (run {} none seedingEvents).state.lastEpoch = none := by decide +kernel
  exact (@reply_seeds_the_state {} none seedingEvents ⟨by decide +kernel, by decide +kernel⟩ 0
    ⟨{ recvBuf := seedingReply.take 20, sendBuf := [], connecting := false, reading := true },
      { expectedEpoch := none, attempt := 1 }⟩ rfl rfl rfl
    (twoBooks 10) (twoBooks_legible 10) twoBooks_shallow 0 (seedingReply.drop 20)
    (by decide +kernel) (List.take_append_drop 20 seedingReply) nofun
    fun last known => by cases unknown.symm.trans known).1

end Bootstrap

end ProtoFH.Web
