import ProtoFH.Foundation.Execution
import ProtoFH.Web.Forward
import ProtoFH.Web.Hub

/-! # State, hub and connections together

The state calls the hub back while it applies updates and merges snapshots; the reactor
calls the connections. -/

namespace ProtoFH.Web

/-- The readings of the clock during the calls of `queue_update` of one walk. -/
abbrev Clock := Nat → Time × Time

structure System where
  state : State
  hub : Hub

namespace System

def start : System := ⟨{}, .empty⟩

variable (json : Json)

/-- A callback of the state. `on_restart` does not look at the state. -/
def callBack (state : State) (clock : Clock) (hub : Hub) : Notice → Hub
  | .tickerUpdate ticker => hub.onTickerUpdate json state ticker clock
  | .restart epoch => hub.onRestart json epoch

def moveTo (system : System) (state : State) (clock : Clock) : System where
  state := state
  hub := (state.notices.drop system.state.notices.length).foldl (callBack json state clock)
    system.hub

def applyUpdate (system : System) (rec : Update) (clock : Clock) : System :=
  system.moveTo json (system.state.applyUpdate rec) clock

def mergeRow (progress : System × Nat) (row : Update × Clock) : System × Nat :=
  let merged := State.mergeRow (progress.1.state, progress.2) row.1
  (progress.1.moveTo json merged.1 row.2, merged.2)

def mergeRows (system : System) (rows : List (Update × Clock)) : System :=
  let merged := rows.foldl (mergeRow json) (system, 0)
  { merged.1 with
    state :=
      { merged.1.state with
        snapshots := merged.1.state.snapshots + 1
        snapshotRows := merged.1.state.snapshotRows + merged.2 } }

def mergeSnapshot (system : System) (rows : List (Update × Clock)) (snapEpoch : Nat)
    (clock : Clock) : System :=
  match system.state.lastEpoch with
  | none => (system.moveTo json (system.state.adoptEpoch snapEpoch) clock).mergeRows json rows
  | some last =>
      if snapEpoch < last then system
      else if snapEpoch > last then
        (system.moveTo json ((system.state.restart snapEpoch).adoptEpoch snapEpoch)
          clock).mergeRows json rows
      else system.mergeRows json rows

end System

/-- What drives the system: datagrams, snapshots, new connections, and the callbacks of one
connection. -/
inductive Event where
  | update (rec : Update) (clock : Clock)
  | snapshot (rows : List (Update × Clock)) (epoch : Nat) (clock : Clock)
  | attach
  | readable (id : Nat) (received : Received)
  | timers (id : Nat) (now later : Time)
  | writable (id : Nat) (sent : Sent)
  | close (id : Nat)

namespace System

variable (json : Json)

def onClient (system : System) (id : Nat) (event : ClientEvent) : System :=
  if id < system.hub.next then { system with hub := system.hub.call json id event } else system

def step (system : System) : Event → System
  | .update rec clock => system.applyUpdate json rec clock
  | .snapshot rows epoch clock => system.mergeSnapshot json rows epoch clock
  | .attach => { system with hub := system.hub.attach }
  | .readable id received => system.onClient json id (.readable system.state.lookup received)
  | .timers id now later => system.onClient json id (.timers now later)
  | .writable id sent => system.onClient json id (.writable sent)
  | .close id => system.onClient json id .close

def run (events : List Event) : System := events.foldl (step json) start

end System

/-! ## What the state does -/

namespace State

def announced (state : State) : List Nat :=
  state.notices.filterMap fun notice =>
    match notice with
    | .restart epoch => some epoch
    | .tickerUpdate _ => none

/-- A move of the state during a step. A timely one announces no earlier epoch than before,
and stores a record of the current epoch only. -/
inductive Moves (timely : Prop) (state next : State) : Prop
  | restart (epoch : Nat) (tickers : next.tickers = ∅) (lastEpoch : next.lastEpoch = some epoch)
      (announced : next.announced = state.announced ++ [epoch])
      (forward : timely → ∀ told ∈ state.announced,
        (∀ last, state.lastEpoch = some last → told ≤ last) → told ≤ epoch)
  | record (rec : Update) (tickers : next.tickers = state.tickers.set rec.envelope.ticker rec)
      (lastEpoch : next.lastEpoch = state.lastEpoch) (announced : next.announced = state.announced)
      (current : timely → state.lastEpoch = some rec.envelope.epoch)
  | other (tickers : next.tickers = state.tickers) (announced : next.announced = state.announced)
      (lastEpoch : next.lastEpoch = state.lastEpoch ∨ state.lastEpoch = none)

variable {timely : Prop}

private theorem announced_restart (state : State) (epoch : Nat) :
    ((state.restart epoch).adoptEpoch epoch).announced = state.announced ++ [epoch] :=
  List.filterMap_append

private theorem announced_notify (state : State) (ticker : Text) :
    (state.notify (.tickerUpdate ticker)).announced = state.announced :=
  List.filterMap_append.trans (List.append_nil _)

private theorem moves_enterEpoch (state : State) (epoch : Nat)
    (forward : timely → ∀ told ∈ state.announced, told ≤ epoch) :
    state.Moves timely (state.enterEpoch epoch) := by
  rw [enterEpoch]
  split
  · exact .other rfl rfl (.inl rfl)
  · split
    · next unknown => exact .other rfl rfl (.inr unknown)
    · exact .restart epoch rfl rfl (state.announced_restart epoch)
        fun isTimely told member _ => forward isTimely told member

private theorem moves_applyUpdate (state : State) (rec : Update) :
    (state.enterEpoch rec.envelope.epoch).Moves timely (state.applyUpdate rec) := by
  refine .record rec (state.applyUpdate_tickers rec) ?_ ?_ fun _ => state.enterEpoch_lastEpoch _
  · rw [applyUpdate_lastEpoch, enterEpoch_lastEpoch]
  · refine (announced_notify _ _).trans ?_
    split <;> rfl

private theorem announced_seedTrade (state : State) (ticker : Text) (rec : Update) :
    (state.seedTrade ticker rec).announced = state.announced := by
  rw [seedTrade]
  split
  · rfl
  · split
    · split <;> rfl
    · rfl

private theorem moves_mergeRow (progress : State × Nat) (rec : Update)
    (current : timely → progress.1.lastEpoch = some rec.envelope.epoch) :
    progress.1.Moves timely (State.mergeRow progress rec).1 := by
  rcases mergeRow_cases progress rec with same | ⟨stored, -⟩
  · rw [same]
    exact .other rfl rfl (.inl rfl)
  · rw [stored]
    refine .record rec (storeRow_tickers progress rec) (storeRow_lastEpoch progress rec) ?_ current
    exact (announced_notify _ _).trans (announced_seedTrade _ _ _)

def Offers (state : State) (client : Client) : ClientEvent → Prop
  | .update ticker payload _ _ =>
      client.subscribed = some ticker ∧ state.lookup ticker = some payload
  | .event event => ∃ epoch ∈ state.announced, event = .restarted epoch
  | .readable lookup _ => lookup = state.lookup
  | _ => True

/-- No update is of an earlier epoch than a restart has announced, and the rows of a snapshot
carry the epoch of its header. -/
def Admits (state : State) : Event → Prop
  | .update rec _ => ∀ epoch ∈ state.announced, epoch ≤ rec.envelope.epoch
  | .snapshot rows epoch _ => ∀ row ∈ rows, row.1.envelope.epoch = epoch
  | _ => True

end State

/-! ## What holds in every run -/

namespace System

/-- A property that new connections, callbacks of clients and moves of the state keep. -/
structure Kept (json : Json) (timely : Prop) (property : State → Hub → Prop) : Prop where
  attach : ∀ {state : State} {hub : Hub}, property state hub → property state hub.attach
  call : ∀ {state : State} {hub : Hub} {id : Nat} {event : ClientEvent}, id < hub.next →
    state.Offers (hub.objects id) event → property state hub →
      property state (hub.call json id event)
  moves : ∀ {state next : State} {hub : Hub}, state.Moves timely next → property state hub →
    property next hub

namespace Kept

variable {json : Json} {timely : Prop} {property : State → Hub → Prop}
  (kept : Kept json timely property)

include kept

private theorem visit {state : State} {hub : Hub} {id : Nat} (known : id ∈ hub.clients)
    {offer : Hub.Offer} (offered : ∀ event, offer id (hub.objects id) = some event →
      state.Offers (hub.objects id) event) (holds : property state hub) :
    property state (hub.visit json offer id) := by
  rw [Hub.visit]
  split
  · exact holds
  · next event found => exact kept.call (hub.issued id known) (offered event found) holds

private theorem callBack {state : State} (clock : Clock) {hub : Hub} (holds : property state hub)
    {notice : Notice} (made : notice ∈ state.notices) :
    property state (System.callBack json state clock hub notice) := by
  cases notice with
  | restart epoch =>
      refine (Hub.loop json _).run_invariant (property state)
        (fun hub id known => kept.visit known ?_) holds
      intro event offered
      cases offered
      exact ⟨epoch, List.mem_filterMap.mpr ⟨_, made, rfl⟩, rfl⟩
  | tickerUpdate ticker =>
      refine (Hub.loop json _).run_invariant (property state)
        (fun hub id known => kept.visit known ?_) holds
      intro event offered
      rw [Hub.offerUpdate] at offered
      split at offered
      · next subscribed =>
          rw [Option.map_eq_some_iff] at offered
          obtain ⟨snap, found, rfl⟩ := offered
          exact ⟨subscribed, found⟩
      · cases offered

variable {system : System}

theorem moveTo {state : State} (moved : property state system.hub) (clock : Clock) :
    property state (system.moveTo json state clock).hub :=
  foldl_invariant (property state)
    (fun _ _ member before => kept.callBack clock before (List.mem_of_mem_drop member)) moved

private theorem mergeRows (holds : property system.state system.hub) {rows : List (Update × Clock)}
    (current : timely → ∀ row ∈ rows, system.state.lastEpoch = some row.1.envelope.epoch) :
    property (system.mergeRows json rows).state (system.mergeRows json rows).hub := by
  have merged : property (rows.foldl (System.mergeRow json) (system, 0)).1.state
        (rows.foldl (System.mergeRow json) (system, 0)).1.hub ∧
      (rows.foldl (System.mergeRow json) (system, 0)).1.state.lastEpoch =
        system.state.lastEpoch := by
    refine foldl_invariant (fun progress : System × Nat =>
      property progress.1.state progress.1.hub ∧
        progress.1.state.lastEpoch = system.state.lastEpoch) ?_ ⟨holds, rfl⟩
    rintro progress row member ⟨before, epoch⟩
    refine ⟨kept.moveTo (kept.moves (State.moves_mergeRow _ row.1 fun isTimely => ?_) before) row.2,
      (State.mergeRow_lastEpoch _ row.1).trans epoch⟩
    exact epoch.trans (current isTimely row member)
  refine kept.moves ?_ merged.1
  exact .other rfl rfl (.inl rfl)

private theorem mergeSnapshot (holds : property system.state system.hub)
    {rows : List (Update × Clock)} {epoch : Nat}
    (dumped : timely → ∀ row ∈ rows, row.1.envelope.epoch = epoch) (clock : Clock) :
    property (system.mergeSnapshot json rows epoch clock).state
      (system.mergeSnapshot json rows epoch clock).hub := by
  have entered {state : State} (moves : system.state.Moves timely state)
      (current : state.lastEpoch = some epoch) :
      property ((system.moveTo json state clock).mergeRows json rows).state
        ((system.moveTo json state clock).mergeRows json rows).hub := by
    refine kept.mergeRows (kept.moveTo (kept.moves moves holds) clock) fun isTimely row member => ?_
    rw [dumped isTimely row member]
    exact current
  rw [System.mergeSnapshot]
  split
  · next unknown => exact entered (.other rfl rfl (.inr unknown)) rfl
  · next last known =>
      split_ifs with older newer
      · exact holds
      · refine entered (.restart epoch rfl rfl (system.state.announced_restart epoch) ?_) rfl
        exact fun _ told _ bound => (bound last known).trans (Nat.le_of_lt newer)
      · refine kept.mergeRows holds fun isTimely row member => ?_
        rw [known, dumped isTimely row member, Option.some_inj]
        omega

private theorem onClient (holds : property system.state system.hub) (id : Nat) {event : ClientEvent}
    (offered : system.state.Offers (system.hub.objects id) event) :
    property (system.onClient json id event).state (system.onClient json id event).hub := by
  rw [System.onClient]
  split
  · next attached => exact kept.call attached offered holds
  · exact holds

theorem step (holds : property system.state system.hub) {event : Event}
    (admitted : timely → system.state.Admits event) :
    property (system.step json event).state (system.step json event).hub := by
  cases event with
  | update rec clock =>
      have entered := kept.moves (system.state.moves_enterEpoch rec.envelope.epoch admitted) holds
      exact kept.moveTo (kept.moves (system.state.moves_applyUpdate rec) entered) clock
  | snapshot rows epoch clock => exact kept.mergeSnapshot holds admitted clock
  | attach => exact kept.attach holds
  | readable id received => exact kept.onClient holds id rfl
  | timers id now later | writable id sent | close id => exact kept.onClient holds id trivial

theorem run (start : property {} .empty) (events : List Event)
    (admitted : timely → ∀ n event, events[n]? = some event →
      (System.run json (events.take n)).state.Admits event) :
    property (System.run json events).state (System.run json events).hub := by
  induction events using List.reverseRecOn with
  | nil => exact start
  | append_singleton events event induction =>
      have before := induction fun isTimely n other found => by
        have within : n < events.length := (List.getElem?_eq_some_iff.mp found).1
        have admits := admitted isTimely n other ((List.getElem?_append_left within).trans found)
        rwa [List.take_append_of_le_length (Nat.le_of_lt within)] at admits
      rw [System.run, List.foldl_concat, ← System.run]
      refine kept.step before fun isTimely => ?_
      have last := admitted isTimely events.length event List.getElem?_concat_length
      rwa [List.take_left] at last

end Kept

theorem kept_objects {json : Json} {timely : Prop} {facts : State → Prop}
    {property : Client → Prop}
    (moves : ∀ {state next}, state.Moves timely next → facts state → facts next)
    (fresh : property {}) (step : ∀ {state client event}, facts state → state.Offers client event →
      property client → property (client.step json event)) :
    Kept json timely fun state hub => facts state ∧ ∀ id, property (hub.objects id) where
  attach := by
    rintro state hub ⟨known, holds⟩
    refine ⟨known, fun id => ?_⟩
    change property (Function.update hub.objects hub.next {} id)
    rw [Function.update_apply]
    split
    · exact fresh
    · exact holds id
  call := by
    rintro state hub id event - offered ⟨known, holds⟩
    refine ⟨known, fun other => ?_⟩
    rw [Hub.objects_call]
    split
    · exact step known offered (holds id)
    · exact holds other
  moves next := fun ⟨known, holds⟩ => ⟨moves next known, holds⟩

end System

end ProtoFH.Web
