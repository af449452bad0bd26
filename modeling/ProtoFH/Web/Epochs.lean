import ProtoFH.Web.System

/-! # Epochs behind a restart banner

A restart clears the state and announces the new epoch at once, but a payload of the old one
may still be pending on a connection, and its timer pushes it behind the banner. -/

namespace ProtoFH.Web

def Frame.outdates : Frame → Frame → Bool
  | .text (.restarted epoch), .text (.snapshot rec _) => rec.envelope.epoch < epoch
  | _, _ => false

abbrev Frame.KeepsEpoch (banner payload : Frame) : Prop := banner.outdates payload = false

def Frame.banner : Frame → Option Nat
  | .text (.restarted epoch) => some epoch
  | _ => none

namespace Client

def NoStaleEpoch (client : Client) : Prop := client.Orderly Frame.KeepsEpoch

/-! ## Banners -/

def banners (client : Client) : List Nat := client.frames.filterMap Frame.banner

def takesBanner (json : Json) (client : Client) : ClientEvent → Option Nat
  | .event (.restarted epoch) =>
      if client.refuses = false ∧ client.Fits json (.text (.restarted epoch)) then some epoch
      else none
  | _ => none

private theorem keepsEpoch_snapshot_iff {client : Client} {rec : Update}
    {trades : List RingTrade} :
    (∀ sent ∈ client.frames, sent.KeepsEpoch (.text (.snapshot rec trades))) ↔
      ∀ epoch ∈ client.banners, epoch ≤ rec.envelope.epoch := by
  constructor
  · intro kept epoch member
    obtain ⟨sent, enqueued, banner⟩ := List.mem_filterMap.mp member
    have keeps := kept sent enqueued
    unfold Frame.banner at banner
    split at banner
    · cases banner
      exact Nat.not_lt.mp (of_decide_eq_false keeps)
    · cases banner
  · intro bound sent enqueued
    rw [Frame.KeepsEpoch, Frame.outdates.eq_def]
    split
    · next epoch other _ same =>
        cases same
        exact decide_eq_false (Nat.not_lt.mpr (bound epoch (List.mem_filterMap.mpr
          ⟨_, enqueued, rfl⟩)))
    · rfl

private theorem banners_enqueue (json : Json) (client : Client) {frame : Frame}
    (plain : frame.banner = none) : (client.enqueue json frame).banners = client.banners := by
  rw [banners, frames_enqueue]
  split
  · rw [List.filterMap_append, List.filterMap_cons_none plain]
    exact List.append_nil _
  · rfl

private theorem banners_of_frames {client later : Client} (same : later.frames = client.frames) :
    later.banners = client.banners := congrArg (List.filterMap Frame.banner) same

end Client

private theorem State.plain_of_lookup {state : State} {ticker : Text} {payload : Reply}
    (known : state.lookup ticker = some payload) : (Frame.text payload).banner = none := by
  obtain ⟨snap, -, rfl⟩ := Option.map_eq_some_iff.mp known
  rfl

namespace Client

private theorem answer_cases {json : Json} {state : State} {frame : ClientFrame} {reply : Frame}
    (answered : answer json state.lookup frame = some reply) :
    (∃ ticker payload, state.lookup ticker = some payload ∧ reply = .text payload) ∨
      reply.banner = none ∧ ∀ rec trades, reply ≠ .text (.snapshot rec trades) := by
  rw [answer] at answered
  split_ifs at answered
  · cases answered
    exact .inr ⟨rfl, fun _ _ same => by cases same⟩
  · obtain ⟨ticker, -, rfl⟩ := Option.map_eq_some_iff.mp answered
    cases known : state.lookup ticker with
    | none => exact .inr ⟨rfl, fun _ _ same => by cases same⟩
    | some payload => exact .inl ⟨ticker, payload, known, rfl⟩
  all_goals
    cases answered
    exact .inr ⟨rfl, fun _ _ same => by cases same⟩

private theorem banners_readFrame (json : Json) (state : State) (client : Client) :
    (client.readFrame json state.lookup).1.banners = client.banners := by
  rw [readFrame]
  split
  · exact banners_of_frames client.frames_teardown
  · rfl
  · next frame consumed _ =>
      rw [banners, frames_handle]
      split
      · rfl
      · next reply answered =>
          refine banners_enqueue json (client.consume consumed) ?_
          rcases answer_cases answered with ⟨ticker, payload, known, rfl⟩ | ⟨plain, -⟩
          · exact State.plain_of_lookup known
          · exact plain

private theorem banners_onReadable (json : Json) (state : State) (client : Client)
    (received : Received) :
    (client.onReadable json state.lookup received).banners = client.banners := by
  cases received with
  | blocked => rfl
  | failed => exact banners_of_frames client.frames_teardown
  | data bytes =>
      cases bytes with
      | nil => exact banners_of_frames client.frames_teardown
      | cons byte bytes =>
          exact (reader json state.lookup).drained_invariant
            (fun later => later.banners = client.banners)
            (fun later same => (later.banners_readFrame json state).trans same) rfl

variable {client : Client}

theorem banners_step (json : Json) {state : State} {event : ClientEvent}
    (offered : state.Offers client event)
    (plain : ∀ payload, client.pendingPayload = some payload → (Frame.text payload).banner = none) :
    (client.step json event).banners =
      client.banners ++ (client.takesBanner json event).toList := by
  have same {after : Client} (banners : after.banners = client.banners) :
      after.banners = client.banners ++ (none : Option Nat).toList :=
    banners.trans (List.append_nil _).symm
  cases event with
  | readable lookup received =>
      cases offered
      exact same (client.banners_onReadable json state received)
  | update ticker payload now later =>
      have noted : (client.note (.queueUpdate ticker payload client.refuses)).banners =
          client.banners := banners_of_frames (client.frames_note fun _ other => by cases other)
      refine same ?_
      rw [step, callQueueUpdate]
      rcases queueUpdate_cases json (client.note (.queueUpdate ticker payload client.refuses))
        payload now later with ⟨-, equal⟩ | ⟨-, -, equal⟩ | ⟨-, -, deadline, -, equal⟩
      · rw [equal, noted]
      · rw [equal, sendJson, banners_enqueue json _ (State.plain_of_lookup offered.2),
          banners_of_frames (frames_push _ payload later), noted]
      · rw [equal]
        exact noted
  | event event =>
      obtain ⟨epoch, -, rfl⟩ := offered
      have noted : (client.note (.sendEvent (.restarted epoch))).frames = client.frames :=
        client.frames_note fun _ other => by cases other
      rw [step, callSendEvent, sendEvent, takesBanner]
      cases refuses : client.refuses with
      | true =>
          rw [if_pos (show (client.note _).refuses = true from refuses), if_neg (by simp)]
          exact same (banners_of_frames noted)
      | false =>
          have alive : client.tornDown = false := (Bool.or_eq_false_iff.mp refuses).1
          rw [if_neg (by rw [show (client.note _).refuses = false from refuses]; decide), sendJson,
            banners, frames_enqueue, noted]
          by_cases fits : client.Fits json (.text (.restarted epoch))
          · rw [if_pos ⟨alive, fits⟩, if_pos ⟨rfl, fits⟩, List.filterMap_append]
            rfl
          · rw [if_neg fun accepts => fits accepts.2, if_neg fun accepts => fits accepts.2]
            exact same rfl
  | timers now later =>
      refine same ?_
      rw [step, runDueTimer]
      split
      · rfl
      · split
        · rw [onFlushTimer, flushPending]
          split
          · rfl
          · next payload pending =>
              rw [sendJson, banners_enqueue json _ (plain payload pending)]
              exact banners_of_frames (frames_push _ payload later)
        · rfl
  | writable sent =>
      exact same (@onWritable_keeps (fun later => later.banners = client.banners)
        (fun later kept => (banners_of_frames later.frames_teardown).trans kept)
        (fun _ _ kept => kept) client rfl sent)
  | close => exact same (banners_of_frames client.frames_teardown)

/-! ## The pending payload -/

structure Follows (client later : Client) : Prop where
  idle : later.tornDown = true → later.flushTimer = none
  pending : ∀ payload, later.pendingPayload = some payload →
    client.pendingPayload = some payload
  timer : later.flushTimer.isSome →
    client.flushTimer.isSome ∧ later.pendingPayload = client.pendingPayload

private theorem Follows.disarmed {client later : Client} (timer : later.flushTimer = none)
    (pending : ∀ payload, later.pendingPayload = some payload →
      client.pendingPayload = some payload) : client.Follows later where
  idle _ := timer
  pending := pending
  timer armed := by
    rw [timer] at armed
    cases armed

private theorem Follows.teardown {client later : Client} (follows : client.Follows later) :
    client.Follows later.teardown := by
  rw [Client.teardown]
  split
  · exact follows
  · exact .disarmed rfl follows.pending

private theorem follows_self (idle : client.tornDown = true → client.flushTimer = none) :
    client.Follows client :=
  ⟨idle, fun _ same => same, fun armed => ⟨armed, rfl⟩⟩

private theorem follows_kept (json : Json) (client : Client) : Kept json client.Follows where
  teardown _ follows := follows.teardown
  append _ _ follows := ⟨follows.idle, follows.pending, follows.timer⟩
  closing _ follows := ⟨follows.idle, follows.pending, follows.timer⟩
  subscribe _ _ _ := .disarmed rfl fun _ none => by cases none
  recvBuf _ _ follows := ⟨follows.idle, follows.pending, follows.timer⟩

/-- Behind a call of `queue_update` that is not refused, nothing but its payload is pending;
any other event queues nothing. -/
private theorem step_pending (json : Json)
    (idle : client.tornDown = true → client.flushTimer = none) (event : ClientEvent) :
    (∃ ticker payload now later, event = .update ticker payload now later ∧
      client.refuses = false ∧
      ((client.step json event).tornDown = true → (client.step json event).flushTimer = none) ∧
      ∀ other, (client.step json event).pendingPayload = some other → other = payload) ∨
    (∀ ticker payload now later, event = .update ticker payload now later →
      client.refuses = true) ∧ client.Follows (client.step json event) := by
  have itself := follows_self idle
  have kept := follows_kept json client
  cases event with
  | update ticker payload now later =>
      rw [step, callQueueUpdate]
      rcases queueUpdate_cases json (client.note (.queueUpdate ticker payload client.refuses))
        payload now later with ⟨refused, same⟩ | ⟨accepts, -, same⟩ |
          ⟨accepts, -, deadline, -, same⟩
      · rw [same]
        refine .inr ⟨fun _ _ _ _ _ => refused, ?_⟩
        exact ⟨idle, fun _ pending => pending, fun armed => ⟨armed, rfl⟩⟩
      · rw [same]
        have pushed := (follows_kept json _).enqueue (@follows_self
          ((client.note (.queueUpdate ticker payload client.refuses)).push payload later) idle)
          (.text payload)
        refine .inl ⟨ticker, payload, now, later, rfl, accepts, pushed.idle,
          fun other pending => ?_⟩
        cases pushed.pending other pending
      · rw [same]
        refine .inl ⟨ticker, payload, now, later, rfl, accepts, fun torn => ?_,
          fun other pending => ?_⟩
        · have alive : client.tornDown = false := (Bool.or_eq_false_iff.mp accepts).1
          exact absurd (alive.symm.trans torn) (by decide)
        · exact (Option.some_inj.mp pending).symm
  | readable lookup received =>
      exact .inr ⟨fun _ _ _ _ other => (by cases other), kept.onReadable itself lookup received⟩
  | event event =>
      have noted : client.Follows (client.note (.sendEvent event)) := ⟨idle, itself.2, itself.3⟩
      refine .inr ⟨fun _ _ _ _ other => (by cases other), ?_⟩
      rw [step, callSendEvent, sendEvent]
      split
      · exact noted
      · exact kept.enqueue noted _
  | timers now later =>
      refine .inr ⟨fun _ _ _ _ other => (by cases other), ?_⟩
      rw [step, runDueTimer]
      split
      · exact itself
      · split
        · rw [onFlushTimer, flushPending]
          split
          · exact .disarmed rfl fun _ pending => pending
          · exact kept.enqueue (.disarmed rfl fun _ none => by cases none) _
        · exact itself
  | writable sent =>
      refine .inr ⟨fun _ _ _ _ other => (by cases other), ?_⟩
      exact onWritable_keeps (fun _ follows => follows.teardown)
        (fun _ _ follows => ⟨follows.idle, follows.pending, follows.timer⟩) itself sent
  | close => exact .inr ⟨fun _ _ _ _ other => (by cases other), itself.teardown⟩

def Stale (client : Client) : Prop :=
  ∃ rec trades epoch, client.pendingPayload = some (.snapshot rec trades) ∧
    epoch ∈ client.banners ∧ rec.envelope.epoch < epoch

end Client

/-! ## Payloads that are overtaken by a restart -/

namespace Callback

/-- The client takes a restart banner while a payload of an earlier epoch is pending. -/
def Overtakes (json : Json) (call : Callback) : Prop :=
  ∃ epoch rec trades, call.before.takesBanner json call.event = some epoch ∧
    call.before.pendingPayload = some (.snapshot rec trades) ∧ rec.envelope.epoch < epoch

/-- A call of `queue_update` that is not refused. -/
def Queues (call : Callback) : Prop :=
  ∃ ticker payload now later, call.event = .update ticker payload now later ∧
    call.before.refuses = false

def Flushes (json : Json) (call : Callback) : Prop :=
  ∃ now later deadline payload, call.event = .timers now later ∧
    call.before.flushTimer = some deadline ∧ deadline ≤ now ∧
    call.before.pendingPayload = some payload ∧ call.before.Fits json (.text payload)

end Callback

/-- A restart has overtaken the payload that is pending on a client, and none was queued
since. -/
def Overtaken (json : Json) (id : Nat) (calls : List Callback) : Prop :=
  Since (fun _ call => call.id = id ∧ call.Overtakes json)
    (fun _ call => call.id = id ∧ call.Queues)
    calls

namespace Client

/-- What is known of a client: its banners are among the announced epochs, and the payload of
an armed timer is stale exactly if a restart has overtaken it. -/
structure Watched (announced : List Nat) (overtaken : Prop) (client : Client) : Prop where
  told : ∀ epoch ∈ client.banners, epoch ∈ announced
  plain : ∀ payload, client.pendingPayload = some payload → (Frame.text payload).banner = none
  idle : client.tornDown = true → client.flushTimer = none
  stale : client.flushTimer.isSome → (client.Stale ↔ overtaken)

private theorem offered_of_takesBanner {json : Json} {client : Client} {event : ClientEvent}
    {epoch : Nat} (taken : client.takesBanner json event = some epoch) :
    event = .event (.restarted epoch) := by
  unfold takesBanner at taken
  split at taken
  · split at taken
    · cases taken
      rfl
    · cases taken
  · cases taken

end Client

namespace State

structure Current (state : State) : Prop where
  coherent : state.Coherent
  bound : ∀ epoch ∈ state.announced, ∃ last, state.lastEpoch = some last ∧ epoch ≤ last

private theorem current_start : Current {} where
  coherent := coherent_empty
  bound _ member := absurd member List.not_mem_nil

private theorem Moves.current {state next : State} (moves : state.Moves True next)
    (current : state.Current) : next.Current := by
  cases moves with
  | restart epoch tickers lastEpoch announced forward =>
      constructor
      · intro ticker rec found
        rw [tickers] at found
        cases found
      · intro told member
        rw [announced] at member
        refine ⟨epoch, lastEpoch, ?_⟩
        rcases List.mem_append.mp member with before | new
        · obtain ⟨last, known, le⟩ := current.bound told before
          refine forward trivial told before fun other same => ?_
          rw [known, Option.some_inj] at same
          exact same ▸ le
        · exact Nat.le_of_eq (List.mem_singleton.mp new)
  | record rec tickers lastEpoch announced ofEpoch =>
      constructor
      · rw [Coherent, tickers, lastEpoch]
        exact Dict.forall_find?_set current.coherent (ofEpoch trivial)
      · rw [announced, lastEpoch]
        exact current.bound
  | other tickers announced lastEpoch =>
      rcases lastEpoch with same | unknown
      · constructor
        · rw [Coherent, tickers, same]
          exact current.coherent
        · rw [announced, same]
          exact current.bound
      · constructor
        · intro ticker rec found
          rw [tickers] at found
          have known := current.coherent ticker rec found
          rw [unknown] at known
          cases known
        · intro told member
          rw [announced] at member
          obtain ⟨last, known, -⟩ := current.bound told member
          rw [unknown] at known
          cases known

private theorem Current.lookup {state : State} (current : state.Current) {ticker : Text}
    {payload : Reply} (known : state.lookup ticker = some payload) :
    ∃ rec trades, payload = .snapshot rec trades ∧
      ∀ epoch ∈ state.announced, epoch ≤ rec.envelope.epoch := by
  obtain ⟨⟨rec, trades⟩, found, rfl⟩ := Option.map_eq_some_iff.mp known
  obtain ⟨cached, stored, same⟩ := Option.map_eq_some_iff.mp found
  cases same
  refine ⟨rec, _, rfl, fun epoch member => ?_⟩
  obtain ⟨last, ofState, le⟩ := current.bound epoch member
  rw [current.coherent ticker rec stored, Option.some_inj] at ofState
  exact ofState ▸ le

end State

namespace Client

theorem Watched.step (json : Json) {state : State} (current : state.Current) {client : Client}
    {overtaken : Prop} (watched : client.Watched state.announced overtaken) {event : ClientEvent}
    (offered : state.Offers client event) (id : Nat) :
    (client.step json event).Watched state.announced
      (Callback.Overtakes json ⟨id, client, event⟩ ∨
        overtaken ∧ ¬ Callback.Queues ⟨id, client, event⟩) := by
  have banners := banners_step json offered watched.plain
  have told : ∀ epoch ∈ (client.step json event).banners, epoch ∈ state.announced := by
    intro epoch member
    rw [banners] at member
    rcases List.mem_append.mp member with before | new
    · exact watched.told epoch before
    · cases offered_of_takesBanner (Option.mem_toList.mp new)
      obtain ⟨announced, isAnnounced, same⟩ := offered
      cases same
      exact isAnnounced
  rcases step_pending json watched.idle event with
    ⟨ticker, payload, now, later, rfl, accepts, idle, newest⟩ | ⟨refused, follows⟩
  · obtain ⟨rec, trades, rfl, latest⟩ := current.lookup offered.2
    refine ⟨told, fun other pending => ?_, idle, fun _ => iff_of_false ?_ ?_⟩
    · rw [newest other pending]
      rfl
    · rintro ⟨other, trades, epoch, pending, member, later⟩
      cases newest _ pending
      exact absurd (latest epoch (told epoch member)) (Nat.not_le.mpr later)
    · rintro (⟨epoch, _, _, taken, -⟩ | ⟨-, unqueued⟩)
      · cases taken
      · exact unqueued ⟨ticker, _, now, later, rfl, accepts⟩
  · have unqueued : ¬ Callback.Queues ⟨id, client, event⟩ := by
      rintro ⟨ticker, payload, now, later, same, accepts⟩
      exact absurd ((refused ticker payload now later same).symm.trans accepts) (by decide)
    refine ⟨told, fun payload pending => watched.plain payload (follows.pending payload pending),
      follows.idle, fun armed => ?_⟩
    obtain ⟨before, same⟩ := follows.timer armed
    rw [and_iff_left unqueued, ← watched.stale before, Stale, same, banners]
    constructor
    · rintro ⟨rec, trades, epoch, pending, member, later⟩
      rcases List.mem_append.mp member with old | new
      · exact .inr ⟨rec, trades, epoch, pending, old, later⟩
      · exact .inl ⟨epoch, rec, trades, Option.mem_toList.mp new, pending, later⟩
    · rintro (⟨epoch, rec, trades, taken, pending, later⟩ |
        ⟨rec, trades, epoch, pending, old, later⟩)
      · exact ⟨rec, trades, epoch, pending, List.mem_append_right _ (Option.mem_toList.mpr taken),
          later⟩
      · exact ⟨rec, trades, epoch, pending, List.mem_append_left _ old, later⟩

private theorem keepsEpoch_of_other {sent frame : Frame}
    (other : ∀ rec trades, frame ≠ .text (.snapshot rec trades)) : sent.KeepsEpoch frame := by
  rw [Frame.KeepsEpoch, Frame.outdates.eq_def]
  split
  · next rec trades => exact absurd rfl (other rec trades)
  · rfl

private theorem Watched.mayTake_timers_iff (json : Json) {announced : List Nat} {client : Client}
    {overtaken : Prop} (watched : client.Watched announced overtaken) (now later : Time)
    (id : Nat) :
    client.MayTake json Frame.KeepsEpoch (.timers now later) ↔
      (Callback.Flushes json ⟨id, client, .timers now later⟩ → ¬ overtaken) := by
  constructor
  · rintro may ⟨_, _, deadline, payload, same, armed, due, pending, fits⟩ isOvertaken
    cases same
    have isArmed : client.flushTimer.isSome := Option.isSome_iff_exists.mpr ⟨_, armed⟩
    have alive : client.tornDown = false := by
      by_contra torn
      rw [watched.idle (Bool.eq_true_of_not_eq_false torn)] at isArmed
      cases isArmed
    obtain ⟨rec, trades, epoch, stale, member, later⟩ := (watched.stale isArmed).mpr isOvertaken
    cases pending.symm.trans stale
    have bound := keepsEpoch_snapshot_iff.mp (may deadline armed due _ pending alive fits)
    exact absurd (bound epoch member) (Nat.not_le.mpr later)
  · intro spared deadline armed due payload pending alive fits
    have spares := spared ⟨now, later, deadline, payload, rfl, armed, due, pending, fits⟩
    rw [← watched.stale (Option.isSome_iff_exists.mpr ⟨_, armed⟩)] at spares
    by_cases snapshot : ∃ rec trades, payload = .snapshot rec trades
    · obtain ⟨rec, trades, rfl⟩ := snapshot
      refine keepsEpoch_snapshot_iff.mpr fun epoch member => Nat.not_lt.mp fun stale => ?_
      exact spares ⟨rec, trades, epoch, pending, member, stale⟩
    · refine fun sent _ => keepsEpoch_of_other fun rec trades same => ?_
      cases same
      exact snapshot ⟨rec, trades, rfl⟩

theorem Watched.mayTake_iff (json : Json) {state : State} (current : state.Current)
    {client : Client} {overtaken : Prop} (watched : client.Watched state.announced overtaken)
    {event : ClientEvent} (offered : state.Offers client event) (id : Nat) :
    client.MayTake json Frame.KeepsEpoch event ↔
      (Callback.Flushes json ⟨id, client, event⟩ → ¬ overtaken) := by
  have fresh {ticker : Text} {payload : Reply} (known : state.lookup ticker = some payload)
      {later : Client} (same : later.banners = client.banners) :
      later.MayFollow json Frame.KeepsEpoch (.text payload) := by
    obtain ⟨rec, trades, rfl, latest⟩ := current.lookup known
    refine fun _ _ => keepsEpoch_snapshot_iff.mpr fun epoch member => latest epoch ?_
    rw [same] at member
    exact watched.told epoch member
  have harmless (may : client.MayTake json Frame.KeepsEpoch event)
      (other : ∀ now later, event ≠ .timers now later) :
      client.MayTake json Frame.KeepsEpoch event ↔
        (Callback.Flushes json ⟨id, client, event⟩ → ¬ overtaken) :=
    iff_of_true may fun ⟨now, later, _, _, same, _⟩ => absurd same (other now later)
  cases event with
  | readable lookup received =>
      cases offered
      refine harmless ?_ fun _ _ same => by cases same
      cases received with
      | data bytes =>
          have may (later : Client) (same : later.banners = client.banners) :
              later.MayAnswer json Frame.KeepsEpoch state.lookup := by
            intro frame consumed reply _ answered
            rcases answer_cases answered with ⟨ticker, payload, known, rfl⟩ | ⟨-, other⟩
            · exact fresh known same
            · exact fun _ _ sent _ => keepsEpoch_of_other other
          intro _
          refine (reader json state.lookup).along_of_invariant
            (fun later => later.banners = client.banners)
            (fun later same => (later.banners_readFrame json state).trans same) may ?_
          rfl
      | blocked | failed => trivial
  | update ticker payload now later =>
      exact harmless (fun _ _ => fresh offered.2 rfl) fun _ _ same => by cases same
  | event event =>
      obtain ⟨epoch, -, rfl⟩ := offered
      refine harmless (fun _ _ _ sent _ => keepsEpoch_of_other fun _ _ same => ?_)
        fun _ _ same => by cases same
      cases same
  | timers now later => exact watched.mayTake_timers_iff json now later id
  | writable sent | close => exact harmless trivial fun _ _ same => by cases same

end Client

/-! ## Runs -/

private theorem State.Moves.announced_subset {timely : Prop} {state next : State}
    (moves : state.Moves timely next) : state.announced ⊆ next.announced := by
  cases moves with
  | restart epoch _ _ announced =>
      rw [announced]
      exact List.subset_append_left _ _
  | record _ _ _ announced | other _ announced => exact announced ▸ List.Subset.refl _

structure Hub.Accounted (json : Json) (state : State) (hub : Hub) : Prop where
  current : state.Current
  unused : ∀ id, hub.next ≤ id → hub.objects id = {}
  watched : ∀ id, (hub.objects id).Watched state.announced (Overtaken json id hub.calls)
  exact_calls : (∀ id, (hub.objects id).NoStaleEpoch) ↔
    ∀ n call, hub.calls[n]? = some call → call.Flushes json →
      ¬ Overtaken json call.id (hub.calls.take n)

namespace Hub.Accounted

private theorem empty (json : Json) : Accounted json {} .empty where
  current := State.current_start
  unused _ _ := rfl
  watched id := by
    refine ⟨fun _ member => absurd member List.not_mem_nil, fun _ same => ?_, fun torn => ?_,
      fun armed => ?_⟩
    · cases same
    · cases torn
    · cases armed
  exact_calls := by
    refine iff_of_true (fun _ => List.Pairwise.nil) fun n call found => ?_
    cases found

private theorem attach {json : Json} {state : State} {hub : Hub}
    (accounted : hub.Accounted json state) : hub.attach.Accounted json state := by
  have same : hub.attach.objects = hub.objects := by
    change Function.update hub.objects hub.next {} = hub.objects
    rw [← accounted.unused hub.next (Nat.le_refl _), Function.update_eq_self]
  refine ⟨accounted.current, fun id beyond => ?_, ?_, ?_⟩
  · rw [same]
    exact accounted.unused id (Nat.le_of_succ_le beyond)
  · rw [same]
    exact accounted.watched
  · rw [same]
    exact accounted.exact_calls

private theorem call {json : Json} {state : State} {hub : Hub} {id : Nat} {event : ClientEvent}
    (attached : id < hub.next) (offered : state.Offers (hub.objects id) event)
    (accounted : hub.Accounted json state) : (hub.call json id event).Accounted json state where
  current := accounted.current
  unused other beyond := by
    rw [next_call] at beyond
    rw [objects_call, if_neg (by omega)]
    exact accounted.unused other beyond
  watched other := by
    rw [calls_call, objects_call, Overtaken, since_concat_iff, ← Overtaken]
    split
    · next same =>
        subst same
        simp only [true_and]
        exact (accounted.watched other).step json accounted.current offered other
    · next different =>
        have apart : ¬ id = other := fun same => different same.symm
        simp only [apart, false_and, not_false_eq_true, and_true, false_or]
        exact accounted.watched other
  exact_calls := by
    have may := (accounted.watched id).mayTake_iff json accounted.current offered id
    have step := @Client.orderly_step_iff json Frame.KeepsEpoch (hub.objects id) event
    have calls := @forall_getElem?_concat_iff _ (fun earlier call => call.Flushes json →
      ¬ Overtaken json call.id earlier) hub.calls ⟨id, hub.objects id, event⟩
    rw [calls_call, calls, ← accounted.exact_calls, ← may]
    constructor
    · intro all
      have own := all id
      rw [objects_call, if_pos rfl] at own
      obtain ⟨before, taken⟩ := step.mp own
      refine ⟨fun other => ?_, taken⟩
      by_cases same : other = id
      · rw [same]
        exact before
      · have later := all other
        rwa [objects_call, if_neg same] at later
    · rintro ⟨all, taken⟩ other
      rw [objects_call]
      split
      · exact step.mpr ⟨all id, taken⟩
      · exact all other

private theorem moves {json : Json} {state next : State} {hub : Hub}
    (moves : state.Moves True next) (accounted : hub.Accounted json state) :
    hub.Accounted json next where
  current := moves.current accounted.current
  unused := accounted.unused
  watched id :=
    have watched := accounted.watched id
    ⟨fun epoch member => moves.announced_subset (watched.told epoch member), watched.plain,
      watched.idle, watched.stale⟩
  exact_calls := accounted.exact_calls

end Hub.Accounted

namespace System

/-- If no update is of an earlier epoch than a restart has announced, then no client is sent a
payload of an earlier epoch behind a banner exactly when no due timer finds a payload that was
pending when its client took a banner. -/
theorem no_stale_epoch_iff (json : Json) (events : List Event)
    (admitted : ∀ n event, events[n]? = some event →
      (run json (events.take n)).state.Admits event) :
    (∀ id, ((run json events).hub.objects id).NoStaleEpoch) ↔
      ∀ n call, (run json events).hub.calls[n]? = some call → call.Flushes json →
        ¬ Overtaken json call.id ((run json events).hub.calls.take n) := by
  have kept : Kept json True fun state hub => hub.Accounted json state :=
    ⟨Hub.Accounted.attach, Hub.Accounted.call, Hub.Accounted.moves⟩
  exact (kept.run (.empty json) events fun _ => admitted).exact_calls

def updateOf (ticker : Char) (epoch : Nat) : Update where
  envelope := { epoch, ticker := [ascii ticker] }

def subscribesToA : Json := ⟨fun _ => some [ascii 'A'], fun _ => []⟩

/-- A client subscribes to `A` and is pushed one update of epoch 1; a second one is pending
when an update of `B` brings epoch 2, and is pushed by the timer. -/
def restartWhilePending : List Event :=
  [.attach, .readable 0 (.data [0x81, 0x80, 0, 0, 0, 0]),
    .update (updateOf 'A' 1) fun _ => (1, 1),
    .update (updateOf 'A' 1) fun _ => (21 / 20, 21 / 20),
    .update (updateOf 'B' 2) fun _ => (53 / 50, 53 / 50),
    .timers 0 (11 / 10) (11 / 10)]

private theorem restartWhilePending_frames :
    ((run subscribesToA restartWhilePending).hub.objects 0).frames =
      [.text .unknown, .text (.snapshot (updateOf 'A' 1) []), .text (.restarted 2),
        .text (.snapshot (updateOf 'A' 1) [])] := by
  decide +kernel

private theorem restartWhilePending_notStale :
    ¬ ((run subscribesToA restartWhilePending).hub.objects 0).NoStaleEpoch := by
  rw [Client.NoStaleEpoch, Client.Orderly, restartWhilePending_frames]
  decide

theorem no_stale_epoch_iff_restartWhilePending :
    ¬ ∀ n call, (run subscribesToA restartWhilePending).hub.calls[n]? = some call →
      call.Flushes subscribesToA →
        ¬ Overtaken subscribesToA call.id
          ((run subscribesToA restartWhilePending).hub.calls.take n) := by
  have first : ∀ n < 5, (run subscribesToA (restartWhilePending.take n)).state.announced = [] := by
    decide +kernel
  have admitted (n : Nat) (event : Event) (found : restartWhilePending[n]? = some event) :
      (run subscribesToA (restartWhilePending.take n)).state.Admits event := by
    rcases n with _ | _ | _ | _ | _ | _ | n <;> cases found
    · trivial
    · trivial
    · exact fun epoch member => absurd member (first 2 (by decide) ▸ List.not_mem_nil)
    · exact fun epoch member => absurd member (first 3 (by decide) ▸ List.not_mem_nil)
    · exact fun epoch member => absurd member (first 4 (by decide) ▸ List.not_mem_nil)
    · trivial
  rw [← no_stale_epoch_iff subscribesToA restartWhilePending admitted]
  exact fun all => restartWhilePending_notStale (all 0)

theorem restartWhilePending_stale :
    ((run subscribesToA restartWhilePending).hub.objects 0).frames =
        [.text .unknown, .text (.snapshot (updateOf 'A' 1) []), .text (.restarted 2),
          .text (.snapshot (updateOf 'A' 1) [])] ∧
      ¬ ((run subscribesToA restartWhilePending).hub.objects 0).NoStaleEpoch :=
  ⟨restartWhilePending_frames, restartWhilePending_notStale⟩

end System

end ProtoFH.Web
