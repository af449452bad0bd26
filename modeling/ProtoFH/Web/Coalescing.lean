import ProtoFH.Web.System

/-! # Coalesced updates

The pending payload of a connection is the newest that was queued for the ticker it is
subscribed to, and a timer will push it. -/

namespace ProtoFH.Web

/-! ## Snapshots carry their ticker -/

def Reply.IsOf (ticker : Text) : Reply → Prop
  | .snapshot rec _ => rec.envelope.ticker = ticker
  | _ => False

namespace State

def Named (state : State) : Prop :=
  ∀ ticker rec, state.tickers.find? ticker = some rec → rec.envelope.ticker = ticker

private theorem Named.lookup {state : State} (named : state.Named) {ticker : Text}
    {payload : Reply} (known : state.lookup ticker = some payload) : payload.IsOf ticker := by
  rw [State.lookup, State.snapshot, Option.map_map, Option.map_eq_some_iff] at known
  obtain ⟨rec, found, same⟩ := known
  cases same
  exact named ticker rec found

private theorem named_cleared {state : State} (cleared : state.tickers = ∅) : state.Named := by
  intro ticker rec found
  rw [cleared] at found
  cases found

private theorem Moves.named {state next : State} (moves : state.Moves False next)
    (named : state.Named) : next.Named := by
  cases moves with
  | restart epoch tickers => exact named_cleared tickers
  | record rec tickers =>
      rw [Named, tickers]
      exact Dict.forall_find?_set named rfl
  | other tickers => rwa [Named, tickers]

end State

/-! ## What was queued and pushed -/

/-- The ticker and the payload of a call of `queue_update` that was not refused. -/
def Effect.accepted : Effect → Option (Text × Reply)
  | .queueUpdate ticker payload false => some (ticker, payload)
  | _ => none

def Effect.subscription : Effect → Option Text
  | .subscribed ticker => some ticker
  | _ => none

/-- The most recent call of `queue_update` that was not refused. -/
def lastAccepted (log : List Effect) : Option (Text × Reply) :=
  (log.filterMap Effect.accepted).getLast?

def lastSubscribed (log : List Effect) : Option Text :=
  (log.filterMap Effect.subscription).getLast?

/-- Every push carries the payload of the most recent call, which was made for the ticker
subscribed to. -/
def PushesNewest (log : List Effect) : Prop :=
  ∀ n time payload, log[n]? = some (.pushed time payload) →
    ∃ ticker, lastSubscribed (log.take n) = some ticker ∧
      lastAccepted (log.take n) = some (ticker, payload)

theorem getLast?_filterMap_concat (pick : α → Option β) (log : List α) (entry : α) :
    ((log ++ [entry]).filterMap pick).getLast? = (pick entry).or (log.filterMap pick).getLast? := by
  rw [List.filterMap_append]
  cases picked : pick entry with
  | none | some value => simp [picked]

theorem lastAccepted_concat (log : List Effect) (effect : Effect) :
    lastAccepted (log ++ [effect]) = effect.accepted.or (lastAccepted log) :=
  getLast?_filterMap_concat ..

theorem lastSubscribed_concat (log : List Effect) (effect : Effect) :
    lastSubscribed (log ++ [effect]) = effect.subscription.or (lastSubscribed log) :=
  getLast?_filterMap_concat ..

theorem PushesNewest.concat {log : List Effect} (newest : PushesNewest log) {effect : Effect}
    (last : ∀ time payload, effect = .pushed time payload →
      ∃ ticker, lastSubscribed log = some ticker ∧ lastAccepted log = some (ticker, payload)) :
    PushesNewest (log ++ [effect]) := by
  intro n time payload found
  rcases Nat.lt_trichotomy n log.length with before | here | behind
  · rw [List.getElem?_append_left before] at found
    rw [List.take_append_of_le_length (Nat.le_of_lt before)]
    exact newest n time payload found
  · rw [here, List.getElem?_concat_length, Option.some_inj] at found
    rw [here, List.take_left]
    exact last time payload found
  · rw [List.getElem?_eq_none (by rw [List.length_append]; exact behind)] at found
    cases found

namespace Client

structure Recorded (client : Client) : Prop where
  subscribed : client.subscribed = lastSubscribed client.log
  pending : ∀ payload, client.pendingPayload = some payload →
    ∃ ticker, client.subscribed = some ticker ∧ lastAccepted client.log = some (ticker, payload)
  pushes : PushesNewest client.log
  own : ∀ ticker payload refused, .queueUpdate ticker payload refused ∈ client.log →
    payload.IsOf ticker

structure Coalesced (client : Client) : Prop extends client.Recorded where
  armed : client.tornDown = false → client.pendingPayload.isSome → client.flushTimer.isSome

structure Neutral (effect : Effect) : Prop where
  accepted : effect.accepted = none
  subscription : effect.subscription = none
  pushed : ∀ time payload, effect ≠ .pushed time payload
  own : ∀ ticker payload refused, effect = .queueUpdate ticker payload refused →
    payload.IsOf ticker

variable {client : Client}

theorem Recorded.note (recorded : client.Recorded) {effect : Effect} (neutral : Neutral effect) :
    (client.note effect).Recorded where
  subscribed := by
    rw [Client.note, lastSubscribed_concat, neutral.subscription]
    exact recorded.subscribed
  pending payload waiting := by
    rw [Client.note, lastAccepted_concat, neutral.accepted]
    exact recorded.pending payload waiting
  pushes := recorded.pushes.concat fun time payload same =>
    absurd same (neutral.pushed time payload)
  own ticker payload refused member := by
    rcases List.mem_append.mp member with old | new
    · exact recorded.own ticker payload refused old
    · exact neutral.own ticker payload refused (List.mem_singleton.mp new).symm

theorem Coalesced.note (coalesced : client.Coalesced) {effect : Effect} (neutral : Neutral effect) :
    (client.note effect).Coalesced :=
  ⟨coalesced.toRecorded.note neutral, coalesced.armed⟩

private theorem neutral_enqueued (frame : Frame) : Neutral (.enqueued frame) where
  accepted := rfl
  subscription := rfl
  pushed _ _ same := by cases same
  own _ _ _ same := by cases same

private theorem neutral_sendEvent (event : Reply) : Neutral (.sendEvent event) where
  accepted := rfl
  subscription := rfl
  pushed _ _ same := by cases same
  own _ _ _ same := by cases same

theorem Coalesced.teardown (coalesced : client.Coalesced) : client.teardown.Coalesced := by
  obtain ⟨⟨subscribed, pending, pushes, own⟩, armed⟩ := coalesced
  rw [Client.teardown]
  split
  · exact ⟨⟨subscribed, pending, pushes, own⟩, armed⟩
  · exact ⟨⟨subscribed, pending, pushes, own⟩, fun alive => by cases alive⟩

theorem Coalesced.subscribe (coalesced : client.Coalesced) (ticker : Text) :
    (client.subscribe ticker).Coalesced where
  subscribed := by
    rw [Client.subscribe, Client.note, lastSubscribed_concat]
    rfl
  pending payload waiting := by cases waiting
  pushes := coalesced.pushes.concat fun time payload same => by cases same
  own ticker payload refused member := by
    rcases List.mem_append.mp member with old | new
    · exact coalesced.own ticker payload refused old
    · cases List.mem_singleton.mp new
  armed _ waiting := by cases waiting

theorem coalesced_kept (json : Json) : Kept json Coalesced where
  teardown _ coalesced := coalesced.teardown
  append client frame coalesced := by
    obtain ⟨⟨subscribed, pending, pushes, own⟩, armed⟩ := coalesced
    have buffered : Coalesced { client with sendBuf := client.sendBuf ++ frame.encode json } :=
      ⟨⟨subscribed, pending, pushes, own⟩, armed⟩
    exact buffered.note (neutral_enqueued frame)
  closing _ coalesced :=
    ⟨⟨coalesced.subscribed, coalesced.pending, coalesced.pushes, coalesced.own⟩, coalesced.armed⟩
  subscribe _ ticker coalesced := coalesced.subscribe ticker
  recvBuf _ _ coalesced :=
    ⟨⟨coalesced.subscribed, coalesced.pending, coalesced.pushes, coalesced.own⟩, coalesced.armed⟩

variable {payload : Reply}

theorem Recorded.push (recorded : client.Recorded) (pending : client.pendingPayload = some payload)
    (now : Time) :
    (client.push payload now).Coalesced where
  subscribed := by
    rw [Client.push, Client.note, lastSubscribed_concat]
    exact recorded.subscribed
  pending _ waiting := by cases waiting
  pushes := by
    refine recorded.pushes.concat fun time pushed same => ?_
    cases same
    obtain ⟨ticker, subscribed, accepted⟩ := recorded.pending payload pending
    exact ⟨ticker, recorded.subscribed ▸ subscribed, accepted⟩
  own ticker other refused member := by
    rcases List.mem_append.mp member with old | new
    · exact recorded.own ticker other refused old
    · cases List.mem_singleton.mp new
  armed _ waiting := by cases waiting

private theorem Recorded.queue (recorded : client.Recorded) {ticker : Text}
    (subscribed : client.subscribed = some ticker) (isOf : payload.IsOf ticker) :
    Recorded { client.note (.queueUpdate ticker payload false) with
      pendingPayload := some payload } where
  subscribed := by
    rw [Client.note, lastSubscribed_concat]
    exact recorded.subscribed
  pending _ waiting := by
    cases waiting
    rw [Client.note, lastAccepted_concat]
    exact ⟨ticker, subscribed, rfl⟩
  pushes := recorded.pushes.concat fun _ _ same => by cases same
  own other queued refused member := by
    rcases List.mem_append.mp member with old | new
    · exact recorded.own other queued refused old
    · cases List.mem_singleton.mp new
      exact isOf

theorem Coalesced.callQueueUpdate (json : Json) (coalesced : client.Coalesced) {ticker : Text}
    (now later : Time) (subscribed : client.subscribed = some ticker) (isOf : payload.IsOf ticker) :
    (client.callQueueUpdate json ticker payload now later).Coalesced := by
  have queued := coalesced.toRecorded.queue subscribed isOf
  rw [Client.callQueueUpdate]
  rcases queueUpdate_cases json (client.note (.queueUpdate ticker payload client.refuses)) payload
    now later with ⟨refused, same⟩ | ⟨accepts, -, same⟩ | ⟨accepts, -, deadline, -, same⟩
  · rw [same]
    refine coalesced.note ⟨?_, rfl, fun _ _ other => ?_, fun _ _ _ own => ?_⟩
    · rw [show client.refuses = true from refused]
      rfl
    · cases other
    · cases own
      exact isOf
  · rw [same, show client.refuses = false from accepts]
    exact (coalesced_kept json).enqueue (queued.push rfl later) _
  · rw [same, show client.refuses = false from accepts]
    exact ⟨⟨queued.subscribed, queued.pending, queued.pushes, queued.own⟩, fun _ _ => rfl⟩

theorem Coalesced.runDueTimer (json : Json) (coalesced : client.Coalesced) (now later : Time) :
    (client.runDueTimer json now later).Coalesced := by
  rw [Client.runDueTimer]
  split
  · exact coalesced
  · split
    · rw [onFlushTimer, flushPending]
      split
      · next none =>
          refine ⟨⟨coalesced.subscribed, coalesced.pending, coalesced.pushes, coalesced.own⟩, ?_⟩
          intro _ waiting
          rw [none] at waiting
          cases waiting
      · next payload pending =>
          have disarmed : Recorded { client with flushTimer := none } :=
            ⟨coalesced.subscribed, coalesced.pending, coalesced.pushes, coalesced.own⟩
          exact (coalesced_kept json).enqueue (disarmed.push pending later) _
    · exact coalesced

theorem coalesced_fresh : Coalesced {} where
  subscribed := rfl
  pending _ waiting := by cases waiting
  pushes _ _ _ found := by cases found
  own _ _ _ member := absurd member List.not_mem_nil
  armed _ waiting := by cases waiting

theorem Coalesced.step (json : Json) (coalesced : client.Coalesced) {state : State}
    (named : state.Named) {event : ClientEvent} (offered : state.Offers client event) :
    (client.step json event).Coalesced := by
  cases event with
  | update ticker payload now later =>
      exact coalesced.callQueueUpdate json now later offered.1 (named.lookup offered.2)
  | event event =>
      have noted := coalesced.note (neutral_sendEvent event)
      rw [Client.step, callSendEvent, sendEvent]
      split
      · exact noted
      · exact (coalesced_kept json).enqueue noted _
  | readable lookup received => exact (coalesced_kept json).onReadable coalesced lookup received
  | timers now later => exact coalesced.runDueTimer json now later
  | writable sent =>
      refine onWritable_keeps (fun _ good => good.teardown) (fun _ _ good => ?_) coalesced sent
      exact ⟨⟨good.subscribed, good.pending, good.pushes, good.own⟩, good.armed⟩
  | close => exact coalesced.teardown

end Client

namespace System

/-- In every state of a run, what is pending on a client that is not torn down is the payload
of the most recent call that was not refused, made for the ticker it is subscribed to, and a
timer is armed. Every push carried the payload of the most recent call, for the ticker that
was subscribed to at that time. -/
theorem coalescing_keeps_newest (json : Json) (events : List Event) (id : Nat) :
    ((((run json events).hub.objects id).tornDown = false →
        ∀ payload, ((run json events).hub.objects id).pendingPayload = some payload →
          ((run json events).hub.objects id).flushTimer.isSome ∧
          ∃ ticker, ((run json events).hub.objects id).subscribed = some ticker ∧
            lastAccepted ((run json events).hub.objects id).log = some (ticker, payload)) ∧
      PushesNewest ((run json events).hub.objects id).log) ∧
    ((run json events).hub.objects id).subscribed =
      lastSubscribed ((run json events).hub.objects id).log ∧
    ∀ ticker payload refused,
      .queueUpdate ticker payload refused ∈ ((run json events).hub.objects id).log →
        payload.IsOf ticker := by
  have kept := kept_objects State.Moves.named Client.coalesced_fresh fun named offered before =>
    Client.Coalesced.step json before named offered
  have coalesced := (kept.run ⟨State.named_cleared rfl, fun _ => Client.coalesced_fresh⟩ events
    False.elim).2 id
  refine ⟨⟨fun alive payload pending => ⟨?_, coalesced.pending payload pending⟩,
    coalesced.pushes⟩, coalesced.subscribed, coalesced.own⟩
  exact coalesced.armed alive (by rw [pending]; rfl)

end System

end ProtoFH.Web
