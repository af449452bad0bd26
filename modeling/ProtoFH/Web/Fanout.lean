import ProtoFH.Web.Hub

/-! # Whom the hub reaches

One walk over the clients calls each of them once, except that the client behind one that is
dropped is passed over. -/

namespace ProtoFH.Web

def Effect.isQueueUpdate : Effect → Bool
  | .queueUpdate .. => true
  | _ => false

def Effect.isSendEvent : Effect → Bool
  | .sendEvent _ => true
  | _ => false

namespace Client

def updateCalls (client : Client) : Nat := client.log.countP Effect.isQueueUpdate

def eventCalls (client : Client) : Nat := client.log.countP Effect.isSendEvent

structure ByHub (counts : Effect → Bool) : Prop where
  enqueued : ∀ frame, counts (.enqueued frame) = false
  pushed : ∀ now payload, counts (.pushed now payload) = false

theorem countP_note (client : Client) (effect : Effect) (counts : Effect → Bool) :
    (client.note effect).log.countP counts =
      client.log.countP counts + if counts effect then 1 else 0 := by
  rw [note, List.countP_append, List.countP_singleton]

theorem tornDown_enqueue_of_full (json : Json) {client : Client}
    (full : maxSendBuf ≤ client.sendBuf.length) (frame : Frame) :
    (client.enqueue json frame).tornDown = true := by
  rcases client.enqueue_cases json frame with ⟨torn, same⟩ | ⟨-, -, same⟩ | ⟨-, fits, -⟩
  · rwa [same]
  · rw [same, tornDown_teardown]
  · have some : 0 < (frame.encode json).length := by
      cases frame <;> exact Nat.succ_pos _
    rw [Fits] at fits
    omega

private theorem tornDown_callSendEvent_of_full (json : Json) {client : Client}
    (accepts : client.refuses = false) (full : maxSendBuf ≤ client.sendBuf.length)
    (event : Reply) : (client.callSendEvent json event).tornDown = true := by
  have noted : (client.note (.sendEvent event)).refuses = false := accepts
  have buffer : maxSendBuf ≤ (client.note (.sendEvent event)).sendBuf.length := full
  rw [callSendEvent, sendEvent, noted]
  exact tornDown_enqueue_of_full json buffer _

private theorem tornDown_callQueueUpdate_of_full (json : Json) {client : Client}
    (accepts : client.refuses = false) (full : maxSendBuf ≤ client.sendBuf.length)
    (ticker : Text) (payload : Reply) {now : Time} (late : minPushInterval ≤ now - client.lastPush)
    (later : Time) : (client.callQueueUpdate json ticker payload now later).tornDown = true := by
  rw [callQueueUpdate]
  let noted := client.note (.queueUpdate ticker payload client.refuses)
  have buffer : maxSendBuf ≤ (noted.push payload later).sendBuf.length := full
  rcases queueUpdate_cases json noted payload now later with
    ⟨refused, -⟩ | ⟨-, -, same⟩ | ⟨-, early, -⟩
  · exact absurd (refused.symm.trans accepts) (by decide)
  · rw [same]
    exact tornDown_enqueue_of_full json buffer _
  · exact absurd late (not_le.mpr early)

section Counting

variable (json : Json) {counts : Effect → Bool} (byHub : ByHub counts)

include byHub

theorem countP_enqueue (client : Client) (frame : Frame) :
    (client.enqueue json frame).log.countP counts = client.log.countP counts := by
  rcases client.enqueue_cases json frame with ⟨-, same⟩ | ⟨-, -, same⟩ | ⟨-, -, same⟩
  · rw [same]
  · rw [same, log_teardown]
  · rw [same, append, countP_note, byHub.enqueued]
    rfl

private theorem countP_queueUpdate (client : Client) (payload : Reply) (now later : Time) :
    (client.queueUpdate json payload now later).log.countP counts = client.log.countP counts := by
  rcases queueUpdate_cases json client payload now later with
    ⟨-, same⟩ | ⟨-, -, same⟩ | ⟨-, -, deadline, -, same⟩
  · rw [same]
  · rw [same, sendJson, countP_enqueue json byHub, push, countP_note, byHub.pushed]
    rfl
  · rw [same]

private theorem countP_sendEvent (client : Client) (event : Reply) :
    (client.sendEvent json event).log.countP counts = client.log.countP counts := by
  rw [sendEvent]
  split
  · rfl
  · exact countP_enqueue json byHub client _

end Counting

private theorem updateCalls_callQueueUpdate (json : Json) (client : Client) (ticker : Text)
    (payload : Reply) (now later : Time) :
    (client.callQueueUpdate json ticker payload now later).updateCalls =
      client.updateCalls + 1 := by
  rw [updateCalls, callQueueUpdate, countP_queueUpdate json ⟨fun _ => rfl, fun _ _ => rfl⟩,
    countP_note]
  rfl

private theorem eventCalls_callSendEvent (json : Json) (client : Client) (event : Reply) :
    (client.callSendEvent json event).eventCalls = client.eventCalls + 1 := by
  rw [eventCalls, callSendEvent, countP_sendEvent json ⟨fun _ => rfl, fun _ _ => rfl⟩,
    countP_note]
  rfl

end Client

namespace Hub

variable (json : Json)

def Dropped (hub : Hub) (offer : Offer) (id : Nat) : Prop :=
  ∃ event, offer id (hub.objects id) = some event ∧ (hub.objects id).tornDown = false ∧
    ((hub.objects id).step json event).tornDown = true

theorem drops_iff (hub : Hub) (offer : Offer) (id : Nat) :
    (loop json offer).drops id (hub.objects id) = true ↔ hub.Dropped json offer id := by
  change ((answered json offer id (hub.objects id)).tornDown && !(hub.objects id).tornDown) =
    true ↔ _
  rw [Bool.and_eq_true, Bool.not_eq_true', answered, Dropped]
  cases offered : offer id (hub.objects id) with
  | none => simp
  | some event => simp [and_comm]

variable {json}

/-- A walk counts one call for every client that it should call, exactly when no such client
stands right behind one that is dropped. -/
theorem forall_called_iff (hub : Hub) {offer : Offer} {wanted : Nat → Prop} {calls : Client → Nat}
    (called : ∀ id, wanted id →
      calls (answered json offer id (hub.objects id)) = calls (hub.objects id) + 1)
    (dropped : ∀ id, hub.Dropped json offer id → wanted id) :
    (∀ id ∈ hub.clients, wanted id →
        calls (((loop json offer).run hub).objects id) = calls (hub.objects id) + 1) ↔
      hub.clients.IsChain fun id next => hub.Dropped json offer id → ¬ wanted next := by
  have view := (loop json offer).view_run hub.distinct
  have reached := @forall_reached_iff _ (fun id => (loop json offer).drops id (hub.objects id))
    wanted hub.clients hub.distinct fun id drop =>
      dropped id ((hub.drops_iff json offer id).mp drop)
  simp only [drops_iff] at reached
  rw [← reached]
  refine forall₃_congr fun id _ want => ?_
  change calls ((loop json offer).view ((loop json offer).run hub) id) = _ ↔
    id ∈ (loop json offer).reaches hub
  rw [view id]
  split
  · next member => exact ⟨fun _ => member, fun _ => called id want⟩
  · next missed =>
      refine ⟨fun once => absurd once (Nat.ne_of_lt (Nat.lt_succ_self _)), fun member => ?_⟩
      exact absurd member missed

private theorem objects_run_of_none {offer : Offer} (silent : ∀ id client, offer id client = none)
    (hub : Hub) (id : Nat) : ((loop json offer).run hub).objects id = hub.objects id := by
  have view := (loop json offer).view_run hub.distinct id
  refine view.trans ?_
  split
  · change answered json offer id (hub.objects id) = hub.objects id
    rw [answered, silent]
  · rfl

theorem offerUpdate_none (ticker : Text) (clock : Nat → Time × Time) (id : Nat)
    (client : Client) : offerUpdate ticker none clock id client = none := by
  rw [offerUpdate]
  split <;> rfl

/-- One `on_ticker_update` calls every subscriber once exactly when the ticker is known or has
no subscriber, and no subscriber stands right behind a client that its call drops. One
`on_restart` calls every client once exactly when its calls drop no client but the last. -/
theorem fan_out_iff (json : Json) (hub : Hub) (state : State) (ticker : Text)
    (clock : Nat → Time × Time) (epoch : Nat) :
    ((∀ id ∈ hub.clients, (hub.objects id).subscribed = some ticker →
        ((hub.onTickerUpdate json state ticker clock).objects id).updateCalls =
          (hub.objects id).updateCalls + 1) ↔
      ((∃ id ∈ hub.clients, (hub.objects id).subscribed = some ticker) →
        (state.lookup ticker).isSome) ∧
      hub.clients.IsChain fun id next =>
        hub.Dropped json (offerUpdate ticker (state.lookup ticker) clock) id →
          (hub.objects next).subscribed ≠ some ticker) ∧
    ((∀ id ∈ hub.clients,
        ((hub.onRestart json epoch).objects id).eventCalls = (hub.objects id).eventCalls + 1) ↔
      hub.clients.IsChain fun id _ => ¬ hub.Dropped json (offerEvent (.restarted epoch)) id) := by
  constructor
  · cases known : state.lookup ticker with
    | none =>
        have same (id : Nat) :
            (hub.onTickerUpdate json state ticker clock).objects id = hub.objects id := by
          rw [onTickerUpdate, known]
          exact objects_run_of_none (offerUpdate_none ticker clock) hub id
        have chain : hub.clients.IsChain fun id next =>
            hub.Dropped json (offerUpdate ticker none clock) id →
              (hub.objects next).subscribed ≠ some ticker := by
          refine (List.pairwise_of_forall fun id next drop => ?_).isChain
          obtain ⟨event, offered, -⟩ := drop
          rw [offerUpdate_none] at offered
          cases offered
        simp only [same, Option.isSome_none, Bool.false_eq_true, imp_false, not_exists, not_and,
          chain, and_true]
        refine forall₃_congr fun id _ _ => ?_
        exact iff_false_intro (Nat.ne_of_lt (Nat.lt_succ_self _))
    | some snap =>
        have called (id : Nat) (subscribed : (hub.objects id).subscribed = some ticker) :
            (answered json (offerUpdate ticker (some snap) clock) id
              (hub.objects id)).updateCalls = (hub.objects id).updateCalls + 1 := by
          rw [answered, offerUpdate, if_pos subscribed]
          exact Client.updateCalls_callQueueUpdate ..
        have dropped (id : Nat)
            (drop : hub.Dropped json (offerUpdate ticker (some snap) clock) id) :
            (hub.objects id).subscribed = some ticker := by
          obtain ⟨event, offered, -⟩ := drop
          by_contra other
          rw [offerUpdate, if_neg other] at offered
          cases offered
        rw [onTickerUpdate, known, hub.forall_called_iff called dropped]
        simp only [Option.isSome_some, implies_true, true_and, ne_eq]
  · have called (id : Nat) (_ : True) :
        (answered json (offerEvent (.restarted epoch)) id (hub.objects id)).eventCalls =
          (hub.objects id).eventCalls + 1 := Client.eventCalls_callSendEvent ..
    have walk := @forall_called_iff json hub (offerEvent (.restarted epoch)) (fun _ => True)
      Client.eventCalls called fun _ _ => trivial
    simp only [true_implies, not_true_eq_false, imp_false] at walk
    exact walk

theorem passes_second {hub : Hub} {first second : Nat} (two : hub.clients = [first, second])
    {client : Client} (object : hub.objects first = client) {offer : Offer}
    {event : ClientEvent} (offered : offer first client = some event)
    (alive : client.tornDown = false) (torn : (client.step json event).tornDown = true) :
    ((loop json offer).run hub).objects second = hub.objects second := by
  subst object
  have different : second ∉ [first] := by
    have distinct := hub.distinct
    rw [two] at distinct
    simpa [eq_comm] using distinct
  have drop : (loop json offer).drops first (hub.objects first) = true :=
    (hub.drops_iff json offer first).mpr ⟨event, offered, alive, torn⟩
  have reaches : (loop json offer).reaches hub = [first] := by
    change reached (fun id => (loop json offer).drops id (hub.objects id)) hub.clients = [first]
    rw [two, reached, if_pos drop, reached]
  have view := @LocalLoop.view_run _ _ _ _ (loop json offer) hub hub.distinct second
  rw [reaches, if_neg different] at view
  exact view

def fullClient : Client where
  subscribed := some [ascii 'A']
  sendBuf := List.replicate maxSendBuf 0

theorem fullClient_full : maxSendBuf ≤ fullClient.sendBuf.length := by
  have buffer : fullClient.sendBuf = List.replicate maxSendBuf 0 := rfl
  rw [buffer, List.length_replicate]

def crowded : Hub where
  clients := [0, 1]
  objects id := if id = 0 then fullClient else { subscribed := some [ascii 'A'] }
  next := 2
  calls := []
  distinct := of_decide_eq_true rfl
  issued := of_decide_eq_true rfl

theorem crowded_clients : crowded.clients = [0, 1] := rfl

theorem crowded_first : crowded.objects 0 = fullClient := rfl

def knowing : State where
  tickers := (∅ : Dict Text Update).set [ascii 'A'] {}

theorem crowded_misses :
    (∃ id ∈ crowded.clients,
      ((crowded.onRestart ⟨fun _ => none, fun _ => []⟩ 2).objects id).eventCalls ≠
        (crowded.objects id).eventCalls + 1) ∧
    ∃ id ∈ crowded.clients, (crowded.objects id).subscribed = some [ascii 'A'] ∧
      ((crowded.onTickerUpdate ⟨fun _ => none, fun _ => []⟩ knowing [ascii 'A']
          fun _ => (1, 1)).objects id).updateCalls ≠ (crowded.objects id).updateCalls + 1 := by
  have accepts : fullClient.refuses = false := rfl
  have known : knowing.lookup [ascii 'A'] = some (.snapshot {} []) := by decide
  have alive : fullClient.tornDown = false := rfl
  have event : (fullClient.step ⟨fun _ => none, fun _ => []⟩ (.event (.restarted 2))).tornDown =
      true := by
    rw [Client.step]
    exact Client.tornDown_callSendEvent_of_full _ accepts fullClient_full _
  have offeredEvent : offerEvent (.restarted 2) 0 fullClient = some (.event (.restarted 2)) := rfl
  have update : (fullClient.step ⟨fun _ => none, fun _ => []⟩
      (.update [ascii 'A'] (.snapshot {} []) 1 1)).tornDown = true := by
    have late : minPushInterval ≤ (1 : Time) - fullClient.lastPush := by decide +kernel
    rw [Client.step]
    exact Client.tornDown_callQueueUpdate_of_full _ accepts fullClient_full _ _ late _
  have offeredUpdate : offerUpdate [ascii 'A'] (some (.snapshot {} [])) (fun _ => (1, 1)) 0
      fullClient = some (.update [ascii 'A'] (.snapshot {} []) 1 1) := by
    rw [offerUpdate, if_pos (show fullClient.subscribed = some [ascii 'A'] from rfl)]
    rfl
  have once : ∀ count : Nat, count ≠ count + 1 := fun count => Nat.ne_of_lt (Nat.lt_succ_self _)
  refine ⟨⟨1, by decide, ?_⟩, 1, by decide, rfl, ?_⟩
  · rw [onRestart, passes_second crowded_clients crowded_first offeredEvent alive event]
    exact once _
  · rw [onTickerUpdate, known,
      passes_second crowded_clients crowded_first offeredUpdate alive update]
    exact once _

end Hub

end ProtoFH.Web
