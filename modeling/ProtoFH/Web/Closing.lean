import ProtoFH.Foundation.Execution
import ProtoFH.Web.Sending

/-! # The closing handshake of a WebSocket connection

A Close frame should be the last frame of a connection. Answers to frames that arrive behind
the closing one, and a payload that is still pending, follow it nevertheless. -/

namespace ProtoFH.Web

def Frame.isClose : Frame → Bool
  | .close _ => true
  | _ => false

namespace Client

def NothingFollowsClose (client : Client) : Prop :=
  client.frames.Pairwise fun earlier _ => earlier.isClose = false

/-! ## The closing flag -/

structure Marked (client : Client) : Prop where
  flag : ∀ frame ∈ client.frames, frame.isClose = true → client.closing = true
  sent : client.closing = true → client.tornDown = false →
    ∃ frame ∈ client.frames, frame.isClose = true

/-- The frame does not come behind a Close frame, or it has no room and the client is
dropped. -/
def Silent (json : Json) (client : Client) (frame : Frame) : Prop :=
  client.closing = true → client.tornDown = false → ¬ client.Fits json frame

variable {json : Json}

private theorem Marked.of_same {client later : Client} (marked : client.Marked)
    (frames : later.frames = client.frames) (closing : later.closing = client.closing)
    (alive : later.tornDown = false → client.tornDown = false) : later.Marked where
  flag := by
    rw [frames, closing]
    exact marked.flag
  sent isClosing isAlive := by
    rw [frames]
    exact marked.sent (closing ▸ isClosing) (alive isAlive)

variable {client : Client}

private theorem Marked.teardown (marked : client.Marked) : client.teardown.Marked := by
  refine marked.of_same client.frames_teardown ?_ fun alive => ?_
  · rw [Client.teardown]
    split <;> rfl
  · rw [tornDown_teardown] at alive
    cases alive

private theorem Marked.enqueue (marked : client.Marked) {frame : Frame}
    (plain : frame.isClose = false) : (client.enqueue json frame).Marked := by
  rcases client.enqueue_cases json frame with ⟨-, same⟩ | ⟨-, -, same⟩ | ⟨alive, -, same⟩
  · rwa [same]
  · rw [same]
    exact marked.teardown
  · rw [same]
    refine ⟨?_, fun closing _ => ?_⟩
    · rw [frames_append]
      intro other member close
      rcases List.mem_append.mp member with before | new
      · exact marked.flag other before close
      · rw [List.mem_singleton.mp new, plain] at close
        cases close
    · obtain ⟨close, member, isClose⟩ := marked.sent closing alive
      rw [frames_append]
      exact ⟨close, List.mem_append_left _ member, isClose⟩

private theorem marked_initiateClose (client : Client) (code : Nat) :
    (client.initiateClose json code).Marked where
  flag _ _ _ := rfl
  sent _ alive := by
    change (client.enqueue json (.close code)).tornDown = false at alive
    change ∃ frame ∈ (client.enqueue json (.close code)).frames, _
    rcases client.enqueue_cases json (.close code) with ⟨torn, same⟩ | ⟨-, -, same⟩ | ⟨-, -, same⟩
    · rw [same, torn] at alive
      cases alive
    · rw [same, tornDown_teardown] at alive
      cases alive
    · rw [same, frames_append]
      exact ⟨.close code, List.mem_append_right _ List.mem_cons_self, rfl⟩

private theorem Marked.note (marked : client.Marked) (effect : Effect)
    (other : ∀ frame, effect ≠ .enqueued frame) : (client.note effect).Marked :=
  marked.of_same (client.frames_note other) rfl id

private theorem Marked.push (marked : client.Marked) (payload : Reply) (now : Time) :
    (client.push payload now).Marked :=
  marked.of_same (client.frames_push payload now) rfl id

private theorem Marked.subscribe (marked : client.Marked) (ticker : Text) :
    (client.subscribe ticker).Marked := by
  have cleared : Marked { client with
      subscribed := some ticker, pendingPayload := none, lastPush := 0, flushTimer := none } :=
    marked.of_same rfl rfl id
  exact cleared.note (.subscribed ticker) fun _ same => by cases same

private theorem Marked.handle (marked : client.Marked) (lookup : Text → Option Reply)
    (frame : ClientFrame) : (client.handle json lookup frame).Marked := by
  rw [Client.handle, handleFrame, handleText]
  split_ifs
  · split
    · exact marked
    · exact (marked.subscribe _).enqueue rfl
  · exact marked_initiateClose client 1000
  · exact marked.enqueue rfl
  · exact marked
  · exact marked_initiateClose client 1003
  · exact marked_initiateClose client 1003

private theorem Marked.readFrame (marked : client.Marked) (lookup : Text → Option Reply) :
    (client.readFrame json lookup).1.Marked := by
  rw [Client.readFrame]
  split
  · exact marked.teardown
  · exact marked
  · next frame consumed _ =>
      have rest : (client.consume consumed).Marked := marked.of_same rfl rfl id
      exact rest.handle lookup frame

theorem Marked.step (marked : client.Marked) (event : ClientEvent) :
    (client.step json event).Marked := by
  cases event with
  | readable lookup received =>
      cases received with
      | blocked => exact marked
      | failed => exact marked.teardown
      | data bytes =>
          cases bytes with
          | nil => exact marked.teardown
          | cons byte bytes =>
              exact (reader json lookup).drained_invariant Marked
                (fun _ kept => kept.readFrame lookup) (marked.of_same rfl rfl id)
  | update ticker payload now later =>
      have noted := marked.note (.queueUpdate ticker payload client.refuses)
        fun _ same => by cases same
      rw [Client.step, callQueueUpdate]
      rcases queueUpdate_cases json (client.note (.queueUpdate ticker payload client.refuses))
        payload now later with ⟨-, same⟩ | ⟨-, -, same⟩ | ⟨-, -, deadline, -, same⟩
      · rwa [same]
      · rw [same]
        exact (noted.push payload later).enqueue rfl
      · rw [same]
        exact noted.of_same rfl rfl id
  | event event =>
      have noted := marked.note (.sendEvent event) fun _ same => by cases same
      rw [Client.step, callSendEvent, sendEvent]
      split
      · exact noted
      · exact noted.enqueue rfl
  | timers now later =>
      have disarmed : Marked { client with flushTimer := none } := marked.of_same rfl rfl id
      rw [Client.step, runDueTimer]
      split
      · exact marked
      · split
        · rw [onFlushTimer, flushPending]
          split
          · exact disarmed
          · exact (disarmed.push _ later).enqueue rfl
        · exact marked
  | writable sent =>
      exact onWritable_keeps (fun _ kept => kept.teardown)
        (fun _ _ kept => kept.of_same rfl rfl id) marked sent
  | close => exact marked.teardown

/-! ## Runs -/

def QuietFrame (json : Json) (lookup : Text → Option Reply) (client : Client) : Prop :=
  ∀ frame consumed reply, decodeFrame client.recvBuf = .ok (some (frame, consumed)) →
    answer json lookup frame = some reply → client.Silent json reply

/-- The event does not make a frame follow a Close frame: behind one, no frame arrives that
is answered, and no payload is pending when the flush timer fires. -/
def Quiet (json : Json) (client : Client) : ClientEvent → Prop
  | .readable lookup (.data bytes) =>
      bytes ≠ [] → (reader json lookup).Along (QuietFrame json lookup)
        ((reader json lookup).feed client bytes)
  | .timers now _ =>
      ∀ deadline payload, client.flushTimer = some deadline → deadline ≤ now →
        client.pendingPayload = some payload → client.Silent json (.text payload)
  | _ => True

private theorem Marked.mayFollow_iff (marked : client.Marked) (frame : Frame) :
    client.MayFollow json (fun earlier _ => earlier.isClose = false) frame ↔
      client.Silent json frame := by
  constructor
  · intro may closing alive fits
    obtain ⟨close, member, isClose⟩ := marked.sent closing alive
    exact absurd (isClose.symm.trans (may alive fits close member)) (by decide)
  · intro silent alive fits sent member
    by_contra close
    exact silent (marked.flag sent member (Bool.eq_true_of_not_eq_false close)) alive fits

private theorem Marked.mayTake_iff (marked : client.Marked) (event : ClientEvent) :
    client.MayTake json (fun earlier _ => earlier.isClose = false) event ↔
      client.Quiet json event := by
  have accepted (frame : Frame) (accepts : client.refuses = false) :
      client.MayFollow json (fun earlier _ => earlier.isClose = false) frame := by
    refine (marked.mayFollow_iff frame).mpr fun closing => ?_
    rw [refuses, closing, Bool.or_true] at accepts
    cases accepts
  cases event with
  | readable lookup received =>
      cases received with
      | data bytes =>
          refine imp_congr_right fun _ => ?_
          refine (reader json lookup).along_congr Marked (fun _ kept => kept.readFrame lookup)
            (fun state kept => ?_) (marked.of_same rfl rfl id)
          exact forall_congr' fun _ => forall_congr' fun _ => forall_congr' fun reply =>
            imp_congr_right fun _ => imp_congr_right fun _ => kept.mayFollow_iff reply
      | blocked | failed => exact Iff.rfl
  | update ticker payload now later => exact iff_true_intro fun accepts _ => accepted _ accepts
  | event event => exact iff_true_intro fun accepts => accepted _ accepts
  | timers now later =>
      refine forall_congr' fun deadline => ⟨fun may payload armed due pending => ?_,
        fun quiet armed due payload pending => ?_⟩
      · exact (marked.mayFollow_iff _).mp (may armed due payload pending)
      · exact (marked.mayFollow_iff _).mpr (quiet payload armed due pending)
  | writable sent | close => exact Iff.rfl

/-- In every state of a run nothing has followed a Close frame exactly when all events of
the run were quiet. -/
theorem nothing_follows_close_iff (json : Json) (events : List ClientEvent) :
    (∀ n, (run json (events.take n)).NothingFollowsClose) ↔
      ∀ n event, events[n]? = some event → (run json (events.take n)).Quiet json event := by
  have fresh : Marked {} :=
    ⟨fun _ member => absurd member List.not_mem_nil, fun closing => by cases closing⟩
  refine forall_take_foldl_visible_iff (step json)
    (fun client => client.Marked ∧ client.NothingFollowsClose) NothingFollowsClose (Quiet json)
    ⟨fresh, List.Pairwise.nil⟩ events (fun _ good => good.2) ?_ ?_
  · rintro client event - ⟨marked, -⟩ later
    exact (marked.mayTake_iff event).mp (orderly_step_iff client event |>.mp later).2
  · rintro client event - ⟨marked, quiet⟩ isQuiet
    refine ⟨marked.step event, ?_⟩
    exact (orderly_step_iff client event).mpr ⟨quiet, (marked.mayTake_iff event).mpr isQuiet⟩

def closeThenPing : List ClientEvent :=
  [.readable (fun _ => none)
    (.data [0x88, 0x80, 0, 0, 0, 0, 0x89, 0x80, 0, 0, 0, 0])]

theorem closeThenPing_not_quiet :
    (run ⟨fun _ => none, fun _ => []⟩ closeThenPing).frames = [.close 1000, .pong []] ∧
      ¬ (run ⟨fun _ => none, fun _ => []⟩ closeThenPing).NothingFollowsClose := by
  have answered :
      (run ⟨fun _ => none, fun _ => []⟩ closeThenPing).frames = [.close 1000, .pong []] := by
    decide +kernel
  refine ⟨answered, ?_⟩
  rw [NothingFollowsClose, answered]
  decide

end Client

end ProtoFH.Web
