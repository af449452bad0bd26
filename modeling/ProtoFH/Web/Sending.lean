import ProtoFH.Web.Socket

/-! # What a connection sends

The callbacks of a connection enqueue at most one
frame, the read loop at most one for each received frame; so a relation between all frames
and the ones behind them is decided frame by frame. -/

namespace ProtoFH.Web

namespace Client

@[simp] theorem log_teardown (client : Client) : client.teardown.log = client.log := by
  rw [teardown]
  split <;> rfl

/-! ## Frames -/

def frames (client : Client) : List Frame :=
  client.log.filterMap fun effect =>
    match effect with
    | .enqueued frame => some frame
    | _ => none

theorem frames_teardown (client : Client) : client.teardown.frames = client.frames := by
  rw [frames, log_teardown]
  rfl

theorem frames_append (json : Json) (client : Client) (frame : Frame) :
    (client.append json frame).frames = client.frames ++ [frame] := by
  rw [frames, append, note, List.filterMap_append]
  rfl

theorem frames_note (client : Client) {effect : Effect}
    (other : ∀ frame, effect ≠ .enqueued frame) : (client.note effect).frames = client.frames := by
  rw [frames, note, List.filterMap_append]
  cases effect with
  | enqueued frame => exact absurd rfl (other frame)
  | _ => exact List.append_nil _

instance (json : Json) (client : Client) (frame : Frame) : Decidable (client.Fits json frame) :=
  inferInstanceAs (Decidable (_ ≤ _))

theorem frames_enqueue (json : Json) (client : Client) (frame : Frame) :
    (client.enqueue json frame).frames =
      if client.tornDown = false ∧ client.Fits json frame then client.frames ++ [frame]
      else client.frames := by
  rcases client.enqueue_cases json frame with ⟨torn, same⟩ | ⟨-, full, same⟩ | ⟨alive, fits, same⟩
  · rw [same, if_neg (fun accepts => absurd (accepts.1.symm.trans torn) (by decide))]
  · rw [same, frames_teardown, if_neg (fun accepts => full accepts.2)]
  · rw [same, frames_append, if_pos ⟨alive, fits⟩]

def answer (json : Json) (lookup : Text → Option Reply) (frame : ClientFrame) : Option Frame :=
  if frame.fin = false then some (.close 1003)
  else if frame.opcode = opText then
    (json.subscription frame.payload).map fun ticker => .text ((lookup ticker).getD .unknown)
  else if frame.opcode = opClose then some (.close 1000)
  else if frame.opcode = opPing then some (.pong frame.payload)
  else if frame.opcode = opPong then none
  else some (.close 1003)

theorem frames_handle (json : Json) (lookup : Text → Option Reply) (client : Client)
    (frame : ClientFrame) :
    (client.handle json lookup frame).frames =
      match answer json lookup frame with
      | none => client.frames
      | some reply => (client.enqueue json reply).frames := by
  rw [handle, answer, handleFrame, handleText]
  cases frame.fin with
  | false => rfl
  | true =>
      simp only [if_true, Bool.true_eq_false, if_false]
      split_ifs
      · cases json.subscription frame.payload with
        | none => rfl
        | some ticker =>
            have same : (client.subscribe ticker).frames = client.frames :=
              frames_note { client with
                subscribed := some ticker, pendingPayload := none, lastPush := 0
                flushTimer := none } fun _ other => by cases other
            simp only [Option.map_some, sendJson, frames_enqueue, same]
            rfl
      · rfl
      · rfl
      · rfl
      · rfl

/-! ## A relation between frames and the ones behind them -/

section Related

variable (json : Json) (related : Frame → Frame → Prop)

def Orderly (client : Client) : Prop := client.frames.Pairwise related

/-- The frame may be enqueued: if it is put into the buffer, all frames before it are related
to it. -/
def MayFollow (client : Client) (frame : Frame) : Prop :=
  client.tornDown = false → client.Fits json frame → ∀ sent ∈ client.frames, related sent frame

def MayAnswer (lookup : Text → Option Reply) (client : Client) : Prop :=
  ∀ frame consumed reply, decodeFrame client.recvBuf = .ok (some (frame, consumed)) →
    answer json lookup frame = some reply → client.MayFollow json related reply

/-- What the event enqueues may be enqueued: the answers to received frames, a payload that
is pushed at once, an event, and the pending payload when the timer is due. -/
def MayTake (client : Client) : ClientEvent → Prop
  | .readable lookup (.data bytes) =>
      bytes ≠ [] → (reader json lookup).Along (MayAnswer json related lookup)
        ((reader json lookup).feed client bytes)
  | .update _ payload now _ =>
      client.refuses = false → minPushInterval ≤ now - client.lastPush →
        client.MayFollow json related (.text payload)
  | .event event => client.refuses = false → client.MayFollow json related (.text event)
  | .timers now _ =>
      ∀ deadline, client.flushTimer = some deadline → deadline ≤ now →
        ∀ payload, client.pendingPayload = some payload →
          client.MayFollow json related (.text payload)
  | _ => True

variable {json related}

theorem orderly_of_frames {client later : Client} (same : later.frames = client.frames) :
    later.Orderly related ↔ client.Orderly related := by
  rw [Orderly, Orderly, same]

theorem orderly_enqueue_iff (client : Client) (frame : Frame) :
    (client.enqueue json frame).Orderly related ↔
      client.Orderly related ∧ client.MayFollow json related frame := by
  rw [Orderly, frames_enqueue]
  split
  · next accepts =>
      rw [List.pairwise_append, MayFollow]
      simp only [List.pairwise_singleton, true_and, List.mem_singleton, forall_eq, accepts,
        true_implies]
      rfl
  · next refuses =>
      refine (and_iff_left ?_).symm
      exact fun alive fits => absurd ⟨alive, fits⟩ refuses

private theorem orderly_readFrame_iff (lookup : Text → Option Reply) (client : Client) :
    (client.readFrame json lookup).1.Orderly related ↔
      client.Orderly related ∧ client.MayAnswer json related lookup := by
  rcases decoded : decodeFrame client.recvBuf with error | _ | ⟨frame, consumed⟩
  · rw [readFrame, decoded, orderly_of_frames client.frames_teardown]
    refine (and_iff_left fun frame consumed reply found => ?_).symm
    rw [decoded] at found
    cases found
  · rw [readFrame, decoded]
    refine (and_iff_left fun frame consumed reply found => ?_).symm
    rw [decoded] at found
    cases found
  · have answers : client.MayAnswer json related lookup ↔
        ∀ reply, answer json lookup frame = some reply → client.MayFollow json related reply := by
      constructor
      · exact fun may reply => may frame consumed reply decoded
      · intro may found _ reply same
        rw [decoded] at same
        cases same
        exact may reply
    rw [readFrame, decoded, answers, Orderly, frames_handle]
    cases answer json lookup frame with
    | none =>
        simp only [reduceCtorEq, false_implies, implies_true, and_true]
        rfl
    | some reply =>
        simp only [Option.some.injEq, forall_eq']
        exact (client.consume consumed).orderly_enqueue_iff reply

private theorem orderly_drained_iff (lookup : Text → Option Reply) (client : Client) :
    ((reader json lookup).drained client).2.Orderly related ↔
      client.Orderly related ∧
        (reader json lookup).Along (MayAnswer json related lookup) client := by
  have next (state : Client) := @orderly_readFrame_iff json related lookup state
  by_cases orderly : client.Orderly related
  · have read := (reader json lookup).drained_visible_iff (Orderly related) (Orderly related)
      (MayAnswer json related lookup) (fun _ good => good)
      (fun state _ shown => ((next state).mp shown).2)
      (fun state good may => (next state).mpr ⟨good, may⟩)
      (fun state shown => ((next state).mp shown).1) orderly
    rw [read.1, and_iff_right orderly]
  · refine iff_of_false (fun later => orderly ?_) fun both => orderly both.1
    exact (reader json lookup).visible_of_drained (Orderly related)
      (fun state shown => ((next state).mp shown).1) client later

theorem orderly_sendJson_iff {client prepared : Client} (frames : prepared.frames = client.frames)
    (torn : prepared.tornDown = client.tornDown) (buffer : prepared.sendBuf = client.sendBuf)
    (reply : Reply) :
    (prepared.sendJson json reply).Orderly related ↔
      client.Orderly related ∧ client.MayFollow json related (.text reply) := by
  rw [sendJson, orderly_enqueue_iff, orderly_of_frames frames, MayFollow, MayFollow, Fits, Fits,
    torn, buffer, frames]

theorem frames_push (client : Client) (payload : Reply) (now : Time) :
    (client.push payload now).frames = client.frames :=
  frames_note { client with pendingPayload := none, lastPush := now } fun _ other => by cases other

private theorem orderly_callQueueUpdate_iff (client : Client) (ticker : Text) (payload : Reply)
    (now later : Time) :
    (client.callQueueUpdate json ticker payload now later).Orderly related ↔
      client.Orderly related ∧ client.MayTake json related (.update ticker payload now later) := by
  have noted : (client.note (.queueUpdate ticker payload client.refuses)).frames = client.frames :=
    client.frames_note fun _ other => by cases other
  rw [callQueueUpdate, MayTake]
  rcases queueUpdate_cases json (client.note (.queueUpdate ticker payload client.refuses)) payload
    now later with ⟨refused, same⟩ | ⟨accepts, late, same⟩ | ⟨-, early, deadline, -, same⟩
  · rw [same, orderly_of_frames noted]
    exact (and_iff_left fun accepts => absurd (refused.symm.trans accepts) (by decide)).symm
  · have immediate : (client.refuses = false → minPushInterval ≤ now - client.lastPush →
        client.MayFollow json related (.text payload)) ↔
          client.MayFollow json related (.text payload) :=
      ⟨fun may => may accepts late, fun may _ _ => may⟩
    have pushed := (frames_push (client.note (.queueUpdate ticker payload client.refuses)) payload
      later).trans noted
    rw [same, immediate]
    exact orderly_sendJson_iff pushed rfl rfl payload
  · rw [same]
    refine (orderly_of_frames noted).trans ?_
    exact (and_iff_left fun _ late => absurd late (not_le.mpr early)).symm

private theorem orderly_callSendEvent_iff (client : Client) (event : Reply) :
    (client.callSendEvent json event).Orderly related ↔
      client.Orderly related ∧ client.MayTake json related (.event event) := by
  have noted : (client.note (.sendEvent event)).frames = client.frames :=
    client.frames_note fun _ other => by cases other
  have refuses : (client.note (.sendEvent event)).refuses = client.refuses := rfl
  rw [callSendEvent, sendEvent, refuses, MayTake]
  cases client.refuses with
  | true =>
      simp only [if_true, Bool.true_eq_false, false_implies, and_true]
      exact orderly_of_frames noted
  | false =>
      simp only [Bool.false_eq_true, if_false, true_implies]
      exact orderly_sendJson_iff noted rfl rfl event

private theorem orderly_runDueTimer_iff (client : Client) (now later : Time) :
    (client.runDueTimer json now later).Orderly related ↔
      client.Orderly related ∧ client.MayTake json related (.timers now later) := by
  rw [runDueTimer, MayTake]
  cases client.flushTimer with
  | none => simp only [reduceCtorEq, false_implies, implies_true, and_true]
  | some deadline =>
      simp only [Option.some.injEq, forall_eq']
      split
      · next due =>
          simp only [due, true_implies, onFlushTimer, flushPending]
          cases client.pendingPayload with
          | none =>
              simp only [reduceCtorEq, false_implies, implies_true, and_true]
              rfl
          | some payload =>
              simp only [Option.some.injEq, forall_eq']
              have pushed := frames_push { client with flushTimer := none } payload later
              exact @orderly_sendJson_iff json related client _ pushed rfl rfl payload
      · next early =>
          simp only [early, false_implies, and_true]

theorem orderly_step_iff (client : Client) (event : ClientEvent) :
    (client.step json event).Orderly related ↔
      client.Orderly related ∧ client.MayTake json related event := by
  have same {after : Client} (frames : after.frames = client.frames) :
      after.Orderly related ↔ client.Orderly related ∧ True := by
    rw [and_true, orderly_of_frames frames]
  cases event with
  | readable lookup received =>
      cases received with
      | blocked => exact same rfl
      | failed => exact same client.frames_teardown
      | data bytes =>
          cases bytes with
          | nil =>
              rw [MayTake]
              simp only [ne_eq, not_true_eq_false, false_implies]
              exact same client.frames_teardown
          | cons byte bytes =>
              simp only [MayTake, ne_eq, reduceCtorEq, not_false_eq_true, true_implies]
              exact orderly_drained_iff lookup _
  | update ticker payload now later =>
      exact client.orderly_callQueueUpdate_iff ticker payload now later
  | event event => exact client.orderly_callSendEvent_iff event
  | timers now later => exact client.orderly_runDueTimer_iff now later
  | writable sent =>
      have unchanged : (client.onWritable sent).frames = client.frames :=
        @onWritable_keeps (fun later => later.frames = client.frames)
          (fun later kept => later.frames_teardown.trans kept) (fun _ _ kept => kept) client rfl
          sent
      exact same unchanged
  | close => exact same client.frames_teardown

end Related

end Client

end ProtoFH.Web
