import Mathlib.Data.Rat.Defs
import ProtoFH.Foundation.Framing
import ProtoFH.Web.State

/-! # WebSocket connections

Framing and one connection of `wsock.py`, driven by the callbacks of the reactor and by the
hub. The clock is exact: a reading is a rational number of seconds. Of the reactor's timers
only the one in `_flush_timer` can fire, since the others are cancelled. -/

namespace ProtoFH.Web

abbrev Time := ℚ

def maxSendBuf : Nat := 256 * 1024

def minPushInterval : Time := 1 / 10

/-! ## What is sent -/

/-- The objects that are sent as JSON: the snapshot of a ticker with its trades, newest
first, `{"error": "unknown"}` and the restart banner. -/
inductive Reply where
  | snapshot (rec : Update) (trades : List RingTrade)
  | unknown
  | restarted (epoch : Nat)
deriving DecidableEq

def State.lookup (state : State) (ticker : Text) : Option Reply :=
  (state.snapshot ticker).map fun (rec, trades) => .snapshot rec trades

/-- The JSON library: the ticker that a received text subscribes to, which is
`str(msg["sub"]).strip()` if the text is an object with a `sub`, and `dumps`. -/
structure Json where
  subscription : Bytes → Option Text
  dumps : Reply → Text

def opText : UInt8 := 0x1
def opClose : UInt8 := 0x8
def opPing : UInt8 := 0x9
def opPong : UInt8 := 0xA

def encodeFrame (opcode : UInt8) (payload : Bytes) : Bytes :=
  let length := payload.length
  let lengthBytes :=
    if length < 126 then [UInt8.ofNat length]
    else if length < 65536 then 126 :: bePut 2 length
    else 127 :: bePut 8 length
  (0x80 ||| (opcode &&& 0x0F)) :: (lengthBytes ++ payload)

inductive Frame where
  | text (reply : Reply)
  | close (code : Nat)
  | pong (payload : Bytes)
deriving DecidableEq

def Frame.encode (json : Json) : Frame → Bytes
  | .text reply => encodeFrame opText (json.dumps reply)
  | .close code => encodeFrame opClose (bePut 2 code)
  | .pong payload => encodeFrame opPong payload

/-! ## What is received -/

inductive FrameError where
  | reserved
  | unmasked
deriving DecidableEq

structure ClientFrame where
  fin : Bool
  opcode : UInt8
  payload : Bytes
deriving DecidableEq

def frameLength (buf : Bytes) (short : UInt8) : Option (Nat × Nat) :=
  if short = 126 then
    if buf.length < 4 then none else some (beNat ((buf.drop 2).take 2), 4)
  else if short = 127 then
    if buf.length < 10 then none else some (beNat ((buf.drop 2).take 8), 10)
  else some (short.toNat, 2)

def unmask (mask raw : Bytes) : Bytes :=
  raw.zipIdx.map fun (byte, i) => byte ^^^ mask.getD (i % 4) 0

/-- `decode_frame`: a frame and the number of bytes it takes, or nothing yet. -/
def decodeFrame (buf : Bytes) : Except FrameError (Option (ClientFrame × Nat)) :=
  match buf with
  | b0 :: b1 :: _ =>
      if b0 &&& 0x70 ≠ 0 then .error .reserved
      else
        match frameLength buf (b1 &&& 0x7F) with
        | none => .ok none
        | some (length, offset) =>
            if b1 &&& 0x80 = 0 then .error .unmasked
            else if buf.length < offset + 4 + length then .ok none
            else
              let mask := (buf.drop offset).take 4
              let raw := (buf.drop (offset + 4)).take length
              .ok (some (⟨b0 &&& 0x80 ≠ 0, b0 &&& 0x0F, unmask mask raw⟩, offset + 4 + length))
  | _ => .ok none

theorem consumed_of_decodeFrame {buf : Bytes} {frame : ClientFrame} {consumed : Nat}
    (decoded : decodeFrame buf = .ok (some (frame, consumed))) :
    0 < consumed ∧ consumed ≤ buf.length := by
  unfold decodeFrame at decoded
  split at decoded
  · split at decoded
    · cases decoded
    · split at decoded
      · cases decoded
      · split_ifs at decoded with unmasked short
        · cases decoded
        · cases decoded
          exact ⟨by omega, Nat.le_of_not_lt short⟩
  · cases decoded

/-! ## A connection -/

/-- What happened on a connection, in order: a call of `queue_update` for a ticker and
whether it was refused, a call of `send_event`, a subscription, a frame that was put into
the send buffer, and a coalesced push with its time. -/
inductive Effect where
  | queueUpdate (ticker : Text) (payload : Reply) (refused : Bool)
  | sendEvent (event : Reply)
  | subscribed (ticker : Text)
  | enqueued (frame : Frame)
  | pushed (time : Time) (payload : Reply)
deriving DecidableEq

/-- `WebSocketClient`, with what happened on it. The flush timer is its deadline. -/
structure Client where
  recvBuf : Bytes := []
  sendBuf : Bytes := []
  subscribed : Option Text := none
  pendingPayload : Option Reply := none
  lastPush : Time := 0
  flushTimer : Option Time := none
  closing : Bool := false
  tornDown : Bool := false
  log : List Effect := []
deriving DecidableEq

inductive Received where
  | data (bytes : Bytes)
  | blocked
  | failed

inductive Sent where
  | bytes (count : Nat)
  | blocked
  | failed

namespace Client

def note (client : Client) (effect : Effect) : Client :=
  { client with log := client.log ++ [effect] }

/-- `_teardown`; the hub removes a client that is torn down. -/
def teardown (client : Client) : Client :=
  if client.tornDown then client else { client with tornDown := true, flushTimer := none }

variable (json : Json)

/-- `self.send_buf += frame_bytes` -/
def append (client : Client) (frame : Frame) : Client :=
  { client with sendBuf := client.sendBuf ++ frame.encode json }.note (.enqueued frame)

def enqueue (client : Client) (frame : Frame) : Client :=
  if client.tornDown then client
  else if client.sendBuf.length + (frame.encode json).length > maxSendBuf then client.teardown
  else client.append json frame

def sendJson (client : Client) (reply : Reply) : Client := client.enqueue json (.text reply)

/-- `_enqueue(encode_close_frame(code))`, and `_closing` is set. -/
def initiateClose (client : Client) (code : Nat) : Client :=
  { client.enqueue json (.close code) with closing := true }

def subscribe (client : Client) (ticker : Text) : Client :=
  { client with
    subscribed := some ticker
    pendingPayload := none
    lastPush := 0
    flushTimer := none }.note (.subscribed ticker)

def handleText (lookup : Text → Option Reply) (client : Client) (payload : Bytes) : Client :=
  match json.subscription payload with
  | none => client
  | some ticker => (client.subscribe ticker).sendJson json ((lookup ticker).getD .unknown)

def handleFrame (lookup : Text → Option Reply) (client : Client) (opcode : UInt8)
    (payload : Bytes) : Client :=
  if opcode = opText then client.handleText json lookup payload
  else if opcode = opClose then client.initiateClose json 1000
  else if opcode = opPing then client.enqueue json (.pong payload)
  else if opcode = opPong then client
  else client.initiateClose json 1003

def handle (lookup : Text → Option Reply) (client : Client) (frame : ClientFrame) : Client :=
  if frame.fin then client.handleFrame json lookup frame.opcode frame.payload
  else client.initiateClose json 1003

/-- `del self.recv_buf[:consumed]` -/
def consume (client : Client) (consumed : Nat) : Client :=
  { client with recvBuf := client.recvBuf.drop consumed }

/-- One turn of the loop of `_on_readable`; the frame is returned if another turn follows. -/
def readFrame (lookup : Text → Option Reply) (client : Client) : Client × Option ClientFrame :=
  match decodeFrame client.recvBuf with
  | .error _ => (client.teardown, none)
  | .ok none => (client, none)
  | .ok (some (frame, consumed)) =>
      let handled := (client.consume consumed).handle json lookup frame
      (handled, if frame.fin = false ∨ handled.tornDown then none else some frame)

@[simp] theorem recvBuf_teardown (client : Client) :
    client.teardown.recvBuf = client.recvBuf := by
  rw [teardown]
  split <;> rfl

@[simp] theorem recvBuf_enqueue (client : Client) (frame : Frame) :
    (client.enqueue json frame).recvBuf = client.recvBuf := by
  rw [enqueue]
  split
  · rfl
  · split
    · exact client.recvBuf_teardown
    · rfl

theorem recvBuf_handle (lookup : Text → Option Reply) (client : Client) (frame : ClientFrame) :
    (client.handle json lookup frame).recvBuf = client.recvBuf := by
  have text : (client.handleText json lookup frame.payload).recvBuf = client.recvBuf := by
    rw [handleText]
    split
    · rfl
    · exact recvBuf_enqueue json _ _
  rw [handle, handleFrame]
  split_ifs <;> first | exact text | exact recvBuf_enqueue json _ _ | rfl

private theorem readFrame_shrinks {lookup : Text → Option Reply} {client after : Client}
    {frame : ClientFrame} (next : client.readFrame json lookup = (after, some frame)) :
    after.recvBuf.length < client.recvBuf.length := by
  rw [readFrame] at next
  split at next
  · cases next
  · cases next
  · next found consumed decoded =>
      obtain ⟨some, within⟩ := consumed_of_decodeFrame decoded
      rw [← (Prod.mk.inj next).1, recvBuf_handle, consume, List.length_drop]
      omega

/-- The loop of `_on_readable`, as it is fed the bytes of one `recv` after the other. -/
def reader (lookup : Text → Option Reply) : StreamReader Client ClientFrame where
  feed client bytes := { client with recvBuf := client.recvBuf ++ bytes }
  next := readFrame json lookup
  pending client := client.recvBuf.length
  shrinks := readFrame_shrinks json

def onReadable (lookup : Text → Option Reply) (client : Client) : Received → Client
  | .blocked => client
  | .failed => client.teardown
  | .data [] => client.teardown
  | .data bytes =>
      let reader := reader json lookup
      (reader.drained (reader.feed client bytes)).2

def push (client : Client) (payload : Reply) (now : Time) : Client :=
  { client with pendingPayload := none, lastPush := now }.note (.pushed now payload)

def flushPending (client : Client) (now : Time) : Client :=
  match client.pendingPayload with
  | none => client
  | some payload => (client.push payload now).sendJson json payload

def refuses (client : Client) : Bool := client.tornDown || client.closing

/-- `queue_update`. It reads the clock, and so does `_flush_pending` or `call_later` after
it. -/
def queueUpdate (client : Client) (payload : Reply) (now later : Time) : Client :=
  if client.refuses then client
  else
    let pending := { client with pendingPayload := some payload }
    let elapsed := now - client.lastPush
    if elapsed ≥ minPushInterval then pending.flushPending json later
    else
      match client.flushTimer with
      | none => { pending with flushTimer := some (later + (minPushInterval - elapsed)) }
      | some _ => pending

/-- `_on_flush_timer`. Without a payload nothing is flushed. -/
def onFlushTimer (client : Client) (now : Time) : Client :=
  { client with flushTimer := none }.flushPending json now

/-- `_run_due_timers` reads the clock and runs a timer whose deadline has passed. -/
def runDueTimer (client : Client) (now later : Time) : Client :=
  match client.flushTimer with
  | none => client
  | some deadline => if deadline ≤ now then client.onFlushTimer json later else client

def sendEvent (client : Client) (event : Reply) : Client :=
  if client.refuses then client else client.sendJson json event

def onWritable (client : Client) (sent : Sent) : Client :=
  if client.sendBuf = [] then client
  else
    match sent with
    | .blocked => client
    | .failed => client.teardown
    | .bytes count =>
        let rest := { client with sendBuf := client.sendBuf.drop count }
        if rest.sendBuf = [] ∧ rest.closing then rest.teardown else rest

def close (client : Client) : Client := client.teardown

/-- A call of `queue_update` by the hub, for a ticker. -/
def callQueueUpdate (client : Client) (ticker : Text) (payload : Reply) (now later : Time) :
    Client :=
  (client.note (.queueUpdate ticker payload client.refuses)).queueUpdate json payload now later

def callSendEvent (client : Client) (event : Reply) : Client :=
  (client.note (.sendEvent event)).sendEvent json event

end Client

/-! ## Runs of one connection -/

/-- What a connection is driven by. Before each batch of ready sockets the reactor runs the
timers that are due; `timers` is that point of its loop. -/
inductive ClientEvent where
  | readable (lookup : Text → Option Reply) (received : Received)
  | update (ticker : Text) (payload : Reply) (now later : Time)
  | event (event : Reply)
  | timers (now later : Time)
  | writable (sent : Sent)
  | close

namespace Client

def step (json : Json) (client : Client) : ClientEvent → Client
  | .readable lookup received => client.onReadable json lookup received
  | .update ticker payload now later => client.callQueueUpdate json ticker payload now later
  | .event event => client.callSendEvent json event
  | .timers now later => client.runDueTimer json now later
  | .writable sent => client.onWritable sent
  | .close => client.close

def run (json : Json) (events : List ClientEvent) : Client := events.foldl (step json) {}

/-! ## What the parts of a callback do -/

theorem tornDown_teardown (client : Client) : client.teardown.tornDown = true := by
  rw [teardown]
  split
  · assumption
  · rfl

section Parts

variable (json : Json)

def Fits (client : Client) (frame : Frame) : Prop :=
  client.sendBuf.length + (frame.encode json).length ≤ maxSendBuf

theorem enqueue_cases (client : Client) (frame : Frame) :
    (client.tornDown = true ∧ client.enqueue json frame = client) ∨
    (client.tornDown = false ∧ ¬ client.Fits json frame ∧
      client.enqueue json frame = client.teardown) ∨
    (client.tornDown = false ∧ client.Fits json frame ∧
      client.enqueue json frame = client.append json frame) := by
  by_cases torn : client.tornDown = true
  · exact .inl ⟨torn, by rw [enqueue, if_pos torn]⟩
  · have alive := Bool.eq_false_of_not_eq_true torn
    by_cases fits : client.Fits json frame
    · refine .inr (.inr ⟨alive, fits, ?_⟩)
      rw [enqueue, if_neg torn, if_neg (Nat.not_lt.mpr fits)]
    · refine .inr (.inl ⟨alive, fits, ?_⟩)
      rw [enqueue, if_neg torn, if_pos (Nat.lt_of_not_le fits)]

theorem queueUpdate_cases (client : Client) (payload : Reply) (now later : Time) :
    (client.refuses = true ∧ client.queueUpdate json payload now later = client) ∨
    (client.refuses = false ∧ minPushInterval ≤ now - client.lastPush ∧
      client.queueUpdate json payload now later =
        (client.push payload later).sendJson json payload) ∨
    (client.refuses = false ∧ now - client.lastPush < minPushInterval ∧ ∃ deadline,
      (client.flushTimer = some deadline ∨ client.flushTimer = none ∧
        deadline = later + (minPushInterval - (now - client.lastPush))) ∧
      client.queueUpdate json payload now later =
        { client with pendingPayload := some payload, flushTimer := some deadline }) := by
  rw [queueUpdate]
  by_cases refused : client.refuses = true
  · exact .inl ⟨refused, if_pos refused⟩
  · have accepts := Bool.eq_false_of_not_eq_true refused
    rw [if_neg refused]
    by_cases late : now - client.lastPush ≥ minPushInterval
    · exact .inr (.inl ⟨accepts, late, if_pos late⟩)
    · refine .inr (.inr ⟨accepts, not_le.mp late, ?_⟩)
      simp only [if_neg late]
      cases armed : client.flushTimer with
      | none => exact ⟨_, .inr ⟨rfl, rfl⟩, rfl⟩
      | some deadline => exact ⟨deadline, .inl rfl, rfl⟩

theorem onWritable_keeps {property : Client → Prop}
    (teardown : ∀ client, property client → property client.teardown)
    (buffer : ∀ client sendBuf, property client → property { client with sendBuf })
    {client : Client} (holds : property client) (sent : Sent) :
    property (client.onWritable sent) := by
  unfold onWritable
  split
  · exact holds
  · cases sent with
    | blocked => exact holds
    | failed => exact teardown client holds
    | bytes count =>
        have rest := buffer client (client.sendBuf.drop count) holds
        simp only
        split
        · exact teardown _ rest
        · exact rest

structure Kept (property : Client → Prop) : Prop where
  teardown : ∀ client, property client → property client.teardown
  append : ∀ client frame, property client → property (client.append json frame)
  closing : ∀ client, property client → property { client with closing := true }
  subscribe : ∀ client ticker, property client → property (client.subscribe ticker)
  recvBuf : ∀ client recvBuf, property client → property { client with recvBuf }

namespace Kept

variable {json} {property : Client → Prop} (kept : Kept json property)

include kept

variable {client : Client}

theorem enqueue (holds : property client) (frame : Frame) :
    property (client.enqueue json frame) := by
  rcases client.enqueue_cases json frame with ⟨-, same⟩ | ⟨-, -, same⟩ | ⟨-, -, same⟩
  · rwa [same]
  · rw [same]
    exact kept.teardown client holds
  · rw [same]
    exact kept.append client frame holds

theorem handle (holds : property client) (lookup : Text → Option Reply) (frame : ClientFrame) :
    property (client.handle json lookup frame) := by
  have closes (code : Nat) : property (client.initiateClose json code) :=
    kept.closing _ (kept.enqueue holds _)
  rw [Client.handle, handleFrame, handleText]
  split_ifs
  · split
    · exact holds
    · exact kept.enqueue (kept.subscribe client _ holds) _
  · exact closes 1000
  · exact kept.enqueue holds _
  · exact holds
  · exact closes 1003
  · exact closes 1003

theorem readFrame (holds : property client) (lookup : Text → Option Reply) :
    property (client.readFrame json lookup).1 := by
  rw [Client.readFrame]
  split
  · exact kept.teardown client holds
  · exact holds
  · exact kept.handle (kept.recvBuf client _ holds) lookup _

theorem onReadable (holds : property client) (lookup : Text → Option Reply) (received : Received) :
    property (client.onReadable json lookup received) := by
  cases received with
  | blocked => exact holds
  | failed => exact kept.teardown client holds
  | data bytes =>
      cases bytes with
      | nil => exact kept.teardown client holds
      | cons byte bytes =>
          exact (reader json lookup).drained_invariant property
            (fun _ holds => kept.readFrame holds lookup) (kept.recvBuf client _ holds)

end Kept

end Parts

end Client

end ProtoFH.Web
