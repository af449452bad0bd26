import ProtoFH.Foundation.OrderedMap
import ProtoFH.Foundation.Text

/-! # The capture tool

`jnxfeed capture` writes the messages of one session to a file, and from time to time a
sidecar from which another process can go on. The output file is what a process that dies
leaves behind: bytes that the writer still buffers are lost with it. -/

namespace ProtoFH.Prototype

/-- The messages of a session by sequence number. Each fits into a SoupBinTCP packet, so
that `write_message` does not reject it. -/
structure SoupLog where
  id : Text
  message : Nat → Bytes
  short : ∀ seq, (message seq).length < 65535

def lengthField (message : Bytes) : Bytes := bePutU16 (UInt16.ofNat message.length)

theorem lengthField_length (message : Bytes) : (lengthField message).length = 2 :=
  bePutU16_length _

def itchFile (messages : List Bytes) : Bytes :=
  messages.flatMap fun message => lengthField message ++ message

structure CaptureArgs where
  seq : Option Nat := none
  session : Text := []
  retries : Nat := 5
  maxMessages : Option Nat := none

inductive CaptureEnd where
  | connectFailed
  | loginRejected (code : Text)
  | loginFailed
  | sequenceGap
  | maxMessages
  | endOfSession
  | retriesExhausted
  | interrupted
  | unknown
deriving DecidableEq

/-- What `write_sidecar` writes, without the times. -/
structure Sidecar where
  session : Text
  firstSeq : Option Nat
  nextSeq : Nat
  messageCount : Nat
  messageTypeCounts : OrderedMap UInt8 Nat
  reconnects : Nat
  endReason : Option CaptureEnd

/-- Where the process is. `seq` is the local variable of `_pump`, `served` the sequence
number of the message that the server will send next. -/
inductive CapturePhase where
  | connecting
  | pumping (seq served : Nat) (wroteAny : Bool)
  | ended
deriving DecidableEq

/-- `_Capture` with its retry counter, its output file, what is buffered for it, and all
sidecars that were written, each with the output file of that moment. `atSidecar` holds
while nothing has reached the disk after the last of them. -/
structure Capture where
  args : CaptureArgs
  session : Text
  firstSeq : Option Nat := none
  nextSeq : Nat
  messageCount : Nat := 0
  messageTypeCounts : OrderedMap UInt8 Nat := ∅
  reconnects : Nat := 0
  endReason : Option CaptureEnd := none
  sinceSidecar : Nat := 0
  retriesLeft : Nat
  phase : CapturePhase := .connecting
  file : Bytes := []
  buffered : Bytes := []
  sidecars : List (Sidecar × Bytes) := []
  atSidecar : Bool := false

def sidecarEvery : Nat := 500

namespace Capture

/-- `_resume` and the opening of the output file, with the sidecar and the output file that
are found. -/
def resume (args : CaptureArgs) (found : Option (Sidecar × Bytes)) : Capture :=
  match args.seq, found with
  | some seq, _ => { args, session := args.session, nextSeq := seq, retriesLeft := args.retries }
  | none, some (sidecar, file) =>
      { args
        session := if args.session = [] then sidecar.session else args.session
        firstSeq := sidecar.firstSeq
        nextSeq := sidecar.nextSeq
        messageCount := sidecar.messageCount
        messageTypeCounts := sidecar.messageTypeCounts
        retriesLeft := args.retries
        file }
  | none, none => { args, session := args.session, nextSeq := 1, retriesLeft := args.retries }

def writeSidecar (capture : Capture) (final : Bool) : Capture :=
  let sidecar : Sidecar :=
    { session := capture.session
      firstSeq := capture.firstSeq
      nextSeq := capture.nextSeq
      messageCount := capture.messageCount
      messageTypeCounts := capture.messageTypeCounts
      reconnects := capture.reconnects
      endReason := if final then capture.endReason else none }
  { capture with
    sinceSidecar := 0
    sidecars := capture.sidecars ++ [(sidecar, capture.file)]
    atSidecar := true }

def flush (capture : Capture) : Capture :=
  { capture with file := capture.file ++ capture.buffered, buffered := [] }

def spill (capture : Capture) (count : Nat) : Capture :=
  { capture with
    file := capture.file ++ capture.buffered.take count
    buffered := capture.buffered.drop count }

def conclude (capture : Capture) (reason : CaptureEnd) : Capture :=
  ({ capture with endReason := some reason, phase := .ended }.flush).writeSidecar true

/-- The statements of `_write`, with those of `write_message`. -/
def writeStatements (message : Bytes) (spilled : Nat) : List (Capture → Capture) :=
  [fun capture => { capture with buffered := capture.buffered ++ lengthField message },
    fun capture => { capture with buffered := capture.buffered ++ message }.spill spilled,
    fun capture =>
      if capture.firstSeq = none then { capture with firstSeq := some capture.nextSeq }
      else capture,
    fun capture => { capture with messageCount := capture.messageCount + 1 },
    fun capture =>
      let type := message.headD (ascii '?')
      { capture with
        messageTypeCounts := capture.messageTypeCounts.insert type
          (capture.messageTypeCounts.getD type 0 + 1) },
    fun capture => { capture with sinceSidecar := capture.sinceSidecar + 1 },
    fun capture => if capture.sinceSidecar ≥ sidecarEvery then capture.flush else capture,
    fun capture =>
      if capture.sinceSidecar ≥ sidecarEvery then capture.writeSidecar false else capture]

def execute (capture : Capture) (statements : List (Capture → Capture)) : Capture :=
  statements.foldl (fun capture statement => statement capture) capture

def write (capture : Capture) (message : Bytes) (spilled : Nat) : Capture :=
  capture.execute (writeStatements message spilled)

def maxReached (capture : Capture) : Bool :=
  match capture.args.maxMessages with
  | some limit => capture.messageCount ≥ limit
  | none => false

def pumpNext (capture : Capture) (seq served : Nat) (wroteAny : Bool) : Capture :=
  if capture.maxReached then capture.conclude .maxMessages
  else { capture with phase := .pumping seq served wroteAny }

def disconnected (capture : Capture) : Capture :=
  match capture.retriesLeft with
  | 0 => capture.conclude .retriesExhausted
  | retriesLeft + 1 =>
      { capture with
        retriesLeft
        reconnects := capture.reconnects + 1
        phase := .connecting }.writeSidecar false

def retry (capture : Capture) (reason : CaptureEnd) : Capture :=
  match capture.retriesLeft with
  | 0 => capture.conclude reason
  | retriesLeft + 1 => { capture with retriesLeft }

/-- What happens to a process. `spilled` bytes leave the buffer with the message; `done` is
the number of statements of `_write` that were executed for the next message when the
interrupt came. `raised` is any other exception. -/
inductive Event where
  | connectFailed
  | loginRejected (code : Text)
  | loginFailed
  | loginAccepted (sequence : Nat)
  | sequencedData (spilled : Nat)
  | otherPacket
  | endOfSession
  | connectionLost
  | interrupted (done spilled : Nat)
  | raised
  | restart (args : CaptureArgs)

def onConnecting (capture : Capture) (log : SoupLog) : Event → Capture
  | .connectFailed => capture.retry .connectFailed
  | .loginRejected code => capture.conclude (.loginRejected code)
  | .loginFailed => capture.retry .loginFailed
  | .loginAccepted sequence =>
      let accepted := { capture with session := log.id }
      if sequence > capture.nextSeq then accepted.conclude .sequenceGap
      else accepted.pumpNext sequence sequence false
  | .interrupted _ _ => capture.conclude .interrupted
  | .raised => capture.conclude .unknown
  | _ => capture

def onPumping (capture : Capture) (log : SoupLog) (seq served : Nat) (wroteAny : Bool) :
    Event → Capture
  | .sequencedData spilled =>
      if seq = capture.nextSeq then
        { capture.write (log.message served) spilled with nextSeq := seq + 1 }.pumpNext
          (seq + 1) (served + 1) true
      else capture.pumpNext (seq + 1) (served + 1) wroteAny
  | .otherPacket => capture.pumpNext seq served wroteAny
  | .endOfSession => capture.conclude .endOfSession
  | .connectionLost =>
      if wroteAny then { capture with retriesLeft := capture.args.retries }.disconnected
      else capture.disconnected
  | .interrupted done spilled =>
      if seq = capture.nextSeq then
        (capture.execute ((writeStatements (log.message served) spilled).take done)).conclude
          .interrupted
      else capture.conclude .interrupted
  | .raised => capture.conclude .unknown
  | _ => capture

def proceed (capture : Capture) : Capture := { capture with atSidecar := false }

/-- One event. After the death of a process, right after it has written a sidecar, or
after its end, another one is started. -/
def step (log : SoupLog) (capture : Capture) (event : Event) : Capture :=
  match event with
  | .restart args =>
      if capture.atSidecar then
        { resume args capture.sidecars.getLast? with sidecars := capture.sidecars }
      else capture
  | event =>
      match capture.phase with
      | .ended => capture
      | .connecting => capture.proceed.onConnecting log event
      | .pumping seq served wroteAny =>
          capture.proceed.onPumping log seq served wroteAny event

def after (log : SoupLog) (args : CaptureArgs) (events : List Event) : Capture :=
  events.foldl (step log) (resume args none)

end Capture

end ProtoFH.Prototype
