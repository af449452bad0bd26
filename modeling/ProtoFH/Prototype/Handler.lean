import ProtoFH.Prototype.Market
import ProtoFH.Prototype.Soup

/-! # The prototype's feed handler

The handler that drives a market from the ITCH session. The packets of one chunk are
handled one after the other even if one of them ends the session and stops the
connector. -/

namespace ProtoFH.Prototype

/-- `FeedHandler.state` -/
inductive HandlerState where
  | init
  | snapshot
  | live
  | ended
  | failed
deriving DecidableEq

def HandlerState.Over (state : HandlerState) : Prop := state = .ended ∨ state = .failed

instance (state : HandlerState) : Decidable state.Over := inferInstanceAs (Decidable (_ ∨ _))

inductive EndReason where
  | endOfMessages
  | endOfSession
  | loginRejected (code : Text)
deriving DecidableEq

/-- What a handler does that is seen from outside: calls of its callbacks, each with the
state transition before it, and messages given to the market. -/
inductive HandlerEvent where
  | live (nextSeq : Nat)
  | applied (msg : Message)
  | message (seq : Nat) (msg : Message)
  | ended (reason : EndReason)
  | failed (reason : EndReason)
deriving DecidableEq

def HandlerEvent.endState? : HandlerEvent → Option HandlerState
  | .ended _ => some .ended
  | .failed _ => some .failed
  | _ => none

/-- The exceptions that leave `on_bytes`, and with it the reactor. -/
inductive HandlerError where
  | packet (error : PacketError)
  | decode (error : DecodeError)
  | apply (error : ApplyError)

/-- `FeedHandler` with its session. `stopped` is the connector's state `STOPPED`, `raised`
an exception that has left `on_bytes`. -/
structure FeedHandler where
  state : HandlerState := .init
  endReason : Option EndReason := none
  market : Market := {}
  session : SoupSession := {}
  stopped : Bool := false
  raised : Option HandlerError := none
  events : List HandlerEvent := []

namespace FeedHandler

def notify (handler : FeedHandler) (event : HandlerEvent) : FeedHandler :=
  { handler with events := handler.events ++ [event] }

def conclude (handler : FeedHandler) (state : HandlerState) (event : HandlerEvent)
    (reason : EndReason) : FeedHandler :=
  if handler.state.Over then handler
  else { handler with state, endReason := some reason, stopped := true }.notify event

/-- `_end` -/
def finish (handler : FeedHandler) (reason : EndReason) : FeedHandler :=
  handler.conclude .ended (.ended reason) reason

def fail (handler : FeedHandler) (reason : EndReason) : FeedHandler :=
  handler.conclude .failed (.failed reason) reason

def isEndOfMessages : Message → Bool
  | .systemEvent _ _ event => event = [ascii 'C']
  | _ => false

/-- `_on_itch_message`. A market whose `apply` raises is not looked at again. -/
def onItchMessage (handler : FeedHandler) (seq : Nat) (payload : Bytes) : FeedHandler :=
  match Message.decode payload with
  | .error error => { handler with raised := some (.decode error) }
  | .ok msg =>
      let given := handler.notify (.applied msg)
      match handler.market.apply msg with
      | .error error => { given with raised := some (.apply error) }
      | .ok market =>
          let told := { given with market }.notify (.message seq msg)
          if isEndOfMessages msg then told.finish .endOfMessages else told

/-- The callbacks that the handler gives to its session. `_on_login_accepted` goes live
whatever the state was. -/
def onEvent (handler : FeedHandler) : SessionEvent → FeedHandler
  | .loginAccepted _ nextSeq => { handler with state := .live }.notify (.live nextSeq)
  | .loginRejected code => handler.fail (.loginRejected code)
  | .message seq payload => handler.onItchMessage seq payload
  | .endOfSession => handler.finish .endOfSession

def handlePacket (handler : FeedHandler) (packet : Packet) : FeedHandler :=
  if handler.raised.isSome then handler
  else
    let (session, event) := handler.session.handlePacket packet
    let handled := { handler with session }
    match event with
    | none => handled
    | some event => handled.onEvent event

def onBytes (handler : FeedHandler) (data : Bytes) : FeedHandler :=
  let (frames, packets) := FrameBuffer.feed handler.session.frames data
  let fed := { handler with session := { handler.session with frames } }
  match packets with
  | .error error => { fed with raised := some (.packet error) }
  | .ok packets => packets.foldl handlePacket fed

def checkTerminal (handler : FeedHandler) : FeedHandler :=
  if handler.session.state = .ended ∨ handler.session.state = .failed then
    { handler with stopped := true }
  else handler

/-- `_on_readable` of the connector, with the bytes it received. Once it is stopped, or
an exception has ended the reactor, it is not called. -/
def onReadable (handler : FeedHandler) (data : Bytes) : FeedHandler :=
  if handler.stopped ∨ handler.raised.isSome then handler
  else
    let fed := handler.onBytes data
    if fed.raised.isSome then fed else fed.checkTerminal

def receive (handler : FeedHandler) (chunks : List Bytes) : FeedHandler :=
  chunks.foldl onReadable handler

def applied (handler : FeedHandler) : List Message :=
  handler.events.filterMap fun event =>
    match event with
    | .applied msg => some msg
    | _ => none

end FeedHandler

end ProtoFH.Prototype
