import ProtoFH.Fh.Live

/-! # The feed handler, the database and the link between them

Both processes, the bytes in flight from one to the other, and everything that can
happen to them: messages, reads, broken links, restarts of either side. What the
program does not decide (how much of a buffer the kernel takes, where a connection
breaks) is part of the event. -/

namespace ProtoFH

/-- How `DbLink::send` ends: everything is taken, or it fails after some bytes. -/
inductive SendResult where
  | sent
  | failed (written : Nat)
deriving DecidableEq

/-- How `DbLink::connect_hello` ends: nobody listens, the connection is lost after some
bytes of the `HELLO`, or the reply arrives. -/
inductive ConnectResult where
  | refused
  | cut (written : Nat)
  | greeted
deriving DecidableEq

structure Running where
  fh : Fh
  position : Nat

/-- `wire` holds the bytes sent to the database's present connection and not yet read.
The link is up while what the feed handler sends ends up there. -/
structure System where
  fh : Option Running := none
  db : IngestServer := {}
  wire : Bytes := []
  linkUp : Bool := false

namespace System

/-! ## The link -/

/-- `send`. On a link that is down the bytes are lost, and whether the feed handler
notices is up to the result. A failed send closes the link. -/
def send (system : System) (data : Bytes) : SendResult → System
  | .sent => if system.linkUp then { system with wire := system.wire ++ data } else system
  | .failed written =>
      { system with
        wire := if system.linkUp then system.wire ++ data.take written else system.wire
        linkUp := false }

/-- `connect_hello`: closes the old link, and if the database answers opens a new one.
Accepting it, the database drops what the old one still held. -/
def connectHello (system : System) (mine : HelloRecord) :
    ConnectResult → System × Option HelloRecord
  | .refused => ({ system with linkUp := false }, none)
  | .cut written =>
      ({ system with
          db := system.db.accept
          wire := (encodeHello mine).take written
          linkUp := false }, none)
  | .greeted =>
      let greeted := system.db.accept.onData (encodeHello mine)
      let answered := { system with db := { greeted with outbuf := [] }, wire := [] }
      match decodeHello greeted.outbuf with
      | .error _ => ({ answered with linkUp := false }, none)
      | .ok reply => ({ answered with linkUp := true }, some reply)

def pushFullSync (system : System) (fh : Fh) (result : SendResult) : System × Fh :=
  (system.send (encodeAll fh.fullSync) result,
    { fh with dbConnected := fh.dbConnected && result = .sent })

/-! ## The feed handler -/

/-- `on_message`, with the update sent if there is one and the database is connected. -/
def onMessage (system : System) (running : Running) (payload : Bytes) (result : SendResult) :
    System :=
  let position := running.position + 1
  match running.fh.onMessage (UInt64.ofNat position) payload with
  | (fh, none) => { system with fh := some { fh, position } }
  | (fh, some rec) =>
      if fh.dbConnected then
        { system.send (encodeUpdate rec) result with
          fh := some { fh := { fh with dbConnected := result = .sent }, position } }
      else { system with fh := some { fh, position } }

/-- `try_db_connect`: anything but an exact match of the positions is rebased. -/
def tryDbConnect (system : System) (running : Running) (connect : ConnectResult)
    (result : SendResult) : System :=
  let fh := running.fh
  match system.connectHello { epoch := fh.epoch, lastExchSeq := fh.lastExchSeq } connect with
  | (system, none) => system
  | (system, some dbHello) =>
      let connected := { fh with dbConnected := true }
      if dbHello.epoch ≠ fh.epoch ∨ dbHello.lastExchSeq ≠ fh.lastExchSeq then
        let (system, synced) := system.pushFullSync connected result
        { system with fh := some { running with fh := synced } }
      else { system with fh := some { running with fh := connected } }

/-- The cold bootstrap with `bootstrap=replay`: the session is replayed from its first
message on, and a database that is up is rebased from the market as it is. -/
def bootstrap (system : System) (fh : Fh) (dbUp : Bool) (result : SendResult) : System :=
  let cold := { fh with lastExchSeq := 0 }
  if dbUp then
    let (system, synced) := system.pushFullSync { cold with dbConnected := true } result
    { system with fh := some { fh := synced, position := 0 } }
  else { system with fh := some { fh := cold, position := 0 } }

/-- What decides a startup: the provisional epoch, how connecting ends, how many bytes
of the state arrive, how connecting again ends, and how the sync is sent. -/
structure Startup where
  epoch : UInt64
  connect : ConnectResult
  delivered : Nat
  reconnect : ConnectResult
  result : SendResult

/-- The startup decision tree of `main`. A database with state is recovered from, and
the session resumed after its position; without a session to resume it is the cold
bootstrap that follows. -/
def start (system : System) (startup : Startup) : System :=
  let fresh : Fh := { epoch := startup.epoch }
  match system.connectHello {} startup.connect with
  | (system, none) => system.bootstrap fresh false startup.result
  | (system, some dbHello) =>
      if dbHello.epoch ≠ 0 ∨ dbHello.lastExchSeq ≠ 0 then
        let asked := system.db.onData (encodeControl .getState)
        let dumped := { system with db := { asked with outbuf := [] } }
        match recoverFromDb (asked.outbuf.take startup.delivered) with
        | some recovered =>
            let fh := Fh.resume recovered
            if fh.lastExchSeq + 1 = 1 ∧ fh.session = [] then
              dumped.bootstrap fh true startup.result
            else { dumped with fh := some { fh, position := fh.lastExchSeq.toNat } }
        | none =>
            let (again, reply) :=
              dumped.connectHello { epoch := startup.epoch, lastExchSeq := 0 } startup.reconnect
            again.bootstrap fresh reply.isSome startup.result
      else system.bootstrap fresh true startup.result

/-! ## Events -/

inductive Event where
  /-- The feed handler is given the next message of the log. -/
  | message (result : SendResult)
  /-- The database reads at most so many bytes. -/
  | read (count : Nat)
  /-- The connection is gone; the feed handler does not know yet. -/
  | linkBreaks
  /-- The database process is replaced by an empty one. -/
  | dbRestarts
  /-- The exchange accepts a login and names its session. -/
  | login (session : Bytes)
  /-- The reconnect timer of a feed handler without database. -/
  | reconnect (connect : ConnectResult) (result : SendResult)
  /-- The feed handler process dies. What it has sent can still be read. -/
  | crash
  | start (startup : Startup)

def step (log : ExchangeLog) (system : System) : Event → Option System
  | .message result => do
      let running ← system.fh
      let payload ← log.payloads[running.position]?
      some (system.onMessage running payload result)
  | .read count =>
      if system.db.connected then
        some { system with
          db := system.db.onData (system.wire.take count)
          wire := system.wire.drop count }
      else none
  | .linkBreaks =>
      some { system with db := system.db.dropConnection, wire := [], linkUp := false }
  | .dbRestarts => some { system with db := {}, wire := [], linkUp := false }
  | .login session => do
      let running ← system.fh
      some { system with fh := some { running with fh := { running.fh with session } } }
  | .reconnect connect result => do
      let running ← system.fh
      if running.fh.dbConnected then none else some (system.tryDbConnect running connect result)
  | .crash => do
      let _ ← system.fh
      some { system with fh := none, linkUp := false }
  | .start startup =>
      match system.fh with
      | some _ => none
      | none => some (system.start startup)

def run (log : ExchangeLog) (system : System) (events : List Event) : Option System :=
  events.foldlM (step log) system

end System

end ProtoFH
