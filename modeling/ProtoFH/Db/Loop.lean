import ProtoFH.Db.Serving

/-! # The poll loop of jnxdb

One loop serves the feed handler's connection, the two listeners and the query connections. It
matches what `poll` reports to the connections by their positions, accepts new connections in the
middle of a round, and takes the closed ones out at its end. Over whole runs, every connection is
served as if it were alone with the tables. -/

namespace ProtoFH

/-- `revents`, or the `events` that are asked for besides `POLLIN`; `error` is `POLLERR` or
`POLLHUP`. -/
structure PollEvents where
  pollIn : Bool := false
  pollOut : Bool := false
  error : Bool := false
deriving DecidableEq

inductive DbSocket where
  | ingestListener
  | ingest
  | queryListener
  | query (client : Nat)
deriving DecidableEq

/-- A `pollfd`, and whether `POLLOUT` is asked for. -/
structure PollFd where
  socket : DbSocket
  wantWrite : Bool := false
deriving DecidableEq

/-- What the socket of a client answers in a round: to the reads, to the writes between them, and
to the writes once it is writable. -/
structure ClientCalls where
  recvs : List QueryRecv := []
  sends : List SendOutcome := []
  writes : List SendOutcome := []

structure DbRound where
  /-- Whether `poll` returns more than 0. -/
  ready : Bool := true
  revents : DbSocket → PollEvents := fun _ => {}
  ingestRecvs : List RecvOutcome := []
  ingestSends : List SendOutcome := []
  ingestWrites : List SendOutcome := []
  /-- Whether `accept` on the feed handler's listener returns a connection. -/
  ingestAccepts : Bool := true
  /-- How many connections `accept` returns on the query listener before it fails. -/
  queryAccepts : Nat := 0
  calls : Nat → ClientCalls := fun _ => {}

/-- What `poll` writes into `revents`: writability only if it was asked for. -/
def DbRound.polled (round : DbRound) (pfd : PollFd) : PollEvents :=
  let revents := round.revents pfd.socket
  { revents with pollOut := revents.pollOut && pfd.wantWrite }

structure DbConn extends QueryConn where
  client : Nat
deriving DecidableEq

structure JnxDb where
  ingest : Ingest := {}
  conns : List DbConn := []
  accepted : Nat := 0
  gone : List DbConn := []

def Ingest.serve (ingest : Ingest) (revents : PollEvents) (round : DbRound) :
    Except Ingest Ingest :=
  if revents.error then .ok ingest.dropConnection
  else do
    let ingest ←
      if revents.pollIn then ingest.onConnReadable round.ingestSends round.ingestRecvs
      else .ok ingest
    if revents.pollOut ∧ ingest.server.connected then
      return (ingest.tryDrain round.ingestWrites).1
    else return ingest

def QueryConn.serve (conn : QueryConn) (tables : Tables) (revents : PollEvents)
    (calls : ClientCalls) : QueryConn :=
  if revents.error then conn.close
  else
    let conn := if revents.pollIn then conn.onConnReadable tables calls.sends calls.recvs else conn
    if revents.pollOut ∧ conn.opened then (conn.onConnWritable calls.writes).1 else conn

namespace JnxDb

def ingestFds (db : JnxDb) : List PollFd :=
  if db.ingest.server.connected then [⟨.ingest, db.ingest.server.outbuf ≠ []⟩] else []

def fds (db : JnxDb) : List PollFd :=
  ⟨.ingestListener, false⟩ :: db.ingestFds ++ [⟨.queryListener, false⟩] ++
    db.conns.map fun conn => ⟨.query conn.client, conn.outbuf ≠ []⟩

def ingestConnIdx (db : JnxDb) : Option Nat := if db.ingest.server.connected then some 1 else none

def queryListenIdx (db : JnxDb) : Nat := if db.ingest.server.connected then 2 else 1

def queryConnBase (db : JnxDb) : Nat := db.queryListenIdx + 1

def revents (db : JnxDb) (round : DbRound) (index : Nat) : PollEvents :=
  (db.fds[index]?.map round.polled).getD {}

def reap (db : JnxDb) : JnxDb :=
  { db with
    conns := db.conns.filter (·.opened)
    gone := db.gone ++ db.conns.filter (!·.opened) }

def serveIngest (db : JnxDb) (round : DbRound) : Except Ingest Ingest :=
  match db.ingestConnIdx with
  | none => .ok db.ingest
  | some index => db.ingest.serve (db.revents round index) round

def dispatch (db : JnxDb) (round : DbRound) : Except Ingest JnxDb := do
  let served ← db.serveIngest round
  let ingest :=
    if (db.revents round 0).pollIn ∧ round.ingestAccepts then served.accept else served
  let accepts := if (db.revents round db.queryListenIdx).pollIn then round.queryAccepts else 0
  let conns := db.conns ++
    (List.range accepts).map fun number => { client := db.accepted + number : DbConn }
  let after : JnxDb :=
    { db with
      ingest
      accepted := db.accepted + accepts
      -- The connections that were accepted in this round have no descriptor in it.
      conns := conns.mapIdx fun index conn =>
        if db.queryConnBase + index < db.fds.length then
          { conn with
            toQueryConn := conn.toQueryConn.serve ingest.server.tables
              (db.revents round (db.queryConnBase + index)) (round.calls conn.client) }
        else conn }
  return after.reap

def step (db : JnxDb) (round : DbRound) : Except Ingest JnxDb :=
  if round.ready then db.dispatch round else .ok db

def run (rounds : List DbRound) : Except Ingest JnxDb := rounds.foldlM step {}

end JnxDb

/-! ## Positions -/

def Ingest.served (ingest : Ingest) (round : DbRound) : Except Ingest Ingest :=
  if ingest.server.connected then
    ingest.serve (round.polled ⟨.ingest, ingest.server.outbuf ≠ []⟩) round
  else .ok ingest

def Ingest.round (ingest : Ingest) (round : DbRound) : Except Ingest Ingest := do
  let served ← ingest.served round
  return if (round.revents .ingestListener).pollIn ∧ round.ingestAccepts then served.accept
    else served

def DbRound.newClients (round : DbRound) : Nat :=
  if (round.revents .queryListener).pollIn then round.queryAccepts else 0

def DbConn.round (conn : DbConn) (tables : Tables) (round : DbRound) : DbConn :=
  { conn with
    toQueryConn := conn.toQueryConn.serve tables
      (round.polled ⟨.query conn.client, conn.outbuf ≠ []⟩) (round.calls conn.client) }

namespace JnxDb

variable (db : JnxDb) (round : DbRound)

private theorem revents_ingest (connected : db.ingest.server.connected = true) :
    db.revents round 1 = round.polled ⟨.ingest, db.ingest.server.outbuf ≠ []⟩ := by
  rw [revents, fds, ingestFds, if_pos connected]
  rfl

private theorem revents_queryListen :
    db.revents round db.queryListenIdx = round.polled ⟨.queryListener, false⟩ := by
  rw [revents, fds, queryListenIdx, ingestFds]
  split <;> rfl

theorem fds_queryConn (index : Nat) :
    db.fds[db.queryConnBase + index]? =
      db.conns[index]?.map fun conn => ⟨.query conn.client, conn.outbuf ≠ []⟩ := by
  have base : db.queryConnBase =
      (⟨.ingestListener, false⟩ :: db.ingestFds ++ [⟨.queryListener, false⟩] :
        List PollFd).length := by
    rw [queryConnBase, queryListenIdx, ingestFds]
    split <;> rfl
  rw [fds, base, List.getElem?_append_right (Nat.le_add_right _ _), Nat.add_sub_cancel_left,
    List.getElem?_map]

theorem queryConn_lt_iff (index : Nat) :
    db.queryConnBase + index < db.fds.length ↔ index < db.conns.length := by
  rw [← not_iff_not, Nat.not_lt, Nat.not_lt, ← List.getElem?_eq_none_iff,
    ← List.getElem?_eq_none_iff, fds_queryConn, Option.map_eq_none_iff]

private theorem mapIdx_serve (tables : Tables) (new : List DbConn) :
    ((db.conns ++ new).mapIdx fun index conn =>
      if db.queryConnBase + index < db.fds.length then
        { conn with
          toQueryConn := conn.toQueryConn.serve tables
            (db.revents round (db.queryConnBase + index)) (round.calls conn.client) }
      else conn) =
    db.conns.map (·.round tables round) ++ new := by
  rw [List.mapIdx_append]
  congr 1
  · refine List.ext_getElem (by rw [List.length_mapIdx, List.length_map]) fun index inside _ => ?_
    rw [List.length_mapIdx] at inside
    rw [List.getElem_mapIdx, List.getElem_map, if_pos ((db.queryConn_lt_iff index).mpr inside),
      revents, fds_queryConn, List.getElem?_eq_getElem inside]
    rfl
  · refine (List.mapIdx_eq_iff.mpr fun index => ?_ : _ = new)
    have beyond : ¬ db.queryConnBase + (index + db.conns.length) < db.fds.length := by
      rw [queryConn_lt_iff]
      omega
    simp only [if_neg beyond]
    exact Option.map_id'.symm

def served (ingest : Ingest) : JnxDb :=
  reap
    { db with
      ingest
      accepted := db.accepted + round.newClients
      conns := db.conns.map (·.round ingest.server.tables round) ++
        (List.range round.newClients).map fun number => { client := db.accepted + number } }

private theorem dispatch_eq :
    db.dispatch round = do
      let ingest ← db.ingest.round round
      return db.served round ingest := by
  have served : db.serveIngest round = db.ingest.served round := by
    rw [serveIngest, ingestConnIdx, Ingest.served]
    cases connected : db.ingest.server.connected with
    | false => rfl
    | true => exact congrArg (db.ingest.serve · round) (db.revents_ingest round connected)
  rw [dispatch, served, Ingest.round]
  simp only [bind_assoc, pure_bind]
  refine congrArg (_ >>= ·) (funext fun served => ?_)
  simp only [mapIdx_serve, revents_queryListen]
  rfl

end JnxDb

/-! ## One client -/

def ClientCalls.events (calls : ClientCalls) (tables : Tables) (revents : PollEvents) :
    List ConnEvent :=
  if revents.error then [.error]
  else
    (if revents.pollIn then [.readable tables calls.recvs calls.sends] else []) ++
      if revents.pollOut then [.writable calls.writes] else []

theorem QueryConn.serve_eq_run {conn : QueryConn} (opened : conn.opened = true) (tables : Tables)
    (revents : PollEvents) (calls : ClientCalls) :
    conn.serve tables revents calls = conn.run (calls.events tables revents) := by
  have written (after : QueryConn) :
      (if revents.pollOut ∧ after.opened then (after.onConnWritable calls.writes).1 else after) =
        after.run (if revents.pollOut then [.writable calls.writes] else []) := by
    cases revents.pollOut with
    | false => rfl
    | true => simp only [true_and, if_true, run, List.foldl_cons, List.foldl_nil, step]
  rw [serve, ClientCalls.events]
  cases revents.error with
  | true => exact (step_of_opened opened .error).symm
  | false =>
      simp only [Bool.false_eq_true, if_false]
      rw [written, run, run, List.foldl_append]
      cases revents.pollIn with
      | false => rfl
      | true =>
          simp only [if_true, List.foldl_cons, List.foldl_nil]
          rw [step_of_opened opened]

private theorem QueryConn.run_closed {conn : QueryConn} (closed : conn.opened = false)
    (events : List ConnEvent) : conn.run events = conn := by
  have stays (event : ConnEvent) : conn.step event = conn := if_neg (by simp [closed])
  induction events with
  | nil => rfl
  | cons event events induction =>
      rw [run, List.foldl_cons, stays]
      exact induction

def QueryConn.round (conn : QueryConn) (client : Nat) (tables : Tables) (round : DbRound) :
    QueryConn :=
  conn.run ((round.calls client).events tables
    (round.polled ⟨.query client, conn.outbuf ≠ []⟩))

/-! ## All clients -/

/-- A round in which the handlers ran: the tables then, and how many clients there were. -/
structure DbServing where
  tables : Tables
  accepted : Nat
  round : DbRound

structure DbHistory where
  ingest : Ingest := {}
  accepted : Nat := 0
  servings : List DbServing := []

namespace DbHistory

def served (history : DbHistory) (round : DbRound) (ingest : Ingest) : DbHistory where
  ingest := ingest
  accepted := history.accepted + round.newClients
  servings := history.servings ++ [⟨ingest.server.tables, history.accepted, round⟩]

def step (history : DbHistory) (round : DbRound) : Except Ingest DbHistory :=
  if round.ready then do
    let ingest ← history.ingest.round round
    return history.served round ingest
  else .ok history

def run (rounds : List DbRound) : Except Ingest DbHistory := rounds.foldlM step {}

def conn (history : DbHistory) (client : Nat) : QueryConn :=
  history.servings.foldl (fun conn serving =>
    if client < serving.accepted then conn.round client serving.tables serving.round
    else conn) {}

theorem conn_served (history : DbHistory) (round : DbRound) (ingest : Ingest) {client : Nat}
    (known : client < history.accepted) :
    (history.served round ingest).conn client =
      (history.conn client).round client ingest.server.tables round := by
  rw [conn, served, List.foldl_append, List.foldl_cons, List.foldl_nil, if_pos known]
  rfl

end DbHistory

structure JnxDb.Follows (db : JnxDb) (history : DbHistory) : Prop where
  ingest : db.ingest = history.ingest
  accepted : db.accepted = history.accepted
  clients : ((db.conns ++ db.gone).map (·.client)).Perm (List.range db.accepted)
  opened : ∀ conn ∈ db.conns, conn.opened = true
  closed : ∀ conn ∈ db.gone, conn.opened = false
  alone : ∀ conn ∈ db.conns ++ db.gone, conn.toQueryConn = history.conn conn.client
  earlier : ∀ serving ∈ history.servings, serving.accepted ≤ history.accepted

namespace JnxDb.Follows

variable {db : JnxDb} {history : DbHistory}

theorem start : Follows {} {} where
  ingest := rfl
  accepted := rfl
  clients := .refl _
  opened _ member := absurd member List.not_mem_nil
  closed _ member := absurd member List.not_mem_nil
  alone _ member := absurd member List.not_mem_nil
  earlier _ member := absurd member List.not_mem_nil

theorem client_lt (follows : db.Follows history) {conn : DbConn}
    (member : conn ∈ db.conns ++ db.gone) : conn.client < history.accepted := by
  have listed := follows.clients.subset (List.mem_map_of_mem member)
  rw [← follows.accepted]
  exact List.mem_range.mp listed

theorem perm_reap (db : JnxDb) :
    (db.reap.conns ++ db.reap.gone).Perm (db.conns ++ db.gone) := by
  have parts := List.filter_append_perm (fun conn : DbConn => conn.opened) db.conns
  have swapped : (db.reap.conns ++ db.reap.gone).Perm
      (db.reap.conns ++ (db.conns.filter (!·.opened) ++ db.gone)) :=
    .append_left _ List.perm_append_comm
  rw [← List.append_assoc] at swapped
  exact swapped.trans (parts.append_right _)

private theorem conn_new (follows : db.Follows history) (round : DbRound) (ingest : Ingest)
    (number : Nat) : (history.served round ingest).conn (history.accepted + number) = {} := by
  have before : ∀ serving ∈ (history.served round ingest).servings,
      serving.accepted ≤ history.accepted := by
    refine List.forall_mem_append.mpr ⟨follows.earlier, ?_⟩
    exact List.forall_mem_singleton.mpr (Nat.le_refl _)
  rw [DbHistory.conn]
  generalize (history.served round ingest).servings = servings at before
  induction servings with
  | nil => rfl
  | cons serving servings induction =>
      rw [List.forall_mem_cons] at before
      rw [List.foldl_cons, if_neg (by omega)]
      exact induction before.2

theorem served (follows : db.Follows history) (round : DbRound) (ingest : Ingest) :
    (db.served round ingest).Follows (history.served round ingest) where
  ingest := rfl
  accepted := congrArg (· + round.newClients) follows.accepted
  clients := by
    refine ((perm_reap _).map _).trans ?_
    have served : (db.conns.map (·.round ingest.server.tables round)).map (·.client) =
        db.conns.map (·.client) := List.map_map
    have new : ((List.range round.newClients).map fun number =>
          ({ client := db.accepted + number } : DbConn)).map (·.client) =
        (List.range round.newClients).map (db.accepted + ·) := List.map_map
    have all : List.range (db.accepted + round.newClients) =
        List.range db.accepted ++ (List.range round.newClients).map (db.accepted + ·) :=
      List.range_add
    have before := follows.clients
    rw [List.map_append] at before
    rw [List.map_append, List.map_append, served, new]
    refine .trans ?_ (.of_eq all.symm)
    refine .trans ?_ (before.append_right _)
    rw [List.append_assoc, List.append_assoc]
    exact .append_left _ List.perm_append_comm
  opened conn member := (List.mem_filter.mp member).2
  closed conn member := by
    rcases List.mem_append.mp member with before | now
    · exact follows.closed conn before
    · exact Bool.not_eq_true' _ ▸ (List.mem_filter.mp now).2
  alone conn member := by
    have listed := (perm_reap _).subset member
    rcases List.mem_append.mp listed with present | gone
    · rcases List.mem_append.mp present with old | new
      · obtain ⟨own, before, rfl⟩ := List.mem_map.mp old
        have inAll := List.mem_append_left db.gone before
        change own.toQueryConn.serve _ _ _ = DbHistory.conn _ own.client
        rw [history.conn_served round ingest (follows.client_lt inAll),
          ← follows.alone own inAll]
        exact QueryConn.serve_eq_run (follows.opened own before) _ _ _
      · obtain ⟨number, -, rfl⟩ := List.mem_map.mp new
        rw [follows.accepted, follows.conn_new round ingest]
    · have inAll := List.mem_append_right db.conns gone
      rw [history.conn_served round ingest (follows.client_lt inAll), ← follows.alone conn inAll]
      exact (QueryConn.run_closed (follows.closed conn gone) _).symm
  earlier serving member := by
    rcases List.mem_append.mp member with before | now
    · exact Nat.le_add_right_of_le (follows.earlier serving before)
    · rw [List.mem_singleton.mp now]
      exact Nat.le_add_right _ _

theorem step (follows : db.Follows history) {round : DbRound} {after : JnxDb}
    (stepped : db.step round = .ok after) :
    ∃ later, history.step round = .ok later ∧ after.Follows later := by
  rw [JnxDb.step] at stepped
  rw [DbHistory.step]
  split at stepped
  · next ready =>
      rw [dispatch_eq] at stepped
      obtain ⟨ingest, served, stepped⟩ := except_bind_eq_ok.mp stepped
      cases stepped
      rw [if_pos ready, ← follows.ingest, served]
      exact ⟨_, rfl, follows.served round ingest⟩
  · next idle =>
      cases stepped
      exact ⟨history, if_neg idle, follows⟩

end JnxDb.Follows

theorem JnxDb.follows_run {rounds : List DbRound} {db : JnxDb} (ran : JnxDb.run rounds = .ok db) :
    ∃ history, DbHistory.run rounds = .ok history ∧ db.Follows history := by
  refine foldlM_simulates Follows ?_ .start ran
  exact fun _ _ _ _ follows stepped => follows.step stepped

/-- In every run of the loop, whatever the sockets do: the feed handler's connection and the tables
go on as if there were no queries; each client that was ever accepted has one connection, under
its own number; and that connection is as if the client were alone, with what its own socket
reported and the tables of the time. -/
theorem clients_are_served_alone (rounds : List DbRound) (db : JnxDb)
    (ran : JnxDb.run rounds = .ok db) :
    ∃ history, DbHistory.run rounds = .ok history ∧ db.ingest = history.ingest ∧
      ((db.conns ++ db.gone).map (·.client)).Perm (List.range history.accepted) ∧
      (∀ conn ∈ db.conns ++ db.gone, conn.toQueryConn = history.conn conn.client) ∧
      ∀ conn ∈ db.conns ++ db.gone, conn ∈ db.conns ↔ conn.opened = true := by
  obtain ⟨history, told, follows⟩ := JnxDb.follows_run ran
  refine ⟨history, told, follows.ingest, follows.accepted ▸ follows.clients, follows.alone,
    fun conn member => ⟨follows.opened conn, fun opened => ?_⟩⟩
  refine (List.mem_append.mp member).resolve_right fun gone => ?_
  cases opened.symm.trans (follows.closed conn gone)

/-! Two clients: the first is lost within its line, the second is served in the same rounds. -/

def twoClients : List DbRound :=
  let pending (socket : DbSocket) : PollEvents := { pollIn := decide (socket ≠ .ingestListener) }
  let line (client : Nat) : Bytes := label (if client = 0 then "PI" else "PING\n")
  [{ revents := pending, queryAccepts := 2 },
    { revents := pending
      calls client := { recvs := [.data (line client) fun _ => 0, .again], sends := [.took 7] } },
    { revents socket := { error := decide (socket = .query 0) } }]

theorem clients_are_served_alone_twoClients :
    ∃ db history, JnxDb.run twoClients = .ok db ∧ DbHistory.run twoClients = .ok history ∧
      db.conns = [{ client := 1, sent := label "PONG\n.\n" }] ∧
      db.gone = [{ client := 0, opened := false, inbuf := label "PI" }] ∧
      ((db.conns ++ db.gone).map (·.client)).Perm (List.range history.accepted) := by
  obtain ⟨db, ran, conns, gone⟩ : ∃ db, JnxDb.run twoClients = .ok db ∧
      db.conns = [{ client := 1, sent := label "PONG\n.\n" }] ∧
      db.gone = [{ client := 0, opened := false, inbuf := label "PI" }] :=
    ⟨_, rfl, by decide +kernel, by decide +kernel⟩
  obtain ⟨history, told, -, clients, -⟩ := clients_are_served_alone twoClients db ran
  exact ⟨db, history, ran, told, conns, gone, clients⟩

end ProtoFH
