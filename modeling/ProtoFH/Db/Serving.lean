import ProtoFH.Db.Query

/-! # Query connections

A connection of the query server with everything its socket can do. The replies to the
lines of one `recv` are all buffered before anything is sent, and a buffer beyond the
limit costs the client its connection, whether or not it has stopped reading. -/

namespace ProtoFH

def maxOutbuf : Nat := 4 * 1024 * 1024

/-- `QueryServer::Conn`, with the bytes that its socket has taken so far. -/
structure QueryConn where
  opened : Bool := true
  inbuf : Bytes := []
  outbuf : Bytes := []
  sent : Bytes := []
deriving DecidableEq

/-- What `recv` returns, with the resident sizes that the system reports while the lines
of the chunk are answered. -/
inductive QueryRecv where
  | data (bytes : Bytes) (rssKb : Nat → Nat)
  | again
  | interrupted
  | failed

def completeLines : Bytes → List Bytes × Bytes
  | [] => ([], [])
  | char :: rest =>
      if char = newline then ([] :: (completeLines rest).1, (completeLines rest).2)
      else
        match completeLines rest with
        | ([], left) => ([], char :: left)
        | (first :: lines, left) => ((char :: first) :: lines, left)

def stripCr (line : Bytes) : Bytes :=
  if line.getLast? = some (ascii '\r') then line.dropLast else line

namespace QueryConn

/-- `close_conn` -/
def close (conn : QueryConn) : QueryConn := { conn with opened := false }

/-- `on_conn_writable`. When no further result is given, the socket is not ready. -/
def onConnWritable (conn : QueryConn) : List SendOutcome → QueryConn × List SendOutcome
  | [] => (conn, [])
  | result :: rest =>
      if conn.opened ∧ conn.outbuf ≠ [] then
        match result with
        | .took count =>
            if count = 0 then (conn.close, rest)
            else
              { conn with
                outbuf := conn.outbuf.drop count
                sent := conn.sent ++ conn.outbuf.take count }.onConnWritable rest
        | .again => (conn, rest)
        | .interrupted => conn.onConnWritable rest
        | .failed => (conn.close, rest)
      else (conn, result :: rest)

def replies (tables : Tables) (rssKb : Nat → Nat) (lines : List Bytes) : Bytes :=
  (lines.mapIdx fun index line => tables.respond (rssKb index) (stripCr line)).flatten

/-- One chunk that `recv` returned: its lines are answered, then the buffer is checked, and
only then sent. -/
def onChunk (tables : Tables) (conn : QueryConn) (bytes : Bytes) (rssKb : Nat → Nat)
    (sends : List SendOutcome) : QueryConn × List SendOutcome :=
  let read := completeLines (conn.inbuf ++ bytes)
  let answered := { conn with
    inbuf := read.2
    outbuf := conn.outbuf ++ replies tables rssKb read.1 }
  if answered.outbuf.length > maxOutbuf then (answered.close, sends)
  else answered.onConnWritable sends

def onConnReadable (tables : Tables) (conn : QueryConn) (sends : List SendOutcome) :
    List QueryRecv → QueryConn
  | [] => conn
  | result :: rest =>
      match result with
      | .data [] _ => conn.close
      | .data bytes rssKb =>
          let handled := conn.onChunk tables bytes rssKb sends
          if handled.1.opened then handled.1.onConnReadable tables handled.2 rest else handled.1
      | .again => conn
      | .interrupted => conn.onConnReadable tables sends rest
      | .failed => conn.close

end QueryConn

inductive ConnEvent where
  | readable (tables : Tables) (recvs : List QueryRecv) (sends : List SendOutcome)
  | writable (sends : List SendOutcome)
  | error

namespace QueryConn

def step (conn : QueryConn) (event : ConnEvent) : QueryConn :=
  if conn.opened then
    match event with
    | .readable tables recvs sends => conn.onConnReadable tables sends recvs
    | .writable sends => (conn.onConnWritable sends).1
    | .error => conn.close
  else conn

def run (conn : QueryConn) (events : List ConnEvent) : QueryConn := events.foldl step conn

/-! ## A client that reads -/

/-- The replies to the lines that each `recv` of a call completes. -/
def batches (tables : Tables) (inbuf : Bytes) : List QueryRecv → List Bytes
  | [] => []
  | .data bytes rssKb :: rest =>
      let read := completeLines (inbuf ++ bytes)
      replies tables rssKb read.1 :: batches tables read.2 rest
  | .again :: _ => []
  | .interrupted :: rest => batches tables inbuf rest
  | .failed :: _ => []

def leftover (inbuf : Bytes) : List QueryRecv → Bytes
  | [] => inbuf
  | .data bytes _ :: rest => leftover (completeLines (inbuf ++ bytes)).2 rest
  | .again :: _ => inbuf
  | .interrupted :: rest => leftover inbuf rest
  | .failed :: _ => inbuf

def runBatches (inbuf : Bytes) : List ConnEvent → List Bytes
  | [] => []
  | .readable tables recvs _ :: rest =>
      batches tables inbuf recvs ++ runBatches (leftover inbuf recvs) rest
  | .writable _ :: rest => runBatches inbuf rest
  | .error :: _ => []

end QueryConn

def QueryRecv.Arrives : QueryRecv → Prop
  | .data bytes _ => bytes ≠ []
  | .again => True
  | .interrupted => True
  | .failed => False

/-- The socket takes something whenever it is offered bytes, until `bytes` of them are
gone. -/
structure Willing (sends : List SendOutcome) (bytes : Nat) : Prop where
  takes : ∀ result ∈ sends, ∃ count, 0 < count ∧ result = .took count
  enough : bytes ≤ sends.length

def Reading (inbuf : Bytes) : List ConnEvent → Prop
  | [] => True
  | .readable tables recvs sends :: rest =>
      (∀ recv ∈ recvs, recv.Arrives) ∧
        Willing sends (QueryConn.batches tables inbuf recvs).flatten.length ∧
        Reading (QueryConn.leftover inbuf recvs) rest
  | .writable _ :: rest => Reading inbuf rest
  | .error :: _ => False

namespace QueryConn

variable {conn : QueryConn}

theorem onConnWritable_willing (opened : conn.opened = true) {sends : List SendOutcome}
    {later : Nat} (willing : Willing sends (conn.outbuf.length + later)) :
    ∃ rest, conn.onConnWritable sends =
        ({ conn with outbuf := [], sent := conn.sent ++ conn.outbuf }, rest) ∧
      Willing rest later := by
  induction sends generalizing conn with
  | nil =>
      have enough : conn.outbuf.length + later = 0 := Nat.le_zero.mp willing.enough
      have none : conn.outbuf = [] := List.eq_nil_of_length_eq_zero (by omega)
      refine ⟨[], ?_, nofun, by rw [List.length_nil]; omega⟩
      rw [onConnWritable, none, List.append_nil]
      cases conn
      cases none
      rfl
  | cons result rest induction =>
      unfold onConnWritable
      by_cases empty : conn.outbuf = []
      · refine ⟨result :: rest, ?_, willing.takes, ?_⟩
        · rw [if_neg (by simp [empty]), empty, List.append_nil]
          cases conn
          cases empty
          rfl
        · have enough := willing.enough
          rwa [empty, List.length_nil, Nat.zero_add] at enough
      · obtain ⟨count, positive, rfl⟩ := willing.takes result List.mem_cons_self
        have shorter : 0 < conn.outbuf.length := List.length_pos_iff.mpr empty
        have enough := willing.enough
        rw [List.length_cons] at enough
        have rest' : Willing rest ((conn.outbuf.drop count).length + later) :=
          ⟨fun result member => willing.takes result (List.mem_cons_of_mem _ member), by
            rw [List.length_drop]; omega⟩
        obtain ⟨left, drained, still⟩ := @induction { conn with
          outbuf := conn.outbuf.drop count
          sent := conn.sent ++ conn.outbuf.take count } opened rest'
        refine ⟨left, ?_, still⟩
        rw [if_pos ⟨opened, empty⟩]
        simp only [Nat.ne_of_gt positive, if_false]
        rw [drained, List.append_assoc, List.take_append_drop]

/-- Between two calls nothing is buffered for a client that has been served, and it has
got everything. -/
structure Served (conn : QueryConn) (inbuf replies : Bytes) : Prop where
  opened : conn.opened = true
  inbuf : conn.inbuf = inbuf
  outbuf : conn.outbuf = []
  sent : conn.sent = replies

theorem onChunk_eq (outbuf : conn.outbuf = []) (tables : Tables) (bytes : Bytes) (rssKb : Nat → Nat)
    (sends : List SendOutcome) :
    let read := completeLines (conn.inbuf ++ bytes)
    let answered := { conn with inbuf := read.2, outbuf := replies tables rssKb read.1 }
    conn.onChunk tables bytes rssKb sends =
      if answered.outbuf.length > maxOutbuf then (answered.close, sends)
      else answered.onConnWritable sends := by
  cases conn
  cases outbuf
  rfl

private theorem onChunk_of_served {inbuf replied : Bytes} (served : conn.Served inbuf replied)
    (tables : Tables) (bytes : Bytes) (rssKb : Nat → Nat) {sends : List SendOutcome} {later : Nat}
    (willing : Willing sends
      ((replies tables rssKb (completeLines (inbuf ++ bytes)).1).length + later)) :
    let batch := replies tables rssKb (completeLines (inbuf ++ bytes)).1
    let after := conn.onChunk tables bytes rssKb sends
    (batch.length ≤ maxOutbuf → after.1.Served (completeLines (inbuf ++ bytes)).2
      (replied ++ batch) ∧ Willing after.2 later) ∧
    (maxOutbuf < batch.length → after.1.opened = false) := by
  obtain ⟨opened, rfl, outbuf, rfl⟩ := served
  intro batch after
  let answered : QueryConn :=
    { conn with inbuf := (completeLines (conn.inbuf ++ bytes)).2, outbuf := batch }
  have checked : after = if batch.length > maxOutbuf then (answered.close, sends)
      else answered.onConnWritable sends := onChunk_eq outbuf tables bytes rssKb sends
  constructor
  · intro fits
    obtain ⟨rest, drained, still⟩ := @onConnWritable_willing answered opened sends later willing
    rw [checked, if_neg (Nat.not_lt.mpr fits), drained]
    exact ⟨⟨opened, rfl, rfl, rfl⟩, still⟩
  · intro large
    rw [checked, if_pos large]
    rfl

theorem onConnReadable_of_served {inbuf replied : Bytes} (served : conn.Served inbuf replied)
    (tables : Tables) {recvs : List QueryRecv} (arrives : ∀ recv ∈ recvs, recv.Arrives)
    {sends : List SendOutcome}
    (willing : Willing sends (batches tables inbuf recvs).flatten.length) :
    let after := conn.onConnReadable tables sends recvs
    ((∀ batch ∈ batches tables inbuf recvs, batch.length ≤ maxOutbuf) →
      after.Served (leftover inbuf recvs) (replied ++ (batches tables inbuf recvs).flatten)) ∧
    ((∃ batch ∈ batches tables inbuf recvs, maxOutbuf < batch.length) →
      after.opened = false) := by
  induction recvs generalizing conn inbuf replied sends with
  | nil =>
      rw [batches, List.flatten_nil, List.append_nil]
      exact ⟨fun _ => served, fun ⟨_, member, _⟩ => absurd member List.not_mem_nil⟩
  | cons recv rest induction =>
      rw [List.forall_mem_cons] at arrives
      cases recv with
      | again =>
          rw [batches, List.flatten_nil, List.append_nil]
          exact ⟨fun _ => served, fun ⟨_, member, _⟩ => absurd member List.not_mem_nil⟩
      | interrupted => exact induction served arrives.2 willing
      | failed => exact absurd arrives.1 id
      | data bytes rssKb =>
          rw [batches, List.flatten_cons, List.length_append] at willing
          obtain ⟨small, large⟩ := onChunk_of_served served tables bytes rssKb willing
          have handled : conn.onConnReadable tables sends (.data bytes rssKb :: rest) =
              let handled := conn.onChunk tables bytes rssKb sends
              if handled.1.opened then handled.1.onConnReadable tables handled.2 rest
              else handled.1 := by
            cases bytes with
            | nil => exact absurd rfl arrives.1
            | cons byte bytes => rfl
          simp only [handled, batches, List.forall_mem_cons, List.exists_mem_cons_iff,
            List.flatten_cons, ← List.append_assoc]
          constructor
          · rintro ⟨fits, others⟩
            have chunk := small fits
            rw [if_pos chunk.1.opened]
            exact (induction chunk.1 arrives.2 chunk.2).1 others
          · intro beyond
            by_cases fits :
                (replies tables rssKb (completeLines (inbuf ++ bytes)).1).length ≤ maxOutbuf
            · have chunk := small fits
              rw [if_pos chunk.1.opened]
              apply (induction chunk.1 arrives.2 chunk.2).2
              exact beyond.resolve_left (Nat.not_lt.mpr fits)
            · have closed := large (Nat.lt_of_not_le fits)
              rw [closed, if_neg Bool.false_ne_true]
              exact closed

theorem step_of_opened (opened : conn.opened = true) (event : ConnEvent) :
    conn.step event =
      match event with
      | .readable tables recvs sends => conn.onConnReadable tables sends recvs
      | .writable sends => (conn.onConnWritable sends).1
      | .error => conn.close := if_pos opened

private theorem run_of_closed (closed : conn.opened = false) (events : List ConnEvent) :
    (conn.run events).opened = false := by
  have stays : ∀ event, conn.step event = conn := fun event =>
    if_neg (by rw [closed]; exact Bool.false_ne_true)
  induction events with
  | nil => exact closed
  | cons event events induction => rwa [run, List.foldl_cons, stays]

theorem run_of_served {inbuf replied : Bytes} (served : conn.Served inbuf replied)
    {events : List ConnEvent} (reading : Reading inbuf events) :
    ((∀ batch ∈ runBatches inbuf events, batch.length ≤ maxOutbuf) →
      (conn.run events).opened = true ∧
        (conn.run events).sent = replied ++ (runBatches inbuf events).flatten) ∧
    ((∃ batch ∈ runBatches inbuf events, maxOutbuf < batch.length) →
      (conn.run events).opened = false) := by
  induction events generalizing conn inbuf replied with
  | nil =>
      rw [runBatches, List.flatten_nil, List.append_nil]
      exact ⟨fun _ => ⟨served.opened, served.sent⟩,
        fun ⟨_, member, _⟩ => absurd member List.not_mem_nil⟩
  | cons event events induction =>
      rw [run, List.foldl_cons, step_of_opened served.opened]
      cases event with
      | readable tables recvs sends =>
          obtain ⟨arrives, willing, later⟩ := reading
          obtain ⟨small, large⟩ := onConnReadable_of_served served tables arrives willing
          simp only [runBatches, List.forall_mem_append, List.flatten_append,
            ← List.append_assoc]
          constructor
          · rintro ⟨fits, others⟩
            exact (induction (small fits) later).1 others
          · rintro ⟨batch, member, beyond⟩
            by_cases fits : ∀ batch ∈ batches tables inbuf recvs, batch.length ≤ maxOutbuf
            · rcases List.mem_append.mp member with here | further
              · exact absurd beyond (Nat.not_lt.mpr (fits batch here))
              · exact (induction (small fits) later).2 ⟨batch, further, beyond⟩
            · push Not at fits
              exact run_of_closed (large fits) events
      | writable sends =>
          have nothing : (conn.onConnWritable sends).1 = conn := by
            cases sends with
            | nil => rfl
            | cons result rest =>
                unfold onConnWritable
                rw [if_neg fun both => both.2 served.outbuf]
          simp only [nothing]
          exact induction served reading
      | error => exact absurd reading id

/-- A client that reads has got the replies to all its lines and is still connected,
exactly if the replies to the lines of each `recv` fit into the buffer. -/
theorem whole_replies_iff {events : List ConnEvent} (reading : Reading [] events) :
    ((({} : QueryConn).run events).opened = true ∧
      (({} : QueryConn).run events).sent = (runBatches [] events).flatten) ↔
    ∀ batch ∈ runBatches [] events, batch.length ≤ maxOutbuf := by
  have served : ({} : QueryConn).Served [] [] := ⟨rfl, rfl, rfl, rfl⟩
  obtain ⟨small, large⟩ := run_of_served served reading
  refine ⟨?_, small⟩
  rintro ⟨opened, -⟩ batch member
  by_contra beyond
  rw [large ⟨batch, member, Nat.lt_of_not_le beyond⟩] at opened
  exact absurd opened Bool.false_ne_true

end QueryConn

/-! ## A database that is too large for its clients -/

private theorem Tables.snap_text_length (tables : Tables) :
    585 * tables.books.size ≤ tables.snap.text.length := by
  have row (entry : RowKey × BookRow) :
      (base64Encode (encodeUpdate (tables.makeDumpUpdate entry.1 entry.2)) ++
        [newline]).length = 585 := by
    rw [List.length_append, base64Encode, Base64.encode_length, encodeUpdate, List.length_append,
      putHeader_length, UpdateRecord.put_length]
    rfl
  have rows : (tables.snap.rows.flatMap fun row => base64Encode row ++ [newline]).length =
      585 * tables.books.size := by
    rw [snap, List.flatMap_map, List.length_flatMap, ← Std.ExtTreeMap.length_toList]
    simp only [row, List.map_const', List.sum_replicate, smul_eq_mul, Nat.mul_comm]
  rw [SnapReply.text, List.length_append, rows]
  exact Nat.le_add_left _ _

private theorem Tables.respond_snap (tables : Tables) (rssKb : Nat) :
    tables.respond rssKb (label "SNAP") = tables.snap.text ++ label ".\n" := rfl

def numberedTicker (number : Nat) : CStr 4 :=
  CStr.copy 4 [digit (number / 1000), digit (number / 100 % 10), digit (number / 10 % 10),
    digit (number % 10)]

/-- One row for each of the first `size` tickers. -/
def numberedTables (size : Nat) : Tables :=
  (List.range size).foldl
    (fun tables number => tables.store { envelope := { ticker := numberedTicker number } }) {}

theorem numberedTicker_bytes {number : Nat} (small : number < 10000) :
    (numberedTicker number).bytes =
      [digit (number / 1000), digit (number / 100 % 10), digit (number / 10 % 10),
        digit (number % 10)] := by
  apply CStr.copy_bytes_of_fits (Nat.le_refl 4)
  have written {value : Nat} (isDigit : value < 10) : digit value ≠ 0 := by
    intro zero
    have same := digit_toNat isDigit
    rw [zero, UInt8.toNat_zero] at same
    omega
  simp only [List.mem_cons, List.not_mem_nil, or_false, not_or]
  exact ⟨(written (by omega)).symm, (written (by omega)).symm, (written (by omega)).symm,
    (written (by omega)).symm⟩

private theorem numberedTicker_inj {left right : Nat} (leftSmall : left < 10000)
    (rightSmall : right < 10000) (same : numberedTicker left = numberedTicker right) :
    left = right := by
  have bytes := congrArg CStr.bytes same
  rw [numberedTicker_bytes leftSmall, numberedTicker_bytes rightSmall] at bytes
  have values {a b : Nat} (first : a < 10) (second : b < 10) (equal : digit a = digit b) :
      a = b := by
    have codes := congrArg UInt8.toNat equal
    rw [digit_toNat first, digit_toNat second] at codes
    omega
  simp only [List.cons.injEq, and_true] at bytes
  have thousands := values (by omega) (by omega) bytes.1
  have hundreds := values (by omega) (by omega) bytes.2.1
  have tens := values (by omega) (by omega) bytes.2.2.1
  have ones := values (by omega) (by omega) bytes.2.2.2
  omega

theorem numberedTables_size {size : Nat} (small : size ≤ 10000) :
    (numberedTables size).books.size = size ∧
      ∀ (key : RowKey) (row : BookRow), (numberedTables size).books[key]? = some row →
        ∃ number < size, key.ticker = numberedTicker number := by
  induction size with
  | zero => exact ⟨rfl, fun key row stored => by simp [numberedTables] at stored⟩
  | succ size induction =>
      obtain ⟨count, tickers⟩ := induction (by omega)
      let last : UpdateRecord := { envelope := { ticker := numberedTicker size } }
      have next : (numberedTables (size + 1)).books =
          (numberedTables size).books.insert last.key (last.toRow
            (((numberedTables size).books[last.key]?.map BookRow.tape).getD [])) := by
        rw [numberedTables, List.range_succ, List.foldl_append]
        rfl
      have absent : (numberedTables size).books[last.key]? = none := by
        cases found : (numberedTables size).books[last.key]? with
        | none => rfl
        | some row =>
            obtain ⟨number, before, same⟩ := tickers last.key row found
            have := numberedTicker_inj (by omega) (by omega) same
            omega
      rw [next]
      constructor
      · rw [Std.ExtTreeMap.size_insert, if_neg, count]
        rw [Std.ExtTreeMap.contains_eq_isSome_getElem?, absent]
        exact Bool.false_ne_true
      · intro key row stored
        rw [OrderedMap.lookup_insert] at stored
        split at stored
        · next equal => exact ⟨size, Nat.lt_succ_self _, by rw [← equal]; rfl⟩
        · obtain ⟨number, before, same⟩ := tickers key row stored
          exact ⟨number, Nat.lt_succ_of_lt before, same⟩

namespace QueryConn

/-- A client that asks for a snapshot and whose socket takes whatever it is offered. -/
def snapQuery (tables : Tables) : List ConnEvent :=
  [.readable tables [.data (label "SNAP\n") fun _ => 0]
    (List.replicate (tables.snap.text.length + 2) (.took (tables.snap.text.length + 2)))]

theorem runBatches_snapQuery (tables : Tables) :
    runBatches [] (snapQuery tables) = [tables.snap.text ++ label ".\n"] := by
  change [(replies tables (fun _ => 0) (completeLines (label "SNAP\n")).1)] ++ [] = _
  have read : completeLines (label "SNAP\n") = ([label "SNAP"], []) := by decide +kernel
  rw [read]
  change [[tables.respond 0 (stripCr (label "SNAP"))].flatten] = _
  rw [List.flatten_singleton, show stripCr (label "SNAP") = label "SNAP" by decide +kernel,
    Tables.respond_snap]

theorem reading_snapQuery (tables : Tables) : Reading [] (snapQuery tables) := by
  refine ⟨?_, ⟨?_, ?_⟩, trivial⟩
  · intro recv member
    rw [List.mem_singleton.mp member]
    change label "SNAP\n" ≠ []
    decide +kernel
  · intro result member
    exact ⟨_, Nat.succ_pos _, List.eq_of_mem_replicate member⟩
  · have batch := runBatches_snapQuery tables
    rw [snapQuery, runBatches, runBatches, List.append_nil] at batch
    rw [batch, List.flatten_singleton, List.length_append, List.length_replicate]
    exact Nat.le_refl _

theorem whole_replies_threeBooks :
    Reading [] (snapQuery (numberedTables 3)) ∧ (numberedTables 3).books.size = 3 ∧
      (({} : QueryConn).run (snapQuery (numberedTables 3))).opened = true ∧
      (({} : QueryConn).run (snapQuery (numberedTables 3))).sent =
        (numberedTables 3).snap.text ++ label ".\n" := by
  have reading := reading_snapQuery (numberedTables 3)
  have whole := (whole_replies_iff reading).mpr (by
    rw [runBatches_snapQuery]
    decide +kernel)
  rw [runBatches_snapQuery] at whole
  exact ⟨reading, (numberedTables_size (by decide)).1, whole.1,
    whole.2.trans List.flatten_singleton⟩

/-- With 7170 books the reply to `SNAP` is larger than the limit, and the client that asked
for it is dropped. -/
theorem largeSnap_dropped :
    Reading [] (snapQuery (numberedTables 7170)) ∧
      (({} : QueryConn).run (snapQuery (numberedTables 7170))).opened = false := by
  refine ⟨reading_snapQuery _, ?_⟩
  have served : ({} : QueryConn).Served [] [] := ⟨rfl, rfl, rfl, rfl⟩
  apply (run_of_served served (reading_snapQuery _)).2
  refine ⟨_, by rw [runBatches_snapQuery]; exact List.mem_singleton_self _, ?_⟩
  have long := (numberedTables 7170).snap_text_length
  rw [(numberedTables_size (show 7170 ≤ 10000 by decide)).1] at long
  rw [List.length_append]
  unfold maxOutbuf
  omega

end QueryConn

end ProtoFH
