import ProtoFH.Foundation.Execution
import ProtoFH.Foundation.Text

/-! # One question to the database

`OrdersQuery` and `SnapshotQuery` are one round trip on the query port each: a command is
sent, the reply is gathered up to its lone dot and parsed, and `on_done` is called once. They
differ in the command and in what becomes of the reply or of an error. -/

namespace ProtoFH.Web

/-- `decode("ascii", "replace")` -/
def decodeReplace (raw : Bytes) : Text := raw.map fun byte => if byte < 128 then byte else 255

/-- What a call on the socket gives: a value, `BlockingIOError`, or another `OSError` with
its text. -/
inductive SocketResult (α : Type) where
  | done (value : α)
  | blocked
  | failed (error : Text)

/-- What the reactor calls a query for. `soError` is the text of the socket's pending error. -/
inductive QueryEvent where
  | writable (soError : Option Text) (sent : SocketResult Nat)
  | readable (data : SocketResult Bytes)
  | timeout

/-- What `on_done` is called with for an error and for a reply. The parser of the reply may
raise. -/
structure ReplyReader (δ ε : Type) where
  failed : Text → δ
  read : Text → Except ε δ

/-- A query, with the calls of `on_done` so far and the exception that has left a callback. -/
structure DbQuery (δ ε : Type) where
  recvBuf : Bytes := []
  sendBuf : Bytes
  connecting : Bool := true
  reading : Bool := false
  finished : Bool := false
  done : List δ := []
  raised : Option ε := none

namespace DbQuery

def Terminated (raw : Bytes) : Prop := label "\n.\n" <:+ raw ∨ raw = label ".\n"

instance (raw : Bytes) : Decidable (Terminated raw) := inferInstanceAs (Decidable (_ ∨ _))

variable {δ ε : Type}

/-- `_finish`, with what `on_done` is to be called with or the exception of the parser. -/
def finish (query : DbQuery δ ε) (outcome : Except ε δ) : DbQuery δ ε :=
  if query.finished then query
  else
    match outcome with
    | .ok result => { query with finished := true, done := query.done ++ [result] }
    | .error error => { query with finished := true, raised := some error }

theorem finished_finish (query : DbQuery δ ε) (outcome : Except ε δ) :
    (query.finish outcome).finished = true := by
  unfold finish
  split
  · assumption
  · split <;> rfl

section Callbacks

variable (reader : ReplyReader δ ε)

/-- `_finish(error=...)` -/
def finishError (query : DbQuery δ ε) (error : Text) : DbQuery δ ε :=
  query.finish (.ok (reader.failed error))

/-- `_on_writable` behind the check of the connection. -/
def send (query : DbQuery δ ε) (sent : SocketResult Nat) : DbQuery δ ε :=
  if query.sendBuf = [] then { query with reading := true }
  else
    match sent with
    | .blocked => query
    | .failed error => query.finishError reader error
    | .done count =>
        let sendBuf := query.sendBuf.drop count
        if sendBuf = [] then { query with sendBuf, reading := true } else { query with sendBuf }

def onWritable (query : DbQuery δ ε) (soError : Option Text) (sent : SocketResult Nat) :
    DbQuery δ ε :=
  if query.connecting then
    let connected := { query with connecting := false }
    match soError with
    | some error => connected.finishError reader error
    | none => connected.send reader sent
  else query.send reader sent

def onReadable (query : DbQuery δ ε) : SocketResult Bytes → DbQuery δ ε
  | .blocked => query
  | .failed error => query.finishError reader error
  | .done data =>
      if data = [] then
        query.finishError reader (label "jnxdb closed the connection before the terminator line")
      else
        let received := { query with recvBuf := query.recvBuf ++ data }
        if Terminated received.recvBuf then
          received.finish (reader.read (decodeReplace received.recvBuf))
        else received

def step (query : DbQuery δ ε) (event : QueryEvent) : DbQuery δ ε :=
  if query.finished then query
  else
    match event with
    | .writable soError sent =>
        if query.reading then query else query.onWritable reader soError sent
    | .readable data => if query.reading then query.onReadable reader data else query
    | .timeout => query.finishError reader (label "timed out contacting jnxdb")

/-- `__init__`; the connection may be refused at once. -/
def start (command : Bytes) (refused : Option Text) : DbQuery δ ε :=
  let query : DbQuery δ ε := { sendBuf := command }
  match refused with
  | some error => query.finishError reader error
  | none => query

end Callbacks

/-! ## One answer -/

/-- `on_done` is called once if the query is finished, and not before. -/
def AnswersOnce (query : DbQuery δ ε) : Prop :=
  query.raised = none ∧ query.done.length = if query.finished then 1 else 0

structure Waiting (query : DbQuery δ ε) : Prop where
  running : query.finished = false
  done : query.done = []
  raised : query.raised = none
  more : ¬ Terminated query.recvBuf

/-- Where a query can be: on its way, answered once, or stopped by a reply that it could
not read. -/
inductive Course (legible : Bytes → Prop) (query : DbQuery δ ε) : Prop where
  | waiting (waiting : query.Waiting)
  | answered (finished : query.finished = true) (done : query.done.length = 1)
      (raised : query.raised = none)
      (whole : Terminated query.recvBuf → legible query.recvBuf)
  | stopped (finished : query.finished = true) (raised : query.raised ≠ none)
      (whole : Terminated query.recvBuf) (illegible : ¬ legible query.recvBuf)

variable {legible : Bytes → Prop}

theorem Course.answersOnce_iff {query : DbQuery δ ε} (course : query.Course legible) :
    query.AnswersOnce ↔ (Terminated query.recvBuf → legible query.recvBuf) := by
  cases course with
  | waiting waiting =>
      refine iff_of_true ⟨waiting.raised, ?_⟩ fun whole => absurd whole waiting.more
      rw [waiting.done, waiting.running]
      rfl
  | answered finished done raised whole =>
      refine iff_of_true ⟨raised, ?_⟩ whole
      rw [done, finished]
      rfl
  | stopped finished raised whole illegible =>
      exact iff_of_false (fun once => raised once.1) fun reads => illegible (reads whole)

section Course

variable {reader : ReplyReader δ ε} {query : DbQuery δ ε}

theorem Waiting.finishError (waiting : query.Waiting) (error : Text) :
    (query.finishError reader error).Course legible := by
  rw [DbQuery.finishError, finish, waiting.running]
  refine .answered rfl ?_ waiting.raised fun whole => absurd whole waiting.more
  change (query.done ++ [_]).length = 1
  rw [waiting.done]
  rfl

theorem Waiting.send (waiting : query.Waiting) (sent : SocketResult Nat) :
    (query.send reader sent).Course legible := by
  have still : ∀ sendBuf reading, { query with sendBuf, reading }.Waiting := fun _ _ =>
    ⟨waiting.running, waiting.done, waiting.raised, waiting.more⟩
  unfold DbQuery.send
  split
  · exact .waiting (still query.sendBuf true)
  · cases sent with
    | blocked => exact .waiting waiting
    | failed error => exact waiting.finishError error
    | done count =>
        dsimp only
        split
        · exact .waiting (still (query.sendBuf.drop count) true)
        · exact .waiting (still (query.sendBuf.drop count) query.reading)

theorem Waiting.onWritable (waiting : query.Waiting) (soError : Option Text)
    (sent : SocketResult Nat) : (query.onWritable reader soError sent).Course legible := by
  have connected : { query with connecting := false }.Waiting :=
    ⟨waiting.running, waiting.done, waiting.raised, waiting.more⟩
  rw [DbQuery.onWritable]
  split
  · cases soError with
    | some error => exact connected.finishError error
    | none => exact connected.send sent
  · exact waiting.send sent

variable (reads : ∀ raw, (reader.read (decodeReplace raw)).isOk = true ↔ legible raw)
include reads

theorem Waiting.onReadable (waiting : query.Waiting) (data : SocketResult Bytes) :
    (query.onReadable reader data).Course legible := by
  cases data with
  | blocked => exact .waiting waiting
  | failed error => exact waiting.finishError error
  | done data =>
      have running : ¬ { query with recvBuf := query.recvBuf ++ data }.finished = true := by
        change ¬ query.finished = true
        rw [waiting.running]
        exact Bool.false_ne_true
      rw [DbQuery.onReadable]
      split
      · exact waiting.finishError _
      · dsimp only
        split
        · next whole =>
            have readable := reads (query.recvBuf ++ data)
            unfold finish
            rw [if_neg running]
            cases parsed : reader.read (decodeReplace (query.recvBuf ++ data)) with
            | error error =>
                rw [parsed] at readable
                refine .stopped rfl (Option.some_ne_none error) whole fun legible => ?_
                cases readable.mpr legible
            | ok result =>
                rw [parsed] at readable
                refine .answered rfl ?_ waiting.raised fun _ => readable.mp rfl
                change (query.done ++ [_]).length = 1
                rw [waiting.done]
                rfl
        · next unfinished =>
            exact .waiting ⟨waiting.running, waiting.done, waiting.raised, unfinished⟩

theorem Course.step (course : query.Course legible) (event : QueryEvent) :
    (query.step reader event).Course legible := by
  unfold DbQuery.step
  cases course with
  | answered finished done raised whole =>
      rw [if_pos finished]
      exact .answered finished done raised whole
  | stopped finished raised whole illegible =>
      rw [if_pos finished]
      exact .stopped finished raised whole illegible
  | waiting waiting =>
      rw [waiting.running, if_neg Bool.false_ne_true]
      cases event with
      | writable soError sent =>
          dsimp only
          split
          · exact .waiting waiting
          · exact waiting.onWritable soError sent
      | readable data =>
          dsimp only
          split
          · exact waiting.onReadable reads data
          · exact .waiting waiting
      | timeout => exact waiting.finishError _

theorem course_run (command : Bytes) (refused : Option Text) (events : List QueryEvent) :
    (events.foldl (DbQuery.step reader) (start reader command refused)).Course legible := by
  refine foldl_invariant (Course legible) (fun _ event _ course => course.step reads event) ?_
  have nothing : ¬ Terminated [] := by decide
  have waiting : Waiting ({ sendBuf := command } : DbQuery δ ε) := ⟨rfl, rfl, rfl, nothing⟩
  cases refused with
  | some error => exact waiting.finishError error
  | none => exact .waiting waiting

end Course

end DbQuery

end ProtoFH.Web
