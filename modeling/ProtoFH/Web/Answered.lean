import ProtoFH.Foundation.Execution
import ProtoFH.Web.Http

/-! # Answers to requests

Which requests are answered as promised. Every answer that the connection itself gives
goes through a method that does not exist, so a request must get as far as the router, and
what is sent on from there must be ASCII. -/

namespace ProtoFH.Web

def Complete (buf : Bytes) : Prop :=
  maxRequestHeaderBytes < buf.length ∨ (headerEnd buf).isSome

instance (buf : Bytes) : Decidable (Complete buf) := inferInstanceAs (Decidable (_ ∨ _))

/-- The bytes that have arrived once the request is complete, or up to the end of the
stream. -/
def gathered : Bytes → List Bytes → Bytes
  | buf, [] => buf
  | buf, chunk :: chunks =>
      if Complete buf ∨ chunk = [] then buf else gathered (buf ++ chunk) chunks

def Action.HasStatus (action : Action) (status : Nat) : Prop :=
  ∃ response, action = .respond response ∧ response.status = status

def headerOf (buf : Bytes) : Bytes := buf.take ((headerEnd buf).getD 0)

def headersOf (buf : Bytes) : Dict Text Text := parseHeaders (splitCrlf (headerOf buf)).tail

def Promised (server : HttpServer) (buf : Bytes) (action : Action) : Prop :=
  if maxRequestHeaderBytes < buf.length then action.HasStatus 400
  else
    match requestLine (headerOf buf) with
    | none => action.HasStatus 400
    | some (method, path) =>
        if method ≠ methodGet then action.HasStatus 405
        else server.route path (headersOf buf) = .ok action

/-- The request is answered: nothing happens until it is complete, then exactly one thing
without an exception, and if that is a query, it answers once. -/
structure Answered (server : HttpServer) (chunks : List Bytes) (refused : Option Text)
    (events : List QueryEvent) : Prop where
  calm : (HttpConnection.receive server chunks).raised = none
  waits : ¬ Complete (gathered [] chunks) → (HttpConnection.receive server chunks).actions = []
  acts : Complete (gathered [] chunks) →
    ∃ action, (HttpConnection.receive server chunks).actions = [action] ∧
      Promised server (gathered [] chunks) action
  completes : ∀ ticker, .query ticker ∈ (HttpConnection.receive server chunks).actions →
    (OrdersQuery.run ticker refused events).AnswersOnce

/-! ## The connection -/

def answer (server : HttpServer) (buf : Bytes) : Except HttpError Action :=
  if maxRequestHeaderBytes < buf.length then callRespondJson 400 "request too large"
  else server.handleRequest (headerOf buf)

theorem receive_stopped (server : HttpServer) {conn : HttpConnection}
    (stopped : conn.reading = false) (chunks : List Bytes) :
    chunks.foldl (HttpConnection.onReadable server) conn = conn :=
  foldl_invariant (fun state => state = conn)
    (fun state chunk _ same => by rw [same, HttpConnection.onReadable, if_pos stopped]) rfl

theorem onReadable_eq (server : HttpServer) (buf : Bytes) {chunk : Bytes} (more : chunk ≠ []) :
    HttpConnection.onReadable server { recvBuf := buf } chunk =
      if Complete (buf ++ chunk) then
        { recvBuf := buf ++ chunk, reading := false : HttpConnection }.act
          (answer server (buf ++ chunk))
      else { recvBuf := buf ++ chunk } := by
  rw [HttpConnection.onReadable, if_neg (by simp), if_neg more, answer]
  by_cases large : maxRequestHeaderBytes < (buf ++ chunk).length
  · have complete : Complete (buf ++ chunk) := .inl large
    rw [if_pos large, if_pos complete, if_pos large]
  · rw [if_neg large, if_neg large]
    dsimp only
    cases found : headerEnd (buf ++ chunk) with
    | none =>
        have waiting : ¬ Complete (buf ++ chunk) := by
          rintro (isLarge | ended)
          · exact large isLarge
          · rw [found] at ended
            cases ended
        rw [if_neg waiting]
    | some idx =>
        have complete : Complete (buf ++ chunk) := .inr (by rw [found]; rfl)
        rw [if_pos complete, headerOf, found]
        rfl

private theorem act_reading (conn : HttpConnection) (answer : Except HttpError Action) :
    (conn.act answer).reading = conn.reading := by
  cases answer <;> rfl

variable {buf : Bytes}

private theorem gathered_complete (complete : Complete buf) (chunks : List Bytes) :
    gathered buf chunks = buf := by
  cases chunks with
  | nil => rfl
  | cons chunk chunks => exact if_pos (.inl complete)

theorem receive_from (server : HttpServer) (waiting : ¬ Complete buf) (chunks : List Bytes) :
    let conn := chunks.foldl (HttpConnection.onReadable server) { recvBuf := buf }
    if Complete (gathered buf chunks) then
      conn = { recvBuf := gathered buf chunks, reading := false : HttpConnection }.act
        (answer server (gathered buf chunks))
    else conn.actions = [] ∧ conn.raised = none := by
  induction chunks generalizing buf with
  | nil =>
      dsimp only
      rw [gathered, if_neg waiting]
      exact ⟨rfl, rfl⟩
  | cons chunk chunks induction =>
      dsimp only
      rw [List.foldl_cons]
      by_cases ended : chunk = []
      · -- The stream ends before the request is complete.
        have same : gathered buf (chunk :: chunks) = buf := if_pos (.inr ended)
        rw [same, if_neg waiting, ended, receive_stopped server rfl chunks]
        exact ⟨rfl, rfl⟩
      · have next : gathered buf (chunk :: chunks) = gathered (buf ++ chunk) chunks :=
          if_neg (not_or.mpr ⟨waiting, ended⟩)
        rw [next, onReadable_eq server buf ended]
        by_cases complete : Complete (buf ++ chunk)
        · rw [if_pos complete, gathered_complete complete, if_pos complete,
            receive_stopped server (act_reading _ _) chunks]
        · rw [if_neg complete]
          exact induction complete

private theorem not_complete_nil : ¬ Complete [] := by decide

/-! ## The router -/

structure Routable (server : HttpServer) (path : Text) (headers : Dict Text Text) : Prop where
  orders : HttpServer.ordersPath.isPrefixOf path → server.dbQuery →
    IsAscii (path.drop HttpServer.ordersPath.length)
  upgrade : path = HttpServer.wsPath → ∀ key, HttpServer.upgradeKey headers = some key → IsAscii key

private theorem isOk_startQuery (ticker : Text) :
    (HttpServer.startQuery ticker).isOk = true ↔ IsAscii ticker := by
  have command : IsAscii (label "ORDERS " ++ ticker ++ [ascii '\n']) ↔
      IsAscii ticker := by
    rw [IsAscii, List.forall_mem_append, List.forall_mem_append]
    exact ⟨fun all => all.1.2, fun all => ⟨⟨by decide +kernel, all⟩, by decide +kernel⟩⟩
  rw [← command, HttpServer.startQuery]
  split
  · next isAscii => exact iff_of_true rfl isAscii
  · next other => exact iff_of_false nofun other

private theorem isOk_upgradeToWebsocket (key : Text) :
    (HttpServer.upgradeToWebsocket key).isOk = true ↔ IsAscii key := by
  rw [HttpServer.upgradeToWebsocket]
  split
  · next isAscii => exact iff_of_true rfl isAscii
  · next other => exact iff_of_false nofun other

variable {server : HttpServer}

theorem Routable.of_other {path : Text} {headers : Dict Text Text}
    (notOrders : ¬ HttpServer.ordersPath.isPrefixOf path) (notWs : path ≠ HttpServer.wsPath) :
    Routable server path headers :=
  ⟨fun isOrders => absurd isOrders notOrders, fun isWs => absurd isWs notWs⟩

theorem isOk_route (server : HttpServer) (path : Text) (headers : Dict Text Text) :
    (server.route path headers).isOk = true ↔ Routable server path headers := by
  rw [HttpServer.route]
  split
  · next isRoot =>
      rw [isRoot]
      exact iff_of_true rfl (.of_other (by decide) (by decide))
  · split
    · next isTickers =>
        rw [isTickers]
        exact iff_of_true rfl (.of_other (by decide) (by decide))
    · split
      · next isSnap =>
          obtain ⟨ticker, rfl⟩ := List.isPrefixOf_iff_prefix.mp isSnap
          refine iff_of_true ?_ (.of_other Bool.false_ne_true nofun)
          split <;> rfl
      · split
        · next isOrders =>
            have notWs : path ≠ HttpServer.wsPath := by
              obtain ⟨ticker, rfl⟩ := List.isPrefixOf_iff_prefix.mp isOrders
              exact nofun
            rw [HttpServer.handleOrders]
            split
            · next isConfigured =>
                rw [isOk_startQuery]
                exact ⟨fun isAscii => ⟨fun _ _ => isAscii, fun isWs => absurd isWs notWs⟩,
                  fun routable => routable.orders isOrders isConfigured⟩
            · next other =>
                exact iff_of_true rfl
                  ⟨fun _ isConfigured => absurd isConfigured other, fun isWs => absurd isWs notWs⟩
        · next notOrders =>
            split
            · next isStats =>
                rw [isStats]
                exact iff_of_true rfl (.of_other (by decide) (by decide))
            · split
              · next isWs =>
                  rw [HttpServer.handleWsUpgrade]
                  cases found : HttpServer.upgradeKey headers with
                  | none =>
                      refine iff_of_true rfl ⟨fun isOrders => absurd isOrders notOrders, ?_⟩
                      intro _ key isKey
                      rw [found] at isKey
                      cases isKey
                  | some key =>
                      dsimp only
                      rw [isOk_upgradeToWebsocket]
                      constructor
                      · intro isAscii
                        refine ⟨fun isOrders => absurd isOrders notOrders, fun _ other isKey => ?_⟩
                        rw [found] at isKey
                        cases isKey
                        exact isAscii
                      · exact fun routable => routable.upgrade isWs key found
              · next notWs => exact iff_of_true rfl (.of_other notOrders notWs)

/-! ## The query -/

namespace OrdersQuery

/-- `int` accepts the quantity of a line, if it has one. -/
def LegibleRow (line : Text) : Prop :=
  ∀ orderNumber side price qtyRemaining orderType,
    words line = [orderNumber, side, price, qtyRemaining, orderType] →
      (parseInt qtyRemaining).isSome

def Legible (raw : Bytes) : Prop :=
  ∀ header rows, replyLines (decodeReplace raw) = header :: rows →
    ¬ (label "ERR").isPrefixOf header → ∀ line ∈ rows, LegibleRow line

private theorem isOk_parseRows (lines : List Text) :
    (parseRows lines).isOk = true ↔ ∀ line ∈ lines, LegibleRow line := by
  induction lines with
  | nil => exact iff_of_true rfl fun _ member => by cases member
  | cons line lines induction =>
      rw [List.forall_mem_cons, ← induction, parseRows]
      split
      · next orderNumber side price qtyRemaining orderType split =>
          cases parsed : parseInt qtyRemaining with
          | none =>
              refine iff_of_false Bool.false_ne_true fun legible => ?_
              have isInt := legible.1 _ _ _ _ _ split
              rw [parsed] at isInt
              cases isInt
          | some qty =>
              have legible : LegibleRow line := by
                intro _ _ _ _ _ same
                rw [split] at same
                cases same
                rw [parsed]
                rfl
              rw [and_iff_right legible]
              cases parseRows lines <;> rfl
      · next other =>
          have legible : LegibleRow line := fun _ _ _ _ _ same => absurd same (other _ _ _ _ _)
          rw [and_iff_right legible]

private theorem isOk_read_iff (ticker : Text) (raw : Bytes) :
    ((ordersReader ticker).read (decodeReplace raw)).isOk = true ↔ Legible raw := by
  have mapped : ((ordersReader ticker).read (decodeReplace raw)).isOk =
      (parseOrdersReply (decodeReplace raw)).isOk := by
    change ((parseOrdersReply (decodeReplace raw)).map (onDone ticker)).isOk = _
    cases parseOrdersReply (decodeReplace raw) <;> rfl
  rw [mapped, parseOrdersReply, Legible]
  cases lines : replyLines (decodeReplace raw) with
  | nil => exact iff_of_true rfl fun _ _ same => by cases same
  | cons header rows =>
      dsimp only
      split
      · next isError =>
          refine iff_of_true rfl fun _ _ same notError => ?_
          cases same
          exact absurd isError notError
      · next notError =>
          have read : (do let rows ← parseRows rows; return OrdersReply.orders rows).isOk =
              (parseRows rows).isOk := by
            cases parseRows rows <;> rfl
          rw [read, isOk_parseRows]
          constructor
          · rintro legible _ _ same -
            cases same
            exact legible
          · exact fun legible => legible header rows rfl notError

theorem answersOnce_iff (ticker : Text) (refused : Option Text) (events : List QueryEvent) :
    (run ticker refused events).AnswersOnce ↔
      (DbQuery.Terminated (run ticker refused events).recvBuf →
        Legible (run ticker refused events).recvBuf) :=
  (DbQuery.course_run (isOk_read_iff ticker) _ refused events).answersOnce_iff

end OrdersQuery

/-! ## Requests -/

/-- A complete request that is answered: not too long, a `GET` with a well-formed request
line, and a path that the router can answer, with a legible reply if the database is
asked. -/
def Servable (server : HttpServer) (buf : Bytes) (refused : Option Text)
    (events : List QueryEvent) : Prop :=
  buf.length ≤ maxRequestHeaderBytes ∧
    ∃ path, requestLine (headerOf buf) = some (methodGet, path) ∧
      Routable server path (headersOf buf) ∧
      ∀ ticker, server.route path (headersOf buf) = .ok (.query ticker) →
        DbQuery.Terminated (OrdersQuery.run ticker refused events).recvBuf →
          OrdersQuery.Legible (OrdersQuery.run ticker refused events).recvBuf

variable {action : Action}

private theorem handleRequest_eq_ok_iff {header : Bytes} :
    server.handleRequest header = .ok action ↔
      ∃ path, requestLine header = some (methodGet, path) ∧
        server.route path (parseHeaders (splitCrlf header).tail) = .ok action := by
  rw [HttpServer.handleRequest]
  cases line : requestLine header with
  | none => exact iff_of_false nofun fun ⟨path, found, _⟩ => nomatch found
  | some request =>
      obtain ⟨method, path⟩ := request
      dsimp only
      by_cases isGet : method = methodGet
      · rw [if_neg (not_not.mpr isGet), isGet]
        constructor
        · exact fun routed => ⟨path, rfl, routed⟩
        · rintro ⟨other, found, routed⟩
          cases found
          exact routed
      · rw [if_pos isGet]
        refine iff_of_false nofun ?_
        rintro ⟨other, found, -⟩
        cases found
        exact isGet rfl

theorem answer_eq_ok_iff :
    answer server buf = .ok action ↔
      buf.length ≤ maxRequestHeaderBytes ∧
        ∃ path, requestLine (headerOf buf) = some (methodGet, path) ∧
          server.route path (headersOf buf) = .ok action := by
  rw [answer]
  by_cases large : maxRequestHeaderBytes < buf.length
  · rw [if_pos large]
    exact iff_of_false nofun fun served => absurd served.1 (Nat.not_le.mpr large)
  · rw [if_neg large, and_iff_right (Nat.not_lt.mp large)]
    exact handleRequest_eq_ok_iff

private theorem promised_of_answer (answered : answer server buf = .ok action) :
    Promised server buf action := by
  obtain ⟨small, path, line, routed⟩ := answer_eq_ok_iff.mp answered
  rw [Promised, if_neg (Nat.not_lt.mpr small), line]
  exact (if_neg (not_not.mpr rfl)).mpr routed

/-- For every stream and chunking: the request is answered exactly if, once complete, it
is servable. -/
theorem answered_iff (server : HttpServer) (chunks : List Bytes) (refused : Option Text)
    (events : List QueryEvent) :
    Answered server chunks refused events ↔
      (Complete (gathered [] chunks) → Servable server (gathered [] chunks) refused events) := by
  have received := receive_from server not_complete_nil chunks
  let buf := gathered [] chunks
  by_cases complete : Complete buf
  swap
  · -- Nothing has happened yet.
    obtain ⟨actions, raised⟩ := (if_neg complete).mp received
    refine iff_of_true ⟨raised, fun _ => actions, fun isComplete => absurd isComplete complete, ?_⟩
      fun isComplete => absurd isComplete complete
    intro ticker member
    rw [HttpConnection.receive, actions] at member
    cases member
  · have conn : HttpConnection.receive server chunks =
        { recvBuf := buf, reading := false : HttpConnection }.act (answer server buf) :=
      (if_pos complete).mp received
    constructor
    · intro answered _
      obtain ⟨action, actions, -⟩ := answered.acts complete
      cases result : answer server buf with
      | error error =>
          rw [conn, result] at actions
          cases actions
      | ok taken =>
          obtain ⟨small, path, line, routed⟩ := answer_eq_ok_iff.mp result
          refine ⟨small, path, line, (isOk_route ..).mp (by rw [routed]; rfl), ?_⟩
          intro ticker isQuery
          have member : .query ticker ∈ (HttpConnection.receive server chunks).actions := by
            rw [conn, result, ← Except.ok.inj (isQuery.symm.trans routed)]
            exact List.mem_cons_self
          exact (OrdersQuery.answersOnce_iff ..).mp (answered.completes ticker member)
    · intro servable
      obtain ⟨small, path, line, routable, legible⟩ := servable complete
      have works := (isOk_route ..).mpr routable
      cases routed : server.route path (headersOf buf) with
      | error error =>
          rw [routed] at works
          cases works
      | ok action =>
          have result : answer server buf = .ok action :=
            answer_eq_ok_iff.mpr ⟨small, path, line, routed⟩
          rw [result] at conn
          have actions : (HttpConnection.receive server chunks).actions = [action] := by
            rw [conn]
            rfl
          refine ⟨by rw [conn]; rfl, fun waiting => absurd complete waiting, fun _ => ?_, ?_⟩
          · exact ⟨action, actions, promised_of_answer result⟩
          · intro ticker member
            rw [actions, List.mem_singleton] at member
            refine (OrdersQuery.answersOnce_iff ..).mpr (legible ticker ?_)
            rw [member]
            exact routed

def postRequest : Bytes :=
  label "POST / HTTP/1.1\r\n\r\n"

/-- Instead of the 405, `_on_readable` raises an `AttributeError`. -/
theorem post_raises :
    (HttpConnection.receive {} [postRequest]).raised = some (.noAttribute "_respond_json") ∧
      ¬ Answered {} [postRequest] none [] := by
  have raised : (HttpConnection.receive {} [postRequest]).raised =
      some (.noAttribute "_respond_json") := by
    decide +kernel
  refine ⟨raised, fun answered => ?_⟩
  have calm := answered.calm
  rw [raised] at calm
  cases calm

end ProtoFH.Web
