import ProtoFH.Web.DbQuery
import ProtoFH.Web.State

/-! # The HTTP server of jnxweb

One request per connection: its bytes are gathered until the header is complete, and then
one answer is queued, the connection is upgraded to a WebSocket, or the database is asked
for the orders of a ticker. Texts are lists of character codes: Latin-1 where the source
decodes `iso-8859-1`, and with 255 in the place of the replacement character where it
decodes `ascii` with `replace`. Sockets can be created. -/

namespace ProtoFH.Web

/-! ## Texts -/

def isSpace (char : UInt8) : Bool :=
  (9 ≤ char && char ≤ 13) || (28 ≤ char && char ≤ 32) || char = 133 || char = 160

def strip (text : Text) : Text := (text.dropWhile isSpace).rdropWhile isSpace

def lowerChar (char : UInt8) : UInt8 :=
  if (65 ≤ char ∧ char ≤ 90) ∨ (192 ≤ char ∧ char ≤ 222 ∧ char ≠ 215) then char + 32 else char

def lower (text : Text) : Text := text.map lowerChar

/-- `split(b"\r\n")` -/
def splitCrlf : Bytes → List Bytes
  | [] => [[]]
  | 13 :: 10 :: rest => [] :: splitCrlf rest
  | byte :: rest =>
      match splitCrlf rest with
      | [] => [[byte]]
      | line :: lines => (byte :: line) :: lines

def splitLines : Text → List Text
  | [] => []
  | 13 :: 10 :: rest => [] :: splitLines rest
  | char :: rest =>
      if (10 ≤ char ∧ char ≤ 13) ∨ (28 ≤ char ∧ char ≤ 30) then [] :: splitLines rest
      else
        match splitLines rest with
        | [] => [[char]]
        | line :: lines => (char :: line) :: lines

/-- `str.split()` -/
def words (text : Text) : List Text := (text.splitOnP isSpace).filter fun word => word ≠ []

/-- The digits of `int`, which may be grouped by single underscores. -/
def intDigits : Text → (afterDigit : Bool) → Nat → Option Nat
  | [], afterDigit, value => if afterDigit then some value else none
  | char :: rest, afterDigit, value =>
      if 48 ≤ char ∧ char ≤ 57 then intDigits rest true (10 * value + (char.toNat - 48))
      else if char = ascii '_' ∧ afterDigit then intDigits rest false value
      else none

def parseInt : Text → Option Int
  | [] => none
  | char :: rest =>
      if char = ascii '+' then (intDigits rest false 0).map Int.ofNat
      else if char = ascii '-' then (intDigits rest false 0).map fun value => -Int.ofNat value
      else (intDigits (char :: rest) false 0).map Int.ofNat

/-! ## Answers -/

structure OrderRow where
  orderNumber : Text
  side : Text
  price : Text
  qtyRemaining : Int
  orderType : Text
deriving DecidableEq

inductive Body where
  | page
  | error (text : Text)
  | tickers (tickers : List Text)
  | snapshot (rec : Update) (trades : List RingTrade)
  | stats (state : State)
  | orders (ticker : Text) (rows : List OrderRow)

structure Response where
  status : Nat
  reason : Text
  body : Body

def reasonOf (status : Nat) : Text :=
  if status = 101 then label "Switching Protocols"
  else if status = 400 then label "Bad Request"
  else if status = 404 then label "Not Found"
  else if status = 405 then label "Method Not Allowed"
  else label "OK"

inductive Action where
  | respond (response : Response)
  | upgrade (key : Text)
  | query (ticker : Text)

inductive HttpError where
  | noAttribute (name : String)
  | unicodeEncode (text : Text)
deriving DecidableEq

def respond (status : Nat) (body : Body) : Action :=
  .respond { status, reason := reasonOf status, body }

def respondError (status : Nat) (error : String) : Action :=
  respond status (.error (label error))

/-- A call of `self._respond_json`, which `HttpConnection` does not have. -/
def callRespondJson (_status : Nat) (_error : String) : Except HttpError Action :=
  .error (.noAttribute "_respond_json")

/-! ## Routes -/

/-- `HttpServer`; `dbQuery` says whether the address of the database was given. -/
structure HttpServer where
  state : State := {}
  dbQuery : Bool := true

namespace State

def tickerList (state : State) : List Text := state.tickers.keys.mergeSort fun a b => decide (a ≤ b)

end State

namespace HttpServer

/-- `OrdersQuery.__init__`, up to the connection: the command must be ASCII. -/
def startQuery (ticker : Text) : Except HttpError Action :=
  let command := label "ORDERS " ++ ticker ++ [ascii '\n']
  if IsAscii command then .ok (.query ticker) else .error (.unicodeEncode command)

def handleOrders (server : HttpServer) (ticker : Text) : Except HttpError Action :=
  if server.dbQuery then startQuery ticker
  else .ok (respondError 503 "db query not configured")

/-- `upgrade_to_websocket`; the key is encoded by `compute_accept_key`. -/
def upgradeToWebsocket (key : Text) : Except HttpError Action :=
  if IsAscii key then .ok (.upgrade key) else .error (.unicodeEncode key)

def websocket : Text := label "websocket"

def upgradeHeader : Text := label "upgrade"

def keyHeader : Text := label "sec-" ++ websocket ++ label "-key"

def versionHeader : Text :=
  label "sec-" ++ websocket ++ label "-version"

def upgradeKey (headers : Dict Text Text) : Option Text :=
  if lower ((headers.find? upgradeHeader).getD []) = websocket ∧
      headers.find? versionHeader = some (label "13") then
    (headers.find? keyHeader).filter fun key => key ≠ []
  else none

def handleWsUpgrade (headers : Dict Text Text) : Except HttpError Action :=
  match upgradeKey headers with
  | none => .ok (respondError 400 "bad websocket upgrade")
  | some key => upgradeToWebsocket key

def snapPath : Text := label "/snap/"

def ordersPath : Text := label "/orders/"

def wsPath : Text := label "/ws"

def route (server : HttpServer) (path : Text) (headers : Dict Text Text) :
    Except HttpError Action :=
  if path = label "/" then .ok (respond 200 .page)
  else if path = label "/tickers" then
    .ok (respond 200 (.tickers server.state.tickerList))
  else if snapPath.isPrefixOf path then
    match server.state.snapshot (path.drop snapPath.length) with
    | none => .ok (respondError 404 "unknown")
    | some (rec, trades) => .ok (respond 200 (.snapshot rec trades))
  else if ordersPath.isPrefixOf path then server.handleOrders (path.drop ordersPath.length)
  else if path = label "/stats" then
    .ok (respond 200 (.stats server.state))
  else if path = wsPath then handleWsUpgrade headers
  else .ok (respondError 404 "not found")

end HttpServer

/-! ## Connections -/

def maxRequestHeaderBytes : Nat := 16384

/-- `find(b"\r\n\r\n")` -/
def headerEnd : Bytes → Option Nat
  | [] => none
  | byte :: rest =>
      if [13, 10, 13, 10].isPrefixOf (byte :: rest) then some 0
      else (headerEnd rest).map (· + 1)

/-- The method and the path of a request line with three parts, the last of which starts
with `HTTP/`. -/
def requestLine (header : Bytes) : Option (Text × Text) :=
  match ((splitCrlf header).headD []).splitOn (ascii ' ') with
  | [method, path, version] =>
      if (label "HTTP/").isPrefixOf version then some (method, path) else none
  | _ => none

def parseHeaders (lines : List Bytes) : Dict Text Text :=
  lines.foldl
    (fun headers line =>
      if ascii ':' ∈ line then
        let key := line.takeWhile (· ≠ ascii ':')
        let value := (line.dropWhile (· ≠ ascii ':')).drop 1
        headers.set (lower (strip (decodeReplace key))) (strip value)
      else headers)
    ∅

def methodGet : Text := label "GET"

def HttpServer.handleRequest (server : HttpServer) (header : Bytes) : Except HttpError Action :=
  match requestLine header with
  | none => callRespondJson 400 "bad request"
  | some (method, path) =>
      if method ≠ methodGet then callRespondJson 405 "method not allowed"
      else server.route path (parseHeaders (splitCrlf header).tail)

/-- `HttpConnection` up to its answer. `reading` says that `_on_readable` is registered. -/
structure HttpConnection where
  recvBuf : Bytes := []
  reading : Bool := true
  actions : List Action := []
  raised : Option HttpError := none

namespace HttpConnection

def act (conn : HttpConnection) : Except HttpError Action → HttpConnection
  | .ok action => { conn with actions := conn.actions ++ [action] }
  | .error error => { conn with raised := some error }

/-- `_on_readable`, with the bytes that `recv` returns; none at the end of the stream. -/
def onReadable (server : HttpServer) (conn : HttpConnection) (data : Bytes) : HttpConnection :=
  if conn.reading = false then conn
  else if data = [] then { conn with reading := false }
  else
    let recvBuf := conn.recvBuf ++ data
    if recvBuf.length > maxRequestHeaderBytes then
      { conn with recvBuf, reading := false }.act (callRespondJson 400 "request too large")
    else
      match headerEnd recvBuf with
      | none => { conn with recvBuf }
      | some idx =>
          { conn with recvBuf, reading := false }.act (server.handleRequest (recvBuf.take idx))

def receive (server : HttpServer) (chunks : List Bytes) : HttpConnection :=
  chunks.foldl (onReadable server) {}

end HttpConnection

/-! ## Asking the database -/

inductive OrdersReply where
  | orders (rows : List OrderRow)
  | error (text : Text)

def replyLines (text : Text) : List Text :=
  let all := splitLines text
  if all.getLast? = some (label ".") then all.dropLast else all

/-- The loop over the rows of a reply; `int` raises on the text that is returned. -/
def parseRows : List Text → Except Text (List OrderRow)
  | [] => .ok []
  | line :: lines =>
      match words line with
      | [orderNumber, side, price, qtyRemaining, orderType] =>
          match parseInt qtyRemaining with
          | none => .error qtyRemaining
          | some qty => do
              let rows ← parseRows lines
              return { orderNumber, side, price, qtyRemaining := qty, orderType } :: rows
      | _ => parseRows lines

def parseOrdersReply (text : Text) : Except Text OrdersReply :=
  match replyLines text with
  | [] => .ok (.error (label "empty reply from jnxdb"))
  | header :: rows =>
      if (label "ERR").isPrefixOf header then
        .ok (.error (label "unknown"))
      else do
        let rows ← parseRows rows
        return .orders rows

def onDone (ticker : Text) : OrdersReply → Action
  | .orders rows => respond 200 (.orders ticker rows)
  | .error error =>
      if error = label "unknown" then respondError 404 "unknown"
      else respond 502 (.error error)

/-- What `OrdersQuery` does with a reply. An exception is the text that `int` has rejected. -/
def ordersReader (ticker : Text) : ReplyReader Action Text where
  failed error := onDone ticker (.error error)
  read text := (parseOrdersReply text).map (onDone ticker)

/-- `OrdersQuery`, with the responses that it has queued on its connection. -/
abbrev OrdersQuery := DbQuery Action Text

namespace OrdersQuery

def step (ticker : Text) (query : OrdersQuery) (event : QueryEvent) : OrdersQuery :=
  DbQuery.step (ordersReader ticker) query event

def start (ticker : Text) (refused : Option Text) : OrdersQuery :=
  DbQuery.start (ordersReader ticker) (label "ORDERS " ++ ticker ++ [ascii '\n']) refused

def run (ticker : Text) (refused : Option Text) (events : List QueryEvent) : OrdersQuery :=
  events.foldl (step ticker) (start ticker refused)

end OrdersQuery

end ProtoFH.Web
