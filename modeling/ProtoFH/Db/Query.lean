import ProtoFH.Db.Snapshot
import ProtoFH.Foundation.Base64
import ProtoFH.Foundation.Decimal
import ProtoFH.Foundation.Text

/-! # Queries

The text protocol of the database: one command per line, and every reply ends with a line
that holds a single dot. A connection has a buffer for what has arrived of the next line
and one for what its socket has not taken yet. -/

namespace ProtoFH

def newline : UInt8 := ascii '\n'

def base64Encode (data : Bytes) : Bytes := Base64.encode data

def priceStr (raw : UInt32) : Bytes :=
  if raw = 0x7FFFFFFF then label "-"
  else decimal (raw.toNat / 10) ++ label "." ++ decimal (raw.toNat % 10)

def charStr (c : UInt8) : Bytes := if c = 0 then label "-" else [c]

/-- `split_cmd`: the first word of a line and the rest, without what trails it. -/
def splitCmd (line : Bytes) : Bytes × Bytes :=
  if space ∈ line then
    (line.takeWhile (· ≠ space),
      ((line.dropWhile (· ≠ space)).drop 1).rdropWhile fun c => c = ascii '\r' ∨ c = space)
  else (line, [])

def field (name : String) (value : Bytes) : Bytes := label name ++ label "=" ++ value ++ [newline]

def flagStr (flags flag : UInt8) : Bytes := if flags &&& flag ≠ 0 then label "1" else label "0"

def rowKeyValues (key : RowKey) (row : BookRow) : Bytes :=
  field "ticker" key.ticker.bytes ++ field "group" key.group.bytes ++
    field "isin" row.static.isin.bytes ++
    field "round_lot" (decimal row.static.roundLot.toNat) ++
    field "tick_table_id" (decimal row.static.tickTableId.toNat) ++
    field "price_decimals" (decimal row.static.priceDecimals.toNat) ++
    field "upper_limit" (priceStr row.static.upperLimit) ++
    field "lower_limit" (priceStr row.static.lowerLimit) ++
    field "directory_seen" (flagStr row.static.flags flagDirectorySeen) ++
    field "order_collision_seen" (flagStr row.static.flags flagOrderCollisionSeen) ++
    field "trading_state" (charStr row.state.tradingState) ++
    field "short_sell_restriction" (charStr row.state.shortSellRestriction) ++
    field "reference_price" (priceStr row.state.referencePrice) ++
    field "last_system_event" (charStr row.state.lastSystemEvent) ++
    field "short_sell_price" (priceStr row.state.shortSellPrice) ++
    field "last_exch_seq" (decimal row.lastExchSeq.toNat) ++
    field "last_update_ns" (decimal row.lastUpdateNs.toNat) ++
    field "total_bid_qty" (decimal row.book.totalBidQty.toNat) ++
    field "total_ask_qty" (decimal row.book.totalAskQty.toNat) ++
    field "total_bid_orders" (decimal row.book.totalBidOrders.toNat) ++
    field "total_ask_orders" (decimal row.book.totalAskOrders.toNat) ++
    field "last_price" (priceStr row.trade.lastPrice) ++
    field "last_qty" (decimal row.trade.lastQty.toNat) ++
    field "last_match_number" (decimal row.trade.lastMatchNumber.toNat) ++
    field "last_trade_ns" (decimal row.trade.lastTradeNs.toNat) ++
    field "cum_qty" (decimal row.trade.cumQty.toNat) ++
    field "cum_turnover" (decimal row.trade.cumTurnover.toNat) ++
    field "trade_count" (decimal row.trade.tradeCount.toNat)

/-! ## Replies -/

def line (separator : String) (columns : List Bytes) : Bytes :=
  (label separator).intercalate columns ++ [newline]

/-- The line of one order in the reply to `ORDERS`. -/
def orderRow (order : OrderRecord) : Bytes :=
  line " "
    [decimal order.orderNumber.toNat, charStr order.side, priceStr order.price,
      decimal order.qtyRemaining.toNat,
      if order.orderType = ascii 'Q' then label "DLP" else label "-"]

def padRight (width : Nat) (text : Bytes) : Bytes :=
  text ++ List.replicate (width - text.length) space

/-- The three columns of one side of a book, empty beyond its levels. No row that was
decoded has more levels than slots. -/
def levelColumns (count : UInt8) (levels : Vector BookLevel bookDepth) (slot : Nat) :
    Bytes × Bytes × Bytes :=
  if slot < count.toNat then
    let level := levels.toList.getD slot {}
    (priceStr level.price, decimal level.qty.toNat, decimal level.orderCount.toNat)
  else ([], [], [])

def levelRow (book : BookSection) (slot : Nat) : Bytes :=
  let bid := levelColumns book.levelCountBid book.bids slot
  let ask := levelColumns book.levelCountAsk book.asks slot
  label "  " ++ padLeft 10 bid.2.2 ++ label " " ++ padLeft 10 bid.2.1 ++ label " " ++
    padLeft 10 bid.1 ++ label " | " ++ padRight 10 ask.1 ++ label " " ++ padLeft 10 ask.2.1 ++
    label " " ++ padLeft 10 ask.2.2 ++ [newline]

def keyRow (key : RowKey) : Bytes :=
  label "ticker=" ++ key.ticker.bytes ++ label " group=" ++ key.group.bytes ++ [newline]

def bookRows (key : RowKey) (row : BookRow) : Bytes :=
  let depth := max row.book.levelCountBid.toNat row.book.levelCountAsk.toNat
  keyRow key ++
    label "  bid_orders    bid_qty  bid_price | ask_price    ask_qty  ask_orders\n" ++
    (List.range depth).flatMap (levelRow row.book) ++
    label "  totals: bid_qty=" ++ decimal row.book.totalBidQty.toNat ++
    label " ask_qty=" ++ decimal row.book.totalAskQty.toNat ++
    label " bid_orders=" ++ decimal row.book.totalBidOrders.toNat ++
    label " ask_orders=" ++ decimal row.book.totalAskOrders.toNat ++ [newline]

def tapeRow (entry : TapeEntry) : Bytes :=
  label "  " ++ line " "
    [decimal entry.ns.toNat, priceStr entry.price, decimal entry.qty.toNat,
      decimal entry.matchNumber.toNat]

/-- The part of the reply to `TRADES` for one row. -/
def tradeRows (key : RowKey) (row : BookRow) : Bytes :=
  keyRow key ++
    label "last_price=" ++ priceStr row.trade.lastPrice ++
    label " last_qty=" ++ decimal row.trade.lastQty.toNat ++
    label " last_match_number=" ++ decimal row.trade.lastMatchNumber.toNat ++
    label " last_trade_ns=" ++ decimal row.trade.lastTradeNs.toNat ++ [newline] ++
    label "cum_qty=" ++ decimal row.trade.cumQty.toNat ++
    label " cum_turnover=" ++ decimal row.trade.cumTurnover.toNat ++
    label " trade_count=" ++ decimal row.trade.tradeCount.toNat ++ [newline] ++
    label "tape (newest first, up to " ++ decimal tapeCap ++ label "):\n" ++
    row.tape.reverse.flatMap tapeRow

def staticColumns (key : RowKey) (row : BookRow) : List Bytes :=
  [key.ticker.bytes, key.group.bytes, row.static.isin.bytes, decimal row.static.roundLot.toNat,
    decimal row.static.tickTableId.toNat, decimal row.static.priceDecimals.toNat,
    decimal row.static.upperLimit.toNat, decimal row.static.lowerLimit.toNat,
    flagStr row.static.flags flagDirectorySeen]

def stateColumns (key : RowKey) (row : BookRow) : List Bytes :=
  [key.ticker.bytes, key.group.bytes, charStr row.state.tradingState,
    charStr row.state.shortSellRestriction, decimal row.state.referencePrice.toNat,
    charStr row.state.lastSystemEvent, decimal row.state.shortSellPrice.toNat,
    decimal row.lastExchSeq.toNat, decimal row.lastUpdateNs.toNat]

def tradeColumns (key : RowKey) (row : BookRow) : List Bytes :=
  [key.ticker.bytes, key.group.bytes, decimal row.trade.lastPrice.toNat,
    decimal row.trade.lastQty.toNat, decimal row.trade.lastMatchNumber.toNat,
    decimal row.trade.lastTradeNs.toNat, decimal row.trade.cumQty.toNat,
    decimal row.trade.cumTurnover.toNat, decimal row.trade.tradeCount.toNat]

def errBadcmd : Bytes := label "ERR badcmd\n"

def errUnknown : Bytes := label "ERR unknown\n"

namespace SnapReply

def header (reply : SnapReply) : Bytes :=
  label "SNAP epoch=" ++ decimal reply.epoch.toNat ++
    label " last_exch_seq=" ++ decimal reply.lastExchSeq.toNat ++
    label " session=" ++ reply.session.bytes ++ label " count=" ++ decimal reply.count

/-- The reply to `SNAP`: its header and one line per row. -/
def text (reply : SnapReply) : Bytes :=
  reply.header ++ [newline] ++ reply.rows.flatMap fun row => base64Encode row ++ [newline]

end SnapReply

namespace Tables

def tickRowCount (tables : Tables) : Nat := (tables.ticks.toList.map fun table => table.2.size).sum

/-- The reply to `STATS`. The resident size comes from the system. -/
def statsText (tables : Tables) (rssKb : Nat) : Bytes :=
  field "session" tables.dbMeta.session.bytes ++
    field "epoch" (decimal tables.dbMeta.epoch.toNat) ++
    field "last_exch_seq" (decimal tables.dbMeta.lastExchSeq.toNat) ++
    field "updates_applied" (decimal tables.dbMeta.updatesApplied.toNat) ++
    field "dups_dropped" (decimal tables.dbMeta.dupsDropped.toNat) ++
    field "orders_applied" (decimal tables.dbMeta.ordersApplied.toNat) ++
    field "ticks_applied" (decimal tables.dbMeta.ticksApplied.toNat) ++
    field "syncs_completed" (decimal tables.dbMeta.syncsCompleted.toNat) ++
    field "syncs_discarded" (decimal tables.dbMeta.syncsDiscarded.toNat) ++
    field "orders_live" (decimal tables.orders.size) ++
    field "books" (decimal tables.books.size) ++
    field "ticks" (decimal tables.tickRowCount) ++
    field "rss_kb" (decimal rssKb)

/-- The reply to `ORDERS`, if the ticker has a row or an order. -/
def ordersText (tables : Tables) (ticker : Bytes) : Option Bytes :=
  let orders := tables.orders.values.filter fun order => order.ticker.bytes = ticker
  if (tables.books.toList.any fun entry => entry.1.ticker.bytes = ticker) ∨ orders ≠ [] then
    some (label "order_number side price qty_remaining type\n" ++ orders.flatMap orderRow)
  else none

def rowsText (tables : Tables) (ticker : Bytes) (part : RowKey → BookRow → Bytes) :
    Option Bytes :=
  let rows := tables.books.toList.filter fun entry => entry.1.ticker.bytes = ticker
  if rows ≠ [] then some (rows.flatMap fun entry => part entry.1 entry.2) else none

def tableText (tables : Tables) (names : String) (columns : RowKey → BookRow → List Bytes) :
    Bytes :=
  label names ++ [newline] ++
    tables.books.toList.flatMap fun entry => line "," (columns entry.1 entry.2)

def tickerReply (tables : Tables) (cmd arg : Bytes) : Option Bytes :=
  if cmd = label "ORDERS" then tables.ordersText arg
  else if cmd = label "GET" then tables.rowsText arg rowKeyValues
  else if cmd = label "BOOK" then tables.rowsText arg bookRows
  else tables.rowsText arg tradeRows

def reply (tables : Tables) (rssKb : Nat) (cmd arg : Bytes) : Bytes :=
  if cmd = label "PING" then label "PONG\n"
  else if cmd = label "STATS" then tables.statsText rssKb
  else if cmd = label "SNAP" then tables.snap.text
  else if cmd = label "GET" ∨ cmd = label "BOOK" ∨ cmd = label "ORDERS" ∨ cmd = label "TRADES" then
    if arg = [] then errBadcmd else (tables.tickerReply cmd arg).getD errUnknown
  else if cmd = label "TABLE" then
    if arg = label "static" then
      tables.tableText ("ticker,group,isin,round_lot,tick_table_id,price_decimals,upper_limit," ++
        "lower_limit,directory_seen") staticColumns
    else if arg = label "state" then
      tables.tableText ("ticker,group,trading_state,short_sell_restriction,reference_price," ++
        "last_system_event,short_sell_price,last_exch_seq,last_update_ns") stateColumns
    else if arg = label "trades" then
      tables.tableText ("ticker,group,last_price,last_qty,last_match_number,last_trade_ns," ++
        "cum_qty,cum_turnover,trade_count") tradeColumns
    else errBadcmd
  else errBadcmd

def respond (tables : Tables) (rssKb : Nat) (line : Bytes) : Bytes :=
  tables.reply rssKb (splitCmd line).1 (splitCmd line).2 ++ label ".\n"

end Tables

end ProtoFH
