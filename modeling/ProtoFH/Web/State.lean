import ProtoFH.Foundation.Dictionary
import ProtoFH.Web.Records

/-! # The web client's state

The latest update of every ticker and the ring of its last trades, fed by multicast
updates and by snapshots of the database. -/

namespace ProtoFH.Web

def tradeRingSize : Nat := 50

structure RingTrade where
  exchSeq : Nat
  exchNs : Nat
  price : Nat
  qty : Nat
deriving DecidableEq

/-- A call of `on_ticker_update` or of `on_restart`. -/
inductive Notice where
  | tickerUpdate (ticker : Text)
  | restart (epoch : Nat)
deriving DecidableEq

/-- `State`, with the callbacks it made. The wall-clock times are left out. -/
structure State where
  tickers : Dict Text Update := ∅
  trades : Dict Text (List RingTrade) := ∅
  updates : Nat := 0
  bad : Nat := 0
  gaps : Nat := 0
  restarts : Nat := 0
  snapshots : Nat := 0
  snapshotRows : Nat := 0
  lastEpoch : Option Nat := none
  expectedPubSeq : Option Nat := none
  notices : List Notice := []

def Update.ringTrade (rec : Update) : RingTrade where
  exchSeq := rec.envelope.exchSeq
  exchNs := rec.envelope.exchNs
  price := rec.trade.lastPrice
  qty := rec.trade.lastQty

/-- `append` on a `deque(maxlen=TRADE_RING_SIZE)` -/
def pushRing (ring : List RingTrade) (trade : RingTrade) : List RingTrade :=
  (ring ++ [trade]).drop (ring.length + 1 - tradeRingSize)

namespace State

def recordBad (state : State) : State := { state with bad := state.bad + 1 }

def clearAll (state : State) : State := { state with tickers := ∅, trades := ∅ }

def notify (state : State) (notice : Notice) : State :=
  { state with notices := state.notices ++ [notice] }

/-- `_clear_all` and the announcement of a new incarnation of the feed. -/
def restart (state : State) (epoch : Nat) : State :=
  { state.clearAll with restarts := state.restarts + 1 }.notify (.restart epoch)

def adoptEpoch (state : State) (epoch : Nat) : State :=
  { state with lastEpoch := some epoch, expectedPubSeq := none }

/-- The epoch part of `apply_update`: any other epoch than the last is a restart. -/
def enterEpoch (state : State) (epoch : Nat) : State :=
  if state.lastEpoch = some epoch then state
  else
    match state.lastEpoch with
    | none => state.adoptEpoch epoch
    | some _ => (state.restart epoch).adoptEpoch epoch

def countGap (state : State) (seq : Nat) : State :=
  { state with
    gaps :=
      match state.expectedPubSeq with
      | some expected => if seq > expected then state.gaps + (seq - expected) else state.gaps
      | none => state.gaps
    expectedPubSeq := some (seq + 1) }

def appendTrade (state : State) (ticker : Text) (trade : RingTrade) : State :=
  { state with
    trades := state.trades.set ticker (pushRing ((state.trades.find? ticker).getD []) trade) }

def applyUpdate (state : State) (rec : Update) : State :=
  let ticker := rec.envelope.ticker
  let entered := (state.enterEpoch rec.envelope.epoch).countGap rec.envelope.pubSeq
  let cached := { entered with tickers := entered.tickers.set ticker rec }
  let traded :=
    if rec.envelope.trigger = [ascii 'E'] then cached.appendTrade ticker rec.ringTrade else cached
  { traded with updates := traded.updates + 1 }.notify (.tickerUpdate ticker)

/-- `_seed_trade`: the last trade of a row, unless there is none or a newer one. -/
def seedTrade (state : State) (ticker : Text) (rec : Update) : State :=
  if rec.trade.lastTradeNs = 0 ∨ rec.trade.lastQty = 0 then state
  else
    match ((state.trades.find? ticker).getD []).getLast? with
    | some newest =>
        if newest.exchSeq ≥ rec.envelope.exchSeq then state
        else state.appendTrade ticker rec.ringTrade
    | none => state.appendTrade ticker rec.ringTrade

def storeRow (progress : State × Nat) (rec : Update) : State × Nat :=
  let ticker := rec.envelope.ticker
  let cached := { progress.1 with tickers := progress.1.tickers.set ticker rec }
  ((cached.seedTrade ticker rec).notify (.tickerUpdate ticker), progress.2 + 1)

def mergeRow (progress : State × Nat) (rec : Update) : State × Nat :=
  match progress.1.tickers.find? rec.envelope.ticker with
  | some cached =>
      if cached.envelope.exchSeq ≥ rec.envelope.exchSeq then progress
      else storeRow progress rec
  | none => storeRow progress rec

def mergeRows (state : State) (rows : List Update) : State × Nat :=
  let merged := rows.foldl mergeRow (state, 0)
  ({ merged.1 with
      snapshots := merged.1.snapshots + 1
      snapshotRows := merged.1.snapshotRows + merged.2 },
    merged.2)

/-- `merge_snapshot`, with the number of rows it returns. A snapshot of an older epoch
than the live feed's is discarded, one of a newer epoch is a restart. -/
def mergeSnapshot (state : State) (rows : List Update) (snapEpoch : Nat) : State × Nat :=
  match state.lastEpoch with
  | none => (state.adoptEpoch snapEpoch).mergeRows rows
  | some last =>
      if snapEpoch < last then (state, 0)
      else if snapEpoch > last then
        ((state.restart snapEpoch).adoptEpoch snapEpoch).mergeRows rows
      else state.mergeRows rows

def snapshot (state : State) (ticker : Text) : Option (Update × List RingTrade) :=
  (state.tickers.find? ticker).map fun rec =>
    (rec, ((state.trades.find? ticker).getD []).reverse)

end State

end ProtoFH.Web
