import ProtoFH.Market.Orders

/-! # Trade tape

Cumulative trade statistics per book. -/

namespace ProtoFH

structure BookStats where
  tradeCount : UInt64 := 0
  volume : UInt64 := 0
  notional : UInt64 := 0
  lastPrice : Option UInt32 := none
  lastQty : Option UInt32 := none
  lastMatchNumber : UInt64 := 0
  hasLast : Bool := false
  uptick : Bool := false
deriving DecidableEq

/-- The tick test of one trade against the last traded price, or the assumed base
price before the first trade. Only a price that differs changes the flag. -/
def BookStats.tickTest (stats : BookStats) (newPrice : UInt32) (basePrice : Option UInt32) :
    Bool :=
  match if stats.hasLast then stats.lastPrice else basePrice with
  | none => stats.uptick
  | some effectiveLtp =>
      if newPrice > effectiveLtp then true
      else if newPrice < effectiveLtp then false
      else stats.uptick

def BookStats.record (stats : BookStats) (execution : Execution) (basePrice : Option UInt32) :
    BookStats where
  tradeCount := stats.tradeCount + 1
  volume := stats.volume + execution.qty.toUInt64
  notional := stats.notional + execution.price.toUInt64 * execution.qty.toUInt64
  lastPrice := some execution.price
  lastQty := some execution.qty
  lastMatchNumber := execution.matchNumber
  hasLast := true
  uptick := stats.tickTest execution.price basePrice

structure TradeTape where
  tradeCount : UInt64 := 0
  totalVolume : UInt64 := 0
  stats : OrderedMap (CStr 4) BookStats := ∅

namespace TradeTape

def statsOf (tape : TradeTape) (orderbookId : CStr 4) : BookStats :=
  tape.stats[orderbookId]?.getD {}

/-- `record`. The timestamp the source passes along is not used by it. -/
def record (tape : TradeTape) (execution : Execution) (basePrice : Option UInt32) :
    TradeTape where
  tradeCount := tape.tradeCount + 1
  totalVolume := tape.totalVolume + execution.qty.toUInt64
  stats := tape.stats.insert execution.orderbookId
    ((tape.statsOf execution.orderbookId).record execution basePrice)

def restoreStats (tape : TradeTape) (orderbookId : CStr 4) (trades volume notional : UInt64)
    (lastPrice lastQty : Option UInt32) (lastMatchNumber : UInt64) : TradeTape where
  tradeCount := tape.tradeCount + (trades - (tape.statsOf orderbookId).tradeCount)
  totalVolume := tape.totalVolume + (volume - (tape.statsOf orderbookId).volume)
  stats := tape.stats.insert orderbookId
    { tradeCount := trades, volume := volume, notional := notional
      lastPrice := lastPrice, lastQty := lastQty, lastMatchNumber := lastMatchNumber
      hasLast := lastPrice.isSome, uptick := false }

end TradeTape

/-- `make_timestamp`: the session clock combined with a message's nanoseconds. -/
def makeTimestamp (seconds : UInt64) (ns : UInt32) : UInt64 :=
  seconds * 1000000000 + ns.toUInt64

end ProtoFH
