import ProtoFH.Itch.Message
import ProtoFH.Foundation.OrderedMap

/-! # Reference data

Instruments, tick-size tables and system events. Where the source keeps an
`int64_t` with -1 for "unknown", every other value it can hold is a `uint32_t`;
here the field is an `Option UInt32`. -/

namespace ProtoFH

structure Instrument where
  orderbookId : CStr 4
  isin : CStr 12 := .empty
  group : CStr 4 := .empty
  roundLot : Option UInt32 := none
  tickTableId : Option UInt32 := none
  priceDecimals : Option UInt32 := none
  upperLimit : Option UInt32 := none
  lowerLimit : Option UInt32 := none
  tradingState : UInt8 := ascii 'V'
  shortSellState : UInt8 := ascii '0'
  referencePrice : Option UInt32 := none
  directoryMissing : Bool := true
deriving DecidableEq

structure TickTable where
  rows : OrderedMap UInt32 UInt32 := ∅

namespace TickTable

def add (table : TickTable) (priceStart tickSize : UInt32) : TickTable :=
  { rows := table.rows.insert priceStart tickSize }

/-- The size of the last row that starts at or below `price`. -/
def tickSize (table : TickTable) (price : UInt32) : Option UInt32 :=
  (table.rows.getEntryLE? price).map Prod.snd

end TickTable

/-- `compute_ssp`: the lowest price at which a short sell is accepted. -/
def computeSsp (restricted : UInt8) (basePrice lastPrice : Option UInt32)
    (hasLast uptick : Bool) (ticks : Option TickTable) : UInt32 :=
  if restricted ≠ ascii '1' then 0
  else
    match if hasLast then lastPrice else basePrice with
    | none => noPrice
    | some ltp =>
        if uptick then ltp
        else
          match ticks.bind (·.tickSize ltp) with
          | none => noPrice
          | some tick => ltp + tick

structure SystemEvent where
  ns : UInt32
  group : CStr 4
  event : UInt8
deriving DecidableEq

structure RefData where
  instruments : OrderedMap (CStr 4) Instrument := ∅
  tickTables : OrderedMap UInt32 TickTable := ∅
  systemEvents : List SystemEvent := []

namespace RefData

/-- The instrument under an id; `get` creates an unknown one on first reference. -/
def get (refdata : RefData) (orderbookId : CStr 4) : Instrument :=
  refdata.instruments[orderbookId]?.getD { orderbookId }

/-- What the source does through the reference that `get` returns. -/
def modify (refdata : RefData) (orderbookId : CStr 4) (change : Instrument → Instrument) :
    RefData :=
  { refdata with
    instruments := refdata.instruments.insert orderbookId (change (refdata.get orderbookId)) }

def addTick (refdata : RefData) (tableId priceStart tickSize : UInt32) : RefData :=
  { refdata with
    tickTables := refdata.tickTables.insert tableId
      ((refdata.tickTables[tableId]?.getD {}).add priceStart tickSize) }

end RefData

namespace Instrument

/-- `if (inst.group.empty()) inst.group = group;` -/
def fillGroup (inst : Instrument) (group : CStr 4) : Instrument :=
  { inst with group := if inst.group = .empty then group else inst.group }

def describe (inst : Instrument) (entry : Directory) : Instrument :=
  { inst with
    isin := entry.isin
    group := entry.group
    roundLot := some entry.roundLot
    tickTableId := some entry.tickTableId
    priceDecimals := some entry.priceDecimals
    upperLimit := some entry.upperLimit
    lowerLimit := some entry.lowerLimit
    directoryMissing := false }

end Instrument

namespace RefData

def apply (refdata : RefData) : ItchMsg → RefData
  | .directory entry => refdata.modify entry.orderbookId (·.describe entry)
  | .tickSize _ tableId tickSize priceStart => refdata.addTick tableId priceStart tickSize
  | .tradingState _ orderbookId group state =>
      refdata.modify orderbookId fun inst => { inst.fillGroup group with tradingState := state }
  | .shortSellState _ orderbookId group state =>
      refdata.modify orderbookId fun inst =>
        { inst.fillGroup group with shortSellState := state }
  | .systemEvent ns group event =>
      { refdata with systemEvents := refdata.systemEvents ++ [{ ns, group, event }] }
  | .addOrder order =>
      if order.orderNumber = 0 then
        refdata.modify order.orderbookId fun inst =>
          { inst.fillGroup order.group with referencePrice := some order.price }
      else refdata
  | _ => refdata

theorem modify_lookup (refdata : RefData) (orderbookId other : CStr 4)
    (change : Instrument → Instrument) :
    (refdata.modify orderbookId change).instruments[other]? =
      if orderbookId = other then some (change (refdata.get other))
      else refdata.instruments[other]? := by
  simp only [modify, OrderedMap.lookup_insert]
  split
  · next equal => rw [equal]
  · rfl

@[simp] theorem modify_tickTables (refdata : RefData) (orderbookId : CStr 4)
    (change : Instrument → Instrument) :
    (refdata.modify orderbookId change).tickTables = refdata.tickTables := rfl

@[simp] theorem addTick_instruments (refdata : RefData) (tableId priceStart tickSize : UInt32) :
    (refdata.addTick tableId priceStart tickSize).instruments = refdata.instruments := rfl

def tickRow (refdata : RefData) (tableId priceStart : UInt32) : Option UInt32 :=
  refdata.tickTables[tableId]?.bind (·.rows[priceStart]?)

theorem tickRow_addTick (refdata : RefData) (tableId priceStart tickSize table start : UInt32) :
    (refdata.addTick tableId priceStart tickSize).tickRow table start =
      if tableId = table ∧ priceStart = start then some tickSize
      else refdata.tickRow table start := by
  simp only [tickRow, addTick, OrderedMap.lookup_insert]
  by_cases sameTable : tableId = table
  · subst sameTable
    by_cases sameStart : priceStart = start
    · simp [TickTable.add, sameStart]
    · cases refdata.tickTables[tableId]? <;>
        simp [TickTable.add, OrderedMap.lookup_insert, sameStart]
  · simp [sameTable]

end RefData

end ProtoFH
