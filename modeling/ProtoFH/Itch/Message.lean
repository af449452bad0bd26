import ProtoFH.Foundation.Bytes

/-! # ITCH messages

The exchange's messages as the feed handler decodes them. The decoder knows
twelve message types, so a decoded message is one of twelve constructors and
carries only the fields its type has. -/

namespace ProtoFH

def noPrice : UInt32 := 0x7FFFFFFF

structure AddOrder where
  ns : UInt32
  orderNumber : UInt64
  side : UInt8
  qty : UInt32
  orderbookId : CStr 4
  group : CStr 4
  price : UInt32
deriving DecidableEq

structure Directory where
  ns : UInt32
  orderbookId : CStr 4
  isin : CStr 12
  group : CStr 4
  roundLot : UInt32
  tickTableId : UInt32
  priceDecimals : UInt32
  upperLimit : UInt32
  lowerLimit : UInt32
deriving DecidableEq

inductive ItchMsg where
  /-- `T`: the session clock. -/
  | seconds (seconds : UInt32)
  /-- `S`: a system event; a blank group is system-wide. -/
  | systemEvent (ns : UInt32) (group : CStr 4) (event : UInt8)
  /-- `L`: one row of a tick-size table. -/
  | tickSize (ns tickTableId tickSize priceStart : UInt32)
  /-- `R` -/
  | directory (entry : Directory)
  /-- `H` -/
  | tradingState (ns : UInt32) (orderbookId group : CStr 4) (state : UInt8)
  /-- `Y` -/
  | shortSellState (ns : UInt32) (orderbookId group : CStr 4) (state : UInt8)
  /-- `A`; with order number 0 it announces a reference price instead. -/
  | addOrder (order : AddOrder)
  /-- `F`: an add with an attribution and an order type (`Q` = DLP). -/
  | addAttributed (order : AddOrder) (attribution : CStr 4) (orderType : UInt8)
  /-- `E` -/
  | executed (ns : UInt32) (orderNumber : UInt64) (executedQty : UInt32)
      (matchNumber : UInt64)
  /-- `D` -/
  | deleted (ns : UInt32) (orderNumber : UInt64)
  /-- `U` -/
  | replaced (ns : UInt32) (origOrderNumber newOrderNumber : UInt64) (qty price : UInt32)
  /-- `G`: end of a GLIMPSE snapshot. -/
  | endOfSnapshot (sequenceNumber : UInt64)
deriving DecidableEq

namespace ItchMsg

def type : ItchMsg → UInt8
  | seconds .. => ascii 'T'
  | systemEvent .. => ascii 'S'
  | tickSize .. => ascii 'L'
  | directory .. => ascii 'R'
  | tradingState .. => ascii 'H'
  | shortSellState .. => ascii 'Y'
  | addOrder .. => ascii 'A'
  | addAttributed .. => ascii 'F'
  | executed .. => ascii 'E'
  | deleted .. => ascii 'D'
  | replaced .. => ascii 'U'
  | endOfSnapshot .. => ascii 'G'

/-- Nanoseconds since the last `T`; `T` and `G` do not carry the field, and the
message constructor leaves it 0. -/
def ns : ItchMsg → UInt32
  | seconds _ => 0
  | systemEvent ns .. => ns
  | tickSize ns .. => ns
  | directory entry => entry.ns
  | tradingState ns .. => ns
  | shortSellState ns .. => ns
  | addOrder order => order.ns
  | addAttributed order .. => order.ns
  | executed ns .. => ns
  | deleted ns .. => ns
  | replaced ns .. => ns
  | endOfSnapshot _ => 0

def isClock : ItchMsg → Bool
  | seconds _ => true
  | _ => false

theorem type_eq_T_iff (msg : ItchMsg) : msg.type = ascii 'T' ↔ msg.isClock = true := by
  cases msg <;> simp only [type, isClock] <;> decide

end ItchMsg

/-! ## Decoding -/

inductive MsgType where
  | T | S | L | R | H | Y | A | F | E | D | U | G
deriving DecidableEq

def MsgType.ofByte? (type : UInt8) : Option MsgType :=
  if type = ascii 'T' then some .T
  else if type = ascii 'S' then some .S
  else if type = ascii 'L' then some .L
  else if type = ascii 'R' then some .R
  else if type = ascii 'H' then some .H
  else if type = ascii 'Y' then some .Y
  else if type = ascii 'A' then some .A
  else if type = ascii 'F' then some .F
  else if type = ascii 'E' then some .E
  else if type = ascii 'D' then some .D
  else if type = ascii 'U' then some .U
  else if type = ascii 'G' then some .G
  else none

def MsgType.byte : MsgType → UInt8
  | .T => ascii 'T'
  | .S => ascii 'S'
  | .L => ascii 'L'
  | .R => ascii 'R'
  | .H => ascii 'H'
  | .Y => ascii 'Y'
  | .A => ascii 'A'
  | .F => ascii 'F'
  | .E => ascii 'E'
  | .D => ascii 'D'
  | .U => ascii 'U'
  | .G => ascii 'G'

theorem MsgType.ofByte?_byte (type : MsgType) : ofByte? type.byte = some type := by
  cases type <;> rfl

theorem MsgType.byte_of_ofByte? {byte : UInt8} {type : MsgType}
    (known : ofByte? byte = some type) : type.byte = byte := by
  have branch {code : UInt8} {first : MsgType} {rest : Option MsgType}
      (found : (if byte = code then some first else rest) = some type) :
      byte = code ∧ first = type ∨ rest = some type := by
    by_cases same : byte = code
    · exact .inl ⟨same, Option.some.inj ((if_pos same).symm.trans found)⟩
    · exact .inr ((if_neg same).symm.trans found)
  unfold ofByte? at known
  iterate 12
    rcases branch known with ⟨same, rfl⟩ | known
    · exact same.symm
  cases known

/-- `expected_len`: total wire length of a message, type byte included. -/
def expectedLen : MsgType → Nat
  | .T => 5
  | .S => 10
  | .L => 17
  | .R => 45
  | .H => 14
  | .Y => 14
  | .A => 30
  | .F => 35
  | .E => 25
  | .D => 13
  | .U => 29
  | .G => 9

def decodeAdd (buf : Bytes) : AddOrder where
  ns := beGetU32 (buf.drop 1)
  orderNumber := beGetU64 (buf.drop 5)
  side := beGetU8 (buf.drop 13)
  qty := beGetU32 (buf.drop 14)
  orderbookId := getAlpha 4 (buf.drop 18)
  group := getAlpha 4 (buf.drop 22)
  price := beGetU32 (buf.drop 26)

def decodeDirectory (buf : Bytes) : Directory where
  ns := beGetU32 (buf.drop 1)
  orderbookId := getAlpha 4 (buf.drop 5)
  isin := getAlpha 12 (buf.drop 9)
  group := getAlpha 4 (buf.drop 21)
  roundLot := beGetU32 (buf.drop 25)
  tickTableId := beGetU32 (buf.drop 29)
  priceDecimals := beGetU32 (buf.drop 33)
  upperLimit := beGetU32 (buf.drop 37)
  lowerLimit := beGetU32 (buf.drop 41)

def decodeFields (buf : Bytes) : MsgType → ItchMsg
  | .T => .seconds (beGetU32 (buf.drop 1))
  | .S => .systemEvent (beGetU32 (buf.drop 1)) (getAlpha 4 (buf.drop 5)) (beGetU8 (buf.drop 9))
  | .L => .tickSize (beGetU32 (buf.drop 1)) (beGetU32 (buf.drop 5)) (beGetU32 (buf.drop 9))
      (beGetU32 (buf.drop 13))
  | .R => .directory (decodeDirectory buf)
  | .H => .tradingState (beGetU32 (buf.drop 1)) (getAlpha 4 (buf.drop 5))
      (getAlpha 4 (buf.drop 9)) (beGetU8 (buf.drop 13))
  | .Y => .shortSellState (beGetU32 (buf.drop 1)) (getAlpha 4 (buf.drop 5))
      (getAlpha 4 (buf.drop 9)) (beGetU8 (buf.drop 13))
  | .A => .addOrder (decodeAdd buf)
  | .F => .addAttributed (decodeAdd buf) (getAlpha 4 (buf.drop 30)) (beGetU8 (buf.drop 34))
  | .E => .executed (beGetU32 (buf.drop 1)) (beGetU64 (buf.drop 5)) (beGetU32 (buf.drop 13))
      (beGetU64 (buf.drop 17))
  | .D => .deleted (beGetU32 (buf.drop 1)) (beGetU64 (buf.drop 5))
  | .U => .replaced (beGetU32 (buf.drop 1)) (beGetU64 (buf.drop 5)) (beGetU64 (buf.drop 13))
      (beGetU32 (buf.drop 21)) (beGetU32 (buf.drop 25))
  | .G => .endOfSnapshot (beGetU64 (buf.drop 1))

/-- `decode`: strict, the length must be the one of the type. -/
def decode (buf : Bytes) : Except String ItchMsg :=
  match buf with
  | [] => .error "empty buffer"
  | type :: _ =>
      match MsgType.ofByte? type with
      | none => .error "unknown message type"
      | some known =>
          if buf.length = expectedLen known then .ok (decodeFields buf known)
          else .error "length mismatch for message type"

theorem decode_eq_ok {buf : Bytes} {msg : ItchMsg} (decoded : decode buf = .ok msg) :
    ∃ known, MsgType.ofByte? (beGetU8 buf) = some known ∧
      buf.length = expectedLen known ∧ msg = decodeFields buf known := by
  cases buf with
  | nil => cases decoded
  | cons type rest =>
      simp only [decode] at decoded
      split at decoded
      · cases decoded
      · next known found =>
          split at decoded
          · next length => exact ⟨known, found, length, by cases decoded; rfl⟩
          · cases decoded

/-! ## Encoding -/

def AddOrder.put (order : AddOrder) : Bytes :=
  bePutU32 order.ns ++ bePutU64 order.orderNumber ++ [order.side] ++ bePutU32 order.qty ++
    putAlpha 4 order.orderbookId.bytes ++ putAlpha 4 order.group.bytes ++ bePutU32 order.price

def Directory.put (entry : Directory) : Bytes :=
  bePutU32 entry.ns ++ putAlpha 4 entry.orderbookId.bytes ++ putAlpha 12 entry.isin.bytes ++
    putAlpha 4 entry.group.bytes ++ bePutU32 entry.roundLot ++ bePutU32 entry.tickTableId ++
    bePutU32 entry.priceDecimals ++ bePutU32 entry.upperLimit ++ bePutU32 entry.lowerLimit

/-- The fields of a message as `encode` lays them out behind the type byte. -/
def ItchMsg.put : ItchMsg → Bytes
  | seconds clock => bePutU32 clock
  | systemEvent nanos group event => bePutU32 nanos ++ putAlpha 4 group.bytes ++ [event]
  | tickSize nanos tickTableId size priceStart =>
      bePutU32 nanos ++ bePutU32 tickTableId ++ bePutU32 size ++ bePutU32 priceStart
  | directory entry => entry.put
  | tradingState nanos orderbookId group state | shortSellState nanos orderbookId group state =>
      bePutU32 nanos ++ putAlpha 4 orderbookId.bytes ++ putAlpha 4 group.bytes ++ [state]
  | addOrder order => order.put
  | addAttributed order attribution orderType =>
      order.put ++ putAlpha 4 attribution.bytes ++ [orderType]
  | executed nanos orderNumber executedQty matchNumber =>
      bePutU32 nanos ++ bePutU64 orderNumber ++ bePutU32 executedQty ++ bePutU64 matchNumber
  | deleted nanos orderNumber => bePutU32 nanos ++ bePutU64 orderNumber
  | replaced nanos origOrderNumber newOrderNumber qty price =>
      bePutU32 nanos ++ bePutU64 origOrderNumber ++ bePutU64 newOrderNumber ++ bePutU32 qty ++
        bePutU32 price
  | endOfSnapshot sequenceNumber => bePutU64 sequenceNumber

def ItchMsg.encode (msg : ItchMsg) : Bytes := msg.type :: msg.put

/-! ## Alpha fields -/

def alphaFields : MsgType → List (Nat × Nat)
  | .S => [(5, 4)]
  | .R => [(5, 4), (9, 12), (21, 4)]
  | .H | .Y => [(5, 4), (9, 4)]
  | .A => [(18, 4), (22, 4)]
  | .F => [(18, 4), (22, 4), (30, 4)]
  | .T | .L | .E | .D | .U | .G => []

def idFields : MsgType → List (Nat × Nat)
  | .R | .H | .Y => [(5, 4)]
  | .A | .F => [(18, 4)]
  | .S | .T | .L | .E | .D | .U | .G => []

def NulFreeIn (fields : MsgType → List (Nat × Nat)) (buf : Bytes) : Prop :=
  match MsgType.ofByte? (beGetU8 buf) with
  | none => True
  | some known => ∀ field ∈ fields known, (0 : UInt8) ∉ (buf.drop field.1).take field.2

instance (fields : MsgType → List (Nat × Nat)) (buf : Bytes) : Decidable (NulFreeIn fields buf) :=
  match found : MsgType.ofByte? (beGetU8 buf) with
  | none => isTrue (by simp only [NulFreeIn, found])
  | some known =>
      decidable_of_iff (∀ field ∈ fields known, (0 : UInt8) ∉ (buf.drop field.1).take field.2)
        (by simp only [NulFreeIn, found])

def NulFree (buf : Bytes) : Prop := NulFreeIn alphaFields buf

instance (buf : Bytes) : Decidable (NulFree buf) :=
  inferInstanceAs (Decidable (NulFreeIn alphaFields buf))

/-- The alpha fields of the message that name a book or its group, and its ISIN,
survive another trip over the wire unchanged. -/
def ItchMsg.Trimmed : ItchMsg → Prop
  | systemEvent _ group _ => group.trimmed = group
  | directory entry => entry.orderbookId.trimmed = entry.orderbookId ∧
      entry.isin.trimmed = entry.isin ∧ entry.group.trimmed = entry.group
  | tradingState _ orderbookId group _ => orderbookId.trimmed = orderbookId ∧
      group.trimmed = group
  | shortSellState _ orderbookId group _ => orderbookId.trimmed = orderbookId ∧
      group.trimmed = group
  | addOrder order => order.orderbookId.trimmed = order.orderbookId ∧
      order.group.trimmed = order.group
  | addAttributed order _ _ => order.orderbookId.trimmed = order.orderbookId ∧
      order.group.trimmed = order.group
  | _ => True

theorem decode_trimmed {buf : Bytes} {msg : ItchMsg} (decoded : decode buf = .ok msg)
    (nulFree : NulFree buf) : msg.Trimmed := by
  rcases decode_eq_ok decoded with ⟨known, found, -, rfl⟩
  simp only [NulFree, NulFreeIn, found] at nulFree
  cases known <;>
    simp only [alphaFields, List.forall_mem_cons, List.not_mem_nil, false_imp_iff,
      implies_true, and_true] at nulFree <;>
    simp only [decodeFields, ItchMsg.Trimmed, decodeDirectory, decodeAdd] <;>
    first
      | trivial
      | exact getAlpha_trimmed nulFree
      | exact ⟨getAlpha_trimmed nulFree.1, getAlpha_trimmed nulFree.2⟩
      | exact ⟨getAlpha_trimmed nulFree.1, getAlpha_trimmed nulFree.2.1⟩
      | exact ⟨getAlpha_trimmed nulFree.1, getAlpha_trimmed nulFree.2.1,
          getAlpha_trimmed nulFree.2.2⟩

end ProtoFH
