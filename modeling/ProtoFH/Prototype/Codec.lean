import ProtoFH.Foundation.Text
import ProtoFH.Itch.Message

/-! # The prototype's ITCH codec

The Python decoder: the same twelve message types, with unbounded integers and
strings stripped of trailing spaces. It refuses alpha fields that are not ASCII. -/

namespace ProtoFH.Prototype

/-- `OrderAdded`, and the fields `OrderAddedWithAttributes` shares with it. -/
structure OrderAdded where
  ns : Nat
  orderNumber : Nat
  side : Text
  qty : Nat
  orderbookId : Text
  group : Text
  price : Nat
deriving DecidableEq

structure OrderbookDirectory where
  ns : Nat
  orderbookId : Text
  isin : Text
  group : Text
  roundLot : Nat
  tickTableId : Nat
  priceDecimals : Nat
  upperLimit : Nat
  lowerLimit : Nat
deriving DecidableEq

inductive Message where
  | timestampSeconds (seconds : Nat)
  | systemEvent (ns : Nat) (group event : Text)
  | priceTickSize (ns tickTableId tickSize priceStart : Nat)
  | orderbookDirectory (entry : OrderbookDirectory)
  | tradingState (ns : Nat) (orderbookId group state : Text)
  | shortSellRestriction (ns : Nat) (orderbookId group state : Text)
  | orderAdded (order : OrderAdded)
  | orderAddedWithAttributes (order : OrderAdded) (attribution orderType : Text)
  | orderExecuted (ns orderNumber executedQty matchNumber : Nat)
  | orderDeleted (ns orderNumber : Nat)
  | orderReplaced (ns origOrderNumber newOrderNumber qty price : Nat)
  | endOfSnapshot (sequenceNumber : Nat)
deriving DecidableEq

/-- The exceptions `decode` raises, with what their texts report. -/
inductive DecodeError where
  | emptyBuffer
  | unknownMessageType (type : UInt8)
  | invalidMessageLength (type : MsgType) (expected got : Nat)
  | notAscii (type : MsgType) (field : String) (raw : Bytes)
deriving DecidableEq

namespace Message

open FieldReader

def decodeAlpha (type : MsgType) (field : String) (size : Nat) : FieldReader DecodeError Text :=
  alpha (.notAscii type field) size

def decodeAdded (type : MsgType) : FieldReader DecodeError OrderAdded := do
  let ns ← num 4
  let orderNumber ← num 8
  let side ← decodeAlpha type "side" 1
  let qty ← num 4
  let orderbookId ← decodeAlpha type "orderbook_id" 4
  let group ← decodeAlpha type "group" 4
  let price ← num 4
  return { ns, orderNumber, side, qty, orderbookId, group, price }

def decodeDirectory : FieldReader DecodeError OrderbookDirectory := do
  let ns ← num 4
  let orderbookId ← decodeAlpha .R "orderbook_id" 4
  let isin ← decodeAlpha .R "isin" 12
  let group ← decodeAlpha .R "group" 4
  let roundLot ← num 4
  let tickTableId ← num 4
  let priceDecimals ← num 4
  let upperLimit ← num 4
  let lowerLimit ← num 4
  return { ns, orderbookId, isin, group, roundLot, tickTableId, priceDecimals, upperLimit,
           lowerLimit }

def decodeState (type : MsgType) (make : Nat → Text → Text → Text → Message) :
    FieldReader DecodeError Message := do
  let ns ← num 4
  let orderbookId ← decodeAlpha type "orderbook_id" 4
  let group ← decodeAlpha type "group" 4
  let state ← decodeAlpha type "state" 1
  return make ns orderbookId group state

def decodeFields : MsgType → FieldReader DecodeError Message
  | .T => do
      let seconds ← num 4
      return .timestampSeconds seconds
  | .S => do
      let ns ← num 4
      let group ← decodeAlpha .S "group" 4
      let event ← decodeAlpha .S "event" 1
      return .systemEvent ns group event
  | .L => do
      let ns ← num 4
      let tickTableId ← num 4
      let tickSize ← num 4
      let priceStart ← num 4
      return .priceTickSize ns tickTableId tickSize priceStart
  | .R => do
      let entry ← decodeDirectory
      return .orderbookDirectory entry
  | .H => decodeState .H .tradingState
  | .Y => decodeState .Y .shortSellRestriction
  | .A => do
      let order ← decodeAdded .A
      return .orderAdded order
  | .F => do
      let order ← decodeAdded .F
      let attribution ← decodeAlpha .F "attribution" 4
      let orderType ← decodeAlpha .F "order_type" 1
      return .orderAddedWithAttributes order attribution orderType
  | .E => do
      let ns ← num 4
      let orderNumber ← num 8
      let executedQty ← num 4
      let matchNumber ← num 8
      return .orderExecuted ns orderNumber executedQty matchNumber
  | .D => do
      let ns ← num 4
      let orderNumber ← num 8
      return .orderDeleted ns orderNumber
  | .U => do
      let ns ← num 4
      let origOrderNumber ← num 8
      let newOrderNumber ← num 8
      let qty ← num 4
      let price ← num 4
      return .orderReplaced ns origOrderNumber newOrderNumber qty price
  | .G => do
      let sequenceNumber ← num 8
      return .endOfSnapshot sequenceNumber

/-- `codec.decode`. Types and lengths are those of the C++ decoder. -/
def decode (buf : Bytes) : Except DecodeError Message :=
  match buf with
  | [] => .error .emptyBuffer
  | type :: payload =>
      match MsgType.ofByte? type with
      | none => .error (.unknownMessageType type)
      | some known =>
          if buf.length = expectedLen known then (decodeFields known payload).map Prod.fst
          else .error (.invalidMessageLength known (expectedLen known) buf.length)

end Message

end ProtoFH.Prototype
