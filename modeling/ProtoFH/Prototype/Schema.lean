import ProtoFH.Foundation.Packing
import ProtoFH.Prototype.Codec

/-! # The declarative ITCH schema

One table lists the fields of every message type, and the prototype's encoder works
from it alone: alpha fields are padded first, then all values are packed in one go. -/

namespace ProtoFH.Prototype

inductive FieldType where
  | num
  | alpha
  | price
deriving DecidableEq

structure Field where
  name : String
  size : Nat
  ftype : FieldType
deriving DecidableEq

def schemas : MsgType → List Field
  | .T => [⟨"seconds", 4, .num⟩]
  | .S => [⟨"ns", 4, .num⟩, ⟨"group", 4, .alpha⟩, ⟨"event", 1, .alpha⟩]
  | .L => [⟨"ns", 4, .num⟩, ⟨"tick_table_id", 4, .num⟩, ⟨"tick_size", 4, .num⟩,
      ⟨"price_start", 4, .price⟩]
  | .R => [⟨"ns", 4, .num⟩, ⟨"orderbook_id", 4, .alpha⟩, ⟨"isin", 12, .alpha⟩,
      ⟨"group", 4, .alpha⟩, ⟨"round_lot", 4, .num⟩, ⟨"tick_table_id", 4, .num⟩,
      ⟨"price_decimals", 4, .num⟩, ⟨"upper_limit", 4, .price⟩, ⟨"lower_limit", 4, .price⟩]
  | .H => [⟨"ns", 4, .num⟩, ⟨"orderbook_id", 4, .alpha⟩, ⟨"group", 4, .alpha⟩,
      ⟨"state", 1, .alpha⟩]
  | .Y => [⟨"ns", 4, .num⟩, ⟨"orderbook_id", 4, .alpha⟩, ⟨"group", 4, .alpha⟩,
      ⟨"state", 1, .alpha⟩]
  | .A => [⟨"ns", 4, .num⟩, ⟨"order_number", 8, .num⟩, ⟨"side", 1, .alpha⟩, ⟨"qty", 4, .num⟩,
      ⟨"orderbook_id", 4, .alpha⟩, ⟨"group", 4, .alpha⟩, ⟨"price", 4, .price⟩]
  | .F => [⟨"ns", 4, .num⟩, ⟨"order_number", 8, .num⟩, ⟨"side", 1, .alpha⟩, ⟨"qty", 4, .num⟩,
      ⟨"orderbook_id", 4, .alpha⟩, ⟨"group", 4, .alpha⟩, ⟨"price", 4, .price⟩,
      ⟨"attribution", 4, .alpha⟩, ⟨"order_type", 1, .alpha⟩]
  | .E => [⟨"ns", 4, .num⟩, ⟨"order_number", 8, .num⟩, ⟨"executed_qty", 4, .num⟩,
      ⟨"match_number", 8, .num⟩]
  | .D => [⟨"ns", 4, .num⟩, ⟨"order_number", 8, .num⟩]
  | .U => [⟨"ns", 4, .num⟩, ⟨"orig_order_number", 8, .num⟩, ⟨"new_order_number", 8, .num⟩,
      ⟨"qty", 4, .num⟩, ⟨"price", 4, .price⟩]
  | .G => [⟨"sequence_number", 8, .num⟩]

/-! ## Typed values -/

abbrev FieldType.Value : FieldType → Type
  | .alpha => Text
  | .num | .price => Nat

abbrev FieldType.Raw (size : Nat) : FieldType → Type
  | .alpha => FixedBytes size
  | .num | .price => Nat

abbrev Values : List Field → Type
  | [] => Unit
  | field :: fields => field.ftype.Value × Values fields

abbrev RawValues : List Field → Type
  | [] => Unit
  | field :: fields => field.ftype.Raw field.size × RawValues fields

namespace Message

/-- `_CLASS_TO_TYPE` -/
def type : Message → MsgType
  | timestampSeconds .. => .T
  | systemEvent .. => .S
  | priceTickSize .. => .L
  | orderbookDirectory .. => .R
  | tradingState .. => .H
  | shortSellRestriction .. => .Y
  | orderAdded .. => .A
  | orderAddedWithAttributes .. => .F
  | orderExecuted .. => .E
  | orderDeleted .. => .D
  | orderReplaced .. => .U
  | endOfSnapshot .. => .G

def values : (message : Message) → Values (schemas message.type)
  | timestampSeconds seconds => (seconds, ())
  | systemEvent ns group event => (ns, group, event, ())
  | priceTickSize ns tickTableId tickSize priceStart =>
      (ns, tickTableId, tickSize, priceStart, ())
  | orderbookDirectory entry =>
      (entry.ns, entry.orderbookId, entry.isin, entry.group, entry.roundLot, entry.tickTableId,
        entry.priceDecimals, entry.upperLimit, entry.lowerLimit, ())
  | tradingState ns orderbookId group state => (ns, orderbookId, group, state, ())
  | shortSellRestriction ns orderbookId group state => (ns, orderbookId, group, state, ())
  | orderAdded order =>
      (order.ns, order.orderNumber, order.side, order.qty, order.orderbookId, order.group,
        order.price, ())
  | orderAddedWithAttributes order attribution orderType =>
      (order.ns, order.orderNumber, order.side, order.qty, order.orderbookId, order.group,
        order.price, attribution, orderType, ())
  | orderExecuted ns orderNumber executedQty matchNumber =>
      (ns, orderNumber, executedQty, matchNumber, ())
  | orderDeleted ns orderNumber => (ns, orderNumber, ())
  | orderReplaced ns origOrderNumber newOrderNumber qty price =>
      (ns, origOrderNumber, newOrderNumber, qty, price, ())
  | endOfSnapshot sequenceNumber => (sequenceNumber, ())

/-- `MESSAGE_CLASSES[msg_type](*values)` -/
def ofValues : (type : MsgType) → Values (schemas type) → Message
  | .T, (seconds, ()) => timestampSeconds seconds
  | .S, (ns, group, event, ()) => systemEvent ns group event
  | .L, (ns, tickTableId, tickSize, priceStart, ()) =>
      priceTickSize ns tickTableId tickSize priceStart
  | .R, (ns, orderbookId, isin, group, roundLot, tickTableId, priceDecimals, upperLimit,
      lowerLimit, ()) =>
      orderbookDirectory { ns, orderbookId, isin, group, roundLot, tickTableId, priceDecimals,
                           upperLimit, lowerLimit }
  | .H, (ns, orderbookId, group, state, ()) => tradingState ns orderbookId group state
  | .Y, (ns, orderbookId, group, state, ()) => shortSellRestriction ns orderbookId group state
  | .A, (ns, orderNumber, side, qty, orderbookId, group, price, ()) =>
      orderAdded { ns, orderNumber, side, qty, orderbookId, group, price }
  | .F, (ns, orderNumber, side, qty, orderbookId, group, price, attribution, orderType, ()) =>
      orderAddedWithAttributes { ns, orderNumber, side, qty, orderbookId, group, price }
        attribution orderType
  | .E, (ns, orderNumber, executedQty, matchNumber, ()) =>
      orderExecuted ns orderNumber executedQty matchNumber
  | .D, (ns, orderNumber, ()) => orderDeleted ns orderNumber
  | .U, (ns, origOrderNumber, newOrderNumber, qty, price, ()) =>
      orderReplaced ns origOrderNumber newOrderNumber qty price
  | .G, (sequenceNumber, ()) => endOfSnapshot sequenceNumber

theorem ofValues_values (message : Message) : ofValues message.type message.values = message := by
  cases message <;> rfl

end Message

/-! ## Encoding -/

inductive EncodeError where
  | unicodeEncode (value : Text)
  | alphaFieldTooLong (type : MsgType) (field : String) (value : Text) (size : Nat)
  | structError (error : StructError)
deriving DecidableEq

def encodeAlpha (type : MsgType) (name : String) (size : Nat) (value : Text) :
    Except EncodeError (FixedBytes size) :=
  if ¬ IsAscii value then .error (.unicodeEncode value)
  else if fits : value.length ≤ size then
    .ok ⟨value ++ List.replicate (size - value.length) space, by simp [fits]⟩
  else .error (.alphaFieldTooLong type name value size)

def encodeField (type : MsgType) (name : String) (size : Nat) :
    (ftype : FieldType) → ftype.Value → Except EncodeError (ftype.Raw size)
  | .alpha, value => encodeAlpha type name size value
  | .num, value | .price, value => .ok value

def rawValues (type : MsgType) :
    (fields : List Field) → Values fields → Except EncodeError (RawValues fields)
  | [], _ => .ok ()
  | field :: fields, (value, values) => do
      let raw ← encodeField type field.name field.size field.ftype value
      let raws ← rawValues type fields values
      return (raw, raws)

/-- `_field_struct_code`: an unsigned integer of the field's size, or a byte string. -/
def fieldFormat (size : Nat) : (ftype : FieldType) → Format (ftype.Raw size)
  | .alpha => .string size
  | .num | .price => .uint size

/-- `STRUCTS`: the format of the fields after the type byte. -/
def structFormat : (fields : List Field) → Format (RawValues fields)
  | [] => .unit
  | field :: fields => (fieldFormat field.size field.ftype).seq (structFormat fields)

/-- The bytes of the fields: every alpha field is checked before anything is packed. -/
def encodeFields (type : MsgType) (fields : List Field) (values : Values fields) :
    Except EncodeError Bytes := do
  let raws ← rawValues type fields values
  ((structFormat fields).pack raws).mapError .structError

def Message.encode (message : Message) : Except EncodeError Bytes := do
  let packed ← encodeFields message.type (schemas message.type) message.values
  return message.type.byte :: packed

theorem structFormat_size (type : MsgType) :
    (structFormat (schemas type)).size + 1 = expectedLen type := by
  cases type <;> rfl

end ProtoFH.Prototype
