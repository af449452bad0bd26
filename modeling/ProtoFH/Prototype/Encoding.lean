import ProtoFH.Prototype.Schema
import ProtoFH.Prototype.View

/-! # Decoding and encoding are inverse

Shown once for every list of fields; the message types only supply their schema. The
hand-written offsets of the C++ codec are then compared with it. -/

namespace ProtoFH.Prototype

open FieldReader

/-! ## Reading by schema -/

def readField (type : MsgType) (name : String) (size : Nat) :
    (ftype : FieldType) → FieldReader DecodeError ftype.Value
  | .alpha => Message.decodeAlpha type name size
  | .num | .price => num size

def readValues (type : MsgType) : (fields : List Field) → FieldReader DecodeError (Values fields)
  | [] => pure ()
  | field :: fields => do
      let value ← readField type field.name field.size field.ftype
      let values ← readValues type fields
      return (value, values)

private theorem decodeFields_eq (type : MsgType) :
    Message.decodeFields type = do
      let values ← readValues type (schemas type)
      return Message.ofValues type values := by
  cases type <;>
    simp only [Message.decodeFields, Message.decodeAdded, Message.decodeDirectory,
      Message.decodeState, schemas, readValues, readField, Message.ofValues, bind_assoc, pure_bind]

def alphas : List Field → Bytes → List Bytes
  | [], _ => []
  | field :: fields, p =>
      if field.ftype = .alpha then p.take field.size :: alphas fields (p.drop field.size)
      else alphas fields (p.drop field.size)

/-! ## Values that fit their fields -/

/-- An integer in range, or ASCII text within the width and without trailing spaces. -/
def FieldType.Fits (size : Nat) : (ftype : FieldType) → ftype.Value → Prop
  | .alpha, value => IsAscii value ∧ value.length ≤ size ∧ stripRight value = value
  | .num, value | .price, value => value < 256 ^ size

def Values.Fit : (fields : List Field) → Values fields → Prop
  | [], _ => True
  | field :: fields, (value, values) => field.ftype.Fits field.size value ∧ Fit fields values

def FieldType.put (size : Nat) : (ftype : FieldType) → ftype.Value → Bytes
  | .alpha, value => putAlpha size value
  | .num, value | .price, value => bePut size value

def Values.put : (fields : List Field) → Values fields → Bytes
  | [], _ => []
  | field :: fields, (value, values) =>
      field.ftype.put field.size value ++ put fields values

theorem Values.put_length (fields : List Field) (values : Values fields) :
    (put fields values).length = (structFormat fields).size := by
  induction fields with
  | nil => rfl
  | cons field fields induction =>
      obtain ⟨value, values⟩ := values
      obtain ⟨name, size, ftype⟩ := field
      have first : (ftype.put size value).length = (fieldFormat size ftype).size := by
        cases ftype <;> simp [FieldType.put, fieldFormat, Format.string, Format.uint]
      rw [put, List.length_append, first, induction]
      rfl

/-! ## One field -/

variable {ftype : FieldType}

theorem encodeField_of_fits {size : Nat} {value : ftype.Value} (type : MsgType) (name : String)
    (fits : ftype.Fits size value) :
    ∃ raw, encodeField type name size ftype value = .ok raw ∧
      (fieldFormat size ftype).Packs raw (ftype.put size value) := by
  cases ftype with
  | alpha =>
      obtain ⟨isAscii, short, -⟩ := fits
      refine ⟨_, by rw [encodeField, encodeAlpha, if_neg (not_not.mpr isAscii), dif_pos short],
        rfl, ?_⟩
      change value ++ _ = putAlpha size value
      rw [putAlpha, List.take_of_length_le short]
  | num | price => exact ⟨value, rfl, decide_eq_true fits, rfl⟩

private theorem readField_put {size : Nat} {value : ftype.Value} (type : MsgType) (name : String)
    (fits : ftype.Fits size value) (rest : Bytes) :
    readField type name size ftype (ftype.put size value ++ rest) = .ok (value, rest) := by
  have integer {value : Nat} (small : value < 256 ^ size) :
      (num size : FieldReader DecodeError Nat) (bePut size value ++ rest) = .ok (value, rest) := by
    rw [num_apply, take_append_of_length _ _ (bePut_length _ _),
      drop_append_of_length _ _ (bePut_length _ _), beNat_bePut, Nat.mod_eq_of_lt small]
  cases ftype with
  | alpha =>
      obtain ⟨isAscii, short, stripped⟩ := fits
      have padded : putAlpha size value = value ++ List.replicate (size - value.length) space := by
        rw [putAlpha, List.take_of_length_le short]
      have front : (putAlpha size value ++ rest).take size = putAlpha size value :=
        take_append_of_length _ _ (putAlpha_length _ _)
      have ascii : IsAscii (putAlpha size value) := by
        intro byte member
        rw [padded] at member
        rcases List.mem_append.mp member with inside | filler
        · exact isAscii byte inside
        · rw [List.eq_of_mem_replicate filler]
          decide
      change alpha _ size (putAlpha size value ++ rest) = _
      rw [alpha_of_ascii (by rw [front]; exact ascii), front,
        drop_append_of_length _ _ (putAlpha_length _ _), padded, stripRight_append_spaces, stripped]
  | num | price => exact integer fits

private theorem readField_eq_ok {size : Nat} {type : MsgType} {name : String} {p rest : Bytes}
    {value : ftype.Value} (long : size ≤ p.length)
    (read : readField type name size ftype p = .ok (value, rest)) :
    ftype.Fits size value ∧ ftype.put size value = p.take size ∧ rest = p.drop size := by
  have length : (p.take size).length = size := List.length_take_of_le long
  have integer : beNat (p.take size) < 256 ^ size ∧
      bePut size (beNat (p.take size)) = p.take size := by
    constructor
    · have small := beNat_lt (p.take size)
      rwa [length] at small
    · have same := bePut_beNat (p.take size)
      rwa [length] at same
  cases ftype with
  | alpha =>
      change alpha _ size p = _ at read
      by_cases isAscii : IsAscii (p.take size)
      · rw [alpha_of_ascii isAscii] at read
        cases read
        have inside := (stripRight_isPrefix (p.take size)).subset
        refine ⟨⟨fun byte member => isAscii byte (inside member), ?_, stripRight_stripRight _⟩,
          putAlpha_stripRight length, rfl⟩
        exact Nat.le_trans (stripRight_length_le _) (Nat.le_of_eq length)
      · rw [alpha, if_neg isAscii] at read
        cases read
  | num | price =>
      cases read
      exact ⟨integer.1, integer.2, rfl⟩

/-! ## All fields -/

variable {fields : List Field}

private theorem encodeFields_of_fit {values : Values fields} (type : MsgType)
    (fit : Values.Fit fields values) :
    encodeFields type fields values = .ok (Values.put fields values) := by
  have packs : ∃ raws, rawValues type fields values = .ok raws ∧
      (structFormat fields).Packs raws (Values.put fields values) := by
    induction fields with
    | nil => exact ⟨(), rfl, rfl, rfl⟩
    | cons field fields induction =>
        obtain ⟨value, values⟩ := values
        obtain ⟨raw, encoded, packsField⟩ := encodeField_of_fits type field.name fit.1
        obtain ⟨raws, encodedRest, packsRest⟩ := induction fit.2
        refine ⟨(raw, raws), ?_, packsField.seq packsRest⟩
        rw [rawValues, encoded]
        change (rawValues type fields values >>= _) = _
        rw [encodedRest]
        rfl
  obtain ⟨raws, encoded, packs⟩ := packs
  rw [encodeFields, encoded]
  change ((structFormat fields).pack raws).mapError _ = _
  rw [packs.pack]
  rfl

theorem readValues_put {values : Values fields} (type : MsgType) (fit : Values.Fit fields values)
    (rest : Bytes) :
    readValues type fields (Values.put fields values ++ rest) = .ok (values, rest) := by
  induction fields with
  | nil => rfl
  | cons field fields induction =>
      obtain ⟨value, values⟩ := values
      rw [readValues, Values.put, List.append_assoc, bind_apply,
        readField_put type field.name fit.1]
      change (readValues type fields >>= _) (Values.put fields values ++ rest) = _
      rw [bind_apply, induction fit.2]
      rfl

private theorem readValues_eq_ok {type : MsgType} {p rest : Bytes} {values : Values fields}
    (long : (structFormat fields).size ≤ p.length)
    (read : readValues type fields p = .ok (values, rest)) :
    Values.Fit fields values ∧ Values.put fields values ++ rest = p := by
  induction fields generalizing p with
  | nil =>
      cases read
      exact ⟨trivial, rfl⟩
  | cons field fields induction =>
      have sizes : (structFormat (field :: fields)).size =
          field.size + (structFormat fields).size := by
        change (fieldFormat field.size field.ftype).size + _ = _
        cases field.ftype <;> rfl
      rw [sizes] at long
      simp only [readValues, bind_eq_ok, pure_eq_ok] at read
      obtain ⟨value, after, readFirst, later, left, readRest, rfl, rfl⟩ := read
      obtain ⟨fits, put, rfl⟩ := readField_eq_ok (by omega) readFirst
      obtain ⟨fit, same⟩ := induction (by rw [List.length_drop]; omega) readRest
      refine ⟨⟨fits, fit⟩, ?_⟩
      rw [Values.put, put, List.append_assoc, same, List.take_append_drop]

theorem readValues_isOk_iff (type : MsgType) (fields : List Field) (p : Bytes) :
    (∃ result, readValues type fields p = .ok result) ↔
      ∀ raw ∈ alphas fields p, IsAscii raw := by
  induction fields generalizing p with
  | nil => simp [readValues, alphas]
  | cons field fields induction =>
      have split : (∃ result, readValues type (field :: fields) p = .ok result) ↔
          ∃ value rest, readField type field.name field.size field.ftype p = .ok (value, rest) ∧
            ∃ result, readValues type fields rest = .ok result := by
        simp only [readValues, bind_eq_ok]
        constructor
        · rintro ⟨_, value, after, readFirst, later, left, readRest, -⟩
          exact ⟨value, after, readFirst, (later, left), readRest⟩
        · rintro ⟨value, after, readFirst, ⟨later, left⟩, readRest⟩
          exact ⟨_, value, after, readFirst, later, left, readRest, rfl⟩
      rw [split]
      obtain ⟨name, size, ftype⟩ := field
      cases ftype with
      | alpha =>
          have first (value : Text) (rest : Bytes) :
              readField type name size .alpha p = .ok (value, rest) ↔
                IsAscii (p.take size) ∧ stripRight (p.take size) = value ∧ p.drop size = rest := by
            change alpha _ size p = _ ↔ _
            by_cases isAscii : IsAscii (p.take size)
            · rw [alpha_of_ascii isAscii]
              simp [isAscii]
            · rw [alpha, if_neg isAscii]
              simp [isAscii]
          simp only [first, alphas, if_true, List.forall_mem_cons, ← induction]
          constructor
          · rintro ⟨_, _, ⟨isAscii, rfl, rfl⟩, result⟩
            exact ⟨isAscii, result⟩
          · rintro ⟨isAscii, result⟩
            exact ⟨_, _, ⟨isAscii, rfl, rfl⟩, result⟩
      | num | price =>
          simp [readField, alphas, induction]

/-! ## Messages -/

namespace Message

def Fits (message : Message) : Prop := Values.Fit (schemas message.type) message.values

theorem decode_known (known : MsgType) {payload : Bytes}
    (length : payload.length = (structFormat (schemas known)).size) :
    decode (known.byte :: payload) =
      (readValues known (schemas known) payload).map fun read => ofValues known read.1 := by
  have whole : (known.byte :: payload).length = expectedLen known := by
    rw [List.length_cons, length, structFormat_size]
  rw [decode, known.ofByte?_byte]
  simp only [whole, if_true, decodeFields_eq, bind_apply]
  cases readValues known (schemas known) payload <;> rfl

def wire (message : Message) : Bytes :=
  message.type.byte :: Values.put (schemas message.type) message.values

variable {message : Message}

theorem encode_of_fits (fits : message.Fits) : message.encode = .ok message.wire := by
  rw [encode, encodeFields_of_fit _ fits]
  rfl

private theorem fits_ofValues (known : MsgType) (values : Values (schemas known)) :
    (ofValues known values).Fits ↔ Values.Fit (schemas known) values := by
  cases known <;> rfl

private theorem wire_ofValues (known : MsgType) (values : Values (schemas known)) :
    (ofValues known values).wire = known.byte :: Values.put (schemas known) values := by
  cases known <;> rfl

def Sized (buf : Bytes) (known : MsgType) (payload : Bytes) : Prop :=
  buf = known.byte :: payload ∧ buf.length = expectedLen known

theorem Sized.length {buf payload : Bytes} {known : MsgType} (sized : Sized buf known payload) :
    payload.length = (structFormat (schemas known)).size := by
  have length := sized.2
  rw [sized.1, List.length_cons, ← structFormat_size] at length
  exact Nat.succ.inj length

theorem sized_of_decode {buf : Bytes} (decoded : decode buf = .ok message) :
    ∃ known payload, Sized buf known payload := by
  cases buf with
  | nil => cases decoded
  | cons byte payload =>
      rw [decode] at decoded
      split at decoded
      · cases decoded
      · next known found =>
          split at decoded
          · next length =>
              exact ⟨known, payload, by rw [MsgType.byte_of_ofByte? found], length⟩
          · cases decoded

theorem decode_isOk_iff (buf : Bytes) :
    (∃ message, decode buf = .ok message) ↔
      ∃ known payload, Sized buf known payload ∧
        ∀ raw ∈ alphas (schemas known) payload, IsAscii raw := by
  constructor
  · rintro ⟨message, decoded⟩
    obtain ⟨known, payload, sized⟩ := sized_of_decode decoded
    refine ⟨known, payload, sized, ?_⟩
    rw [sized.1, decode_known known sized.length] at decoded
    rw [← readValues_isOk_iff known]
    cases read : readValues known (schemas known) payload with
    | error reason => rw [read] at decoded; cases decoded
    | ok result => exact ⟨result, rfl⟩
  · rintro ⟨known, payload, sized, isAscii⟩
    obtain ⟨result, read⟩ := (readValues_isOk_iff known _ _).mpr isAscii
    rw [sized.1, decode_known known sized.length, read]
    exact ⟨_, rfl⟩

theorem decode_eq_ok_wire {buf : Bytes} (decoded : decode buf = .ok message) :
    message.Fits ∧ message.wire = buf := by
  obtain ⟨known, payload, sized⟩ := sized_of_decode decoded
  rw [sized.1, decode_known known sized.length] at decoded
  rcases read : readValues known (schemas known) payload with reason | ⟨values, rest⟩
  · rw [read] at decoded
    cases decoded
  · rw [read] at decoded
    cases decoded
    obtain ⟨fit, same⟩ := readValues_eq_ok (Nat.le_of_eq sized.length.symm) read
    -- The fields take the whole payload, so nothing is left over.
    have empty : rest = [] := by
      have lengths := congrArg List.length same
      rw [List.length_append, Values.put_length, sized.length] at lengths
      exact List.eq_nil_of_length_eq_zero (by omega)
    rw [empty, List.append_nil] at same
    rw [fits_ofValues, wire_ofValues, same, sized.1]
    exact ⟨fit, rfl⟩

theorem encode_decode {buf : Bytes} (decoded : decode buf = .ok message) :
    message.encode = .ok buf := by
  obtain ⟨fits, spelled⟩ := decode_eq_ok_wire decoded
  rw [encode_of_fits fits, spelled]

theorem decode_encode (fits : message.Fits) :
    ∃ buf, message.encode = .ok buf ∧ decode buf = .ok message := by
  refine ⟨message.wire, encode_of_fits fits, ?_⟩
  have read := readValues_put message.type fits []
  rw [List.append_nil] at read
  rw [wire, decode_known _ (Values.put_length _ _), read]
  exact congrArg Except.ok message.ofValues_values

end Message

end ProtoFH.Prototype

/-! ## The C++ codec -/

namespace ProtoFH

open Prototype

private theorem putAlpha_charText (char : UInt8) : putAlpha 1 (charText char) = [char] :=
  putAlpha_stripRight rfl

theorem ItchMsg.encode_eq (msg : ItchMsg) : msg.encode = msg.view.wire := by
  cases msg <;>
    simp [Message.wire, encode, type, put, view, AddOrder.put, AddOrder.view, Directory.put,
      Directory.view, Message.type, Message.values, schemas, Values.put, FieldType.put,
      putAlpha_charText,
      MsgType.byte, bePutU32, bePutU64]

def PlainAlphas (buf : Bytes) : Prop :=
  ∀ known payload, buf = MsgType.byte known :: payload →
    ∀ raw ∈ alphas (schemas known) payload, PlainBytes raw

theorem PlainAlphas.nulFree {buf : Bytes} (plain : PlainAlphas buf) : NulFree buf := by
  unfold NulFree NulFreeIn
  split
  · trivial
  · next known found =>
      cases buf with
      | nil => cases found
      | cons byte payload =>
          have alphaBytes := plain known payload (by rw [MsgType.byte_of_ofByte? found]; rfl)
          cases known <;> simp_all [alphaFields, alphas, schemas, PlainBytes.nulFree]

theorem decode_isOk_iff (buf : Bytes) :
    (∃ msg, decode buf = .ok msg) ↔ ∃ known payload, Message.Sized buf known payload := by
  constructor
  · rintro ⟨msg, decoded⟩
    obtain ⟨known, found, length, -⟩ := decode_eq_ok decoded
    cases buf with
    | nil => cases decoded
    | cons byte payload =>
        exact ⟨known, payload, by rw [MsgType.byte_of_ofByte? found]; rfl, length⟩
  · rintro ⟨known, payload, rfl, length⟩
    refine ⟨decodeFields (known.byte :: payload) known, ?_⟩
    simp only [decode, known.ofByte?_byte, length, if_true]

/-- The Python codec is its own inverse, and the C++ codec agrees with it. -/
theorem itch_codecs_agree :
    (∀ buf, (∃ message, Message.decode buf = .ok message) ↔
      ∃ known payload, Message.Sized buf known payload ∧
        ∀ raw ∈ alphas (schemas known) payload, IsAscii raw) ∧
    (∀ buf message, Message.decode buf = .ok message → message.encode = .ok buf) ∧
    (∀ message : Message, message.Fits →
      ∃ buf, message.encode = .ok buf ∧ Message.decode buf = .ok message) ∧
    ∀ buf, PlainAlphas buf →
      ((∃ msg, decode buf = .ok msg) ↔ ∃ message, Message.decode buf = .ok message) ∧
      ∀ msg, decode buf = .ok msg →
        Message.decode buf = .ok msg.view ∧ msg.encode = buf := by
  refine ⟨Message.decode_isOk_iff, fun _ _ => Message.encode_decode,
    fun _ => Message.decode_encode, ?_⟩
  intro buf plain
  have accepts : (∃ msg, decode buf = .ok msg) ↔ ∃ message, Message.decode buf = .ok message := by
    rw [decode_isOk_iff, Message.decode_isOk_iff]
    constructor
    · rintro ⟨known, payload, sized⟩
      exact ⟨known, payload, sized,
        fun raw member => (plain known payload sized.1 raw member).isAscii⟩
    · rintro ⟨known, payload, sized, -⟩
      exact ⟨known, payload, sized⟩
  refine ⟨accepts, ?_⟩
  intro msg decoded
  obtain ⟨message, seen⟩ := accepts.mp ⟨msg, decoded⟩
  have same := ItchMsg.view_of_decode decoded seen plain.nulFree
  subst same
  exact ⟨seen, msg.encode_eq.trans (Message.decode_eq_ok_wire seen).2⟩

end ProtoFH
