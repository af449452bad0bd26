import ProtoFH.Web.Socket

/-! # Frames of a browser

The frames of RFC 6455 that a client sends: masked, with the length in one of three forms.
`decode_frame` finds each of them, whatever comes behind it, and nothing before the whole
frame is there; what it has found or refused does not change when more bytes arrive. -/

namespace ProtoFH.Web

/-! ## More bytes -/

variable {buf : Bytes}

theorem part_append {start width : Nat} (inside : start + width ≤ buf.length) (later : Bytes) :
    ((buf ++ later).drop start).take width = (buf.drop start).take width := by
  rw [List.drop_append_of_le_length (by omega),
    List.take_append_of_le_length (by rw [List.length_drop]; omega)]

private theorem frameLength_append {short : UInt8} {place : Nat × Nat}
    (found : frameLength buf short = some place) (later : Bytes) :
    frameLength (buf ++ later) short = some place := by
  have length := @List.length_append _ buf later
  rw [frameLength] at found ⊢
  by_cases medium : short = 126
  · rw [if_pos medium] at found ⊢
    by_cases few : buf.length < 4
    · rw [if_pos few] at found
      cases found
    · rw [if_neg few] at found
      rw [if_neg (by omega), part_append (by omega)]
      exact found
  · rw [if_neg medium] at found ⊢
    by_cases long : short = 127
    · rw [if_pos long] at found ⊢
      by_cases few : buf.length < 10
      · rw [if_pos few] at found
        cases found
      · rw [if_neg few] at found
        rw [if_neg (by omega), part_append (by omega)]
        exact found
    · rw [if_neg long] at found ⊢
      exact found

private theorem frameLength_seven {length : Nat} (small : length < 126) (buf : Bytes) :
    frameLength buf (UInt8.ofNat length) = some (length, 2) := by
  have value : (UInt8.ofNat length).toNat = length :=
    UInt8.toNat_ofNat_of_lt' (Nat.lt_trans small (by decide))
  have other {special : UInt8} (beyond : 126 ≤ special.toNat) : UInt8.ofNat length ≠ special := by
    rintro rfl
    omega
  rw [frameLength, if_neg (other (by decide)), if_neg (other (by decide)), value]

def decodeMasked (buf : Bytes) (b0 b1 : UInt8) (length offset : Nat) :
    Except FrameError (Option (ClientFrame × Nat)) :=
  if b1 &&& 0x80 = 0 then .error .unmasked
  else if buf.length < offset + 4 + length then .ok none
  else
    .ok (some (⟨b0 &&& 0x80 ≠ 0, b0 &&& 0x0F,
      unmask ((buf.drop offset).take 4) ((buf.drop (offset + 4)).take length)⟩,
      offset + 4 + length))

theorem decodeFrame_of_length {b0 b1 : UInt8} {rest : Bytes} {length offset : Nat}
    (plain : b0 &&& 0x70 = 0)
    (found : frameLength (b0 :: b1 :: rest) (b1 &&& 0x7F) = some (length, offset)) :
    decodeFrame (b0 :: b1 :: rest) = decodeMasked (b0 :: b1 :: rest) b0 b1 length offset := by
  simp only [decodeFrame, plain, ne_eq, not_true, if_false, found, decodeMasked]

private theorem decodeMasked_append {b0 b1 : UInt8} {length offset : Nat}
    (final : decodeMasked buf b0 b1 length offset ≠ .ok none) (later : Bytes) :
    decodeMasked (buf ++ later) b0 b1 length offset = decodeMasked buf b0 b1 length offset := by
  have more := @List.length_append _ buf later
  rw [decodeMasked] at final
  rw [decodeMasked, decodeMasked]
  by_cases unmasked : b1 &&& 0x80 = 0
  · rw [if_pos unmasked, if_pos unmasked]
  · rw [if_neg unmasked] at final
    rw [if_neg unmasked, if_neg unmasked]
    by_cases partly : buf.length < offset + 4 + length
    · rw [if_pos partly] at final
      exact absurd rfl final
    · rw [if_neg partly, if_neg (by omega), part_append (by omega), part_append (by omega)]

theorem decodeFrame_append (final : decodeFrame buf ≠ .ok none) (later : Bytes) :
    decodeFrame (buf ++ later) = decodeFrame buf := by
  rcases buf with _ | ⟨b0, _ | ⟨b1, rest⟩⟩
  · exact absurd rfl final
  · exact absurd rfl final
  · by_cases plain : b0 &&& 0x70 = 0
    · cases found : frameLength (b0 :: b1 :: rest) (b1 &&& 0x7F) with
      | none =>
          refine absurd ?_ final
          simp only [decodeFrame, plain, ne_eq, not_true, if_false, found]
      | some place =>
          have foundLater := frameLength_append found later
          rw [decodeFrame_of_length plain found] at final ⊢
          rw [← decodeMasked_append final later]
          exact decodeFrame_of_length plain foundLater
    · have refused (rest : Bytes) : decodeFrame (b0 :: b1 :: rest) = .error .reserved := by
        rw [decodeFrame]
        exact if_pos plain
      rw [refused rest]
      exact refused (rest ++ later)

/-! ## The frames of the protocol -/

inductive LengthForm where
  | seven
  | sixteen
  | sixtyFour
deriving DecidableEq

namespace LengthForm

def Fits : LengthForm → Nat → Prop
  | .seven, length => length < 126
  | .sixteen, length => length < 2 ^ 16
  | .sixtyFour, length => length < 2 ^ 63

instance (form : LengthForm) (length : Nat) : Decidable (form.Fits length) := by
  cases form <;> exact inferInstanceAs (Decidable (_ < _))

def short : LengthForm → Nat → UInt8
  | .seven, length => UInt8.ofNat length
  | .sixteen, _ => 126
  | .sixtyFour, _ => 127

def extended : LengthForm → Nat → Bytes
  | .seven, _ => []
  | .sixteen, length => bePut 2 length
  | .sixtyFour, length => bePut 8 length

def offset : LengthForm → Nat
  | .seven => 2
  | .sixteen => 4
  | .sixtyFour => 10

private theorem extended_length (form : LengthForm) (length : Nat) :
    2 + (form.extended length).length = form.offset := by
  cases form with
  | seven => rfl
  | sixteen => exact congrArg (2 + ·) (bePut_length 2 length)
  | sixtyFour => exact congrArg (2 + ·) (bePut_length 8 length)

end LengthForm

/-- Octet `i` of the payload is combined with octet `i` modulo 4 of the mask. -/
def maskPayload (mask : Vector UInt8 4) (payload : Bytes) : Bytes :=
  payload.mapIdx fun i octet => octet ^^^ mask.get ⟨i % 4, Nat.mod_lt i (by decide)⟩

def clientFrame (fin : Bool) (opcode : Fin 16) (mask : Vector UInt8 4) (form : LengthForm)
    (payload : Bytes) : Bytes :=
  ((if fin then 0x80 else 0) ||| UInt8.ofNat opcode) :: (0x80 ||| form.short payload.length) ::
    (form.extended payload.length ++ mask.toList ++ maskPayload mask payload)

private theorem maskPayload_length (mask : Vector UInt8 4) (payload : Bytes) :
    (maskPayload mask payload).length = payload.length :=
  List.length_mapIdx

private theorem unmask_maskPayload (mask : Vector UInt8 4) (payload : Bytes) :
    unmask mask.toList (maskPayload mask payload) = payload := by
  apply List.ext_getElem
  · simp [unmask, maskPayload]
  · intro i inMasked inside
    have place : i % 4 < 4 := Nat.mod_lt i (by decide)
    have key : mask.toList.getD (i % 4) 0 = mask.get ⟨i % 4, place⟩ := by
      rw [List.getD_eq_getElem?_getD, List.getElem?_eq_getElem (by simpa using place),
        Option.getD_some]
      rfl
    simp only [unmask, maskPayload, List.getElem_map, List.getElem_zipIdx, List.getElem_mapIdx,
      Nat.zero_add, key]
    rw [UInt8.xor_assoc, UInt8.xor_self, UInt8.xor_zero]

private theorem first_byte (fin : Bool) (opcode : Fin 16) :
    let b0 : UInt8 := (if fin then 0x80 else 0) ||| UInt8.ofNat opcode
    b0 &&& 0x70 = 0 ∧ decide (b0 &&& 0x80 ≠ 0) = fin ∧ b0 &&& 0x0F = UInt8.ofNat opcode := by
  revert fin opcode
  decide

theorem seven_bits (short : Fin 128) :
    (0x80 ||| UInt8.ofNat short) &&& 0x7F = UInt8.ofNat short ∧
      (0x80 ||| UInt8.ofNat short) &&& 0x80 ≠ 0 := by
  revert short
  decide

namespace LengthForm

private theorem second_byte {form : LengthForm} {length : Nat} (fits : form.Fits length) :
    (0x80 ||| form.short length) &&& 0x7F = form.short length ∧
      (0x80 ||| form.short length) &&& 0x80 ≠ 0 := by
  cases form with
  | seven => exact seven_bits ⟨length, Nat.lt_trans fits (by decide)⟩
  | sixteen => exact seven_bits 126
  | sixtyFour => exact seven_bits 127

private theorem frameLength_extended {form : LengthForm} {length : Nat} (fits : form.Fits length)
    (b0 b1 : UInt8) (rest : Bytes) :
    frameLength (b0 :: b1 :: (form.extended length ++ rest)) (form.short length) =
      some (length, form.offset) := by
  cases form with
  | seven => exact frameLength_seven fits _
  | sixteen =>
      change frameLength (b0 :: b1 :: (bePut 2 length ++ rest)) 126 = some (length, 4)
      have width := bePut_length 2 length
      have field : ((b0 :: b1 :: (bePut 2 length ++ rest)).drop 2).take 2 = bePut 2 length :=
        take_append_of_length rest 2 width
      have there : ¬ (b0 :: b1 :: (bePut 2 length ++ rest)).length < 4 := by
        rw [List.length_cons, List.length_cons, List.length_append]
        omega
      rw [frameLength, if_pos rfl, if_neg there, field, beNat_bePut,
        Nat.mod_eq_of_lt (Nat.lt_of_lt_of_le fits (by decide))]
  | sixtyFour =>
      change frameLength (b0 :: b1 :: (bePut 8 length ++ rest)) 127 = some (length, 10)
      have width := bePut_length 8 length
      have field : ((b0 :: b1 :: (bePut 8 length ++ rest)).drop 2).take 8 = bePut 8 length :=
        take_append_of_length rest 8 width
      have there : ¬ (b0 :: b1 :: (bePut 8 length ++ rest)).length < 10 := by
        rw [List.length_cons, List.length_cons, List.length_append]
        omega
      rw [frameLength, if_neg (by decide), if_pos rfl, if_neg there, field, beNat_bePut,
        Nat.mod_eq_of_lt (Nat.lt_trans fits (by decide))]

end LengthForm

/-! ## Client frames are found -/

section Found

variable (fin : Bool) (opcode : Fin 16) (mask : Vector UInt8 4) {form : LengthForm}
  {payload : Bytes} (fits : form.Fits payload.length)
include fits

theorem decodeFrame_clientFrame (trailing : Bytes) :
    decodeFrame (clientFrame fin opcode mask form payload ++ trailing) =
      .ok (some (⟨fin, UInt8.ofNat opcode, payload⟩,
        (clientFrame fin opcode mask form payload).length)) := by
  obtain ⟨plain, final, code⟩ := first_byte fin opcode
  obtain ⟨short, masked⟩ := LengthForm.second_byte fits
  have extended := form.extended_length payload.length
  have maskLength : mask.toList.length = 4 := mask.length_toList
  have maskedLength := maskPayload_length mask payload
  -- the frame in front of the trailing data: two bytes and the length, the mask, the payload
  let b0 : UInt8 := (if fin then 0x80 else 0) ||| UInt8.ofNat opcode
  let b1 : UInt8 := 0x80 ||| form.short payload.length
  let head : Bytes := b0 :: b1 :: form.extended payload.length
  have headLength : head.length = form.offset := by
    rw [← extended, List.length_cons, List.length_cons]
    omega
  have whole : clientFrame fin opcode mask form payload ++ trailing =
      head ++ (mask.toList ++ (maskPayload mask payload ++ trailing)) := by
    simp only [clientFrame, head, b0, b1, List.cons_append, List.append_assoc]
  have length : (clientFrame fin opcode mask form payload).length =
      form.offset + 4 + payload.length := by
    have sum := congrArg List.length whole
    simp only [List.length_append, headLength, maskLength, maskedLength] at sum
    omega
  have behindHead : (head ++ (mask.toList ++ (maskPayload mask payload ++ trailing))).drop
      form.offset = mask.toList ++ (maskPayload mask payload ++ trailing) :=
    drop_append_of_length _ _ headLength
  have behindMask : (head ++ (mask.toList ++ (maskPayload mask payload ++ trailing))).drop
      (form.offset + 4) = maskPayload mask payload ++ trailing := by
    rw [← List.drop_drop, behindHead]
    exact drop_append_of_length _ _ maskLength
  have enough : ¬ (head ++ (mask.toList ++ (maskPayload mask payload ++ trailing))).length <
      form.offset + 4 + payload.length := by
    simp only [List.length_append, headLength, maskLength, maskedLength]
    omega
  have found := LengthForm.frameLength_extended fits b0 b1
    (mask.toList ++ (maskPayload mask payload ++ trailing))
  rw [← short] at found
  rw [length, whole]
  refine (decodeFrame_of_length plain found).trans ?_
  change
    decodeMasked (head ++ (mask.toList ++ (maskPayload mask payload ++ trailing))) b0 b1 _ _ = _
  rw [decodeMasked, if_neg masked, if_neg enough, behindHead, behindMask,
    take_append_of_length _ 4 maskLength, take_append_of_length _ _ maskedLength,
    unmask_maskPayload, final, code]

private theorem decodeFrame_take {count : Nat}
    (proper : count < (clientFrame fin opcode mask form payload).length) :
    decodeFrame ((clientFrame fin opcode mask form payload).take count) = .ok none := by
  by_contra final
  -- an outcome would be the whole frame's, which takes more bytes than there are
  have whole := decodeFrame_clientFrame fin opcode mask fits []
  have same := decodeFrame_append final ((clientFrame fin opcode mask form payload).drop count)
  rw [List.take_append_drop] at same
  rw [List.append_nil, same] at whole
  have within := (consumed_of_decodeFrame whole).2
  rw [List.length_take] at within
  omega

end Found

/-- Every frame of a client is found behind any cut and nothing before its last byte; and
whatever is found or refused stays so when more bytes arrive. -/
theorem client_frames_parse :
    (∀ (fin : Bool) (opcode : Fin 16) (mask : Vector UInt8 4) (form : LengthForm)
      (payload : Bytes), form.Fits payload.length →
        (∀ trailing, decodeFrame (clientFrame fin opcode mask form payload ++ trailing) =
          .ok (some (⟨fin, UInt8.ofNat opcode, payload⟩,
            (clientFrame fin opcode mask form payload).length))) ∧
        ∀ count < (clientFrame fin opcode mask form payload).length,
          decodeFrame ((clientFrame fin opcode mask form payload).take count) = .ok none) ∧
    ∀ buf later : Bytes, decodeFrame buf ≠ .ok none →
      decodeFrame (buf ++ later) = decodeFrame buf := by
  refine ⟨?_, fun buf later final => decodeFrame_append final later⟩
  intro fin opcode mask form payload fits
  exact ⟨decodeFrame_clientFrame fin opcode mask fits,
    fun count proper => decodeFrame_take fin opcode mask fits proper⟩

theorem client_frames_parse_hi :
    LengthForm.Fits .sixteen ([104, 105] : Bytes).length ∧
      decodeFrame (clientFrame true 1 #v[1, 2, 3, 4] .sixteen [104, 105] ++ [0x81]) =
        .ok (some (⟨true, opText, [104, 105]⟩, 10)) := by
  have fits : LengthForm.Fits .sixteen ([104, 105] : Bytes).length := by decide
  exact ⟨fits, (client_frames_parse.1 true 1 #v[1, 2, 3, 4] .sixteen [104, 105] fits).1 [0x81]⟩

end ProtoFH.Web
