import ProtoFH.Web.Reencoding
import ProtoFH.Web.State

/-! # Receiving datagrams

The receiver counts a datagram as bad when its decoder raises a `RecordError`, and
catches nothing else. The decoder raises something else exactly for a record of the
right shape with a byte in an alpha field that is not ASCII. -/

namespace ProtoFH.Web

open Format

/-- `_handle_datagram`. An error is an exception that leaves the receiver. -/
def handleDatagram (state : State) (data : Bytes) : Codec State :=
  match decodeRecord data with
  | .ok (.update rec) => .ok (state.applyUpdate rec)
  | .ok _ => .ok state.recordBad
  | .error (.record _) => .ok state.recordBad
  | .error other => .error other

/-- The decoder returned, or raised a `RecordError`. -/
def Expected (result : Codec α) : Prop :=
  Ensures (fun _ => True) (fun error => ∃ reason, error = .record reason) result

def Garbled (data : Bytes) : Prop :=
  ∃ kind : RecordKind, Headed kind data ∧ data.length = recordHeaderSize + kind.bodyLen ∧
    ∃ raw ∈ rawAlphas kind (data.drop recordHeaderSize), ¬ IsAscii raw

/-! ## The outcomes of the decoders -/

variable {raw : FixedBytes width}

theorem alpha_of_ascii (isAscii : IsAscii raw.bytes) :
    alpha raw = .ok (stripRight raw.bytes) := if_pos isAscii

private theorem alpha_of_not_ascii (notAscii : ¬ IsAscii raw.bytes) :
    alpha raw = .error (.unicodeDecode raw.bytes) := if_neg notAscii

@[simp] theorem codec_error_bind (error : CodecError) (next : α → Codec β) :
    ((Except.error error : Codec α) >>= next) = .error error := rfl

/-- The outcome of a decoder that converts these alpha fields one after the other: as
expected if all of them are ASCII, and else an exception at the first that is not. -/
structure Reads (alphas : List Bytes) (result : Codec α) : Prop where
  expected : (∀ raw ∈ alphas, IsAscii raw) → Expected result
  garbled : ∀ raw ∈ alphas, ¬ IsAscii raw → ∃ first, result = .error (.unicodeDecode first)

theorem Reads.nil {result : Codec α} (expected : Expected result) : Reads [] result :=
  ⟨fun _ => expected, nofun⟩

theorem Reads.alpha {rest : List Bytes} {next : Text → Codec α}
    (after : ∀ text, Reads rest (next text)) : Reads (raw.bytes :: rest) (alpha raw >>= next) := by
  by_cases isAscii : IsAscii raw.bytes
  · rw [alpha_of_ascii isAscii, codec_ok_bind]
    constructor
    · intro all
      exact (after _).expected fun other member => all other (List.mem_cons_of_mem _ member)
    · intro other member notAscii
      rcases List.mem_cons.mp member with rfl | later
      · exact absurd isAscii notAscii
      · exact (after _).garbled other later notAscii
  · rw [alpha_of_not_ascii isAscii, codec_error_bind]
    exact ⟨fun all => absurd (all _ List.mem_cons_self) isAscii, fun _ _ _ => ⟨_, rfl⟩⟩

private theorem BookFields.decode_expected
    (values : Nat × Nat × Vector Level bookDepth × Vector Level bookDepth × Nat × Nat × Nat × Nat) :
    Expected (BookFields.decode values) := by
  rw [BookFields.decode]
  split
  · exact ⟨_, rfl⟩
  · trivial

theorem decodeBody_reads {kind : RecordKind} {body : Bytes} (length : body.length = kind.bodyLen) :
    Reads (rawAlphas kind body) (decodeBody kind body) := by
  cases kind with
  | update =>
      have unpacked : updateFormat.unpack body = _ := unpack_of_length length
      rcases read : updateFormat.read body with
        ⟨⟨epoch, pubSeq, session, exchSeq, exchNs, trigger, ticker, group⟩, ⟨isin, staticRest⟩,
          state, book, trade, delta⟩
      simp only [rawAlphas, read, decodeBody, decodeUpdateBody, unpacked, liftStruct_ok,
        codec_ok_bind, EnvelopeFields.decode, StaticFields.decode, bind_assoc, pure_bind]
      refine .alpha fun session => .alpha fun ticker => .alpha fun group => .alpha fun isin => ?_
      exact .nil (Ensures.bind (fun _ => True) (BookFields.decode_expected book)
        fun _ _ => trivial)
  | order =>
      have unpacked : orderFormat.unpack body = _ := unpack_of_length length
      rcases read : orderFormat.read body with
        ⟨orderNumber, ticker, group, side, price, qtyRemaining, orderType⟩
      simp only [rawAlphas, read, decodeBody, decodeOrderBody, unpacked, liftStruct_ok,
        codec_ok_bind]
      exact .alpha fun ticker => .alpha fun group => .nil trivial
  | syncEnd =>
      have unpacked : syncEndFormat.unpack body = _ := unpack_of_length length
      rcases read : syncEndFormat.read body with ⟨session, lastExchSeq, epoch⟩
      simp only [rawAlphas, read, decodeBody, decodeSyncEndBody, unpacked, liftStruct_ok,
        codec_ok_bind]
      exact .alpha fun session => .nil trivial
  | tick =>
      have unpacked : tickFormat.unpack body = _ := unpack_of_length length
      rw [decodeBody, decodeTickBody, unpacked]
      exact .nil trivial
  | hello =>
      have unpacked : helloFormat.unpack body = _ := unpack_of_length length
      rw [decodeBody, decodeHelloBody, unpacked]
      exact .nil trivial
  | syncBegin | getState | reset =>
      rw [List.eq_nil_of_length_eq_zero length]
      exact .nil trivial

private theorem decodeHeader_expected (buf : Bytes) : Expected (decodeHeader buf) := by
  rw [decodeHeader]
  split
  · exact ⟨_, rfl⟩
  next short =>
    have length : (buf.take recordHeaderSize).length = headerFormat.size := by
      rw [List.length_take, Nat.min_eq_left (Nat.not_lt.mp short)]
      rfl
    rw [unpack_of_length length]
    simp only [liftStruct_ok, codec_ok_bind]
    split
    · exact ⟨_, rfl⟩
    split
    · exact ⟨_, rfl⟩
    split
    · exact ⟨_, rfl⟩
    split
    · exact ⟨_, rfl⟩
    · trivial

private theorem decodeRecord_headed {kind : RecordKind} {data : Bytes}
    (header : decodeHeader data = .ok (kind, kind.bodyLen))
    (length : data.length = recordHeaderSize + kind.bodyLen) :
    decodeRecord data = decodeBody kind (data.drop recordHeaderSize) := by
  rw [decodeRecord, header]
  simp only [codec_ok_bind, length, ne_eq, not_true_eq_false, if_false]
  rw [List.take_of_length_le (Nat.le_of_eq length)]

theorem decodeRecord_cases (data : Bytes) :
    Expected (decodeRecord data) ∧ ¬ Garbled data ∨
      (∃ first, decodeRecord data = .error (.unicodeDecode first)) ∧ Garbled data := by
  cases header : decodeHeader data with
  | error error =>
      have expected := decodeHeader_expected data
      rw [header] at expected
      refine .inl ⟨?_, ?_⟩
      · rw [decodeRecord, header]
        exact expected
      · rintro ⟨kind, headed, -⟩
        rw [decodeHeader_of_headed headed] at header
        cases header
  | ok result =>
      obtain ⟨kind, bodyLen⟩ := result
      obtain ⟨headed, rfl⟩ := headed_of_decodeHeader header
      have unique {other : RecordKind} (otherHeaded : Headed other data) : other = kind := by
        rw [decodeHeader_of_headed otherHeaded] at header
        cases header
        rfl
      by_cases length : data.length = recordHeaderSize + kind.bodyLen
      · have bodyLength : (data.drop recordHeaderSize).length = kind.bodyLen := by
          rw [List.length_drop, length]
          omega
        have reads := decodeBody_reads bodyLength
        rw [decodeRecord_headed header length]
        by_cases isAscii : ∀ raw ∈ rawAlphas kind (data.drop recordHeaderSize), IsAscii raw
        · refine .inl ⟨reads.expected isAscii, ?_⟩
          rintro ⟨other, otherHeaded, -, raw, member, notAscii⟩
          rw [unique otherHeaded] at member
          exact notAscii (isAscii raw member)
        · push Not at isAscii
          obtain ⟨raw, member, notAscii⟩ := isAscii
          exact .inr ⟨reads.garbled raw member notAscii,
            kind, headed, length, raw, member, notAscii⟩
      · refine .inl ⟨?_, ?_⟩
        · rw [decodeRecord, header]
          simp only [codec_ok_bind, if_pos length]
          exact ⟨_, rfl⟩
        · rintro ⟨other, otherHeaded, otherLength, -⟩
          rw [unique otherHeaded] at otherLength
          exact length otherLength

/-! ## Datagrams -/

private theorem handleDatagram_expected {data : Bytes} (expected : Expected (decodeRecord data))
    (state : State) :
    (∃ rec, decodeRecord data = .ok (.update rec) ∧
        handleDatagram state data = .ok (state.applyUpdate rec)) ∨
      handleDatagram state data = .ok state.recordBad := by
  rw [handleDatagram]
  cases decoded : decodeRecord data with
  | error error =>
      rw [decoded] at expected
      obtain ⟨reason, rfl⟩ := expected
      exact .inr rfl
  | ok record =>
      cases record with
      | update rec => exact .inl ⟨rec, rfl, rfl⟩
      | _ => exact .inr rfl

/-- A datagram is applied as one valid update or counted as bad, and stops the receiver
exactly when it is garbled. -/
theorem datagram_stops_iff (data : Bytes) :
    (Expected (decodeRecord data) ↔ ¬ Garbled data) ∧
    ∀ state : State,
      (¬ Garbled data →
        (∃ rec, decodeRecord data = .ok (.update rec) ∧
            handleDatagram state data = .ok (state.applyUpdate rec)) ∨
          handleDatagram state data = .ok { state with bad := state.bad + 1 }) ∧
      (Garbled data → ∃ first, handleDatagram state data = .error (.unicodeDecode first)) := by
  rcases decodeRecord_cases data with ⟨expected, clean⟩ | ⟨⟨first, raised⟩, garbled⟩
  · refine ⟨iff_of_true expected clean, fun state => ⟨fun _ => ?_, fun garbled => ?_⟩⟩
    · exact handleDatagram_expected expected state
    · exact absurd garbled clean
  · refine ⟨iff_of_false ?_ (not_not.mpr garbled), fun state => ⟨fun clean => ?_, fun _ => ?_⟩⟩
    · rw [raised]
      rintro ⟨reason, equal⟩
      cases equal
    · exact absurd garbled clean
    · exact ⟨first, by rw [handleDatagram, raised]⟩

def garbledDatagram : Bytes := (ProtoFH.encodeUpdate {}).set 24 0xFF

theorem garbledDatagram_stops :
    handleDatagram {} garbledDatagram =
      .error (.unicodeDecode (0xFF :: List.replicate 9 space)) := by
  decide +kernel

end ProtoFH.Web
