import ProtoFH.Foundation.Framing
import ProtoFH.Wire.Record

/-! # The record framer

Reassembles records from the stream. A complete but invalid header kills the
stream: the buffer is discarded and nothing is ever returned again. -/

namespace ProtoFH

structure RawRecord where
  kind : RecordKind
  body : Bytes
deriving DecidableEq

structure RecordFramer where
  buf : Bytes := []
  corrupt : Option String := none
deriving DecidableEq

namespace RecordFramer

def feed (framer : RecordFramer) (data : Bytes) : RecordFramer :=
  if framer.corrupt.isSome then framer else { framer with buf := framer.buf ++ data }

def next (framer : RecordFramer) : RecordFramer × Option RawRecord :=
  if framer.corrupt.isSome ∨ framer.buf.length < recordHeaderSize then (framer, none)
  else
    match decodeHeader framer.buf with
    | .error why => ({ buf := [], corrupt := some why }, none)
    | .ok (kind, bodyLen) =>
        let total := recordHeaderSize + bodyLen.toNat
        if framer.buf.length < total then (framer, none)
        else
          ({ framer with buf := framer.buf.drop total },
            some { kind, body := (framer.buf.take total).drop recordHeaderSize })

end RecordFramer

/-! ## Typed records -/

inductive Record where
  | update (rec : UpdateRecord)
  | order (rec : OrderRecord)
  | tick (rec : TickRecord)
  | syncBegin
  | syncEnd (rec : SyncEndRecord)
  | getState
  | hello (rec : HelloRecord)
  | reset
deriving DecidableEq

namespace Record

def kind : Record → RecordKind
  | update _ => .update
  | order _ => .order
  | tick _ => .tick
  | syncBegin => .syncBegin
  | syncEnd _ => .syncEnd
  | getState => .getState
  | hello _ => .hello
  | reset => .reset

def body : Record → Bytes
  | update rec => rec.put
  | order rec => rec.put
  | tick rec => rec.put
  | syncEnd rec => rec.put
  | hello rec => rec.put
  | syncBegin | getState | reset => []

/-- The record as the `encode_*` function of its kind writes it. -/
def encode : Record → Bytes
  | update rec => encodeUpdate rec
  | order rec => encodeOrder rec
  | tick rec => encodeTick rec
  | syncBegin => encodeControl .syncBegin
  | syncEnd rec => encodeSyncEnd rec
  | getState => encodeControl .getState
  | hello rec => encodeHello rec
  | reset => encodeControl .reset

def raw (record : Record) : RawRecord := ⟨record.kind, record.body⟩

theorem encode_eq (record : Record) :
    record.encode = putHeader record.kind (UInt16.ofNat record.kind.bodyLen) ++ record.body := by
  cases record <;> rfl

end Record

theorem BookLevel.put_length (level : BookLevel) : level.put.length = 12 := by
  simp [BookLevel.put]

private theorem putLevels_length (count : UInt8) (depth : Nat) (levels : Vector BookLevel depth) :
    (putLevels count depth levels).length = depth * 12 := by
  induction depth with
  | zero => rfl
  | succ depth induction =>
      have slot : (if depth < count.toNat then levels.back.put
          else List.replicate 12 (0 : UInt8)).length = 12 := by
        split
        · exact BookLevel.put_length _
        · rfl
      rw [putLevels, List.length_append, induction, slot, Nat.succ_mul]

theorem RecordEnvelope.put_length (envelope : RecordEnvelope) : envelope.put.length = 51 := by
  simp [RecordEnvelope.put]

theorem StaticSection.put_length (static : StaticSection) : static.put.length = 30 := by
  simp [StaticSection.put]

theorem StateSection.put_length (state : StateSection) : state.put.length = 11 := by
  simp [StateSection.put]

theorem BookSection.put_length (book : BookSection) : book.put.length = 266 := by
  simp only [BookSection.put, List.length_append, putLevels_length, bePutU8_length,
    bePutU32_length, bePutU64_length]
  rfl

theorem TradeSection.put_length (trade : TradeSection) : trade.put.length = 44 := by
  simp [TradeSection.put]

theorem DeltaSection.put_length (delta : DeltaSection) : delta.put.length = 27 := by
  simp [DeltaSection.put]

theorem UpdateRecord.put_length (rec : UpdateRecord) : rec.put.length = 429 := by
  simp only [UpdateRecord.put, List.length_append, RecordEnvelope.put_length,
    StaticSection.put_length, StateSection.put_length, BookSection.put_length,
    TradeSection.put_length, DeltaSection.put_length]

theorem Record.body_length (record : Record) : record.body.length = record.kind.bodyLen := by
  cases record with
  | update rec => exact rec.put_length
  | order rec => simp [Record.body, OrderRecord.put, Record.kind, RecordKind.bodyLen]
  | tick rec => simp [Record.body, TickRecord.put, Record.kind, RecordKind.bodyLen]
  | syncEnd rec => simp [Record.body, SyncEndRecord.put, Record.kind, RecordKind.bodyLen]
  | hello rec => simp [Record.body, HelloRecord.put, Record.kind, RecordKind.bodyLen]
  | _ => rfl

theorem putHeader_length (kind : RecordKind) (bodyLen : UInt16) :
    (putHeader kind bodyLen).length = recordHeaderSize := by
  simp [putHeader, recordHeaderSize]

theorem decodeHeader_put (kind : RecordKind) (rest : Bytes) :
    decodeHeader (putHeader kind (UInt16.ofNat kind.bodyLen) ++ rest) =
      .ok (kind, UInt16.ofNat kind.bodyLen) := by
  have long : ¬ (putHeader kind (UInt16.ofNat kind.bodyLen) ++ rest).length <
      recordHeaderSize := by
    rw [List.length_append, putHeader_length]
    omega
  rw [decodeHeader, if_neg long]
  cases kind <;> rfl

theorem decodeRecord_of_length {kind : RecordKind} {reader : Reader α} {body : Bytes}
    (length : body.length = kind.bodyLen) :
    decodeRecord kind reader (putHeader kind (UInt16.ofNat kind.bodyLen) ++ body) =
      (reader body).map Prod.fst := by
  have whole : (putHeader kind (UInt16.ofNat kind.bodyLen) ++ body).length =
      recordHeaderSize + kind.bodyLen := by
    rw [List.length_append, putHeader_length, length]
  rw [decodeRecord, checkRecord, decodeHeader_put]
  simp only [ne_eq, not_true_eq_false, if_false, whole,
    drop_append_of_length body _ (putHeader_length _ _)]

theorem decodeRecord_put {kind : RecordKind} {reader : Reader α} {body : Bytes} {value : α}
    (length : body.length = kind.bodyLen) (read : reader (body ++ []) = .ok (value, [])) :
    decodeRecord kind reader (putHeader kind (UInt16.ofNat kind.bodyLen) ++ body) =
      .ok value := by
  rw [List.append_nil] at read
  rw [decodeRecord_of_length length, read]
  rfl

namespace Record

def wired : Record → Record
  | update rec => update rec.wired
  | order rec => order rec.wired
  | syncEnd rec => syncEnd rec.wired
  | record => record

def Sound : Record → Prop
  | update rec => rec.Shallow
  | _ => True

/-- The strict decoder of a kind. The header-only kinds have none of their own: a valid
header must be all there is. -/
def decode (kind : RecordKind) (buf : Bytes) : Except String Record :=
  match kind with
  | .update => (decodeUpdate buf).map update
  | .order => (decodeOrder buf).map order
  | .tick => (decodeTick buf).map tick
  | .syncEnd => (decodeSyncEnd buf).map syncEnd
  | .hello => (decodeHello buf).map hello
  | .syncBegin => (decodeRecord .syncBegin (pure ()) buf).map fun _ => syncBegin
  | .getState => (decodeRecord .getState (pure ()) buf).map fun _ => getState
  | .reset => (decodeRecord .reset (pure ()) buf).map fun _ => reset

theorem decode_encode {record : Record} (sound : record.Sound) :
    decode record.kind record.encode = .ok record.wired := by
  have length := record.body_length
  cases record with
  | update rec =>
      have read : decodeUpdate (encodeUpdate rec) = .ok rec.wired :=
        decodeRecord_put length (UpdateRecord.read_put sound [])
      change (decodeUpdate (encodeUpdate rec)).map update = _
      rw [read]
      rfl
  | order rec =>
      have read : decodeOrder (encodeOrder rec) = .ok rec.wired :=
        decodeRecord_put length (OrderRecord.read_put rec [])
      change (decodeOrder (encodeOrder rec)).map order = _
      rw [read]
      rfl
  | tick rec =>
      have read : decodeTick (encodeTick rec) = .ok rec :=
        decodeRecord_put length (TickRecord.read_put rec [])
      change (decodeTick (encodeTick rec)).map tick = _
      rw [read]
      rfl
  | syncEnd rec =>
      have read : decodeSyncEnd (encodeSyncEnd rec) = .ok rec.wired :=
        decodeRecord_put length (SyncEndRecord.read_put rec [])
      change (decodeSyncEnd (encodeSyncEnd rec)).map syncEnd = _
      rw [read]
      rfl
  | hello rec =>
      have read : decodeHello (encodeHello rec) = .ok rec :=
        decodeRecord_put length (HelloRecord.read_put rec [])
      change (decodeHello (encodeHello rec)).map hello = _
      rw [read]
      rfl
  | syncBegin | getState | reset => rfl

end Record

/-! ## The framing -/

theorem decodeHeader_append {buf : Bytes} (later : Bytes)
    (long : recordHeaderSize ≤ buf.length) :
    decodeHeader (buf ++ later) = decodeHeader buf := by
  have eight : 8 ≤ buf.length := long
  have magic := beGetU16_drop_append later (by omega : 0 + 2 ≤ buf.length)
  simp only [List.drop_zero] at magic
  have longer : ¬ (buf ++ later).length < recordHeaderSize := by
    rw [List.length_append]
    omega
  rw [decodeHeader, decodeHeader, if_neg longer, if_neg (Nat.not_lt.mpr long), magic,
    beGetU8_drop_append later (by omega : 2 < buf.length),
    beGetU8_drop_append later (by omega : 3 < buf.length),
    beGetU16_drop_append later (by omega : 4 + 2 ≤ buf.length)]

namespace RecordFramer

/-- What `next` finds at the front of the buffer of a live stream. -/
def step (buf : Bytes) : FrameStep RawRecord :=
  if buf.length < recordHeaderSize then .more
  else
    match decodeHeader buf with
    | .error why => .bad why
    | .ok (kind, bodyLen) =>
        if buf.length < recordHeaderSize + bodyLen.toNat then .more
        else
          .frame ⟨kind, (buf.take (recordHeaderSize + bodyLen.toNat)).drop recordHeaderSize⟩
            (buf.drop (recordHeaderSize + bodyLen.toNat))

theorem next_eq_step (buf : Bytes) :
    next { buf } =
      match step buf with
      | .more => ({ buf }, none)
      | .bad why => ({ buf := [], corrupt := some why }, none)
      | .frame record rest => ({ buf := rest }, some record) := by
  by_cases short : buf.length < recordHeaderSize
  · simp [next, step, short]
  · cases header : decodeHeader buf with
    | error why => simp [next, step, short, header]
    | ok result =>
        by_cases partialBody : buf.length < recordHeaderSize + result.2.toNat <;>
          simp [next, step, short, header, partialBody]

theorem step_eq_frame {buf rest : Bytes} {record : RawRecord}
    (found : step buf = .frame record rest) :
    ∃ bodyLen : UInt16, decodeHeader buf = .ok (record.kind, bodyLen) ∧
      recordHeaderSize + bodyLen.toNat ≤ buf.length ∧
      record.body =
        (buf.take (recordHeaderSize + bodyLen.toNat)).drop recordHeaderSize ∧
      rest = buf.drop (recordHeaderSize + bodyLen.toNat) := by
  unfold step at found
  split at found
  · cases found
  · split at found
    · cases found
    · next kind bodyLen header =>
        split at found
        · cases found
        · next long =>
            cases found
            exact ⟨bodyLen, header, Nat.not_lt.mp long, rfl, rfl⟩

theorem step_of_header {buf : Bytes} {kind : RecordKind} {bodyLen : UInt16}
    (header : decodeHeader buf = .ok (kind, bodyLen))
    (long : recordHeaderSize + bodyLen.toNat ≤ buf.length) :
    step buf =
      .frame ⟨kind, (buf.take (recordHeaderSize + bodyLen.toNat)).drop recordHeaderSize⟩
        (buf.drop (recordHeaderSize + bodyLen.toNat)) := by
  rw [step, if_neg (by omega), header]
  simp only [if_neg (Nat.not_lt.mpr long)]

def framing : Framing RawRecord where
  step := step
  shrinks := by
    intro buf value rest found
    rcases step_eq_frame found with ⟨bodyLen, -, long, -, rfl⟩
    rw [List.length_drop]
    have : recordHeaderSize = 8 := rfl
    omega
  frame_append := by
    intro buf value rest later found
    rcases step_eq_frame found with ⟨bodyLen, header, long, body, rfl⟩
    have header' : decodeHeader (buf ++ later) = .ok (value.kind, bodyLen) := by
      rw [decodeHeader_append later (by omega), header]
    rw [step_of_header header' (by rw [List.length_append]; omega),
      List.take_append_of_le_length long, List.drop_append_of_le_length long, ← body]

theorem step_encode (record : Record) (rest : Bytes) :
    step (record.encode ++ rest) = .frame record.raw rest := by
  have header := decodeHeader_put record.kind (record.body ++ rest)
  rw [← List.append_assoc, ← record.encode_eq] at header
  have bodyLen : (UInt16.ofNat record.kind.bodyLen).toNat = record.kind.bodyLen :=
    Nat.mod_eq_of_lt record.kind.bodyLen_lt
  have length : record.encode.length = recordHeaderSize + record.kind.bodyLen := by
    rw [record.encode_eq, List.length_append, putHeader_length, record.body_length]
  have found := step_of_header header (by rw [bodyLen, List.length_append, length]; omega)
  rw [found, bodyLen, take_append_of_length rest _ length, drop_append_of_length rest _ length,
    record.encode_eq, drop_append_of_length _ _ (putHeader_length _ _)]
  rfl

private theorem step_take_encode (record : Record) {count : Nat}
    (short : count < record.encode.length) : step (record.encode.take count) = .more := by
  have length : record.encode.length = recordHeaderSize + record.kind.bodyLen := by
    rw [record.encode_eq, List.length_append, putHeader_length, record.body_length]
  have cut : (record.encode.take count).length = count := by
    rw [List.length_take]
    omega
  by_cases header : count < recordHeaderSize
  · rw [step, if_pos (by rw [cut]; exact header)]
  · have front : record.encode.take count =
        putHeader record.kind (UInt16.ofNat record.kind.bodyLen) ++
          record.body.take (count - recordHeaderSize) := by
      rw [record.encode_eq, List.take_append, putHeader_length,
        List.take_of_length_le (by rw [putHeader_length]; omega)]
    have bodyLen : (UInt16.ofNat record.kind.bodyLen).toNat = record.kind.bodyLen :=
      Nat.mod_eq_of_lt record.kind.bodyLen_lt
    rw [step, if_neg (by rw [cut]; exact header), front, decodeHeader_put, ← front]
    simp only [bodyLen]
    rw [if_pos (by rw [cut]; omega)]

end RecordFramer

def encodeAll (records : List Record) : Bytes := records.flatMap Record.encode

theorem encodeAll_append (first second : List Record) :
    encodeAll (first ++ second) = encodeAll first ++ encodeAll second :=
  List.flatMap_append

theorem drain_encodeAll (records : List Record) (rest : Bytes) :
    RecordFramer.framing.drain (encodeAll records ++ rest) =
      (records.map Record.raw ++ (RecordFramer.framing.drain rest).1,
        (RecordFramer.framing.drain rest).2) := by
  induction records with
  | nil => rfl
  | cons record records induction =>
      have front : encodeAll (record :: records) ++ rest =
          record.encode ++ (encodeAll records ++ rest) := by
        simp [encodeAll]
      rw [front, RecordFramer.framing.drain_frame (RecordFramer.step_encode record _), induction]
      rfl

theorem drain_front {records : List Record} {front tail : Bytes}
    (stream : front ++ tail = encodeAll records) :
    ∃ whole left,
      RecordFramer.framing.drain front = ((records.take whole).map Record.raw, left) ∧
        left ++ tail = encodeAll (records.drop whole) ∧ RecordFramer.step left = .more := by
  have stuck {left : Bytes} (more : RecordFramer.step left = .more) :
      RecordFramer.framing.drain left = ([], left) := by
    apply RecordFramer.framing.drain_stuck
    intro value rest found
    rw [show RecordFramer.framing.step = RecordFramer.step from rfl, more] at found
    cases found
  induction records generalizing front with
  | nil =>
      have empty : front = [] := (List.append_eq_nil_iff.mp stream).1
      subst empty
      exact ⟨0, [], stuck rfl, stream, rfl⟩
  | cons record records induction =>
      have split : encodeAll (record :: records) = record.encode ++ encodeAll records := by
        simp [encodeAll]
      rw [split] at stream
      by_cases short : front.length < record.encode.length
      · have cut : front = record.encode.take front.length := by
          have taken := congrArg (List.take front.length) stream
          rwa [List.take_left, List.take_append_of_le_length (Nat.le_of_lt short)] at taken
        have more : RecordFramer.step front = .more := by
          rw [cut]
          exact RecordFramer.step_take_encode record short
        exact ⟨0, front, stuck more, by rw [stream, ← split]; rfl, more⟩
      · -- The first record is complete; what follows it is the front of the others.
        have covers : record.encode = front.take record.encode.length := by
          have taken := congrArg (List.take record.encode.length) stream
          rw [List.take_left, List.take_append_of_le_length (Nat.not_lt.mp short)] at taken
          exact taken.symm
        have front_eq : front = record.encode ++ front.drop record.encode.length := by
          conv_lhs => rw [← List.take_append_drop record.encode.length front, ← covers]
        have later : front.drop record.encode.length ++ tail = encodeAll records := by
          rw [front_eq, List.append_assoc] at stream
          exact List.append_cancel_left stream
        rcases induction later with ⟨whole, left, drained, rest, more⟩
        refine ⟨whole + 1, left, ?_, rest, more⟩
        rw [front_eq, RecordFramer.framing.drain_frame (RecordFramer.step_encode record _), drained]
        rfl

end ProtoFH
