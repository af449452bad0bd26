import ProtoFH.Foundation.Splice
import ProtoFH.Prototype.Pcap

/-! # Reassembled streams

A direction's sequence numbers count its SYN, its bytes and its FIN. The loop takes the
segments that start at the expected number and passes over those that start behind it.
What it returns is a stretch of the stream, which falls short where a segment that was
passed over ends in bytes that no later segment brings. -/

namespace ProtoFH.Prototype

/-! ## Sequence numbers -/

inductive Octet where
  | syn
  | data (byte : UInt8)
  | fin
deriving DecidableEq

def Octet.byte? : Octet → Option UInt8
  | .data byte => some byte
  | .syn | .fin => none

def numbered (stream : Bytes) : List Octet := .syn :: (stream.map .data ++ [.fin])

def TcpPacket.octets (packet : TcpPacket) : List Octet :=
  (if packet.hasSyn then [Octet.syn] else []) ++ packet.payload.map Octet.data ++
    (if packet.hasFin then [Octet.fin] else [])

theorem numbered_length (stream : Bytes) : (numbered stream).length = stream.length + 2 := by
  simp [numbered]

theorem filterMap_byte?_map_data (bytes : Bytes) :
    (bytes.map Octet.data).filterMap Octet.byte? = bytes := by
  rw [List.filterMap_map]
  exact List.filterMap_some

private theorem TcpPacket.octets_length (packet : TcpPacket) :
    packet.octets.length = packet.consumed := by
  rw [octets, consumed, List.length_append, List.length_append, List.length_map]
  cases packet.hasSyn <;> cases packet.hasFin <;> simp [Nat.add_comm]

private theorem TcpPacket.filterMap_octets (packet : TcpPacket) :
    packet.octets.filterMap Octet.byte? = packet.payload := by
  have syn : [Octet.syn].filterMap Octet.byte? = [] := rfl
  have fin : [Octet.fin].filterMap Octet.byte? = [] := rfl
  rw [octets, List.filterMap_append, List.filterMap_append, filterMap_byte?_map_data]
  cases packet.hasSyn <;> cases packet.hasFin <;> simp [syn, fin]

theorem filterMap_take_numbered (stream : Bytes) (position : Nat) :
    ((numbered stream).take position).filterMap Octet.byte? = stream.take (position - 1) := by
  cases position with
  | zero => rfl
  | succ position =>
      have flag : ∀ n, ([Octet.fin].take n).filterMap Octet.byte? = [] := by
        rintro (_ | n) <;> simp [Octet.byte?]
      rw [numbered, List.take_succ_cons, List.filterMap_cons, Octet.byte?, List.take_append,
        List.filterMap_append, flag, List.append_nil, ← List.map_take, filterMap_byte?_map_data]
      rfl

/-- A segment with part of the stream, numbered from `isn` on modulo 2^32. -/
structure Slice (stream : Bytes) (isn : Nat) extends Piece (numbered stream) where
  packet : TcpPacket
  carried : packet.octets = content
  labelled : packet.seq = (isn + start) % 2 ^ 32

namespace Slice

variable {stream : Bytes} {isn : Nat}

theorem stop_eq (slice : Slice stream isn) : slice.stop = slice.start + slice.packet.consumed := by
  rw [Piece.stop, ← slice.carried, TcpPacket.octets_length]

theorem take_stop (slice : Slice stream isn) :
    stream.take (slice.stop - 1) = stream.take (slice.start - 1) ++ slice.packet.payload := by
  rw [← filterMap_take_numbered, slice.toPiece.take_stop, List.filterMap_append,
    filterMap_take_numbered, ← slice.carried, TcpPacket.filterMap_octets]

private theorem start_le (slice : Slice stream isn) : slice.start ≤ stream.length + 2 := by
  rw [← numbered_length]
  exact slice.inside

/-- Byte `index` of the stream, whose sequence number is one behind that of the SYN, is
in the segment. -/
def Carries (slice : Slice stream isn) (index : Nat) : Prop :=
  index < stream.length ∧ slice.Covers (index + 1)

end Slice

/-! ## One direction -/

structure Lane where
  expected : Option Nat
  stream : Option Bytes

def Reassembly.lane (state : Reassembly) (key : Direction) : Lane where
  expected := state.expectedSeq.find? key
  stream := state.streams.find? key

namespace Lane

def synchronize (lane : Lane) (packet : TcpPacket) : Lane :=
  match lane.expected with
  | none => ⟨some packet.seq, some []⟩
  | some _ => lane

def splice (lane : Lane) (packet : TcpPacket) : Except PcapError Lane :=
  let nextExpected := lane.expected.getD 0
  let delta := seqDelta packet.seq nextExpected
  if delta = 0 then
    .ok ⟨some ((nextExpected + packet.consumed) % 2 ^ 32),
      some (lane.stream.getD [] ++ packet.payload)⟩
  else if delta < 0x80000000 then .error (.sequenceGap packet.key nextExpected packet.seq)
  else .ok lane

def accept (lane : Lane) (packet : TcpPacket) : Except PcapError Lane :=
  (lane.synchronize packet).splice packet

end Lane

namespace Reassembly

variable {state after : Reassembly} {packet : TcpPacket}

private theorem lane_synchronize (state : Reassembly) (packet : TcpPacket) (key : Direction) :
    (state.synchronize packet).lane key =
      if packet.key = key then (state.lane key).synchronize packet else state.lane key := by
  by_cases own : packet.key = key
  · subst own
    rw [if_pos rfl]
    cases found : state.expectedSeq.find? packet.key with
    | none | some expected => simp [synchronize, Lane.synchronize, lane, found]
  · rw [if_neg own, synchronize]
    cases state.expectedSeq.find? packet.key with
    | none => simp [lane, Dict.find?_set, own]
    | some expected => rfl

private theorem lane_splice (spliced : state.splice packet = .ok after) (key : Direction) :
    if packet.key = key then (state.lane key).splice packet = .ok (after.lane key)
    else after.lane key = state.lane key := by
  rw [splice] at spliced
  split at spliced
  · next taken =>
      cases spliced
      split
      · next own =>
          subst own
          simp [Lane.splice, lane, taken]
      · next other => simp [lane, Dict.find?_set, other]
  · next elsewhere =>
      split at spliced
      · cases spliced
      · next behind =>
          cases spliced
          split
          · next own =>
              subst own
              simp [Lane.splice, lane, elsewhere, behind]
          · rfl

private theorem lane_accept (accepted : state.accept packet = .ok after) (key : Direction) :
    if packet.key = key then (state.lane key).accept packet = .ok (after.lane key)
    else after.lane key = state.lane key := by
  have spliced := lane_splice accepted key
  rw [lane_synchronize] at spliced
  by_cases own : packet.key = key
  · rw [if_pos own] at spliced ⊢
    rw [if_pos own] at spliced
    exact spliced
  · rw [if_neg own] at spliced ⊢
    rw [if_neg own] at spliced
    exact spliced

end Reassembly

/-! ## Slices of one stream -/

section Slices

variable {stream : Bytes} {isn : Nat} {origin position : Nat}

def expectedAfter (origin : Nat) (slices : List (Slice stream isn)) : Nat :=
  Piece.reached origin (slices.map Slice.toPiece)

private theorem expectedAfter_append (origin : Nat) (earlier later : List (Slice stream isn)) :
    expectedAfter origin (earlier ++ later) =
      expectedAfter (expectedAfter origin earlier) later := by
  rw [expectedAfter, List.map_append, Piece.reached_append]
  rfl

theorem expectedAfter_cons_start (slice : Slice stream isn) (later : List (Slice stream isn)) :
    expectedAfter slice.start (slice :: later) = expectedAfter slice.stop later := by
  have taken : Piece.advance slice.start slice.toPiece = slice.stop := if_pos rfl
  rw [expectedAfter, List.map_cons, Piece.reached, List.foldl_cons, taken]
  rfl

/-- The loop expects `position` and has the stream's bytes from `origin` on. -/
structure Lane.At (lane : Lane) (stream : Bytes) (isn origin position : Nat) : Prop where
  expected : lane.expected = some ((isn + position) % 2 ^ 32)
  stored : ∃ bytes, lane.stream = some bytes ∧
    stream.take (position - 1) = stream.take (origin - 1) ++ bytes

theorem seqDelta_slice (slice : Slice stream isn) (position : Nat) :
    seqDelta slice.packet.seq ((isn + position) % 2 ^ 32) =
      ((slice.start : Int) - position) % 2 ^ 32 := by
  rw [seqDelta, slice.labelled]
  omega

theorem Lane.At.take {lane : Lane} (slice : Slice stream isn)
    (inPlace : lane.At stream isn origin slice.start) :
    ∃ after, lane.splice slice.packet = .ok after ∧ after.At stream isn origin slice.stop := by
  rcases inPlace.stored with ⟨bytes, held, prefixed⟩
  have here : seqDelta slice.packet.seq ((isn + slice.start) % 2 ^ 32) = 0 := by
    rw [seqDelta_slice, Int.sub_self]
    rfl
  refine ⟨⟨some ((isn + slice.stop) % 2 ^ 32), some (bytes ++ slice.packet.payload)⟩, ?_,
    rfl, bytes ++ slice.packet.payload, rfl, ?_⟩
  · rw [Lane.splice, inPlace.expected, Option.getD_some, if_pos here, held, Option.getD_some,
      slice.stop_eq, Nat.mod_add_mod, Nat.add_assoc]
  · rw [slice.take_stop, prefixed, List.append_assoc]

/-- One more segment: the loop goes on as the pieces say, and a segment far ahead is the
only one it passes over that is not behind. -/
theorem Lane.At.accept {lane after : Lane} (inPlace : lane.At stream isn origin position)
    (short : stream.length < 2 ^ 31) (inside : position ≤ stream.length + 2)
    {slice : Slice stream isn} (accepted : lane.accept slice.packet = .ok after) :
    after.At stream isn origin (Piece.advance position slice.toPiece) ∧
      (position < slice.start → 2 ^ 31 ≤ slice.start) := by
  have close := slice.start_le
  have spliced : lane.splice slice.packet = .ok after := by
    rw [Lane.accept, Lane.synchronize, inPlace.expected] at accepted
    exact accepted
  by_cases here : slice.start = position
  · subst here
    rcases Lane.At.take slice inPlace with ⟨other, taken, there⟩
    cases taken.symm.trans spliced
    rw [Piece.advance, if_pos rfl]
    exact ⟨there, fun ahead => absurd ahead (Nat.lt_irrefl _)⟩
  · rw [Lane.splice, inPlace.expected, Option.getD_some, seqDelta_slice] at spliced
    rw [if_neg (by omega)] at spliced
    by_cases gap : ((slice.start : Int) - position) % 2 ^ 32 < 0x80000000
    · rw [if_pos gap] at spliced
      cases spliced
    · rw [if_neg gap] at spliced
      cases spliced
      rw [Piece.advance, if_neg here]
      refine ⟨inPlace, fun ahead => ?_⟩
      omega

variable {slices : List (Slice stream isn)}

theorem Lane.At.run {lane last : Lane} (inPlace : lane.At stream isn origin position)
    (short : stream.length < 2 ^ 31) (inside : position ≤ stream.length + 2)
    (ran : (slices.map Slice.packet).foldlM Lane.accept lane = .ok last) :
    last.At stream isn origin (expectedAfter position slices) ∧
      ∀ (earlier : List (Slice stream isn)) (slice : Slice stream isn) (later),
        slices = earlier ++ slice :: later →
          expectedAfter position earlier < slice.start → 2 ^ 31 ≤ slice.start := by
  induction slices generalizing lane position with
  | nil =>
      cases ran
      refine ⟨inPlace, fun earlier slice later split => ?_⟩
      simp at split
  | cons first rest induction =>
      rw [List.map_cons, List.foldlM_cons] at ran
      rcases except_bind_eq_ok.mp ran with ⟨after, accepted, ran⟩
      have next := inPlace.accept short inside accepted
      have stillInside : Piece.advance position first.toPiece ≤ stream.length + 2 := by
        rw [← numbered_length] at inside ⊢
        exact Piece.advance_le first.toPiece inside
      have rest := induction next.1 stillInside ran
      refine ⟨rest.1, fun earlier slice later split ahead => ?_⟩
      cases earlier with
      | nil =>
          cases split
          exact next.2 ahead
      | cons _ earlier =>
          cases split
          exact rest.2 earlier slice later rfl ahead

/-! ## Complete streams -/

/-- Byte `index` of the stream is in one of the segments. -/
def Captured (slices : List (Slice stream isn)) (index : Nat) : Prop :=
  ∃ slice ∈ slices, slice.Carries index

def Complete (slices : List (Slice stream isn)) (bytes : Bytes) : Prop :=
  ∃ low high, bytes = (stream.take high).drop low ∧
    (∀ index, Captured slices index → low ≤ index ∧ index < high) ∧
    (low < high → Captured slices low ∧ Captured slices (high - 1))

theorem captured_of_lt (origin : Nat) {index : Nat} (low : origin ≤ index + 1)
    (high : index + 1 < expectedAfter origin slices) (inside : index < stream.length) :
    Captured slices index := by
  rcases Piece.exists_covers_of_lt_reached low high with ⟨piece, member, covers⟩
  rcases List.mem_map.mp member with ⟨slice, among, rfl⟩
  exact ⟨slice, among, inside, covers⟩

theorem origin_le_of_captured {index : Nat} (notBehind : ∀ slice ∈ slices, origin ≤ slice.start)
    (captured : Captured slices index) : origin ≤ index + 1 := by
  rcases captured with ⟨slice, among, -, covers⟩
  exact (notBehind slice among).trans covers.1

theorem complete_iff {bytes : Bytes} (notBehind : ∀ slice ∈ slices, origin ≤ slice.start)
    (prefixed : stream.take (expectedAfter origin slices - 1) = stream.take (origin - 1) ++ bytes) :
    Complete slices bytes ↔
      ∀ index, Captured slices index → index + 1 < expectedAfter origin slices := by
  have bytes_eq : bytes = (stream.take (expectedAfter origin slices - 1)).drop
      (min (origin - 1) stream.length) := by
    rw [prefixed, ← List.length_take, List.drop_left]
  have size : bytes.length = min (expectedAfter origin slices - 1) stream.length -
      min (origin - 1) stream.length := by
    rw [bytes_eq, List.length_drop, List.length_take]
  constructor
  · rintro ⟨low, high, written, bounds, ends⟩ index captured
    have between := bounds index captured
    have edges := ends (by omega)
    rcases edges.2 with ⟨-, -, inside, -⟩
    have fromOrigin := origin_le_of_captured notBehind edges.1
    rw [written, List.length_drop, List.length_take] at size
    -- the byte at the origin is captured, so the bytes start there
    have start := bounds (origin - 1) (captured_of_lt origin (by omega) (by omega) (by omega))
    omega
  · intro before
    refine ⟨min (origin - 1) stream.length, min (expectedAfter origin slices - 1) stream.length,
      ?_, ?_, ?_⟩
    · rw [← List.take_eq_take_min]
      exact bytes_eq
    · intro index captured
      have fromOrigin := origin_le_of_captured notBehind captured
      have lower := before index captured
      rcases captured with ⟨-, -, inside, -⟩
      omega
    · intro some
      exact ⟨captured_of_lt origin (by omega) (by omega) (by omega),
        captured_of_lt origin (by omega) (by omega) (by omega)⟩

/-- Every segment that starts behind the expected position brings bytes only that the
segments taken bring too. -/
def OverlapsReached (origin : Nat) (slices : List (Slice stream isn)) : Prop :=
  ∀ (earlier : List (Slice stream isn)) (slice : Slice stream isn) (later),
    slices = earlier ++ slice :: later → slice.start < expectedAfter origin earlier →
      ∀ index, slice.Carries index → index + 1 < expectedAfter origin slices

/-- Segments at the expected position are taken, and those ahead of it bring no bytes,
so what is left are the segments behind. -/
theorem captured_lt_iff (short : stream.length < 2 ^ 31)
    (ahead : ∀ (earlier : List (Slice stream isn)) (slice : Slice stream isn) (later),
      slices = earlier ++ slice :: later → expectedAfter origin earlier < slice.start →
        2 ^ 31 ≤ slice.start) :
    (∀ index, Captured slices index → index + 1 < expectedAfter origin slices) ↔
      OverlapsReached origin slices := by
  constructor
  · intro before earlier slice later split _ index carries
    refine before index ⟨slice, ?_, carries⟩
    rw [split]
    exact List.mem_append_right _ List.mem_cons_self
  · rintro overlaps index ⟨slice, among, carries⟩
    rcases List.append_of_mem among with ⟨earlier, later, split⟩
    rcases Nat.lt_trichotomy slice.start (expectedAfter origin earlier) with behind | here | after
    · exact overlaps earlier slice later split behind index carries
    · refine Nat.lt_of_lt_of_le carries.2.2 ?_
      rw [split, expectedAfter_append, ← here, expectedAfter_cons_start]
      exact Piece.le_reached ..
    · have far := ahead earlier slice later split after
      have inside := carries.1
      have covers := carries.2.1
      omega

end Slices

/-- When the segments captured in a direction are slices of a stream and none starts
behind the first, the bytes returned for the direction are complete exactly when the
segments that start behind the expected number bring nothing that is not taken. -/
theorem reassembly_complete_iff {f stream : Bytes} {isn : Nat} {key : Direction}
    {packets : List TcpPacket} {streams : Dict Direction Bytes}
    {first : Slice stream isn} {rest : List (Slice stream isn)}
    (short : stream.length < 2 ^ 31) (captured : capturedPackets f = .ok packets)
    (sliced : packets.filter (·.key = key) = (first :: rest).map Slice.packet)
    (notBehind : ∀ slice ∈ rest, first.start ≤ slice.start)
    (returned : reassembleTcpStreams f = .ok streams) :
    (∃ bytes, streams.find? key = some bytes ∧ Complete (first :: rest) bytes) ↔
      OverlapsReached first.start (first :: rest) := by
  rcases reassembleTcpStreams_eq_ok returned with ⟨all, state, found, ran, rfl⟩
  cases captured.symm.trans found
  have ranOwn : ((first :: rest).map Slice.packet).foldlM Lane.accept ⟨none, none⟩ =
      .ok (state.lane key) := by
    rw [← sliced]
    refine foldlM_filter_eq_ok (Reassembly.lane · key) ?_ ran
    intro state after packet accepted
    simpa using Reassembly.lane_accept accepted key
  rw [List.map_cons, List.foldlM_cons] at ranOwn
  rcases except_bind_eq_ok.mp ranOwn with ⟨opened, accepted, ranRest⟩
  have atStart :
      (Lane.mk (some first.packet.seq) (some [])).At stream isn first.start first.start :=
    ⟨congrArg some first.labelled, [], rfl, (List.append_nil _).symm⟩
  rcases Lane.At.take first atStart with ⟨other, taken, inPlace⟩
  cases taken.symm.trans accepted
  have inside : first.stop ≤ stream.length + 2 := by
    rw [← numbered_length]
    exact first.stop_le
  have atEnd := inPlace.run short inside ranRest
  rw [← expectedAfter_cons_start] at atEnd
  rcases atEnd.1.stored with ⟨bytes, held, prefixed⟩
  have ahead : ∀ (earlier : List (Slice stream isn)) (slice : Slice stream isn) (later),
      first :: rest = earlier ++ slice :: later →
        expectedAfter first.start earlier < slice.start → 2 ^ 31 ≤ slice.start := by
    intro earlier slice later split ahead
    cases earlier with
    | nil =>
        cases split
        exact absurd ahead (Nat.lt_irrefl _)
    | cons _ earlier =>
        cases split
        rw [expectedAfter_cons_start] at ahead
        exact atEnd.2 earlier slice later rfl ahead
  have fromFirst : ∀ slice ∈ first :: rest, first.start ≤ slice.start :=
    List.forall_mem_cons.mpr ⟨le_rfl, notBehind⟩
  rw [← captured_lt_iff short ahead, ← complete_iff fromFirst prefixed]
  constructor
  · rintro ⟨returned, found, complete⟩
    cases held.symm.trans found
    exact complete
  · intro complete
    exact ⟨bytes, held, complete⟩

/-! ## Two captures -/

/-- A cooked frame from `10.0.0.1` to `10.0.0.2` with a segment and its flags. -/
def cookedFrame (seq : Nat) (flags : UInt8) (payload : Bytes) : Bytes :=
  let link := List.replicate 14 0 ++ [8, 0]
  let ip := [0x45, 0] ++ bePut 2 (40 + payload.length) ++ List.replicate 5 0 ++ [6, 0, 0] ++
    [10, 0, 0, 1] ++ [10, 0, 0, 2]
  let tcp := bePut 2 7000 ++ bePut 2 9000 ++ bePut 4 seq ++ List.replicate 4 0 ++ [0x50, flags] ++
    List.replicate 6 0
  link ++ ip ++ tcp ++ payload

def cookedRecord (frame : Bytes) : Bytes :=
  List.replicate 8 0 ++ bePut 4 frame.length ++ bePut 4 frame.length ++ frame

def cookedCapture (segments : List (Nat × Bytes)) : Bytes :=
  [0xA1, 0xB2, 0xC3, 0xD4] ++ List.replicate 19 0 ++ [113] ++
    segments.flatMap fun (seq, payload) => cookedRecord (cookedFrame seq 0 payload)

def cookedKey : Direction := (dotted [10, 0, 0, 1], 7000, dotted [10, 0, 0, 2], 9000)

def cookedPacket (seq : Nat) (payload : Bytes) : TcpPacket where
  srcIp := dotted [10, 0, 0, 1]
  dstIp := dotted [10, 0, 0, 2]
  sport := 7000
  dport := 9000
  payload := payload
  seq := seq
  ack := 0
  flags := 0

def wholeSlice : Slice [1, 2, 3, 4, 5] 1000 where
  start := 1
  content := [.data 1, .data 2, .data 3, .data 4, .data 5]
  inside := by decide
  agrees := by decide
  packet := cookedPacket 1001 [1, 2, 3, 4, 5]
  carried := by decide
  labelled := by decide

def repeatedSlice : Slice [1, 2, 3, 4, 5] 1000 where
  start := 3
  content := [.data 3, .data 4]
  inside := by decide
  agrees := by decide
  packet := cookedPacket 1003 [3, 4]
  carried := by decide
  labelled := by decide

private theorem overlapsReached_repeated : OverlapsReached 1 [wholeSlice, repeatedSlice] := by
  have last : expectedAfter 1 [wholeSlice, repeatedSlice] = 6 := by decide
  intro earlier slice later split behind index carries
  rw [last]
  have inside : index < 5 := carries.1
  omega

theorem reassembly_complete_iff_repeated :
    ∃ streams bytes,
      reassembleTcpStreams (cookedCapture [(1001, [1, 2, 3, 4, 5]), (1003, [3, 4])]) =
        .ok streams ∧
      streams.find? cookedKey = some bytes ∧ Complete [wholeSlice, repeatedSlice] bytes := by
  have returns : ∃ streams, reassembleTcpStreams
      (cookedCapture [(1001, [1, 2, 3, 4, 5]), (1003, [3, 4])]) = .ok streams :=
    except_exists_of_isOk (by decide +kernel)
  rcases returns with ⟨streams, returned⟩
  have captured : capturedPackets (cookedCapture [(1001, [1, 2, 3, 4, 5]), (1003, [3, 4])]) =
      .ok [cookedPacket 1001 [1, 2, 3, 4, 5], cookedPacket 1003 [3, 4]] := by
    decide +kernel
  have sliced : [cookedPacket 1001 [1, 2, 3, 4, 5], cookedPacket 1003 [3, 4]].filter
      (·.key = cookedKey) = [wholeSlice, repeatedSlice].map Slice.packet := by
    decide
  have complete := (reassembly_complete_iff (by decide) captured sliced (by decide) returned).mpr
    overlapsReached_repeated
  rcases complete with ⟨bytes, found, complete⟩
  exact ⟨streams, bytes, returned, found, complete⟩

def frontSlice : Slice [1, 2, 3, 4, 5, 6, 7, 8] 1000 where
  start := 1
  content := [.data 1, .data 2, .data 3, .data 4, .data 5]
  inside := by decide
  agrees := by decide
  packet := cookedPacket 1001 [1, 2, 3, 4, 5]
  carried := by decide
  labelled := by decide

def overlappingSlice : Slice [1, 2, 3, 4, 5, 6, 7, 8] 1000 where
  start := 4
  content := [.data 4, .data 5, .data 6, .data 7, .data 8]
  inside := by decide
  agrees := by decide
  packet := cookedPacket 1004 [4, 5, 6, 7, 8]
  carried := by decide
  labelled := by decide

private theorem not_complete_front : ¬ Complete [frontSlice, overlappingSlice] [1, 2, 3, 4, 5] := by
  rintro ⟨low, high, written, bounds, -⟩
  have first := bounds 0 ⟨frontSlice, by simp, by decide, by decide, by decide⟩
  have last := bounds 7 ⟨overlappingSlice, by simp, by decide, by decide, by decide⟩
  have size := congrArg List.length written
  rw [List.length_drop, List.length_take] at size
  simp only [List.length_cons, List.length_nil] at size
  omega

/-- A segment that starts behind the expected number and ends ahead of it: its last
three bytes are not returned, and nothing is raised. -/
theorem overlapping_tail_lost :
    let f := cookedCapture [(1001, [1, 2, 3, 4, 5]), (1004, [4, 5, 6, 7, 8])]
    capturedPackets f = .ok ([frontSlice, overlappingSlice].map Slice.packet) ∧
      (reassembleTcpStreams f).toOption.bind (·.find? cookedKey) = some [1, 2, 3, 4, 5] ∧
      ¬ Complete [frontSlice, overlappingSlice] [1, 2, 3, 4, 5] :=
  ⟨by decide +kernel, by decide +kernel, not_complete_front⟩

end ProtoFH.Prototype
