import ProtoFH.Wire.Stream

/-! # SoupBinTCP packets

A packet is a two-byte length that does not count itself, a type byte and a payload.
A length of zero has no room for the type: the framer counts it and scans on behind it. -/

namespace ProtoFH

structure SoupPacket where
  type : UInt8
  payload : Bytes
deriving DecidableEq

/-- The length is cast to 16 bits, so it wraps for a payload of 65535 bytes or more. -/
def soupBuildPacket (packet : SoupPacket) : Bytes :=
  bePutU16 (UInt16.ofNat (1 + packet.payload.length)) ++ packet.type :: packet.payload

structure SoupFramer where
  buf : Bytes := []
  badFrames : UInt64 := 0
deriving DecidableEq

namespace SoupFramer

def feed (framer : SoupFramer) (data : Bytes) : SoupFramer :=
  { framer with buf := framer.buf ++ data }

/-- The loop of `next`, cut off after `fuel` rounds. -/
def nextUpTo : (fuel : Nat) → SoupFramer → SoupFramer × Option SoupPacket
  | 0, framer => (framer, none)
  | fuel + 1, framer =>
      if framer.buf.length < 2 then (framer, none)
      else
        let plen := (beGetU16 framer.buf).toNat
        if plen = 0 then
          nextUpTo fuel { buf := framer.buf.drop 2, badFrames := framer.badFrames + 1 }
        else if framer.buf.length < 2 + plen then (framer, none)
        else
          ({ framer with buf := framer.buf.drop (2 + plen) },
            some ⟨beGetU8 (framer.buf.drop 2), (framer.buf.take (2 + plen)).drop 3⟩)

/-- Every round but the last skips two bytes, so the length of the buffer bounds them. -/
def next (framer : SoupFramer) : SoupFramer × Option SoupPacket :=
  nextUpTo framer.buf.length framer

/-- What one round of `next` finds at the front of the buffer; `none` is a frame of
length zero. -/
def step (buf : Bytes) : FrameStep (Option SoupPacket) :=
  if buf.length < 2 then .more
  else
    let plen := (beGetU16 buf).toNat
    if plen = 0 then .frame none (buf.drop 2)
    else if buf.length < 2 + plen then .more
    else
      .frame (some ⟨beGetU8 (buf.drop 2), (buf.take (2 + plen)).drop 3⟩) (buf.drop (2 + plen))

variable {buf rest : Bytes}

theorem step_eq_skip (found : step buf = .frame none rest) :
    2 ≤ buf.length ∧ (beGetU16 buf).toNat = 0 ∧ rest = buf.drop 2 := by
  unfold step at found
  split at found
  · cases found
  · next long =>
      dsimp only at found
      split at found
      · next zero =>
          cases found
          exact ⟨Nat.not_lt.mp long, zero, rfl⟩
      · split at found <;> cases found

theorem step_eq_packet {packet : SoupPacket} (found : step buf = .frame (some packet) rest) :
    (beGetU16 buf).toNat ≠ 0 ∧ 2 + (beGetU16 buf).toNat ≤ buf.length ∧
      packet = ⟨beGetU8 (buf.drop 2), (buf.take (2 + (beGetU16 buf).toNat)).drop 3⟩ ∧
      rest = buf.drop (2 + (beGetU16 buf).toNat) := by
  unfold step at found
  split at found
  · cases found
  · dsimp only at found
    split at found
    · cases found
    · next nonzero =>
        split at found
        · cases found
        · next long =>
            cases found
            exact ⟨nonzero, Nat.not_lt.mp long, rfl, rfl⟩

theorem step_of_length {buf : Bytes} (nonzero : (beGetU16 buf).toNat ≠ 0)
    (long : 2 + (beGetU16 buf).toNat ≤ buf.length) :
    step buf =
      .frame (some ⟨beGetU8 (buf.drop 2), (buf.take (2 + (beGetU16 buf).toNat)).drop 3⟩)
        (buf.drop (2 + (beGetU16 buf).toNat)) := by
  rw [step, if_neg (by omega)]
  dsimp only
  rw [if_neg nonzero, if_neg (Nat.not_lt.mpr long)]

private theorem step_shrinks {value : Option SoupPacket} (found : step buf = .frame value rest) :
    rest.length < buf.length := by
  cases value with
  | none =>
      rcases step_eq_skip found with ⟨long, -, rfl⟩
      rw [List.length_drop]
      omega
  | some packet =>
      rcases step_eq_packet found with ⟨nonzero, long, -, rfl⟩
      rw [List.length_drop]
      omega

private theorem step_append {value : Option SoupPacket} (later : Bytes)
    (found : step buf = .frame value rest) :
    step (buf ++ later) = .frame value (rest ++ later) := by
  cases value with
  | none =>
      rcases step_eq_skip found with ⟨long, zero, rfl⟩
      rw [step, if_neg (by rw [List.length_append]; omega), beGetU16_append later long]
      dsimp only
      rw [if_pos zero, List.drop_append_of_le_length long]
  | some packet =>
      rcases step_eq_packet found with ⟨nonzero, long, rfl, rfl⟩
      have two : 2 ≤ buf.length := by omega
      have plen := beGetU16_append later two
      rw [step_of_length (by rw [plen]; exact nonzero)
          (by rw [plen, List.length_append]; omega), plen,
        beGetU8_drop_append later (by omega), List.take_append_of_le_length long,
        List.drop_append_of_le_length long]

def framing : Framing (Option SoupPacket) where
  step := step
  shrinks := step_shrinks
  frame_append := step_append

theorem nextUpTo_eq_next {fuel : Nat} {framer : SoupFramer}
    (enough : framer.buf.length ≤ fuel) : framer.nextUpTo fuel = framer.next := by
  suffices ∀ fuel other (framer : SoupFramer), framer.buf.length ≤ fuel →
      framer.buf.length ≤ other → framer.nextUpTo fuel = framer.nextUpTo other from
    this fuel _ framer enough (Nat.le_refl _)
  intro fuel
  induction fuel with
  | zero =>
      intro other framer empty _
      have short : framer.buf.length < 2 := by omega
      cases other <;> simp [nextUpTo, short]
  | succ fuel induction =>
      intro other framer bound otherBound
      by_cases short : framer.buf.length < 2
      · cases other <;> simp [nextUpTo, short]
      · cases other with
        | zero => omega
        | succ other =>
            have skipped := induction other
              { buf := framer.buf.drop 2, badFrames := framer.badFrames + 1 }
              (by rw [List.length_drop]; omega) (by rw [List.length_drop]; omega)
            simp only [nextUpTo, skipped]

theorem next_eq_step (buf : Bytes) (badFrames : UInt64) :
    next { buf, badFrames } =
      match step buf with
      | .frame none rest => next { buf := rest, badFrames := badFrames + 1 }
      | .frame (some packet) rest => ({ buf := rest, badFrames }, some packet)
      | _ => ({ buf, badFrames }, none) := by
  by_cases short : buf.length < 2
  · rw [step, if_pos short, ← nextUpTo_eq_next (Nat.le_succ buf.length), nextUpTo, if_pos short]
  · cases length : buf.length with
    | zero => omega
    | succ fuel =>
        have skipped : nextUpTo fuel { buf := buf.drop 2, badFrames := badFrames + 1 } = next _ :=
          nextUpTo_eq_next (by rw [List.length_drop]; omega)
        rw [next, length, nextUpTo, skipped, if_neg short, step, if_neg short]
        dsimp only
        split
        · rfl
        · split <;> rfl

theorem next_shrinks {framer after : SoupFramer} {packet : SoupPacket}
    (next : framer.next = (after, some packet)) : after.buf.length < framer.buf.length := by
  rcases framer with ⟨buf, badFrames⟩
  induction buf using framing.frame_induction generalizing badFrames with
  | stuck buf stuck =>
      rw [next_eq_step] at next
      cases found : step buf with
      | frame value rest => exact absurd found (stuck value rest)
      | more | bad why => rw [found] at next; cases next
  | frame buf value rest found induction =>
      have shorter := framing.shrinks found
      rw [next_eq_step, show step buf = _ from found] at next
      cases value with
      | none => exact Nat.lt_trans (induction _ next) shorter
      | some packet =>
          cases next
          exact shorter

def reader : StreamReader SoupFramer SoupPacket where
  feed := feed
  next := next
  pending framer := framer.buf.length
  shrinks := next_shrinks

theorem drained_eq (buf : Bytes) (badFrames : UInt64) :
    reader.drained { buf, badFrames } =
      ((framing.drain buf).1.filterMap id,
        { buf := (framing.drain buf).2,
          badFrames := badFrames + UInt64.ofNat ((framing.drain buf).1.count none) }) := by
  induction buf using framing.frame_induction generalizing badFrames with
  | stuck buf stuck =>
      have next := next_eq_step buf badFrames
      rw [framing.drain_stuck stuck]
      cases found : step buf with
      | frame value rest => exact absurd found (stuck value rest)
      | more | bad why =>
          rw [found] at next
          simpa using reader.drained_done next
  | frame buf value rest found induction =>
      have next := next_eq_step buf badFrames
      rw [show step buf = _ from found] at next
      rw [framing.drain_frame found]
      cases value with
      | none =>
          -- A skipped frame: `next` goes on as from the bytes behind it.
          have same := reader.drained_congr next
          rw [same, induction]
          simp [UInt64.add_assoc, UInt64.add_comm]
      | some packet =>
          rw [reader.drained_item next, induction]
          simp

theorem follows : reader.Follows framing id fun seen left =>
    { buf := left, badFrames := UInt64.ofNat (seen.count none) } := by
  intro seen left data _
  have drained := drained_eq (left ++ data) (UInt64.ofNat (seen.count none))
  beta_reduce
  rw [List.count_append, UInt64.ofNat_add]
  exact drained

end SoupFramer

/-! ## Built packets -/

def SoupPacket.Fits (packet : SoupPacket) : Prop := packet.payload.length ≤ 65534

namespace SoupFramer

theorem step_build {packet : SoupPacket} (fits : packet.Fits) (rest : Bytes) :
    step (soupBuildPacket packet ++ rest) = .frame (some packet) rest := by
  have bound : packet.payload.length ≤ 65534 := fits
  have built : (soupBuildPacket packet).length = 3 + packet.payload.length := by
    simp only [soupBuildPacket, List.length_append, bePutU16_length, List.length_cons]
    omega
  have plen : (beGetU16 (soupBuildPacket packet ++ rest)).toNat = 1 + packet.payload.length := by
    rw [soupBuildPacket, List.append_assoc, beGetU16_put, UInt16.toNat_ofNat']
    omega
  have type : (soupBuildPacket packet ++ rest).drop 2 =
      packet.type :: (packet.payload ++ rest) := by
    rw [soupBuildPacket, List.append_assoc, drop_append_of_length _ 2 (bePutU16_length _)]
    rfl
  have payload : (soupBuildPacket packet).drop 3 = packet.payload := by
    rw [soupBuildPacket, ← List.drop_drop (i := 1) (j := 2),
      drop_append_of_length _ 2 (bePutU16_length _)]
    rfl
  have total : 2 + (1 + packet.payload.length) = (soupBuildPacket packet).length := by omega
  rw [step_of_length (by omega) (by rw [plen, total, List.length_append]; omega), plen, total,
    List.take_left, List.drop_left, type, payload]
  rfl

private theorem fits_of_step {buf rest : Bytes} {packet : SoupPacket}
    (found : step buf = .frame (some packet) rest) : packet.Fits := by
  rcases step_eq_packet found with ⟨nonzero, long, rfl, -⟩
  have bound : (beGetU16 buf).toNat < 65536 := (beGetU16 buf).toNat_lt
  change (List.drop 3 _).length ≤ 65534
  rw [List.length_drop, List.length_take_of_le long]
  omega

private theorem drain_build {packets : List SoupPacket} (fits : ∀ packet ∈ packets, packet.Fits) :
    framing.drain (packets.flatMap soupBuildPacket) = (packets.map some, []) :=
  framing.drain_flatMap fun packet member => step_build (fits packet member)

private theorem fits_of_mem_drain (buf : Bytes) :
    ∀ packet, some packet ∈ (framing.drain buf).1 → packet.Fits := by
  intro packet member
  induction buf using framing.frame_induction with
  | stuck buf stuck =>
      rw [framing.drain_stuck stuck] at member
      cases member
  | frame buf value rest found induction =>
      rw [framing.drain_frame found] at member
      rcases List.mem_cons.mp member with first | later
      · exact fits_of_step (first ▸ found)
      · exact induction later

/-- A stream of built packets gives them back exactly when each length fits: no packet
that is returned has a longer payload. -/
theorem returns_built_iff {chunks : List Bytes} {packets : List SoupPacket}
    (stream : chunks.flatten = packets.flatMap soupBuildPacket) :
    (reader.feedAll {} chunks).1 = packets ↔ ∀ packet ∈ packets, packet.Fits := by
  have all : reader.feedAll {} chunks = _ := follows.feedAll_eq chunks
  rw [all]
  constructor
  · intro returned packet member
    rw [← returned, List.mem_filterMap] at member
    rcases member with ⟨frame, member, rfl⟩
    exact fits_of_mem_drain _ packet member
  · intro fits
    rw [stream, drain_build fits]
    simp [List.filterMap_map]

end SoupFramer

/-- Both framers return what the stream holds, however it is cut into chunks. -/
theorem stream_framers_exact (chunks : List Bytes) :
    (RecordFramer.reader.feedAll {} chunks = RecordFramer.reader.feedAll {} [chunks.flatten] ∧
      ((∃ left, Carries chunks.flatten (RecordFramer.reader.feedAll {} chunks).1 left) ∧
        ∀ records left, Carries chunks.flatten records left →
          records <+: (RecordFramer.reader.feedAll {} chunks).1) ∧
      ((RecordFramer.reader.feedAll {} chunks).2.corrupt.isSome ↔
        ∃ records left, Carries chunks.flatten records left ∧ InvalidHeader left) ∧
      ∀ framer : RecordFramer, framer.corrupt.isSome → ∀ later,
        RecordFramer.reader.feedAll framer later = ([], framer)) ∧
    SoupFramer.reader.feedAll {} chunks = SoupFramer.reader.feedAll {} [chunks.flatten] ∧
    ∀ packets, chunks.flatten = packets.flatMap soupBuildPacket →
      ((SoupFramer.reader.feedAll {} chunks).1 = packets ↔ ∀ packet ∈ packets, packet.Fits) :=
  ⟨⟨RecordFramer.follows.feedAll_flatten chunks, RecordFramer.feedAll_maximal chunks,
      RecordFramer.feedAll_corrupt_iff chunks,
      fun _ dead later => RecordFramer.feedAll_of_corrupt dead later⟩,
    SoupFramer.follows.feedAll_flatten chunks,
    fun _ stream => SoupFramer.returns_built_iff stream⟩

def oversizedPacket : SoupPacket := ⟨ascii 'S', List.replicate 65535 0⟩

theorem oversizedPacket_lost :
    (SoupFramer.reader.feedAll {} [soupBuildPacket oversizedPacket]).1 ≠ [oversizedPacket] := by
  intro returned
  have stream : [soupBuildPacket oversizedPacket].flatten =
      [oversizedPacket].flatMap soupBuildPacket := by
    rw [List.flatten_singleton, List.flatMap_singleton]
  have fits : oversizedPacket.payload.length ≤ 65534 :=
    (SoupFramer.returns_built_iff stream).mp returned _ (List.mem_singleton.mpr rfl)
  rw [oversizedPacket, List.length_replicate] at fits
  omega

end ProtoFH
