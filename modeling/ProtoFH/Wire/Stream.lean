import ProtoFH.Wire.Framer

/-! # Records of a stream

The framer as a reader of a stream: whatever the chunks, it returns the longest run of
valid records the stream starts with. -/

namespace ProtoFH

namespace RecordFramer

variable {framer : RecordFramer}

theorem next_of_corrupt (dead : framer.corrupt.isSome) : framer.next = (framer, none) := by
  simp [next, dead]

private theorem feed_of_corrupt (dead : framer.corrupt.isSome) (data : Bytes) :
    framer.feed data = framer := by
  simp [feed, dead]

private theorem eq_live (live : ¬ framer.corrupt.isSome) : framer = { buf := framer.buf } := by
  rcases framer with ⟨buf, _ | why⟩
  · rfl
  · exact absurd rfl live

theorem next_shrinks {framer after : RecordFramer} {record : RawRecord}
    (next : framer.next = (after, some record)) : after.buf.length < framer.buf.length := by
  by_cases dead : framer.corrupt.isSome
  · rw [next_of_corrupt dead] at next
    cases next
  · rw [eq_live dead, next_eq_step] at next
    cases step : step framer.buf with
    | frame value rest =>
        rw [step] at next
        cases next
        exact framing.shrinks step
    | more | bad why => rw [step] at next; cases next

def reader : StreamReader RecordFramer RawRecord where
  feed := feed
  next := next
  pending framer := framer.buf.length
  shrinks := next_shrinks

theorem drained_of_corrupt (dead : framer.corrupt.isSome) (data : Bytes) :
    reader.drained (reader.feed framer data) = ([], framer) := by
  rw [show reader.feed framer data = framer from feed_of_corrupt dead data]
  exact reader.drained_done (next_of_corrupt dead)

/-- The framer once everything complete is drained and `left` remains. -/
def settled (left : Bytes) : RecordFramer :=
  match step left with
  | .bad why => { buf := [], corrupt := some why }
  | _ => { buf := left }

theorem step_bad_append {buf : Bytes} {why : String} (later : Bytes) (bad : step buf = .bad why) :
    step (buf ++ later) = .bad why := by
  unfold step at bad
  split at bad
  · cases bad
  · next long =>
      split at bad
      · next reason header =>
          cases bad
          rw [step, decodeHeader_append later (Nat.not_lt.mp long), header,
            if_neg (by rw [List.length_append]; omega)]
      · split at bad <;> cases bad

theorem stuck_of_bad {buf : Bytes} {why : String} (bad : step buf = .bad why) :
    framing.Stuck buf := by
  intro value rest found
  rw [show framing.step buf = step buf from rfl, bad] at found
  cases found

theorem drained_eq (buf : Bytes) :
    reader.drained { buf } = ((framing.drain buf).1, settled (framing.drain buf).2) := by
  induction buf using framing.frame_induction with
  | stuck buf stuck =>
      have next := next_eq_step buf
      rw [framing.drain_stuck stuck, settled]
      cases step : step buf with
      | frame value rest => exact absurd step (stuck value rest)
      | more | bad why =>
          rw [step] at next
          exact reader.drained_done next
  | frame buf value rest found induction =>
      have next := next_eq_step buf
      rw [show step buf = .frame value rest from found] at next
      rw [reader.drained_item next, induction, framing.drain_frame found]

theorem follows : reader.Follows framing some fun _ left => settled left := by
  intro seen left data stuck
  rw [List.filterMap_some]
  beta_reduce
  cases step : step left with
  | bad why =>
      -- The stream is dead, and its bad header is still what the whole stream stops at.
      have dead : settled left = { buf := [], corrupt := some why } := by
        rw [settled, step]
      have bad := step_bad_append data step
      have same : settled (left ++ data) = settled left := by
        rw [settled, bad, dead]
      rw [framing.drain_stuck (stuck_of_bad bad), same, dead]
      exact drained_of_corrupt rfl data
  | more =>
      have live : settled left = { buf := left } := by
        rw [settled, step]
      rw [live]
      exact drained_eq (left ++ data)
  | frame value rest => exact absurd step (stuck value rest)

theorem feedAll_of_corrupt (dead : framer.corrupt.isSome) (chunks : List Bytes) :
    reader.feedAll framer chunks = ([], framer) := by
  induction chunks using List.reverseRecOn with
  | nil => rfl
  | append_singleton chunks chunk induction =>
      rw [StreamReader.feedAll] at induction
      rw [StreamReader.feedAll, List.foldl_append, induction, List.foldl_cons, List.foldl_nil,
        drained_of_corrupt dead]
      rfl

end RecordFramer

/-! ## The valid records of a stream -/

/-- The bytes are one valid record: a header that passes, and the body it announces. -/
def RawRecord.Spelled (record : RawRecord) (bytes : Bytes) : Prop :=
  ∃ bodyLen : UInt16, decodeHeader bytes = .ok (record.kind, bodyLen) ∧
    bytes.length = recordHeaderSize + bodyLen.toNat ∧
      record.body = bytes.drop recordHeaderSize

/-- The stream starts with these records, back to back, and `left` follows them. -/
inductive Carries : Bytes → List RawRecord → Bytes → Prop where
  | done (left : Bytes) : Carries left [] left
  | record {record : RawRecord} {bytes rest left : Bytes} {records : List RawRecord}
      (spelled : record.Spelled bytes) (carries : Carries rest records left) :
      Carries (bytes ++ rest) (record :: records) left

def InvalidHeader (buf : Bytes) : Prop :=
  recordHeaderSize ≤ buf.length ∧ ∃ why, decodeHeader (buf.take recordHeaderSize) = .error why

namespace RecordFramer

theorem step_of_spelled {record : RawRecord} {bytes : Bytes} (spelled : record.Spelled bytes)
    (rest : Bytes) : step (bytes ++ rest) = .frame record rest := by
  rcases spelled with ⟨bodyLen, header, length, body⟩
  have whole : step bytes = .frame record [] := by
    rw [step_of_header header (Nat.le_of_eq length.symm), ← length, List.take_length,
      List.drop_length, ← body]
  exact framing.frame_append rest whole

private theorem spelled_of_step {record : RawRecord} {buf rest : Bytes}
    (found : step buf = .frame record rest) :
    ∃ bytes, record.Spelled bytes ∧ buf = bytes ++ rest := by
  rcases step_eq_frame found with ⟨bodyLen, header, long, body, rfl⟩
  have length : (buf.take (recordHeaderSize + bodyLen.toNat)).length =
      recordHeaderSize + bodyLen.toNat := List.length_take_of_le long
  refine ⟨buf.take (recordHeaderSize + bodyLen.toNat), ⟨bodyLen, ?_, length, body⟩,
    (List.take_append_drop _ _).symm⟩
  have front := decodeHeader_append (buf.drop (recordHeaderSize + bodyLen.toNat))
    (show recordHeaderSize ≤ (buf.take (recordHeaderSize + bodyLen.toNat)).length by omega)
  rwa [List.take_append_drop, header, eq_comm] at front

theorem step_bad_iff (buf : Bytes) : (∃ why, step buf = .bad why) ↔ InvalidHeader buf := by
  by_cases short : buf.length < recordHeaderSize
  · have incomplete : ¬ InvalidHeader buf := fun invalid => absurd invalid.1 (by omega)
    simp [step, short, incomplete]
  · have long := Nat.not_lt.mp short
    have front := decodeHeader_append (buf.drop recordHeaderSize)
      (show recordHeaderSize ≤ (buf.take recordHeaderSize).length by
        rw [List.length_take_of_le long])
    rw [List.take_append_drop] at front
    rw [InvalidHeader, ← front, step, if_neg short]
    cases header : decodeHeader buf with
    | error why => simp [long]
    | ok result =>
        simp only [reduceCtorEq, exists_false, and_false, iff_false, not_exists]
        intro why
        split <;> simp

private theorem corrupt_settled (left : Bytes) :
    (settled left).corrupt.isSome ↔ InvalidHeader left := by
  rw [← step_bad_iff, settled]
  cases step left <;> simp

end RecordFramer

namespace Carries

open RecordFramer

theorem drain (stream : Bytes) :
    Carries stream (framing.drain stream).1 (framing.drain stream).2 := by
  induction stream using framing.frame_induction with
  | stuck stream stuck =>
      rw [framing.drain_stuck stuck]
      exact .done stream
  | frame stream record rest found induction =>
      rcases spelled_of_step found with ⟨bytes, spelled, rfl⟩
      rw [framing.drain_frame found]
      exact .record spelled induction

/-- Any records a stream starts with are the first of those that draining finds, and
draining goes on from what follows them. -/
theorem drain_eq {stream left : Bytes} {records : List RawRecord}
    (carries : Carries stream records left) :
    framing.drain stream = (records ++ (framing.drain left).1, (framing.drain left).2) := by
  induction carries with
  | done left => rfl
  | record spelled carries induction =>
      rw [framing.drain_frame (step_of_spelled spelled _), induction]
      rfl

private theorem drain_of_invalid {stream left : Bytes} {records : List RawRecord}
    (carries : Carries stream records left) (invalid : InvalidHeader left) :
    framing.drain stream = (records, left) := by
  rcases (step_bad_iff left).mpr invalid with ⟨why, bad⟩
  rw [carries.drain_eq, framing.drain_stuck (stuck_of_bad bad), List.append_nil]

end Carries

theorem RecordFramer.feedAll_maximal (chunks : List Bytes) :
    (∃ left, Carries chunks.flatten (reader.feedAll {} chunks).1 left) ∧
      ∀ records left, Carries chunks.flatten records left →
        records <+: (reader.feedAll {} chunks).1 := by
  have all : reader.feedAll {} chunks = _ := follows.feedAll_eq chunks
  rw [all, List.filterMap_some]
  constructor
  · exact ⟨_, Carries.drain chunks.flatten⟩
  · intro records left carries
    rw [carries.drain_eq]
    exact List.prefix_append _ _

theorem RecordFramer.feedAll_corrupt_iff (chunks : List Bytes) :
    (reader.feedAll {} chunks).2.corrupt.isSome ↔
      ∃ records left, Carries chunks.flatten records left ∧ InvalidHeader left := by
  have all : reader.feedAll {} chunks = _ := follows.feedAll_eq chunks
  rw [all, corrupt_settled]
  constructor
  · intro invalid
    exact ⟨_, _, Carries.drain chunks.flatten, invalid⟩
  · rintro ⟨records, left, carries, invalid⟩
    rwa [carries.drain_of_invalid invalid]

end ProtoFH
