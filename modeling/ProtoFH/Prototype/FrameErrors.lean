import ProtoFH.Prototype.Session

/-! # Malformed frames

`feed` decodes all frames that a chunk completes before it returns any packet. When one of
them is malformed it raises, and the packets that it has decoded in that call are lost. So
what has been delivered by then depends on the chunks, except where the malformed frame is
the first that its chunk completes. -/

namespace ProtoFH.Prototype

def packetsBefore : List Bytes → List Packet
  | [] => []
  | frame :: frames =>
      match decodeFrame frame with
      | .error _ => []
      | .ok packet => packet :: packetsBefore frames

theorem packetsBefore_ok {frames : List Bytes} {packets : List Packet}
    (decoded : frames.mapM decodeFrame = .ok packets) (later : List Bytes) :
    packetsBefore (frames ++ later) = packets ++ packetsBefore later := by
  induction frames generalizing packets with
  | nil =>
      cases decoded
      rfl
  | cons frame frames induction =>
      obtain ⟨packet, rest, first, decodedRest, rfl⟩ := mapM_cons_eq_ok decoded
      rw [List.cons_append, packetsBefore, first, List.cons_append, induction decodedRest]

private theorem packetsBefore_error {frames : List Bytes} {error : PacketError}
    (decoded : frames.mapM decodeFrame = .error error) (later : List Bytes) :
    packetsBefore (frames ++ later) = packetsBefore frames := by
  induction frames with
  | nil => cases decoded
  | cons frame frames induction =>
      rw [List.cons_append, packetsBefore, packetsBefore]
      cases first : decodeFrame frame with
      | error _ => rfl
      | ok packet =>
          rw [List.mapM_cons, first] at decoded
          have rest : frames.mapM decodeFrame = .error error := by
            cases decodedRest : frames.mapM decodeFrame with
            | error other =>
                rw [decodedRest] at decoded
                cases decoded
                rfl
            | ok packets =>
                rw [decodedRest] at decoded
                cases decoded
          dsimp only
          rw [induction rest]

namespace FrameBuffer

/-- The packets that the calls of `feed` return, up to the one that raises. -/
def returned (buf : Bytes) : List Bytes → List Packet
  | [] => []
  | data :: chunks =>
      match feed buf data with
      | (_, .error _) => []
      | (left, .ok packets) => packets ++ returned left chunks

def MalformedFirst (buf : Bytes) : List Bytes → Prop
  | [] => True
  | data :: chunks =>
      match feed buf data with
      | (_, .error _) => packetsBefore (framing.drain (buf ++ data)).1 = []
      | (left, .ok _) => MalformedFirst left chunks

private theorem returned_eq_iff {chunks : List Bytes} {buf : Bytes} (stuck : framing.Stuck buf) :
    returned buf chunks = packetsBefore (framing.drain (buf ++ chunks.flatten)).1 ↔
      MalformedFirst buf chunks := by
  induction chunks generalizing buf with
  | nil =>
      rw [List.flatten_nil, List.append_nil, framing.drain_stuck stuck]
      exact ⟨fun _ => trivial, fun _ => rfl⟩
  | cons data chunks induction =>
      obtain ⟨found, left⟩ := feed_eq buf data
      rw [List.flatten_cons, ← List.append_assoc, framing.drain_append, returned, MalformedFirst]
      rcases fed : feed buf data with ⟨after, error | packets⟩
      · rw [fed] at found
        dsimp only
        rw [packetsBefore_error found.symm]
        exact eq_comm
      · rw [fed] at found left
        dsimp only at found left ⊢
        rw [← found] at left
        rw [packetsBefore_ok found.symm, List.append_cancel_left_eq, left rfl]
        exact induction (framing.stuck_drain _)

end FrameBuffer

namespace SoupSession

theorem handlePackets_cons (session : SoupSession) (packet : Packet) (packets : List Packet) :
    session.handlePackets (packet :: packets) =
      (((session.handlePacket packet).1.handlePackets packets).1,
        (session.handlePacket packet).2.toList ++
          ((session.handlePacket packet).1.handlePackets packets).2) := rfl

theorem handlePackets_append (session : SoupSession) (first later : List Packet) :
    session.handlePackets (first ++ later) =
      (((session.handlePackets first).1.handlePackets later).1,
        (session.handlePackets first).2 ++
          ((session.handlePackets first).1.handlePackets later).2) := by
  induction first generalizing session with
  | nil => rfl
  | cons packet first induction =>
      rw [List.cons_append, handlePackets_cons, handlePackets_cons, induction, List.append_assoc]

def withFrames (session : SoupSession) (frames : Bytes) : SoupSession := { session with frames }

theorem handlePackets_withFrames (session : SoupSession) (frames : Bytes)
    (packets : List Packet) :
    (session.withFrames frames).handlePackets packets =
      ((session.handlePackets packets).1.withFrames frames,
        (session.handlePackets packets).2) := by
  induction packets generalizing session with
  | nil => rfl
  | cons packet packets induction =>
      have same : (session.withFrames frames).handlePacket packet =
          ((session.handlePacket packet).1.withFrames frames,
            (session.handlePacket packet).2) := by
        cases packet <;> rfl
      rw [handlePackets_cons, handlePackets_cons, same, induction]

private theorem receive_eq (session : SoupSession) (chunks : List Bytes) :
    (session.receive chunks).2 =
      (session.handlePackets (FrameBuffer.returned session.frames chunks)).2 := by
  induction chunks generalizing session with
  | nil => rfl
  | cons data chunks induction =>
      rw [receive, onBytes, FrameBuffer.returned]
      rcases fed : FrameBuffer.feed session.frames data with ⟨left, error | packets⟩
      · rfl
      · have handled := session.handlePackets_withFrames left packets
        have rest := induction ((session.handlePackets packets).1.withFrames left)
        rw [handlePackets_withFrames] at rest
        change ((session.withFrames left).handlePackets packets).2 ++
          (((session.withFrames left).handlePackets packets).1.receive chunks).2 =
            (session.handlePackets (packets ++ FrameBuffer.returned left chunks)).2
        rw [handled, handlePackets_append]
        exact congrArg _ rest

end SoupSession

/-- All packets before the first malformed frame are returned, and all their calls made,
exactly if the malformed frame is the first that its chunk completes. -/
theorem delivered_before_error_iff (chunks : List Bytes) :
    let before := packetsBefore (FrameBuffer.framing.drain chunks.flatten).1
    (FrameBuffer.returned [] chunks = before ∧
      ∀ session : SoupSession, session.frames = [] →
        (session.receive chunks).2 = (session.handlePackets before).2) ↔
    FrameBuffer.MalformedFirst [] chunks := by
  intro before
  have stuck := FrameBuffer.framing.stuck_nil
  rw [← FrameBuffer.returned_eq_iff stuck, List.nil_append]
  refine ⟨And.left, fun same => ⟨same, ?_⟩⟩
  intro session empty
  rw [session.receive_eq, empty, same]

def messageThenMalformed : Bytes := [0, 2, 83, 7] ++ [0, 1, 63]

/-- In one chunk with the malformed frame the message is lost, in a chunk of its own it is
delivered. -/
theorem coalesced_message_lost :
    FrameBuffer.returned [] [messageThenMalformed] = [] ∧
      (({} : SoupSession).receive [messageThenMalformed]).2 = [] ∧
      FrameBuffer.returned [] [messageThenMalformed.take 4, messageThenMalformed.drop 4] =
        [.sequencedData [7]] ∧
      (({} : SoupSession).receive
        [messageThenMalformed.take 4, messageThenMalformed.drop 4]).2 = [.message 1 [7]] := by
  decide +kernel

end ProtoFH.Prototype
