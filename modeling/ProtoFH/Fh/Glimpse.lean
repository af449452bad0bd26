import ProtoFH.Market.Market
import ProtoFH.Soup.Client

/-! # The GLIMPSE bootstrap

`glimpse_bootstrap` blocks on its own socket until the end of the snapshot. What the kernel
answers and what the clock shows are given to it round by round. -/

namespace ProtoFH

structure GlimpseResult where
  session : Bytes := []
  nextLiveSeq : UInt64 := 0
  messageCount : UInt64 := 0

structure GlimpseSnapshot where
  market : Market := {}
  out : GlimpseResult := {}

/-- The return of `glimpse_bootstrap`: true, or false with the text of `err`. -/
abbrev GlimpseReturn := Except String Unit

namespace GlimpseSnapshot

def handleMessage (snapshot : GlimpseSnapshot) (payload : Bytes) :
    GlimpseSnapshot × Option GlimpseReturn :=
  match decode payload with
  | .error _ => (snapshot, none)
  | .ok (.endOfSnapshot sequenceNumber) =>
      ({ snapshot with out := { snapshot.out with nextLiveSeq := sequenceNumber } },
        some (.ok ()))
  | .ok msg =>
      ({ market := (snapshot.market.apply msg).1
         out := { snapshot.out with messageCount := snapshot.out.messageCount + 1 } }, none)

def handlePacket (snapshot : GlimpseSnapshot) (pkt : SoupPacket) :
    GlimpseSnapshot × Option GlimpseReturn :=
  if pkt.type = ascii 'J' then (snapshot, some (.error "glimpse login rejected"))
  else if pkt.type = ascii 'A' then
    match soupParseLoginAccepted pkt.payload with
    | .error _ => (snapshot, none)
    | .ok la => ({ snapshot with out := { snapshot.out with session := la.session.bytes } }, none)
  else if pkt.type = ascii 'Z' then
    (snapshot, some (.error "glimpse ended before end of snapshot"))
  else if pkt.type ≠ ascii 'S' then (snapshot, none)
  else snapshot.handleMessage pkt.payload

def handlePackets (snapshot : GlimpseSnapshot) :
    List SoupPacket → GlimpseSnapshot × Option GlimpseReturn
  | [] => (snapshot, none)
  | pkt :: packets =>
      match snapshot.handlePacket pkt with
      | (after, none) => after.handlePackets packets
      | (after, some result) => (after, some result)

end GlimpseSnapshot

inductive SocketRecv where
  | received (data : Bytes)
  | wouldBlock
  | interrupted
  | failed

/-- One round of the loop: the clock at the check of the deadline, the answer to `recv`, and
the clock after it. -/
structure GlimpseRound where
  checkNs : UInt64
  answer : SocketRecv
  nowNs : UInt64

/-- The variables of `glimpse_bootstrap` in its loop, with all that was sent. -/
structure Glimpse extends GlimpseSnapshot where
  framer : SoupFramer := {}
  lastRx : UInt64
  lastTx : UInt64
  sent : Bytes

namespace Glimpse

def send (glimpse : Glimpse) (type : UInt8) : Glimpse :=
  { glimpse with sent := glimpse.sent ++ soupBuildPacket ⟨type, []⟩ }

def receive (glimpse : Glimpse) (data : Bytes) (nowNs : UInt64) :
    Glimpse × Option GlimpseReturn :=
  let (packets, framer) := SoupFramer.reader.drained (glimpse.framer.feed data)
  let (snapshot, result) := glimpse.toGlimpseSnapshot.handlePackets packets
  let fed := { glimpse with toGlimpseSnapshot := snapshot, framer, lastRx := nowNs }
  match result with
  | some (.ok ()) => (fed.send (ascii 'O'), result)
  | _ => (fed, result)

def idle (glimpse : Glimpse) (nowNs : UInt64) : Glimpse × Option GlimpseReturn :=
  if nowNs - glimpse.lastRx > 15000000000 then
    (glimpse, some (.error "glimpse peer silent for 15 s"))
  else if nowNs - glimpse.lastTx > 1000000000 then
    ({ glimpse.send (ascii 'R') with lastTx := nowNs }, none)
  else (glimpse, none)

def round (glimpse : Glimpse) (deadline : UInt64) (round : GlimpseRound) :
    Glimpse × Option GlimpseReturn :=
  if round.checkNs > deadline then (glimpse, some (.error "glimpse snapshot timeout"))
  else
    match round.answer with
    | .received data =>
        if data = [] then
          (glimpse, some (.error "glimpse connection lost before end of snapshot"))
        else glimpse.receive data round.nowNs
    | .wouldBlock | .interrupted => glimpse.idle round.nowNs
    | .failed => (glimpse, some (.error "glimpse recv error"))

def loop (glimpse : Glimpse) (deadline : UInt64) :
    List GlimpseRound → Glimpse × Option GlimpseReturn
  | [] => (glimpse, none)
  | first :: rounds =>
      match glimpse.round deadline first with
      | (after, none) => after.loop deadline rounds
      | (after, some result) => (after, some result)

end Glimpse

/-- What the kernel answers to `glimpse_bootstrap`; `loginBytes` is what `send` takes. -/
structure GlimpseCalls where
  socket : Int := 3
  hostValid : Bool := true
  connected : Bool := true
  loginBytes : Int := 49
  deadlineNs : UInt64 := 0
  rxNs : UInt64 := 0
  txNs : UInt64 := 0
  rounds : List GlimpseRound

def glimpseLogin (username password : Bytes) : Bytes :=
  soupBuildLoginRequest
    { username := CStr.copy 6 username
      password := CStr.copy 10 password
      requestedSession := .empty
      requestedSequence := 1 }

def GlimpseCalls.refused? (calls : GlimpseCalls) (login : Bytes) : Option String :=
  if calls.socket < 0 then some "socket() failed"
  else if calls.hostValid = false then some "bad glimpse host address"
  else if calls.connected = false then some "glimpse connect failed"
  else if calls.loginBytes ≠ login.length then some "glimpse login send failed"
  else none

def glimpseBootstrap (username password : Bytes) (market : Market) (timeoutNs : UInt64)
    (calls : GlimpseCalls) : GlimpseSnapshot × Option GlimpseReturn :=
  let login := glimpseLogin username password
  match calls.refused? login with
  | some err => ({ market }, some (.error err))
  | none =>
      let glimpse : Glimpse := { market, lastRx := calls.rxNs, lastTx := calls.txNs, sent := login }
      let (last, result) := glimpse.loop (calls.deadlineNs + timeoutNs) calls.rounds
      (last.toGlimpseSnapshot, result)

/-! ## The packets decide -/

namespace GlimpseSnapshot

theorem handlePackets_append (snapshot : GlimpseSnapshot) (packets later : List SoupPacket) :
    snapshot.handlePackets (packets ++ later) =
      match snapshot.handlePackets packets with
      | (after, none) => after.handlePackets later
      | (after, some result) => (after, some result) := by
  induction packets generalizing snapshot with
  | nil => rfl
  | cons pkt packets induction =>
      rw [List.cons_append, handlePackets, handlePackets]
      rcases snapshot.handlePacket pkt with ⟨after, _ | result⟩
      · exact induction after
      · rfl

end GlimpseSnapshot

def soupPackets (bytes : Bytes) : List SoupPacket :=
  (SoupFramer.framing.drain bytes).1.filterMap id

private theorem soupPackets_append (bytes later : Bytes) :
    soupPackets (bytes ++ later) =
      soupPackets bytes ++ soupPackets ((SoupFramer.framing.drain bytes).2 ++ later) := by
  rw [soupPackets, SoupFramer.framing.drain_append, List.filterMap_append]
  rfl

namespace GlimpseRound

def data (round : GlimpseRound) : Bytes :=
  match round.answer with
  | .received data => data
  | _ => []

def heardAt (round : GlimpseRound) (lastRx : UInt64) : UInt64 :=
  match round.answer with
  | .received _ => round.nowNs
  | _ => lastRx

/-- The round is not too late, the peer is not silent for too long, and the connection stays. -/
def Calm (round : GlimpseRound) (deadline lastRx : UInt64) : Prop :=
  round.checkNs ≤ deadline ∧
    match round.answer with
    | .received data => data ≠ []
    | .wouldBlock | .interrupted => round.nowNs - lastRx ≤ 15000000000
    | .failed => False

def AllCalm (deadline : UInt64) : (lastRx : UInt64) → List GlimpseRound → Prop
  | _, [] => True
  | lastRx, round :: rounds =>
      round.Calm deadline lastRx ∧ AllCalm deadline (round.heardAt lastRx) rounds

end GlimpseRound

namespace Glimpse

variable {glimpse : Glimpse} {deadline : UInt64}

structure Handles (glimpse : Glimpse) (bytes : Bytes) (heardAt : UInt64)
    (outcome : Glimpse × Option GlimpseReturn) : Prop where
  packets : glimpse.toGlimpseSnapshot.handlePackets (soupPackets (glimpse.framer.buf ++ bytes)) =
    (outcome.1.toGlimpseSnapshot, outcome.2)
  buf : outcome.1.framer.buf = (SoupFramer.framing.drain (glimpse.framer.buf ++ bytes)).2
  lastRx : outcome.1.lastRx = heardAt

private theorem handles_receive (glimpse : Glimpse) (bytes : Bytes) (nowNs : UInt64) :
    glimpse.Handles bytes nowNs (glimpse.receive bytes nowNs) := by
  have drained := SoupFramer.drained_eq (glimpse.framer.buf ++ bytes) glimpse.framer.badFrames
  change SoupFramer.reader.drained (glimpse.framer.feed bytes) = _ at drained
  rw [receive, drained]
  dsimp only
  rw [← soupPackets]
  rcases handled : glimpse.toGlimpseSnapshot.handlePackets
    (soupPackets (glimpse.framer.buf ++ bytes)) with ⟨after, _ | _ | _⟩ <;>
    exact ⟨handled, rfl, rfl⟩

private theorem handles_idle (stuck : SoupFramer.framing.Stuck glimpse.framer.buf) {nowNs : UInt64}
    (heard : nowNs - glimpse.lastRx ≤ 15000000000) :
    glimpse.Handles [] glimpse.lastRx (glimpse.idle nowNs) := by
  have nothing := SoupFramer.framing.drain_stuck stuck
  have handled (after : Glimpse) (snapshot : after.toGlimpseSnapshot = glimpse.toGlimpseSnapshot)
      (framer : after.framer = glimpse.framer) (lastRx : after.lastRx = glimpse.lastRx) :
      glimpse.Handles [] glimpse.lastRx (after, none) := by
    refine ⟨?_, ?_, lastRx⟩
    · rw [List.append_nil, soupPackets, nothing, snapshot]
      rfl
    · rw [List.append_nil, nothing, framer]
  rw [idle, if_neg (UInt64.not_lt.mpr heard)]
  split
  · exact handled _ rfl rfl rfl
  · exact handled _ rfl rfl rfl

theorem handles_round (stuck : SoupFramer.framing.Stuck glimpse.framer.buf) {round : GlimpseRound}
    (calm : round.Calm deadline glimpse.lastRx) :
    glimpse.Handles round.data (round.heardAt glimpse.lastRx) (glimpse.round deadline round) := by
  obtain ⟨checkNs, answer, nowNs⟩ := round
  obtain ⟨inTime, calm⟩ := calm
  rw [Glimpse.round, if_neg (UInt64.not_lt.mpr inTime)]
  cases answer with
  | received bytes =>
      dsimp only
      rw [if_neg calm]
      exact glimpse.handles_receive bytes nowNs
  | wouldBlock | interrupted => exact handles_idle stuck calm
  | failed => cases calm

theorem round_disturbed {round : GlimpseRound} (disturbed : ¬ round.Calm deadline glimpse.lastRx) :
    ∃ after err, glimpse.round deadline round = (after, some (.error err)) := by
  obtain ⟨checkNs, answer, nowNs⟩ := round
  rw [Glimpse.round]
  split
  · exact ⟨_, _, rfl⟩
  · next inTime =>
      have trouble := fun calm => disturbed ⟨UInt64.not_lt.mp inTime, calm⟩
      cases answer with
      | received bytes => exact ⟨_, _, if_pos (not_not.mp trouble)⟩
      | wouldBlock | interrupted => exact ⟨_, _, if_pos (UInt64.not_le.mp trouble)⟩
      | failed => exact ⟨_, _, rfl⟩

/-- Unless the loop fails for a late or silent peer or a lost connection, it ends as the
packets say, however they come in chunks. -/
theorem loop_cases (rounds : List GlimpseRound) {glimpse : Glimpse}
    (stuck : SoupFramer.framing.Stuck glimpse.framer.buf) :
    glimpse.toGlimpseSnapshot.handlePackets
        (soupPackets (glimpse.framer.buf ++ rounds.flatMap GlimpseRound.data)) =
      ((glimpse.loop deadline rounds).1.toGlimpseSnapshot, (glimpse.loop deadline rounds).2) ∨
    ¬ GlimpseRound.AllCalm deadline glimpse.lastRx rounds ∧
      ∃ err, (glimpse.loop deadline rounds).2 = some (.error err) := by
  induction rounds generalizing glimpse with
  | nil =>
      left
      rw [List.flatMap_nil, List.append_nil, soupPackets, SoupFramer.framing.drain_stuck stuck]
      rfl
  | cons round rounds induction =>
      by_cases calm : round.Calm deadline glimpse.lastRx
      · obtain ⟨packets, buf, lastRx⟩ := handles_round stuck calm
        rw [loop, List.flatMap_cons, ← List.append_assoc, soupPackets_append,
          GlimpseSnapshot.handlePackets_append, packets, ← buf]
        rcases ran : glimpse.round deadline round with ⟨after, _ | result⟩
        · rw [ran] at buf lastRx
          have later := induction (buf ▸ SoupFramer.framing.stuck_drain _ :
            SoupFramer.framing.Stuck after.framer.buf)
          exact later.imp_right fun trouble =>
            ⟨fun allCalm => trouble.1 (lastRx ▸ allCalm.2), trouble.2⟩
        · exact .inl rfl
      · obtain ⟨after, err, ran⟩ := round_disturbed calm
        rw [loop, ran]
        exact .inr ⟨fun allCalm => calm allCalm.1, err, rfl⟩

end Glimpse

structure GlimpseCalls.Undisturbed (calls : GlimpseCalls) (login : Bytes) (timeoutNs : UInt64) :
    Prop where
  connected : calls.refused? login = none
  calm : GlimpseRound.AllCalm (calls.deadlineNs + timeoutNs) calls.rxNs calls.rounds

theorem glimpseBootstrap_cases (username password : Bytes) (market : Market) (timeoutNs : UInt64)
    (calls : GlimpseCalls) :
    glimpseBootstrap username password market timeoutNs calls =
      ({ market } : GlimpseSnapshot).handlePackets
        (soupPackets (calls.rounds.flatMap GlimpseRound.data)) ∨
    ¬ calls.Undisturbed (glimpseLogin username password) timeoutNs ∧
      ∃ err, (glimpseBootstrap username password market timeoutNs calls).2 =
        some (.error err) := by
  rw [glimpseBootstrap]
  dsimp only
  split
  · next err refused =>
      refine .inr ⟨fun undisturbed => ?_, err, rfl⟩
      cases refused.symm.trans undisturbed.connected
  · let glimpse : Glimpse :=
      { market, lastRx := calls.rxNs, lastTx := calls.txNs, sent := glimpseLogin username password }
    rcases @Glimpse.loop_cases (calls.deadlineNs + timeoutNs) calls.rounds glimpse
      SoupFramer.framing.stuck_nil with decided | ⟨troubled, failed⟩
    · exact .inl decided.symm
    · exact .inr ⟨fun undisturbed => troubled undisturbed.calm, failed⟩

/-! ## What the packets say -/

namespace SoupPacket

def message? (pkt : SoupPacket) : Option ItchMsg :=
  if pkt.type = ascii 'S' then (decode pkt.payload).toOption else none

def session? (pkt : SoupPacket) : Option Bytes :=
  if pkt.type = ascii 'A' then
    (soupParseLoginAccepted pkt.payload).toOption.map (·.session.bytes)
  else none

def verdict? (pkt : SoupPacket) : Option GlimpseReturn :=
  if pkt.type = ascii 'J' then some (.error "glimpse login rejected")
  else if pkt.type = ascii 'Z' then some (.error "glimpse ended before end of snapshot")
  else
    match pkt.message? with
    | some (.endOfSnapshot _) => some (.ok ())
    | _ => none

end SoupPacket

namespace GlimpseSnapshot

def after (snapshot : GlimpseSnapshot) (packets : List SoupPacket) : GlimpseSnapshot where
  market := snapshot.market.run (packets.filterMap (·.message?))
  out :=
    { session := (packets.filterMap (·.session?)).getLast?.getD snapshot.out.session
      nextLiveSeq := snapshot.out.nextLiveSeq
      messageCount := snapshot.out.messageCount +
        .ofNat (packets.filterMap (·.message?)).length }

private theorem after_append (snapshot : GlimpseSnapshot) (packets later : List SoupPacket) :
    snapshot.after (packets ++ later) = (snapshot.after packets).after later := by
  simp only [after, List.filterMap_append, List.length_append, UInt64.ofNat_add,
    UInt64.add_assoc, Market.run, List.foldl_append, List.getLast?_append, Option.getD_or]

private theorem after_singleton (snapshot : GlimpseSnapshot) (pkt : SoupPacket) :
    snapshot.after [pkt] =
      { market := snapshot.market.run pkt.message?.toList
        out := { snapshot.out with
          session := pkt.session?.getD snapshot.out.session
          messageCount := snapshot.out.messageCount + .ofNat pkt.message?.toList.length } } := by
  rw [after]
  cases message : pkt.message? <;> cases session : pkt.session? <;> simp [message, session]

variable {pkt : SoupPacket}

private theorem handlePacket_of_quiet (quiet : pkt.verdict? = none) (snapshot : GlimpseSnapshot) :
    snapshot.handlePacket pkt = (snapshot.after [pkt], none) := by
  have count : snapshot.out.messageCount + UInt64.ofNat 0 = snapshot.out.messageCount :=
    UInt64.add_zero _
  rw [SoupPacket.verdict?] at quiet
  split at quiet
  · cases quiet
  split at quiet
  · cases quiet
  rename_i notRejected notEnded
  rw [handlePacket, if_neg notRejected, if_neg notEnded, after_singleton, SoupPacket.session?]
  by_cases accepted : pkt.type = ascii 'A'
  · have noMessage : pkt.message? = none := by
      rw [SoupPacket.message?, accepted]
      rfl
    rw [if_pos accepted, if_pos accepted, noMessage, Option.toList_none, List.length_nil, count]
    cases soupParseLoginAccepted pkt.payload <;> rfl
  · rw [if_neg accepted, if_neg accepted]
    by_cases carries : pkt.type = ascii 'S'
    · rw [SoupPacket.message?, if_pos carries] at quiet ⊢
      rw [if_neg (not_not.mpr carries), handleMessage]
      cases decoded : decode pkt.payload with
      | error reason =>
          rw [Except.toOption, Option.toList_none, List.length_nil, count]
          rfl
      | ok msg =>
          rw [decoded] at quiet
          cases msg with
          | endOfSnapshot sequenceNumber => cases quiet
          | _ => rfl
    · rw [if_pos carries, SoupPacket.message?, if_neg carries, Option.toList_none,
        List.length_nil, count]
      rfl

private theorem handlePacket_endOfSnapshot {nextLiveSeq : UInt64}
    (message : pkt.message? = some (.endOfSnapshot nextLiveSeq)) (snapshot : GlimpseSnapshot) :
    snapshot.handlePacket pkt =
      ({ snapshot with out := { snapshot.out with nextLiveSeq } }, some (.ok ())) := by
  rw [SoupPacket.message?] at message
  split at message
  · next carries =>
      rw [handlePacket, carries]
      change snapshot.handleMessage pkt.payload = _
      rw [handleMessage]
      cases decoded : decode pkt.payload with
      | error reason =>
          rw [decoded] at message
          cases message
      | ok msg =>
          rw [decoded] at message
          cases message
          rfl
  · cases message

theorem handlePacket_of_verdict {result : GlimpseReturn} (verdict : pkt.verdict? = some result)
    (snapshot : GlimpseSnapshot) :
    ∃ last, snapshot.handlePacket pkt = (last, some result) ∧
      (result = .ok () → ∃ nextLiveSeq, pkt.message? = some (.endOfSnapshot nextLiveSeq) ∧
        last = { snapshot with out := { snapshot.out with nextLiveSeq } }) := by
  rw [SoupPacket.verdict?] at verdict
  split at verdict
  · next rejected =>
      cases verdict
      exact ⟨snapshot, by rw [handlePacket, if_pos rejected], nofun⟩
  split at verdict
  · next ended =>
      cases verdict
      exact ⟨snapshot, by rw [handlePacket, ended]; rfl, nofun⟩
  split at verdict
  · next nextLiveSeq message =>
      cases verdict
      exact ⟨_, handlePacket_endOfSnapshot message snapshot, fun _ => ⟨nextLiveSeq, message, rfl⟩⟩
  · cases verdict

theorem handlePackets_of_quiet {packets : List SoupPacket}
    (quiet : ∀ pkt ∈ packets, pkt.verdict? = none) (snapshot : GlimpseSnapshot) :
    snapshot.handlePackets packets = (snapshot.after packets, none) := by
  induction packets generalizing snapshot with
  | nil => rw [handlePackets, after, List.filterMap_nil, List.filterMap_nil]; simp [Market.run]
  | cons pkt packets induction =>
      rw [List.forall_mem_cons] at quiet
      rw [handlePackets, handlePacket_of_quiet quiet.1]
      dsimp only
      rw [induction quiet.2, ← after_append]
      rfl

private theorem handlePackets_spec (snapshot : GlimpseSnapshot) (packets : List SoupPacket) :
    let (got, result) := snapshot.handlePackets packets
    result = packets.findSome? (·.verdict?) ∧
      (result = some (.ok ()) → ∃ before pkt later nextLiveSeq,
        packets = before ++ pkt :: later ∧ (∀ earlier ∈ before, earlier.verdict? = none) ∧
        pkt.message? = some (.endOfSnapshot nextLiveSeq) ∧
        got = { snapshot.after before with
          out := { (snapshot.after before).out with nextLiveSeq } }) := by
  cases verdict : packets.findSome? (·.verdict?) with
  | none =>
      rw [handlePackets_of_quiet (List.findSome?_eq_none_iff.mp verdict)]
      exact ⟨rfl, nofun⟩
  | some result =>
      obtain ⟨before, pkt, later, rfl, ends, quiet⟩ := List.findSome?_eq_some_iff.mp verdict
      obtain ⟨last, handled, isEnd⟩ := handlePacket_of_verdict ends (snapshot.after before)
      rw [handlePackets_append, handlePackets_of_quiet quiet]
      dsimp only
      rw [handlePackets, handled]
      refine ⟨rfl, fun isOk => ?_⟩
      obtain ⟨nextLiveSeq, message, same⟩ := isEnd (Option.some.inj isOk)
      exact ⟨before, pkt, later, nextLiveSeq, rfl, quiet, message, same⟩

end GlimpseSnapshot

/-- Whatever the server sends, and however the bytes are cut into chunks: the bootstrap returns
what the first packet decides that ends it, unless it was disturbed and failed. One that ends
well has applied exactly the messages before the end of the snapshot, and has the session and
the number at which the live feed goes on. -/
theorem glimpse_takes_the_snapshot (username password : Bytes) (market : Market)
    (timeoutNs : UInt64) (calls : GlimpseCalls) :
    let packets := soupPackets (calls.rounds.flatMap GlimpseRound.data)
    let (got, result) := glimpseBootstrap username password market timeoutNs calls
    (result = packets.findSome? (·.verdict?) ∨
      ¬ calls.Undisturbed (glimpseLogin username password) timeoutNs ∧
        ∃ err, result = some (.error err)) ∧
    (result = some (.ok ()) → ∃ before pkt later nextLiveSeq,
      packets = before ++ pkt :: later ∧ (∀ earlier ∈ before, earlier.verdict? = none) ∧
      pkt.message? = some (.endOfSnapshot nextLiveSeq) ∧
      got.market = market.run (before.filterMap (·.message?)) ∧
      got.out =
        { session := (before.filterMap (·.session?)).getLast?.getD []
          nextLiveSeq
          messageCount := .ofNat (before.filterMap (·.message?)).length }) := by
  intro packets
  rcases glimpseBootstrap_cases username password market timeoutNs calls with
    same | ⟨disturbed, err, failed⟩
  · have spec := GlimpseSnapshot.handlePackets_spec { market } packets
    rw [← same] at spec
    refine ⟨.inl spec.1, fun isOk => ?_⟩
    obtain ⟨before, pkt, later, nextLiveSeq, split, quiet, message, got⟩ := spec.2 isOk
    refine ⟨before, pkt, later, nextLiveSeq, split, quiet, message, ?_, ?_⟩
    · rw [got]
      rfl
    · rw [got, GlimpseSnapshot.after, UInt64.zero_add]
  · refine ⟨.inr ⟨disturbed, err, failed⟩, fun isOk => ?_⟩
    cases failed.symm.trans isOk

/-! A login, a clock and the end of the snapshot, in three pieces. -/

def clockSnapshot : Bytes :=
  soupBuildPacket ⟨ascii 'A', putLeftPadded 10 [ascii 'X'] ++ putLeftPadded 20 [ascii '1']⟩ ++
    soupBuildPacket ⟨ascii 'S', ascii 'T' :: bePutU32 5⟩ ++
    soupBuildPacket ⟨ascii 'S', ascii 'G' :: bePutU64 8⟩

def clockCalls : GlimpseCalls where
  rounds :=
    [⟨0, .received (clockSnapshot.take 20), 0⟩, ⟨1, .wouldBlock, 1⟩,
      ⟨1, .received (clockSnapshot.drop 20), 1⟩]

theorem glimpse_takes_the_snapshot_clock :
    (glimpseBootstrap [] [] {} 60 clockCalls).2 = some (.ok ()) := by
  have undisturbed : clockCalls.Undisturbed (glimpseLogin [] []) 60 :=
    ⟨by decide +kernel, ⟨by decide, by decide +kernel⟩, ⟨by decide, by decide⟩,
      ⟨by decide, by decide +kernel⟩, trivial⟩
  have decided := (glimpse_takes_the_snapshot [] [] {} 60 clockCalls).1
  exact (decided.resolve_right fun disturbed => disturbed.1 undisturbed).trans (by decide +kernel)

end ProtoFH
