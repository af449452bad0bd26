import ProtoFH.Prototype.FrameErrors
import ProtoFH.Prototype.Handler

/-! # The end states of the feed handler

A handler that has ended does nothing any more, however the stream was cut into chunks,
exactly if the stream has nothing to handle behind the packet that ends it, and nothing
in front of a malformed frame. -/

namespace ProtoFH.Prototype

/-- A packet that a handler that is over passes over: no login, and no message that can
be decoded. -/
def Packet.Idle : Packet → Prop
  | .loginAccepted .. => False
  | .sequencedData payload => (Message.decode payload).isOk = false
  | _ => True

namespace FeedHandler

def Absorbed (handler : FeedHandler) : Prop :=
  ∀ front event back state, handler.events = front ++ event :: back →
    event.endState? = some state → back = [] ∧ handler.state = state

def Plain (events : List HandlerEvent) : Prop := ∀ event ∈ events, event.endState? = none

def Accounted (handler : FeedHandler) : Prop :=
  handler.state.Over ∨ handler.stopped = true ∨ handler.session.state = .ended ∨
    handler.session.state = .failed → ¬ Plain handler.events

structure Ready (handler : FeedHandler) : Prop where
  running : ¬ handler.state.Over
  reading : handler.stopped = false
  working : handler.raised = none
  loggingIn : handler.session.state = .loginSent
  unread : handler.session.frames = []
  plain : Plain handler.events

theorem Plain.append {events later : List HandlerEvent} (plain : Plain events)
    (plainLater : Plain later) : Plain (events ++ later) := by
  intro event member
  rcases List.mem_append.mp member with first | second
  · exact plain event first
  · exact plainLater event second

variable {handler : FeedHandler}

theorem Plain.absorbed (plain : Plain handler.events) : handler.Absorbed := by
  intro front event back state split isEnd
  rw [plain event (by rw [split]; simp)] at isEnd
  cases isEnd

variable {event : HandlerEvent}

private theorem absorbed_of_last {events : List HandlerEvent} (plain : Plain events)
    (isEnd : event.endState? = some handler.state) (split : handler.events = events ++ [event]) :
    handler.Absorbed := by
  intro front other back state found isOther
  rw [split] at found
  rcases List.eq_nil_or_concat back with rfl | ⟨back, last, rfl⟩
  · obtain ⟨-, same⟩ := List.append_inj' found rfl
    cases same
    exact ⟨rfl, Option.some.inj (isEnd.symm.trans isOther)⟩
  · have shape : events ++ [event] = (front ++ other :: back) ++ [last] := by
      rw [found]
      simp
    obtain ⟨rfl, -⟩ := List.append_inj' shape rfl
    rw [plain other (by simp)] at isOther
    cases isOther

theorem Absorbed.plain (absorbed : handler.Absorbed) (running : ¬ handler.state.Over) :
    Plain handler.events := by
  intro event member
  obtain ⟨front, back, split⟩ := List.append_of_mem member
  cases isEnd : event.endState? with
  | none => rfl
  | some state =>
      have isOver := (absorbed front event back state split isEnd).2
      refine absurd ?_ running
      cases event <;> cases isEnd
      · exact .inl isOver
      · exact .inr isOver

theorem Absorbed.isOver (absorbed : handler.Absorbed) (ended : ¬ Plain handler.events) :
    handler.state.Over := by
  by_contra running
  exact ended (absorbed.plain running)

/-! ## One packet -/

/-- What one packet does to the events and the state: it adds nothing and changes
nothing, adds something while the handler is over, or leaves an absorbed handler. -/
inductive Handled (handler after : FeedHandler) (packet : Packet) : Prop where
  | silent (events : after.events = handler.events) (state : after.state = handler.state)
      (harmless : handler.raised = none → handler.state.Over → packet.Idle)
  | loud (isOver : handler.state.Over) (working : handler.raised = none) (busy : ¬ packet.Idle)
      (grows : ∃ event later, after.events = handler.events ++ event :: later)
  | fresh (running : ¬ handler.state.Over)
      (grows : ∃ later, after.events = handler.events ++ later)
      (absorbed : Plain handler.events → after.Absorbed)

variable {packet : Packet}

theorem handled_conclude {handler told : FeedHandler} {state : HandlerState} {reason : EndReason}
    {added : List HandlerEvent} (isEnd : event.endState? = some state)
    (same : told.state = handler.state) (events : told.events = handler.events ++ added)
    (plainAdded : Plain added) (running : ¬ handler.state.Over) :
    Handled handler (told.conclude state event reason) packet := by
  have ran : ¬ told.state.Over := same ▸ running
  have after : (told.conclude state event reason).events =
      handler.events ++ (added ++ [event]) := by
    rw [conclude, if_neg ran, ← List.append_assoc, ← events]
    rfl
  refine .fresh running ⟨_, after⟩ fun plain => ?_
  refine absorbed_of_last (plain.append plainAdded) ?_ (after.trans (List.append_assoc ..).symm)
  rw [conclude, if_neg ran]
  exact isEnd

theorem handled_message (handler : FeedHandler) (session : SoupSession) (seq : Nat)
    (payload : Bytes) (working : handler.raised = none) :
    Handled handler ({ handler with session }.onItchMessage seq payload)
      (.sequencedData payload) := by
  rw [onItchMessage]
  cases decoded : Message.decode payload with
  | error error =>
      refine .silent rfl rfl fun _ _ => ?_
      change (Message.decode payload).isOk = false
      rw [decoded]
      rfl
  | ok msg =>
      have busy : ¬ (Packet.sequencedData payload).Idle := by
        change ¬ (Message.decode payload).isOk = false
        rw [decoded]
        exact Bool.noConfusion
      have plainApplied : Plain [.applied msg] := by simp [Plain, HandlerEvent.endState?]
      have plainTold : Plain [.applied msg, .message seq msg] := by
        simp [Plain, HandlerEvent.endState?]
      dsimp only
      cases applied : handler.market.apply msg with
      | error error =>
          by_cases isOver : handler.state.Over
          · exact .loud isOver working busy ⟨_, _, rfl⟩
          · exact .fresh isOver ⟨_, rfl⟩ fun plain => Plain.absorbed (plain.append plainApplied)
      | ok market =>
          dsimp only
          have told : ((({ handler with session }.notify (.applied msg)).events) ++
              [HandlerEvent.message seq msg]) =
                handler.events ++ [.applied msg, .message seq msg] :=
            List.append_assoc ..
          by_cases isOver : handler.state.Over
          · refine .loud isOver working busy ⟨.applied msg, [.message seq msg], ?_⟩
            split
            · exact (congrArg events (if_pos isOver)).trans told
            · exact told
          · split
            · exact handled_conclude rfl rfl told plainTold isOver
            · refine .fresh isOver ⟨_, told⟩ fun plain => Plain.absorbed ?_
              have all := plain.append plainTold
              rw [← told] at all
              exact all

theorem handled_handlePacket (handler : FeedHandler) (packet : Packet) :
    Handled handler (handler.handlePacket packet) packet := by
  rw [handlePacket]
  by_cases crashed : handler.raised.isSome
  · rw [if_pos crashed]
    refine .silent rfl rfl fun working => ?_
    rw [working] at crashed
    cases crashed
  · rw [if_neg crashed]
    have working : handler.raised = none := Option.not_isSome_iff_eq_none.mp crashed
    have quiet {session : SoupSession} {reached : HandlerState} {event : HandlerEvent}
        {reason : EndReason} (isOver : handler.state.Over) (idle : packet.Idle) :
        Handled handler ({ handler with session }.conclude reached event reason) packet := by
      have same : { handler with session }.conclude reached event reason =
          { handler with session } := if_pos isOver
      have sameEvents := congrArg events same
      have sameState := congrArg state same
      exact .silent sameEvents sameState fun _ _ => idle
    by_cases isOver : handler.state.Over
    · cases packet with
      | loginAccepted session sequence => exact .loud isOver working id ⟨_, _, rfl⟩
      | sequencedData payload => exact handled_message handler _ _ payload working
      | loginRejected code | endOfSession => exact quiet isOver trivial
      | _ => exact .silent rfl rfl fun _ _ => trivial
    · cases packet with
      | loginAccepted session sequence =>
          refine .fresh isOver ⟨_, rfl⟩ fun plain => Plain.absorbed (plain.append ?_)
          simp [Plain, HandlerEvent.endState?]
      | sequencedData payload => exact handled_message handler _ _ payload working
      | loginRejected code | endOfSession =>
          exact handled_conclude rfl rfl (List.append_nil _).symm (fun _ none => nomatch none)
            isOver
      | _ => exact .silent rfl rfl fun _ alsoOver => absurd alsoOver isOver

theorem Handled.grows {handler after : FeedHandler} (handled : Handled handler after packet) :
    ∃ later, after.events = handler.events ++ later := by
  cases handled with
  | silent events => exact ⟨[], by rw [events, List.append_nil]⟩
  | loud isOver working busy grows =>
      obtain ⟨event, later, grown⟩ := grows
      exact ⟨event :: later, grown⟩
  | fresh running grows => exact grows

def Harmless (handler : FeedHandler) (packet : Packet) : Prop :=
  handler.raised = none → handler.state.Over → packet.Idle

theorem Handled.absorbed {handler after : FeedHandler} (handled : Handled handler after packet)
    (absorbed : handler.Absorbed) (harmless : handler.Harmless packet) : after.Absorbed := by
  cases handled with
  | silent events state =>
      intro front event back reached split isEnd
      rw [events] at split
      rw [state]
      exact absorbed front event back reached split isEnd
  | loud isOver working busy => exact absurd (harmless working isOver) busy
  | fresh running grows fresh => exact fresh (absorbed.plain running)

private theorem not_plain_append {events : List HandlerEvent} (ended : ¬ Plain events)
    (later : List HandlerEvent) : ¬ Plain (events ++ later) := fun plain =>
  ended fun event member => plain event (List.mem_append_left _ member)

theorem not_plain_conclude {state : HandlerState} (reason : EndReason)
    (isEnd : event.endState? = some state) (running : ¬ handler.state.Over) :
    ¬ Plain (handler.conclude state event reason).events := by
  rw [conclude, if_neg running]
  intro plain
  have last := plain event (List.mem_append_right _ List.mem_cons_self)
  rw [isEnd] at last
  cases last

theorem Accounted.handlePacket (accounted : handler.Accounted) (packet : Packet) :
    (handler.handlePacket packet).Accounted := by
  obtain ⟨later, grown⟩ := (handled_handlePacket handler packet).grows
  by_cases plain : Plain handler.events
  swap
  · intro _
    rw [grown]
    exact not_plain_append plain later
  · -- Nothing has stopped the handler yet.
    have running : ¬ handler.state.Over := fun isOver => accounted (.inl isOver) plain
    have reading : ¬ handler.stopped = true := fun stopped => accounted (.inr (.inl stopped)) plain
    have notEnded : ¬ handler.session.state = .ended := fun ended =>
      accounted (.inr (.inr (.inl ended))) plain
    have notFailed : ¬ handler.session.state = .failed := fun failed =>
      accounted (.inr (.inr (.inr failed))) plain
    have quiet : ¬ (handler.state.Over ∨ handler.stopped = true ∨
        handler.session.state = .ended ∨ handler.session.state = .failed) := by tauto
    intro stopping
    rw [FeedHandler.handlePacket] at stopping ⊢
    by_cases crashed : handler.raised.isSome
    · rw [if_pos crashed] at stopping
      exact absurd stopping quiet
    · rw [if_neg crashed] at stopping ⊢
      cases packet with
      | loginAccepted session sequence =>
          refine absurd stopping ?_
          rintro ((live | live) | stopped | ended | failed)
          · cases live
          · cases live
          · exact reading stopped
          · cases ended
          · cases failed
      | loginRejected code | endOfSession => exact not_plain_conclude _ rfl running
      | sequencedData payload =>
          change ¬ Plain (({ handler with
            session := (handler.session.handlePacket (.sequencedData payload)).1 } :
              FeedHandler).onItchMessage handler.session.nextSeq payload).events
          simp only [SoupSession.handlePacket, onEvent, onItchMessage] at stopping ⊢
          cases decoded : Message.decode payload with
          | error error =>
              rw [decoded] at stopping
              exact absurd stopping quiet
          | ok msg =>
              rw [decoded] at stopping
              dsimp only at stopping ⊢
              cases applied : handler.market.apply msg with
              | error error =>
                  rw [applied] at stopping
                  exact absurd stopping quiet
              | ok market =>
                  rw [applied] at stopping
                  dsimp only at stopping ⊢
                  split
                  · exact not_plain_conclude _ rfl running
                  · next notEnd =>
                      rw [if_neg notEnd] at stopping
                      exact absurd stopping quiet
      | _ => exact absurd stopping quiet

/-! ## The packets of a stream -/

def handleAll (handler : FeedHandler) (packets : List Packet) : FeedHandler :=
  packets.foldl handlePacket handler

theorem handleAll_append (handler : FeedHandler) (packets later : List Packet) :
    handler.handleAll (packets ++ later) = (handler.handleAll packets).handleAll later :=
  List.foldl_append

theorem handleAll_grows (handler : FeedHandler) (packets : List Packet) :
    ∃ later, (handler.handleAll packets).events = handler.events ++ later := by
  induction packets generalizing handler with
  | nil => exact ⟨[], (List.append_nil _).symm⟩
  | cons packet packets induction =>
      obtain ⟨first, step⟩ := (handled_handlePacket handler packet).grows
      obtain ⟨rest, run⟩ := induction (handler.handlePacket packet)
      exact ⟨first ++ rest, run.trans (by rw [step, List.append_assoc])⟩

theorem Accounted.handleAll (accounted : handler.Accounted) (packets : List Packet) :
    (handler.handleAll packets).Accounted :=
  foldl_invariant Accounted (fun _ packet _ accounted => accounted.handlePacket packet) accounted

theorem handleAll_absorbed_iff (absorbed : handler.Absorbed) (accounted : handler.Accounted)
    (packets : List Packet) :
    (handler.handleAll packets).Absorbed ↔
      ∀ n packet, packets[n]? = some packet →
        (handler.handleAll (packets.take n)).Harmless packet := by
  induction packets generalizing handler with
  | nil => exact iff_of_true absorbed nofun
  | cons packet packets induction =>
      have handled := handled_handlePacket handler packet
      have next (harmless : handler.Harmless packet) :=
        induction (handled.absorbed absorbed harmless) (accounted.handlePacket packet)
      constructor
      · intro final
        have harmless : handler.Harmless packet := by
          intro working isOver
          cases handled with
          | silent events state harmless => exact harmless working isOver
          | fresh running => exact absurd isOver running
          | loud _ _ _ grows =>
              -- The end is followed by another event, and so it stays.
              exfalso
              obtain ⟨event, later, grown⟩ := grows
              obtain ⟨more, run⟩ := handleAll_grows (handler.handlePacket packet) packets
              have ended := accounted (.inl isOver)
              rw [Plain] at ended
              push Not at ended
              obtain ⟨last, member, isEnd⟩ := ended
              obtain ⟨state, isState⟩ := Option.ne_none_iff_exists'.mp isEnd
              obtain ⟨front, back, split⟩ := List.append_of_mem member
              have events : (handler.handleAll (packet :: packets)).events =
                  front ++ last :: (back ++ event :: later ++ more) := by
                refine run.trans ?_
                rw [grown, split]
                simp
              have empty := (final front last _ state events isState).1
              simp at empty
        intro n other found
        cases n with
        | zero =>
            cases found
            exact harmless
        | succ n => exact (next harmless).mp final n other found
      · intro conditions
        have harmless : handler.Harmless packet := conditions 0 packet rfl
        exact (next harmless).mpr fun n other found => conditions (n + 1) other found

theorem handleAll_done (absorbed : handler.Absorbed)
    (done : handler.raised.isSome ∨ handler.state.Over) (packets : List Packet)
    (harmless : ∀ n packet, packets[n]? = some packet →
      (handler.handleAll (packets.take n)).Harmless packet) :
    (handler.handleAll packets).events = handler.events := by
  induction packets generalizing handler with
  | nil => rfl
  | cons packet packets induction =>
      have here : handler.Harmless packet := harmless 0 packet rfl
      have kept : (handler.handlePacket packet).events = handler.events ∧
          (handler.handlePacket packet).state = handler.state ∧
          (handler.raised.isSome → handler.handlePacket packet = handler) := by
        have crash (crashed : handler.raised.isSome) : handler.handlePacket packet = handler :=
          if_pos crashed
        cases handled_handlePacket handler packet with
        | silent events state => exact ⟨events, state, crash⟩
        | loud isOver working busy => exact absurd (here working isOver) busy
        | fresh running =>
            have same := crash (done.resolve_right running)
            exact ⟨congrArg events same, congrArg state same, crash⟩
      have doneNext : (handler.handlePacket packet).raised.isSome ∨
          (handler.handlePacket packet).state.Over := by
        rcases done with crashed | isOver
        · rw [kept.2.2 crashed]
          exact .inl crashed
        · rw [kept.2.1]
          exact .inr isOver
      have rest := induction ((handled_handlePacket handler packet).absorbed absorbed here) doneNext
        fun n other found => harmless (n + 1) other found
      exact rest.trans kept.1

/-! ## The chunks of a stream -/

def reading (handler : FeedHandler) (frames : Bytes) : FeedHandler :=
  { handler with session := { handler.session with frames } }

theorem conclude_reading (handler : FeedHandler) (frames : Bytes) (state : HandlerState)
    (event : HandlerEvent) (reason : EndReason) :
    (handler.reading frames).conclude state event reason =
      (handler.conclude state event reason).reading frames := by
  have same : (handler.reading frames).state = handler.state := rfl
  rw [conclude, conclude, same]
  split <;> rfl

private theorem onItchMessage_reading (handler : FeedHandler) (frames : Bytes) (seq : Nat)
    (payload : Bytes) :
    (handler.reading frames).onItchMessage seq payload =
      (handler.onItchMessage seq payload).reading frames := by
  have market : (handler.reading frames).market = handler.market := rfl
  rw [onItchMessage, onItchMessage]
  cases Message.decode payload with
  | error error => rfl
  | ok msg =>
      dsimp only
      rw [market]
      cases handler.market.apply msg with
      | error error => rfl
      | ok market =>
          dsimp only
          split
          · exact conclude_reading
              ({ handler.notify (.applied msg) with market }.notify (.message seq msg)) frames ..
          · rfl

private theorem handlePacket_reading (handler : FeedHandler) (frames : Bytes) (packet : Packet) :
    (handler.reading frames).handlePacket packet =
      (handler.handlePacket packet).reading frames := by
  rw [handlePacket, handlePacket]
  by_cases crashed : handler.raised.isSome
  · rw [if_pos crashed]
    exact if_pos crashed
  · rw [if_neg crashed]
    refine (if_neg crashed).trans ?_
    let session := (handler.session.handlePacket packet).1
    cases packet with
    | loginRejected code | endOfSession =>
        exact conclude_reading { handler with session } frames ..
    | sequencedData payload =>
        exact onItchMessage_reading { handler with session } frames handler.session.nextSeq payload
    | _ => rfl

theorem handleAll_reading (handler : FeedHandler) (frames : Bytes) (packets : List Packet) :
    (handler.reading frames).handleAll packets = (handler.handleAll packets).reading frames := by
  induction packets generalizing handler with
  | nil => rfl
  | cons packet packets induction =>
      exact (congrArg (·.handleAll packets) (handlePacket_reading handler frames packet)).trans
        (induction _)

def Malformed (frames : List Bytes) : Prop := ∃ frame ∈ frames, (decodeFrame frame).isOk = false

variable {frames : List Bytes} {packets : List Packet}

theorem not_malformed (decoded : frames.mapM decodeFrame = .ok packets) : ¬ Malformed frames := by
  induction frames generalizing packets with
  | nil => rintro ⟨frame, member, -⟩; cases member
  | cons frame frames induction =>
      obtain ⟨packet, others, isPacket, areOthers, -⟩ := mapM_cons_eq_ok decoded
      rintro ⟨other, member, bad⟩
      rcases List.mem_cons.mp member with rfl | later
      · rw [isPacket] at bad
        cases bad
      · exact induction areOthers ⟨other, later, bad⟩

theorem packetsBefore_eq (decoded : frames.mapM decodeFrame = .ok packets) :
    packetsBefore frames = packets := by
  have whole := packetsBefore_ok decoded []
  rw [List.append_nil] at whole
  exact whole.trans (List.append_nil packets)

private theorem packetsBefore_isPrefix (frames later : List Bytes) :
    packetsBefore frames <+: packetsBefore (frames ++ later) := by
  induction frames with
  | nil => exact List.nil_prefix
  | cons frame frames induction =>
      rw [List.cons_append, packetsBefore, packetsBefore]
      cases decodeFrame frame with
      | error error => exact List.nil_prefix
      | ok packet => exact List.cons_prefix_cons.mpr ⟨rfl, induction⟩

theorem Malformed.append (malformed : Malformed frames) (later : List Bytes) :
    Malformed (frames ++ later) := by
  obtain ⟨frame, member, bad⟩ := malformed
  exact ⟨frame, List.mem_append_left _ member, bad⟩

private theorem exists_packetsBefore (frames : List Bytes) :
    ∃ good bad, frames = good ++ bad ∧ good.mapM decodeFrame = .ok (packetsBefore frames) ∧
      (bad = [] ∨ ∃ error, bad.mapM decodeFrame = .error error) := by
  induction frames with
  | nil => exact ⟨[], [], rfl, rfl, .inl rfl⟩
  | cons frame frames induction =>
      rw [packetsBefore]
      cases decoded : decodeFrame frame with
      | error error =>
          refine ⟨[], frame :: frames, rfl, rfl, .inr ⟨error, ?_⟩⟩
          rw [List.mapM_cons, decoded]
          rfl
      | ok packet =>
          obtain ⟨good, bad, split, goods, bads⟩ := induction
          refine ⟨frame :: good, bad, by rw [split, List.cons_append], ?_, bads⟩
          rw [List.mapM_cons, decoded, goods]
          rfl

theorem malformed_of_error {error : PacketError} (failed : frames.mapM decodeFrame = .error error) :
    Malformed frames := by
  induction frames with
  | nil => cases failed
  | cons frame frames induction =>
      rw [List.mapM_cons] at failed
      cases decoded : decodeFrame frame with
      | error reason => exact ⟨frame, List.mem_cons_self, by rw [decoded]; rfl⟩
      | ok packet =>
          rw [decoded] at failed
          cases rest : frames.mapM decodeFrame with
          | ok packets =>
              rw [rest] at failed
              cases failed
          | error reason =>
              rw [rest] at failed
              cases failed
              obtain ⟨other, member, bad⟩ := induction rest
              exact ⟨other, List.mem_cons_of_mem _ member, bad⟩

/-! ### One chunk -/

theorem checkTerminal_events (handler : FeedHandler) :
    handler.checkTerminal.events = handler.events := by
  rw [checkTerminal]
  split <;> rfl

theorem checkTerminal_state (handler : FeedHandler) :
    handler.checkTerminal.state = handler.state := by
  rw [checkTerminal]
  split <;> rfl

private theorem checkTerminal_session (handler : FeedHandler) :
    handler.checkTerminal.session = handler.session := by
  rw [checkTerminal]
  split <;> rfl

def Active (handler : FeedHandler) : Prop := handler.stopped = false ∧ handler.raised = none

theorem Active.not_held (active : handler.Active) :
    ¬ (handler.stopped = true ∨ handler.raised.isSome = true) := by
  rw [active.1, active.2]
  simp

theorem onReadable_of_not_active (held : ¬ handler.Active) (data : Bytes) :
    handler.onReadable data = handler := by
  refine if_pos ?_
  rw [Active, not_and_or, Bool.not_eq_false, ← Option.not_isSome_iff_eq_none, not_not] at held
  exact held

theorem onBytes_eq (handler : FeedHandler) (data : Bytes) :
    handler.onBytes data =
      let fed := handler.reading (FrameBuffer.feed handler.session.frames data).1
      match (FrameBuffer.feed handler.session.frames data).2 with
      | .error error => { fed with raised := some (.packet error) }
      | .ok packets => fed.handleAll packets :=
  rfl

theorem onReadable_ok (active : handler.Active) {data left : Bytes}
    (drained : FrameBuffer.framing.drain (handler.session.frames ++ data) = (frames, left))
    (decoded : frames.mapM decodeFrame = .ok packets) :
    handler.onReadable data =
      let after := (handler.handleAll packets).reading left
      if after.raised.isSome then after else after.checkTerminal := by
  obtain ⟨made, buffered⟩ := FrameBuffer.feed_eq handler.session.frames data
  rw [drained, decoded] at made buffered
  have fed : handler.onBytes data = (handler.handleAll packets).reading left := by
    rw [onBytes_eq, made, buffered rfl]
    exact handleAll_reading handler left packets
  rw [onReadable, if_neg active.not_held, fed]

theorem onReadable_error (active : handler.Active) (data : Bytes) {error : PacketError}
    (failed : (FrameBuffer.framing.drain (handler.session.frames ++ data)).1.mapM decodeFrame =
      .error error) :
    (handler.onReadable data).events = handler.events ∧
      (handler.onReadable data).state = handler.state ∧
      ¬ (handler.onReadable data).Active := by
  have made := (FrameBuffer.feed_eq handler.session.frames data).1
  rw [failed] at made
  have fed : (handler.onReadable data) =
      { handler.reading (FrameBuffer.feed handler.session.frames data).1 with
        raised := some (.packet error) } := by
    rw [onReadable, if_neg active.not_held, onBytes_eq, made]
    rfl
  rw [fed]
  exact ⟨rfl, rfl, fun active => nomatch active.2⟩

/-! ### All chunks -/

/-- Where a stream has got a handler that was ready for it: it has handled all its packets,
or is held with a part of them behind it and a reason that will not go away. -/
inductive Outcome (start : FeedHandler) (stream : Bytes) (after : FeedHandler) : Prop where
  | going (frames : List Bytes) (left : Bytes) (packets : List Packet)
      (drained : FrameBuffer.framing.drain stream = (frames, left))
      (decoded : frames.mapM decodeFrame = .ok packets)
      (handled : after = (start.handleAll packets).reading left)
  | held (packets : List Packet)
      (part : packets <+: packetsBefore (FrameBuffer.framing.drain stream).1)
      (held : ¬ after.Active)
      (events : after.events = (start.handleAll packets).events)
      (state : after.state = (start.handleAll packets).state)
      (reason : (start.handleAll packets).raised.isSome ∨
        ¬ Plain (start.handleAll packets).events ∨
        Malformed (FrameBuffer.framing.drain stream).1)

theorem Outcome.onReadable {start after : FeedHandler} {stream : Bytes}
    (accounted : start.Accounted) (outcome : Outcome start stream after) (data : Bytes) :
    Outcome start (stream ++ data) (after.onReadable data) := by
  have appended := FrameBuffer.framing.drain_append stream data
  cases outcome with
  | held packets part held events state reason =>
      rw [onReadable_of_not_active held]
      refine .held packets ?_ held events state ?_
      · rw [appended]
        exact part.trans (packetsBefore_isPrefix _ _)
      · rw [appended]
        exact reason.imp_right (Or.imp_right (·.append _))
  | going frames left packets drained decoded handled =>
      rw [drained] at appended
      have part : packets <+: packetsBefore (FrameBuffer.framing.drain (stream ++ data)).1 := by
        rw [appended, packetsBefore_ok decoded]
        exact List.prefix_append _ _
      have events : after.events = (start.handleAll packets).events := by rw [handled]; rfl
      have state : after.state = (start.handleAll packets).state := by rw [handled]; rfl
      by_cases active : after.Active
      swap
      · -- A handler that was held before this chunk says why in its events.
        rw [onReadable_of_not_active active]
        refine .held packets part active events state ?_
        rw [handled, Active, not_and_or] at active
        rcases active with stopped | raised
        · exact .inr (.inl (accounted.handleAll packets
            (.inr (.inl (Bool.not_eq_false _ ▸ stopped)))))
        · exact .inl (Option.isSome_iff_ne_none.mpr raised)
      cases rest : FrameBuffer.framing.drain (left ++ data) with
      | mk more kept =>
          rw [rest] at appended
          have drainedNext : FrameBuffer.framing.drain (after.session.frames ++ data) =
              (more, kept) := by
            rw [handled]
            exact rest
          cases result : more.mapM decodeFrame with
          | error error =>
              obtain ⟨keptEvents, keptState, held⟩ :=
                onReadable_error active data (by rw [drainedNext]; exact result)
              refine .held packets part held (keptEvents.trans events) (keptState.trans state)
                (.inr (.inr ?_))
              rw [appended]
              obtain ⟨frame, member, bad⟩ := malformed_of_error result
              exact ⟨frame, List.mem_append_right _ member, bad⟩
          | ok later =>
              have decodedAll : (frames ++ more).mapM decodeFrame = .ok (packets ++ later) := by
                rw [List.mapM_append, decoded, result]
                rfl
              have run : (after.handleAll later).reading kept =
                  (start.handleAll (packets ++ later)).reading kept := by
                rw [handled, handleAll_reading, ← handleAll_append]
                rfl
              rw [onReadable_ok active drainedNext result, run]
              dsimp only
              split
              · exact .going _ _ _ appended decodedAll rfl
              · rw [checkTerminal]
                split
                · next terminal =>
                    have whole := packetsBefore_eq decodedAll
                    refine .held (packets ++ later) ?_ nofun rfl rfl (.inr (.inl ?_))
                    · rw [appended, whole]
                    · exact accounted.handleAll _ (.inr (.inr terminal))
                · exact .going _ _ _ appended decodedAll rfl

variable {start : FeedHandler}

theorem Ready.accounted (ready : start.Ready) : start.Accounted := by
  rintro (isOver | stopped | ended | failed)
  · exact absurd isOver ready.running
  · rw [ready.reading] at stopped
    cases stopped
  · rw [ready.loggingIn] at ended
    cases ended
  · rw [ready.loggingIn] at failed
    cases failed

theorem Ready.outcome (ready : start.Ready) : Outcome start [] start := by
  refine .going [] [] [] (FrameBuffer.framing.drain_stuck FrameBuffer.framing.stuck_nil) rfl ?_
  have unread : { start.session with frames := [] } = start.session := by rw [← ready.unread]
  change start = { start with session := { start.session with frames := [] } }
  rw [unread]

theorem Ready.receive (ready : start.Ready) (chunks : List Bytes) :
    Outcome start chunks.flatten (start.receive chunks) := by
  induction chunks using List.reverseRecOn with
  | nil => exact ready.outcome
  | append_singleton chunks data induction =>
      rw [FeedHandler.receive, List.foldl_concat, List.flatten_append, List.flatten_singleton]
      exact induction.onReadable ready.accounted data

theorem Ready.exists_chunks (ready : start.Ready) (stream : Bytes) :
    ∃ chunks : List Bytes, chunks.flatten = stream ∧
      (start.receive chunks).events =
        (start.handleAll (packetsBefore (FrameBuffer.framing.drain stream).1)).events ∧
      (start.receive chunks).state =
        (start.handleAll (packetsBefore (FrameBuffer.framing.drain stream).1)).state := by
  obtain ⟨good, bad, split, goods, bads⟩ :=
    exists_packetsBefore (FrameBuffer.framing.drain stream).1
  let all := start.handleAll (packetsBefore (FrameBuffer.framing.drain stream).1)
  obtain ⟨front, back, rfl, drainedFront, drainedBack⟩ :=
    FrameBuffer.framing.drain_split FrameBuffer.exists_piece (Prod.ext split rfl)
  refine ⟨[front, back], by simp, ?_⟩
  have first := onReadable_ok ⟨ready.reading, ready.working⟩
    (by rw [ready.unread]; exact drainedFront) goods
  have events : (start.onReadable front).events = all.events := by
    rw [first]
    dsimp only
    split
    · rfl
    · exact checkTerminal_events _
  have state : (start.onReadable front).state = all.state := by
    rw [first]
    dsimp only
    split
    · rfl
    · exact checkTerminal_state _
  have unread : (start.onReadable front).session.frames = [] := by
    rw [first]
    dsimp only
    split
    · rfl
    · rw [checkTerminal_session]
      rfl
  change ((start.onReadable front).onReadable back).events = _ ∧
    ((start.onReadable front).onReadable back).state = _
  by_cases active : (start.onReadable front).Active
  swap
  · rw [onReadable_of_not_active active]
    exact ⟨events, state⟩
  rcases bads with rfl | ⟨error, failed⟩
  · have next : FrameBuffer.framing.drain ((start.onReadable front).session.frames ++ back) =
        ([], (FrameBuffer.framing.drain (front ++ back)).2) := by
      rw [unread]
      exact drainedBack
    rw [onReadable_ok active next rfl]
    dsimp only
    split
    · exact ⟨events, state⟩
    · rw [checkTerminal_events, checkTerminal_state]
      exact ⟨events, state⟩
  · obtain ⟨keptEvents, keptState, -⟩ := onReadable_error active back
      (by rw [unread, List.nil_append, drainedBack]; exact failed)
    exact ⟨keptEvents.trans events, keptState.trans state⟩

theorem Absorbed.congr {handler other : FeedHandler} (absorbed : handler.Absorbed)
    (events : other.events = handler.events) (state : other.state = handler.state) :
    other.Absorbed := by
  intro front event back reached split isEnd
  rw [events] at split
  rw [state]
  exact absorbed front event back reached split isEnd

theorem applied_congr {handler other : FeedHandler} (events : other.events = handler.events) :
    other.applied = handler.applied := by
  rw [applied, applied, events]

theorem handleAll_applied (handler : FeedHandler) (packets : List Packet) :
    handler.applied <+: (handler.handleAll packets).applied := by
  obtain ⟨later, grown⟩ := handleAll_grows handler packets
  rw [applied, applied, grown, List.filterMap_append]
  exact List.prefix_append _ _

structure Settled (start : FeedHandler) (frames : List Bytes) : Prop where
  harmless : ∀ n packet, (packetsBefore frames)[n]? = some packet →
    (start.handleAll ((packetsBefore frames).take n)).Harmless packet
  silent : Malformed frames → (start.handleAll (packetsBefore frames)).applied = start.applied

theorem Settled.absorbed (settled : start.Settled frames) (ready : start.Ready)
    (part : packets <+: packetsBefore frames) : (start.handleAll packets).Absorbed := by
  refine (handleAll_absorbed_iff ready.plain.absorbed ready.accounted packets).mpr ?_
  obtain ⟨rest, whole⟩ := part
  intro n packet found
  have inside : n < packets.length := (List.getElem?_eq_some_iff.mp found).1
  have harmless := settled.harmless n packet
  rw [← whole, List.getElem?_append_left inside, List.take_append_of_le_length inside.le]
    at harmless
  exact harmless found

theorem Settled.events (settled : start.Settled frames) (ready : start.Ready)
    (part : packets <+: packetsBefore frames)
    (done : (start.handleAll packets).raised.isSome ∨ ¬ Plain (start.handleAll packets).events) :
    (start.handleAll (packetsBefore frames)).events = (start.handleAll packets).events := by
  have absorbed := settled.absorbed ready part
  obtain ⟨rest, whole⟩ := part
  have conditions := settled.harmless
  rw [← whole] at conditions ⊢
  rw [handleAll_append]
  refine handleAll_done absorbed (done.imp_right absorbed.isOver) rest fun n packet found => ?_
  have harmless := conditions (packets.length + n) packet
  rw [List.getElem?_append_right (Nat.le_add_right _ _), Nat.add_sub_cancel_left,
    List.take_length_add_append, handleAll_append] at harmless
  exact harmless found

theorem Settled.outcome {start after : FeedHandler} {stream : Bytes}
    (settled : start.Settled (FrameBuffer.framing.drain stream).1) (ready : start.Ready)
    (outcome : Outcome start stream after) :
    after.Absorbed ∧ after.applied =
      (start.handleAll (packetsBefore (FrameBuffer.framing.drain stream).1)).applied := by
  cases outcome with
  | going frames left packets drained decoded handled =>
      rw [drained] at settled ⊢
      have whole : packetsBefore frames = packets := packetsBefore_eq decoded
      have part : packets <+: packetsBefore frames := by rw [whole]
      have absorbed := settled.absorbed ready part
      rw [handled, whole]
      exact ⟨absorbed.congr rfl rfl, applied_congr rfl⟩
  | held packets part held events state reason =>
      refine ⟨(settled.absorbed ready part).congr events state, (applied_congr events).trans ?_⟩
      have stop := settled.events ready part
      rcases reason with raised | ended | malformed
      · exact (applied_congr (stop (.inl raised))).symm
      · exact (applied_congr (stop (.inr ended))).symm
      · -- Nothing at all is applied in front of the malformed frame.
        have silent := settled.silent malformed
        have lower := (handleAll_applied start packets).length_le
        obtain ⟨rest, whole⟩ := part
        have upper := handleAll_applied (start.handleAll packets) rest
        rw [← handleAll_append, whole] at upper
        refine upper.eq_of_length_le ?_
        rw [silent]
        exact lower

/-- However the stream is cut into chunks, nothing happens after the end and the same
messages are applied, exactly if the stream is settled: behind the packet that ends the
session come only packets that a handler that is over passes over, and if there is a
malformed frame, no message is applied in front of it. -/
theorem end_states_iff {start : FeedHandler} (ready : start.Ready) (stream : Bytes) :
    ((∀ chunks : List Bytes, chunks.flatten = stream → (start.receive chunks).Absorbed) ∧
      ∀ chunks other : List Bytes, chunks.flatten = stream → other.flatten = stream →
        (start.receive chunks).applied = (start.receive other).applied) ↔
      start.Settled (FrameBuffer.framing.drain stream).1 := by
  constructor
  · rintro ⟨absorbed, same⟩
    obtain ⟨chunks, cut, events, state⟩ := ready.exists_chunks stream
    refine ⟨?_, fun malformed => ?_⟩
    · have final := (absorbed chunks cut).congr events.symm state.symm
      exact (handleAll_absorbed_iff ready.plain.absorbed ready.accounted _).mp final
    · -- As one chunk, the stream raises before any packet is handled.
      have whole : [stream].flatten = stream := List.flatten_singleton
      have raises : (start.receive [stream]).applied = start.applied := by
        cases failed : (FrameBuffer.framing.drain stream).1.mapM decodeFrame with
        | ok packets => exact absurd malformed (not_malformed failed)
        | error error =>
            have buffered := failed
            rw [← List.nil_append stream, ← ready.unread] at buffered
            exact applied_congr
              (onReadable_error ⟨ready.reading, ready.working⟩ stream buffered).1
      rw [← raises, ← same chunks [stream] cut whole]
      exact applied_congr events.symm
  · intro settled
    have outcome (chunks : List Bytes) (cut : chunks.flatten = stream) :=
      settled.outcome ready (cut ▸ ready.receive chunks)
    refine ⟨fun chunks cut => (outcome chunks cut).1, fun chunks other cut otherCut => ?_⟩
    rw [(outcome chunks cut).2, (outcome other otherCut).2]

/-! ## A session that ends in the middle of a chunk -/

def client : FeedHandler := { session := { state := .loginSent } }

private theorem client_ready : client.Ready where
  running := by decide
  reading := rfl
  working := rfl
  loggingIn := rfl
  unread := rfl
  plain := nofun

def framed (frame : Bytes) : Bytes := bePutU16 (UInt16.ofNat frame.length) ++ frame

/-- Login Accepted for the session `S`, from sequence number 1. -/
def accepting : Bytes :=
  framed (ascii 'A' :: ascii 'S' :: List.replicate 28 (ascii ' ') ++ [ascii '1'])

def closing : Bytes :=
  framed [ascii 'S', ascii 'S', 0, 0, 0, 0, ascii 'D', ascii 'A', ascii 'Y', ascii ' ', ascii 'C']

def straggler : Bytes := framed [ascii 'S', ascii 'T', 0, 0, 0, 1]

theorem closing_settled :
    (∀ chunks : List Bytes, chunks.flatten = accepting ++ closing →
        (client.receive chunks).Absorbed) ∧
      ∀ chunks other : List Bytes, chunks.flatten = accepting ++ closing →
        other.flatten = accepting ++ closing →
          (client.receive chunks).applied = (client.receive other).applied := by
  have packets : (FrameBuffer.framing.drain (accepting ++ closing)).1.mapM decodeFrame =
      .ok [.loginAccepted [ascii 'S'] 1, .sequencedData (closing.drop 3)] := by
    decide +kernel
  refine (end_states_iff client_ready _).mpr ⟨fun n packet found => ?_, fun malformed => ?_⟩
  · -- The handler is running in front of both packets.
    rw [packetsBefore_eq packets] at found ⊢
    rcases n with _ | _ | n
    · exact fun _ isOver => absurd isOver (by decide)
    · exact fun _ isOver => absurd isOver (by decide)
    · cases found
  · exact absurd malformed (not_malformed packets)

/-- In one chunk with the end of messages, a message behind it is applied after
`on_ended`; in a chunk of its own it is not. -/
theorem straggler_applied :
    ¬ (client.receive [accepting, closing ++ straggler]).Absorbed ∧
      (client.receive [accepting, closing ++ straggler]).applied ≠
        (client.receive [accepting, closing, straggler]).applied := by
  let close := Message.systemEvent 0 [ascii 'D', ascii 'A', ascii 'Y'] [ascii 'C']
  constructor
  · intro absorbed
    have events : (client.receive [accepting, closing ++ straggler]).events =
        [.live 1, .applied close, .message 1 close] ++ .ended .endOfMessages ::
          [.applied (.timestampSeconds 1), .message 2 (.timestampSeconds 1)] := by
      decide +kernel
    have nothing := (absorbed _ _ _ _ events rfl).1
    cases nothing
  · decide +kernel

end FeedHandler

end ProtoFH.Prototype
