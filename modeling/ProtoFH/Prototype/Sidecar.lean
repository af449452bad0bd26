import ProtoFH.Foundation.Execution
import ProtoFH.Prototype.Capture

/-! # The sidecar and the captured file

Each sidecar should describe the file it is written next to. It does unless it is written
in the middle of a message, where the file is ahead of it, or before the writer's buffer
has reached the file, which is then behind. -/

namespace ProtoFH.Prototype

/-- The messages from `first` up to, but not including, `next`. -/
def SoupLog.slice (log : SoupLog) (first next : Nat) : List Bytes :=
  (List.range' first (next - first)).map log.message

private theorem SoupLog.slice_succ (log : SoupLog) {first next : Nat} (ordered : first ≤ next) :
    log.slice first (next + 1) = log.slice first next ++ [log.message next] := by
  have count : next + 1 - first = (next - first) + 1 := by omega
  have last : first + 1 * (next - first) = next := by omega
  rw [slice, count, List.range'_concat, List.map_append, last]
  rfl

private theorem itchFile_concat (messages : List Bytes) (message : Bytes) :
    itchFile (messages ++ [message]) = itchFile messages ++ (lengthField message ++ message) := by
  rw [itchFile, List.flatMap_append, List.flatMap_singleton]
  rfl

/-- The sidecar describes the file: it holds the messages `first_seq` .. `next_seq - 1`, each
once and in order, or nothing if there is no `first_seq` yet. -/
def Sidecar.Describes (sidecar : Sidecar) (log : SoupLog) (file : Bytes) : Prop :=
  let first := sidecar.firstSeq.getD sidecar.nextSeq
  file = itchFile (log.slice first sidecar.nextSeq) ∧
    sidecar.messageCount + first = sidecar.nextSeq

namespace Capture

def Exact (log : SoupLog) (capture : Capture) : Prop :=
  ∀ entry ∈ capture.sidecars, entry.1.Describes log entry.2

def first (capture : Capture) : Nat := capture.firstSeq.getD capture.nextSeq

def expected (log : SoupLog) (capture : Capture) : Bytes :=
  itchFile (log.slice capture.first capture.nextSeq)

/-- The counters agree with what was written, whether it has reached the file or not. -/
structure Level (log : SoupLog) (capture : Capture) : Prop where
  written : capture.file ++ capture.buffered = capture.expected log
  count : capture.messageCount + capture.first = capture.nextSeq

structure Good (log : SoupLog) (capture : Capture) : Prop where
  exact : capture.Exact log
  level : capture.phase ≠ .ended → capture.Level log
  recent : capture.phase ≠ .ended → capture.sinceSidecar < sidecarEvery
  follows : ∀ seq served wroteAny, capture.phase = .pumping seq served wroteAny →
    served = seq ∧ seq ≤ capture.nextSeq

variable {log : SoupLog} {capture : Capture}

private theorem Level.first_le (level : capture.Level log) : capture.first ≤ capture.nextSeq := by
  have count := level.count
  omega

/-! ## Sidecars -/

theorem exact_writeSidecar {final : Bool} :
    (capture.writeSidecar final).Exact log ↔
      capture.Exact log ∧ capture.file = capture.expected log ∧
        capture.messageCount + capture.first = capture.nextSeq := by
  constructor
  · intro exact
    exact ⟨fun entry member => exact entry (List.mem_append_left _ member),
      exact _ (List.mem_append_right _ List.mem_cons_self)⟩
  · rintro ⟨exact, describes⟩ entry member
    rcases List.mem_append.mp member with before | last
    · exact exact entry before
    · rw [List.mem_singleton.mp last]
      exact describes

private theorem Level.file_iff (level : capture.Level log) :
    capture.file = capture.expected log ↔ capture.buffered = [] := by
  rw [← level.written]
  exact List.self_eq_append_right

theorem exact_conclude {reason : CaptureEnd} :
    (capture.conclude reason).Exact log ↔ capture.Exact log ∧ capture.Level log := by
  have concluded : (capture.conclude reason).Exact log ↔
      capture.Exact log ∧ capture.file ++ capture.buffered = capture.expected log ∧
        capture.messageCount + capture.first = capture.nextSeq :=
    exact_writeSidecar
  rw [concluded]
  exact ⟨fun ⟨exact, written, count⟩ => ⟨exact, written, count⟩,
    fun ⟨exact, level⟩ => ⟨exact, level.written, level.count⟩⟩

theorem good_conclude (exact : capture.Exact log) (level : capture.Level log)
    (reason : CaptureEnd) : (capture.conclude reason).Good log := by
  have ended : (capture.conclude reason).phase = .ended := rfl
  refine ⟨exact_conclude.mpr ⟨exact, level⟩, ?_, ?_, ?_⟩
  · exact fun running => absurd ended running
  · exact fun running => absurd ended running
  · intro seq served wroteAny pumping
    cases pumping

/-! ## In the middle of a message -/

def Ahead (log : SoupLog) (capture : Capture) : Prop :=
  (capture.expected log).length < (capture.file ++ capture.buffered).length

private theorem spill_written (capture : Capture) (count : Nat) :
    (capture.spill count).file ++ (capture.spill count).buffered =
      capture.file ++ capture.buffered := by
  rw [spill, List.append_assoc, List.take_append_drop]

private theorem flush_written (capture : Capture) :
    capture.flush.file ++ capture.flush.buffered = capture.file ++ capture.buffered :=
  List.append_nil _

theorem Ahead.congr {capture other : Capture} (ahead : capture.Ahead log)
    (first : other.first = capture.first) (next : other.nextSeq = capture.nextSeq)
    (written : ∃ more, other.file ++ other.buffered = capture.file ++ capture.buffered ++ more) :
    other.Ahead log := by
  obtain ⟨more, written⟩ := written
  rw [Ahead, expected, first, next, written, List.length_append]
  exact Nat.lt_add_right _ ahead

theorem Ahead.statement (ahead : capture.Ahead log) {message : Bytes} {spilled : Nat}
    {statement : Capture → Capture} (member : statement ∈ writeStatements message spilled) :
    (statement capture).Ahead log := by
  have same : ∃ more, capture.file ++ capture.buffered = capture.file ++ capture.buffered ++ more :=
    ⟨[], (List.append_nil _).symm⟩
  simp only [writeStatements, List.mem_cons, List.not_mem_nil, or_false] at member
  rcases member with rfl | rfl | rfl | rfl | rfl | rfl | rfl | rfl
  · exact ahead.congr rfl rfl ⟨lengthField message, (List.append_assoc ..).symm⟩
  · refine ahead.congr rfl rfl ⟨message, ?_⟩
    exact (spill_written ..).trans (List.append_assoc ..).symm
  · dsimp only
    split
    · next unset =>
        refine ahead.congr ?_ rfl same
        rw [first, first, unset]
        rfl
    · exact ahead
  · exact ahead.congr rfl rfl same
  · exact ahead.congr rfl rfl same
  · exact ahead.congr rfl rfl same
  · dsimp only
    split
    · exact ahead.congr rfl rfl ⟨[], by rw [flush_written, List.append_nil]⟩
    · exact ahead
  · dsimp only
    split
    · exact ahead.congr rfl rfl same
    · exact ahead

theorem Level.ahead (level : capture.Level log) (message : Bytes) (spilled done : Nat) :
    (capture.execute ((writeStatements message spilled).take (done + 1))).Ahead log := by
  have begun : { capture with
      buffered := capture.buffered ++ lengthField message }.Ahead log := by
    have longer : (capture.expected log).length <
        (capture.file ++ (capture.buffered ++ lengthField message)).length := by
      rw [← List.append_assoc, level.written, List.length_append, lengthField_length]
      omega
    exact longer
  exact foldl_invariant (Ahead log)
    (fun capture statement member ahead =>
      ahead.statement (List.mem_cons_of_mem _ (List.mem_of_mem_take member))) begun

private theorem Ahead.not_level (ahead : capture.Ahead log) : ¬ capture.Level log := by
  intro level
  rw [Ahead, level.written] at ahead
  exact absurd ahead (Nat.lt_irrefl _)

structure Wrote (before after : Capture) (message : Bytes) : Prop where
  written : after.file ++ after.buffered =
    before.file ++ before.buffered ++ (lengthField message ++ message)
  firstSeq : after.firstSeq = some before.first
  nextSeq : after.nextSeq = before.nextSeq
  messageCount : after.messageCount = before.messageCount + 1
  sinceSidecar : after.sinceSidecar = before.sinceSidecar + 1
  sidecars : after.sidecars = before.sidecars

private theorem wrote_write (early : capture.sinceSidecar + 1 < sidecarEvery) (message : Bytes)
    (spilled : Nat) : Wrote capture (capture.write message spilled) message := by
  have notDue : ¬ sidecarEvery ≤ capture.sinceSidecar + 1 := Nat.not_le.mpr early
  have written : (capture.file ++ List.take spilled
      (capture.buffered ++ lengthField message ++ message)) ++
        List.drop spilled (capture.buffered ++ lengthField message ++ message) =
      capture.file ++ capture.buffered ++ (lengthField message ++ message) := by
    rw [List.append_assoc, List.take_append_drop]
    simp only [List.append_assoc]
  cases known : capture.firstSeq with
  | none =>
      simp only [write, execute, writeStatements, List.foldl_cons, List.foldl_nil, spill, known,
        if_true, ge_iff_le, if_neg notDue]
      exact ⟨written, by rw [first, known]; rfl, rfl, rfl, rfl, rfl⟩
  | some seq =>
      simp only [write, execute, writeStatements, List.foldl_cons, List.foldl_nil, spill, known,
        reduceCtorEq, if_false, ge_iff_le, if_neg notDue]
      exact ⟨written, by rw [first, known]; rfl, rfl, rfl, rfl, rfl⟩

private theorem Level.not_exact_write (level : capture.Level log)
    (due : sidecarEvery ≤ capture.sinceSidecar + 1) (message : Bytes) (spilled : Nat) :
    ¬ (capture.write message spilled).Exact log := by
  let before := capture.execute ((writeStatements message spilled).take 7)
  have ahead : before.Ahead log := level.ahead message spilled 6
  have facts : before.sinceSidecar = capture.sinceSidecar + 1 ∧ before.buffered = [] := by
    cases known : capture.firstSeq with
    | none | some seq =>
        simp [before, execute, writeStatements, spill, known, due, flush]
  have last : capture.write message spilled = before.writeSidecar false := by
    have sidecar : sidecarEvery ≤ before.sinceSidecar := by rw [facts.1]; exact due
    exact if_pos sidecar
  rw [last, exact_writeSidecar]
  rintro ⟨-, whole, -⟩
  rw [Ahead, facts.2, List.append_nil, whole] at ahead
  exact absurd ahead (Nat.lt_irrefl _)

/-! ## One event -/

variable {seq served : Nat}

theorem Good.pumpNext (exact : capture.Exact log) (level : capture.Level log)
    (recent : capture.sinceSidecar < sidecarEvery) (wroteAny : Bool) (serves : served = seq)
    (behind : seq ≤ capture.nextSeq) : (capture.pumpNext seq served wroteAny).Good log := by
  rw [Capture.pumpNext]
  split
  · exact good_conclude exact level _
  · refine ⟨exact, fun _ => ⟨level.written, level.count⟩, fun _ => recent, ?_⟩
    intro otherSeq otherServed otherWrote phase
    cases phase
    exact ⟨serves, behind⟩

variable {wroteAny : Bool}

private theorem exact_of_pumpNext (exact : (capture.pumpNext seq served wroteAny).Exact log) :
    capture.Exact log := by
  rw [Capture.pumpNext] at exact
  split at exact
  · exact (exact_conclude.mp exact).1
  · exact exact

theorem Wrote.level {before after : Capture} {seq : Nat}
    (wrote : Wrote before after (log.message seq)) (level : before.Level log)
    (next : seq = before.nextSeq) : { after with nextSeq := seq + 1 }.Level log := by
  have first : { after with nextSeq := seq + 1 }.first = before.first := by
    change after.firstSeq.getD (seq + 1) = before.first
    rw [wrote.firstSeq]
    rfl
  constructor
  · rw [expected, first, log.slice_succ (next ▸ level.first_le), itchFile_concat, next]
    refine wrote.written.trans ?_
    rw [level.written, next]
    rfl
  · have count := level.count
    have counted := wrote.messageCount
    rw [first]
    change after.messageCount + before.first = seq + 1
    omega

theorem Good.retry (good : capture.Good log) (running : capture.phase ≠ .ended)
    (reason : CaptureEnd) : (capture.retry reason).Good log := by
  rw [Capture.retry]
  split
  · exact good_conclude good.exact (good.level running) reason
  · exact ⟨good.exact, fun _ => ⟨(good.level running).written, (good.level running).count⟩,
      good.recent, good.follows⟩

theorem Good.onConnecting (good : capture.Good log) (connecting : capture.phase = .connecting)
    (event : Event) : (capture.onConnecting log event).Good log := by
  have running : capture.phase ≠ .ended := by rw [connecting]; exact nofun
  have level := good.level running
  have concludes (reason : CaptureEnd) : (capture.conclude reason).Good log :=
    good_conclude good.exact level reason
  cases event with
  | connectFailed => exact good.retry running _
  | loginRejected code => exact concludes _
  | loginFailed => exact good.retry running _
  | loginAccepted sequence =>
      have exact : { capture with session := log.id }.Exact log := good.exact
      have accepted : { capture with session := log.id }.Level log := ⟨level.written, level.count⟩
      rw [Capture.onConnecting]
      split
      · exact good_conclude exact accepted _
      · next within =>
          exact Good.pumpNext exact accepted (good.recent running) false rfl (Nat.not_lt.mp within)
  | interrupted done spilled | raised => exact concludes _
  | _ => exact good

theorem exact_disconnected_iff (exact : capture.Exact log) (level : capture.Level log) :
    capture.disconnected.Exact log ↔ (capture.retriesLeft ≠ 0 → capture.buffered = []) := by
  rw [disconnected]
  cases capture.retriesLeft with
  | zero => exact iff_of_true (good_conclude exact level _).exact (fun some => absurd rfl some)
  | succ retriesLeft =>
      let again : Capture :=
        { capture with retriesLeft, reconnects := capture.reconnects + 1, phase := .connecting }
      have levelAgain : again.Level log := ⟨level.written, level.count⟩
      have written : (again.writeSidecar false).Exact log ↔ capture.buffered = [] := by
        rw [exact_writeSidecar, levelAgain.file_iff]
        exact ⟨fun facts => facts.2.1, fun empty => ⟨exact, empty, levelAgain.count⟩⟩
      exact written.trans ⟨fun empty _ => empty, fun condition => condition (Nat.succ_ne_zero _)⟩

theorem good_disconnected (exact : capture.Exact log) (level : capture.Level log)
    (drained : capture.retriesLeft ≠ 0 → capture.buffered = []) :
    capture.disconnected.Good log := by
  have still := (exact_disconnected_iff exact level).mpr drained
  rw [disconnected] at still ⊢
  cases retries : capture.retriesLeft with
  | zero => exact good_conclude exact level _
  | succ retriesLeft =>
      rw [retries] at still
      refine ⟨still, fun _ => ⟨level.written, level.count⟩, fun _ => Nat.zero_lt_succ _, ?_⟩
      intro seq served wroteAny phase
      cases phase

/-- No sidecar is written in the middle of a message, and none before a reconnect while
bytes are still buffered. -/
def Undisturbed (capture : Capture) (event : Event) : Prop :=
  match capture.phase, event with
  | .pumping seq _ _, .sequencedData _ =>
      seq = capture.nextSeq → capture.sinceSidecar + 1 < sidecarEvery
  | .pumping _ _ wroteAny, .connectionLost =>
      (if wroteAny then capture.args.retries else capture.retriesLeft) ≠ 0 →
        capture.buffered = []
  | .pumping seq _ _, .interrupted done _ => seq = capture.nextSeq → done = 0
  | _, _ => True

theorem Good.onPumping (good : capture.Good log)
    (pumping : capture.phase = .pumping seq served wroteAny) (event : Event)
    (undisturbed : capture.Undisturbed event) :
    (capture.onPumping log seq served wroteAny event).Good log := by
  have running : capture.phase ≠ .ended := by rw [pumping]; exact nofun
  have level := good.level running
  have recent := good.recent running
  obtain ⟨rfl, behind⟩ := good.follows seq served wroteAny pumping
  have concludes (reason : CaptureEnd) : (capture.conclude reason).Good log :=
    good_conclude good.exact level reason
  unfold Undisturbed at undisturbed
  rw [pumping] at undisturbed
  cases event with
  | sequencedData spilled =>
      rw [Capture.onPumping]
      by_cases next : served = capture.nextSeq
      · rw [if_pos next]
        have early := undisturbed next
        have wrote := wrote_write early (log.message served) spilled
        have exact : { capture.write (log.message served) spilled with
            nextSeq := served + 1 }.Exact log := by
          change ∀ entry ∈ (capture.write (log.message served) spilled).sidecars, _
          rw [wrote.sidecars]
          exact good.exact
        refine Good.pumpNext exact (wrote.level level next) ?_ true rfl (Nat.le_refl _)
        change (capture.write (log.message served) spilled).sinceSidecar < sidecarEvery
        rw [wrote.sinceSidecar]
        exact early
      · rw [if_neg next]
        exact Good.pumpNext good.exact level recent wroteAny rfl (Nat.lt_of_le_of_ne behind next)
  | otherPacket => exact Good.pumpNext good.exact level recent wroteAny rfl behind
  | endOfSession => exact concludes _
  | connectionLost =>
      rw [Capture.onPumping]
      cases wroteAny with
      | true =>
          have reset : { capture with retriesLeft := capture.args.retries }.Level log :=
            ⟨level.written, level.count⟩
          exact good_disconnected good.exact reset undisturbed
      | false => exact good_disconnected good.exact level undisturbed
  | interrupted done spilled =>
      rw [Capture.onPumping]
      by_cases next : served = capture.nextSeq
      · rw [if_pos next, undisturbed next]
        exact concludes _
      · rw [if_neg next]
        exact concludes _
  | raised => exact concludes _
  | _ => exact good

private theorem Good.undisturbed_of_exact (good : capture.Good log)
    (pumping : capture.phase = .pumping seq served wroteAny) (event : Event)
    (exact : (capture.onPumping log seq served wroteAny event).Exact log) :
    capture.Undisturbed event := by
  have level := good.level (by rw [pumping]; exact nofun)
  obtain ⟨rfl, -⟩ := good.follows seq served wroteAny pumping
  unfold Undisturbed
  rw [pumping]
  cases event with
  | sequencedData spilled =>
      intro next
      rw [Capture.onPumping, if_pos next] at exact
      by_contra due
      have written := exact_of_pumpNext exact
      exact level.not_exact_write (Nat.not_lt.mp due) (log.message served) spilled written
  | connectionLost =>
      rw [Capture.onPumping] at exact
      cases wroteAny with
      | true =>
          have reset : { capture with retriesLeft := capture.args.retries }.Level log :=
            ⟨level.written, level.count⟩
          have before : { capture with retriesLeft := capture.args.retries }.Exact log := good.exact
          exact (exact_disconnected_iff before reset).mp exact
      | false => exact (exact_disconnected_iff good.exact level).mp exact
  | interrupted done spilled =>
      intro next
      rw [Capture.onPumping, if_pos next] at exact
      cases done with
      | zero => rfl
      | succ done =>
          have ahead := level.ahead (log.message served) spilled done
          exact absurd (exact_conclude.mp exact).2 ahead.not_level
  | _ => trivial

theorem good_resume_fresh {sidecars : List (Sidecar × Bytes)}
    (exact : ∀ entry ∈ sidecars, entry.1.Describes log entry.2) (args : CaptureArgs) (seq : Nat) :
    Good log
      { args
        session := args.session
        nextSeq := seq
        retriesLeft := args.retries
        sidecars } := by
  refine ⟨exact, fun _ => ⟨?_, Nat.zero_add seq⟩, fun _ => Nat.zero_lt_succ _, nofun⟩
  change [] = itchFile (log.slice seq seq)
  rw [SoupLog.slice, Nat.sub_self]
  rfl

private theorem good_resume {sidecars : List (Sidecar × Bytes)}
    (exact : ∀ entry ∈ sidecars, entry.1.Describes log entry.2) (args : CaptureArgs) :
    Good log { resume args sidecars.getLast? with sidecars } := by
  unfold resume
  cases args.seq with
  | some seq => exact good_resume_fresh exact args seq
  | none =>
      cases last : sidecars.getLast? with
      | none => exact good_resume_fresh exact args 1
      | some entry =>
          obtain ⟨written, count⟩ := exact entry (List.mem_of_getLast? last)
          refine ⟨exact, fun _ => ⟨?_, count⟩, fun _ => Nat.zero_lt_succ _, nofun⟩
          exact (List.append_nil _).trans written

theorem Good.proceed (good : capture.Good log) : capture.proceed.Good log :=
  ⟨good.exact, fun running => ⟨(good.level running).written, (good.level running).count⟩,
    good.recent, good.follows⟩

theorem step_eq (log : SoupLog) (capture : Capture) {event : Event}
    (other : ∀ args, event ≠ .restart args) :
    step log capture event =
      match capture.phase with
      | .ended => capture
      | .connecting => capture.proceed.onConnecting log event
      | .pumping seq served wroteAny =>
          capture.proceed.onPumping log seq served wroteAny event := by
  cases event with
  | restart args => exact absurd rfl (other args)
  | _ => rfl

theorem Good.step (good : capture.Good log) (event : Event)
    (undisturbed : capture.Undisturbed event) : (step log capture event).Good log := by
  by_cases isRestart : ∃ args, event = .restart args
  · obtain ⟨args, rfl⟩ := isRestart
    rw [Capture.step]
    split
    · exact good_resume good.exact args
    · exact good
  · rw [step_eq log capture fun args same => isRestart ⟨args, same⟩]
    cases phase : capture.phase with
    | ended => exact good
    | connecting => exact good.proceed.onConnecting phase event
    | pumping seq served wroteAny =>
        refine good.proceed.onPumping phase event ?_
        exact undisturbed

theorem Good.undisturbed (good : capture.Good log) (event : Event)
    (exact : (Capture.step log capture event).Exact log) : capture.Undisturbed event := by
  cases phase : capture.phase with
  | ended | connecting =>
      unfold Undisturbed
      rw [phase]
      trivial
  | pumping seq served wroteAny =>
      by_cases isRestart : ∃ args, event = .restart args
      · obtain ⟨args, rfl⟩ := isRestart
        unfold Undisturbed
        rw [phase]
        trivial
      · rw [step_eq log capture (fun args same => isRestart ⟨args, same⟩), phase] at exact
        have moved := good.proceed.undisturbed_of_exact phase event exact
        exact moved

/-- Every sidecar that is written in a run describes the file, exactly if no event of the
run has one written in the middle of a message or in front of buffered bytes. -/
theorem sidecars_exact_iff (log : SoupLog) (args : CaptureArgs) (events : List Event) :
    (∀ n, (after log args (events.take n)).Exact log) ↔
      ∀ n event, events[n]? = some event → (after log args (events.take n)).Undisturbed event := by
  have start : (resume args none).Good log := by
    have exact : ∀ entry ∈ ([] : List (Sidecar × Bytes)), entry.1.Describes log entry.2 := nofun
    unfold resume
    cases args.seq with
    | none => exact good_resume_fresh exact args 1
    | some seq => exact good_resume_fresh exact args seq
  exact forall_take_foldl_visible_iff (step log) (Good log) (Exact log) Undisturbed start events
    (fun _ good => good.exact) (fun _ event _ good => good.undisturbed event)
    fun _ event _ good => good.step event

/-! ## Five hundred messages -/

/-- A session whose messages are all `T` second 1. -/
def ticking : SoupLog where
  id := [ascii 'S']
  message _ := [ascii 'T', 0, 0, 0, 1]
  short _ := by decide

def busyEvents : List Event := .loginAccepted 1 :: List.replicate 500 (.sequencedData 0)

/-- The sidecar after the 500th message has `next_seq` 500, so that a process that goes on
from it writes this message again. -/
theorem busy_not_exact :
    ((after ticking {} busyEvents).sidecars.map fun entry =>
        (entry.1.firstSeq, entry.1.nextSeq, entry.1.messageCount)) = [(some 1, 500, 500)] ∧
      ¬ (after ticking {} busyEvents).Exact ticking := by
  have counters : ((after ticking {} busyEvents).sidecars.map fun entry =>
      (entry.1.firstSeq, entry.1.nextSeq, entry.1.messageCount)) = [(some 1, 500, 500)] := by
    decide +kernel
  refine ⟨counters, fun exact => ?_⟩
  obtain ⟨entry, entries, values⟩ := List.map_eq_singleton_iff.mp counters
  have count := (exact entry (by rw [entries]; exact List.mem_cons_self)).2
  simp only [Prod.mk.injEq] at values
  rw [values.1, values.2.1, values.2.2] at count
  exact absurd count (by decide)

end Capture

end ProtoFH.Prototype
