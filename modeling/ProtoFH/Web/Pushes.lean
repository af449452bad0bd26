import ProtoFH.Foundation.Execution
import ProtoFH.Web.Sending

/-! # The rate of coalesced pushes

`queue_update` pushes at once when enough time has passed and arms a timer otherwise. A push
at once leaves an armed timer as it is; if that timer is overdue and runs with a newer
payload, two pushes are too close. -/

namespace ProtoFH.Web

/-- What the distance of pushes is measured between: the time of a push, or a subscription,
behind which the count starts anew. -/
def Effect.mark : Effect → Option (Option Time)
  | .pushed time _ => some (some time)
  | .subscribed _ => some none
  | _ => none

def Apart : Option Time → Option Time → Prop
  | some time, some next => time + minPushInterval ≤ next
  | _, _ => True

namespace Client

def marks (client : Client) : List (Option Time) := client.log.filterMap Effect.mark

def Capped (client : Client) : Prop := client.marks.IsChain Apart

structure Paced (client : Client) : Prop where
  capped : client.Capped
  last : ∀ time, client.marks.getLast? = some (some time) → client.lastPush = time

theorem marks_note (client : Client) (effect : Effect) :
    (client.note effect).marks = client.marks ++ effect.mark.toList := by
  rw [marks, note, List.filterMap_append]
  cases marked : effect.mark <;> simp [marks, marked]

variable {client : Client}

theorem Paced.teardown (paced : client.Paced) : client.teardown.Paced := by
  rw [Client.teardown]
  split
  · exact paced
  · exact ⟨paced.capped, paced.last⟩

theorem marks_note_other (client : Client) {effect : Effect} (other : effect.mark = none) :
    (client.note effect).marks = client.marks := by
  rw [marks_note, other]
  exact List.append_nil _

theorem Paced.note (paced : client.Paced) (effect : Effect) (other : effect.mark = none) :
    (client.note effect).Paced := by
  have same := marks_note_other client other
  constructor
  · rw [Capped, same]
    exact paced.capped
  · rw [same]
    exact paced.last

theorem Paced.subscribe (paced : client.Paced) (ticker : Text) :
    (client.subscribe ticker).Paced := by
  have marked : (client.subscribe ticker).marks = client.marks ++ [none] := marks_note _ _
  refine ⟨?_, ?_⟩
  · rw [Capped, marked]
    refine paced.capped.append (List.isChain_singleton _) ?_
    rintro before - next same
    cases same
    cases before <;> trivial
  · rw [marked, List.getLast?_concat]
    intro time same
    cases same

theorem paced_kept (json : Json) : Kept json Paced where
  teardown _ paced := paced.teardown
  append client frame paced := by
    have buffered : Paced { client with sendBuf := client.sendBuf ++ frame.encode json } :=
      ⟨paced.capped, paced.last⟩
    exact buffered.note (.enqueued frame) rfl
  closing _ paced := ⟨paced.capped, paced.last⟩
  subscribe _ ticker paced := paced.subscribe ticker
  recvBuf _ _ paced := ⟨paced.capped, paced.last⟩

private theorem marks_enqueue (json : Json) (client : Client) (frame : Frame) :
    (client.enqueue json frame).marks = client.marks := by
  rcases client.enqueue_cases json frame with ⟨-, same⟩ | ⟨-, -, same⟩ | ⟨-, -, same⟩
  · rw [same]
  · rw [same, marks, log_teardown]
    rfl
  · rw [same, append, marks_note]
    exact List.append_nil _

def InTime (client : Client) (now : Time) : Prop :=
  client.marks.getLast? = some (some client.lastPush) → client.lastPush + minPushInterval ≤ now

theorem Paced.capped_push_iff (paced : client.Paced) (payload : Reply) (now : Time) :
    (client.push payload now).Capped ↔ client.InTime now := by
  have marked : (client.push payload now).marks = client.marks ++ [some now] := marks_note _ _
  rw [Capped, marked, List.isChain_append, InTime]
  constructor
  · rintro ⟨-, -, apart⟩ follows
    exact apart (some client.lastPush) follows (some now) rfl
  · intro late
    refine ⟨paced.capped, List.isChain_singleton _, ?_⟩
    rintro (_ | time) follows next same
    · cases same
      trivial
    · cases same
      have known := paced.last time follows
      rw [← known] at follows ⊢
      exact late follows

theorem Paced.push (paced : client.Paced) (payload : Reply) {now : Time}
    (inTime : client.InTime now) : (client.push payload now).Paced := by
  have marked : (client.push payload now).marks = client.marks ++ [some now] := marks_note _ _
  have last : (client.push payload now).marks.getLast? = some (some now) := by
    rw [marked, List.getLast?_concat]
  refine ⟨(paced.capped_push_iff payload now).mpr inTime, fun time same => ?_⟩
  rw [last] at same
  cases same
  rfl

theorem Paced.flushPending (json : Json) (paced : client.Paced) (now : Time) :
    ((client.flushPending json now).Capped ↔
      (client.pendingPayload.isSome → client.InTime now)) ∧
    ((client.pendingPayload.isSome → client.InTime now) →
      (client.flushPending json now).Paced) := by
  rw [Client.flushPending]
  cases client.pendingPayload with
  | none =>
      refine ⟨⟨fun _ some => ?_, fun _ => paced.capped⟩, fun _ => paced⟩
      cases some
  | some payload =>
      simp only [Option.isSome_some, true_implies]
      refine ⟨?_, fun inTime => (paced_kept json).enqueue (paced.push payload inTime) _⟩
      rw [← paced.capped_push_iff payload now, sendJson, Capped, marks_enqueue]
      rfl

theorem Paced.callQueueUpdate (json : Json) (paced : client.Paced) (ticker : Text) (payload : Reply)
    {now later : Time} (forward : now ≤ later) :
    (client.callQueueUpdate json ticker payload now later).Paced := by
  have noted := paced.note (.queueUpdate ticker payload client.refuses) rfl
  rw [Client.callQueueUpdate]
  rcases queueUpdate_cases json (client.note (.queueUpdate ticker payload client.refuses)) payload
    now later with ⟨-, same⟩ | ⟨-, late, same⟩ | ⟨-, -, deadline, armed, same⟩
  · rwa [same]
  · have inTime : (client.note (.queueUpdate ticker payload client.refuses)).InTime later := by
      intro _
      linarith
    rw [same]
    exact (paced_kept json).enqueue (noted.push payload inTime) _
  · rw [same]
    exact ⟨noted.capped, noted.last⟩

/-! ## The timer -/

def Undisturbed (before after : Client) : Prop :=
  after.flushTimer.isSome →
    after.flushTimer = before.flushTimer ∧ after.lastPush = before.lastPush ∧
      after.marks = before.marks

theorem undisturbed_kept (json : Json) (before : Client) : Kept json (Undisturbed before) where
  teardown client undisturbed := by
    rw [teardown]
    split
    · exact undisturbed
    · intro armed
      cases armed
  append client frame undisturbed armed := by
    obtain ⟨timer, lastPush, marks⟩ := undisturbed armed
    exact ⟨timer, lastPush, (marks_note_other _ rfl).trans marks⟩
  closing _ undisturbed := undisturbed
  subscribe _ _ _ armed := by cases armed
  recvBuf _ _ undisturbed := undisturbed

def PushesAtOnce (client : Client) (now : Time) : Prop :=
  client.refuses = false ∧ minPushInterval ≤ now - client.lastPush

inductive Armed (client : Client) (event : ClientEvent) (after : Client) (deadline : Time) : Prop
  | kept (before : client.flushTimer = some deadline) (lastPush : after.lastPush = client.lastPush)
      (marks : after.marks = client.marks)
      (delayed : ∀ ticker payload now later, event = .update ticker payload now later →
        ¬ client.PushesAtOnce now)
  | overtaken (ticker : Text) (payload : Reply) (now later : Time)
      (update : event = .update ticker payload now later)
      (before : client.flushTimer = some deadline) (atOnce : client.PushesAtOnce now)
      (lastPush : after.lastPush = later) (marks : after.marks = client.marks ++ [some later])
  | set (ticker : Text) (payload : Reply) (now later : Time)
      (update : event = .update ticker payload now later) (before : client.flushTimer = none)
      (deadline : deadline = later + (minPushInterval - (now - client.lastPush)))
      (lastPush : after.lastPush = client.lastPush)

variable {deadline : Time}

theorem Undisturbed.armed {client after : Client} (undisturbed : client.Undisturbed after)
    {event : ClientEvent} (armed : after.flushTimer = some deadline)
    (delayed : ∀ ticker payload now later, event = .update ticker payload now later →
      ¬ client.PushesAtOnce now) :
    Armed client event after deadline := by
  obtain ⟨timer, lastPush, marks⟩ := undisturbed (by rw [armed]; rfl)
  exact .kept (timer ▸ armed) lastPush marks delayed

theorem armed_callQueueUpdate (json : Json) (client : Client) (ticker : Text) (payload : Reply)
    (now later : Time)
    (armed : (client.callQueueUpdate json ticker payload now later).flushTimer = some deadline) :
    Armed client (.update ticker payload now later)
      (client.callQueueUpdate json ticker payload now later) deadline := by
  let noted := client.note (.queueUpdate ticker payload client.refuses)
  have marked : noted.marks = client.marks := marks_note_other client rfl
  change (noted.queueUpdate json payload now later).flushTimer = some deadline at armed
  change Armed _ _ (noted.queueUpdate json payload now later) _
  rcases queueUpdate_cases json noted payload now later with
    ⟨refused, same⟩ | ⟨accepts, late, same⟩ | ⟨accepts, early, other, before, same⟩
  · rw [same] at armed ⊢
    refine .kept armed rfl marked fun _ _ _ _ _ atOnce => ?_
    exact absurd (refused.symm.trans atOnce.1) (by decide)
  · rw [same] at armed ⊢
    let pushed := noted.push payload later
    have undisturbed : pushed.Undisturbed (pushed.sendJson json payload) :=
      (undisturbed_kept json pushed).enqueue (fun _ => ⟨rfl, rfl, rfl⟩) _
    obtain ⟨timer, lastPush, marks⟩ := undisturbed (by rw [armed]; rfl)
    refine .overtaken ticker payload now later rfl (timer ▸ armed) ⟨accepts, late⟩ lastPush ?_
    exact marks.trans ((marks_note _ _).trans (congrArg (· ++ [some later]) marked))
  · rw [same] at armed ⊢
    cases armed
    rcases before with before | ⟨unset, new⟩
    · refine .kept before rfl marked fun _ _ _ _ same atOnce => ?_
      cases same
      exact absurd atOnce.2 (not_le.mpr early)
    · exact .set ticker payload now later rfl unset new rfl

theorem step_armed (json : Json) (client : Client) (event : ClientEvent)
    (armed : (client.step json event).flushTimer = some deadline) :
    Armed client event (client.step json event) deadline := by
  have kept := undisturbed_kept json client
  have start : Undisturbed client client := fun _ => ⟨rfl, rfl, rfl⟩
  cases event with
  | readable lookup received =>
      exact (kept.onReadable start lookup received).armed armed fun _ _ _ _ same => by cases same
  | update ticker payload now later => exact armed_callQueueUpdate json client _ _ _ _ armed
  | event event =>
      have noted : Undisturbed client (client.note (.sendEvent event)) :=
        fun _ => ⟨rfl, rfl, marks_note_other client rfl⟩
      refine Undisturbed.armed ?_ armed fun _ _ _ _ same => by cases same
      rw [step, callSendEvent, sendEvent]
      split
      · exact noted
      · exact kept.enqueue noted _
  | timers now later =>
      refine Undisturbed.armed ?_ armed fun _ _ _ _ same => by cases same
      rw [step, runDueTimer]
      split
      · exact start
      · split
        · rw [onFlushTimer, flushPending]
          split
          · intro armed
            cases armed
          · exact kept.enqueue (fun armed => by cases armed) _
        · exact start
  | writable sent =>
      exact Undisturbed.armed (onWritable_keeps kept.teardown (fun _ _ same => same) start sent)
        armed fun _ _ _ _ same => by cases same
  | close => exact Undisturbed.armed (kept.teardown _ start) armed fun _ _ _ _ same => by cases same

end Client

/-! ## Runs -/

def ClientEvent.Forward : ClientEvent → Prop
  | .update _ _ now later => now ≤ later
  | .timers now later => now ≤ later
  | _ => True

namespace Client

variable (json : Json)

/-- An update is pushed at once, at the given time, past a timer that is and stays armed. -/
def Overtakes (time : Time) (earlier : List ClientEvent) : ClientEvent → Prop
  | .update ticker payload now later =>
      later = time ∧ (run json earlier).flushTimer.isSome ∧ (run json earlier).PushesAtOnce now ∧
        (run json (earlier ++ [.update ticker payload now later])).flushTimer.isSome
  | _ => False

def Disarms (earlier : List ClientEvent) (event : ClientEvent) : Prop :=
  (run json (earlier ++ [event])).flushTimer = none

def Overtaken (events : List ClientEvent) (time : Time) : Prop :=
  Since (Overtakes json time) (Disarms json) events

/-- A timer that runs with a payload does so at least the minimal interval after every push
that has overtaken it. -/
def Spaced (earlier : List ClientEvent) : ClientEvent → Prop
  | .timers now later =>
      ∀ deadline, (run json earlier).flushTimer = some deadline → deadline ≤ now →
        (run json earlier).pendingPayload.isSome →
          ∀ time, Overtaken json earlier time → time + minPushInterval ≤ later
  | _ => True

/-- An armed timer is late enough by its deadline, or the last push has overtaken it. -/
structure Timed (events : List ClientEvent) : Prop where
  paced : (run json events).Paced
  deadline : ∀ deadline, (run json events).flushTimer = some deadline →
    (run json events).lastPush + minPushInterval ≤ deadline ∨
      Overtaken json events (run json events).lastPush
  overtaken : ∀ time, Overtaken json events time → time ≤ (run json events).lastPush ∧
    (run json events).marks.getLast? = some (some (run json events).lastPush)

variable {json}

theorem run_concat (events : List ClientEvent) (event : ClientEvent) :
    run json (events ++ [event]) = (run json events).step json event := by
  rw [run, List.foldl_concat, ← run]

variable {events : List ClientEvent}

variable {event : ClientEvent}

theorem overtaken_concat_iff {time : Time} :
    Overtaken json (events ++ [event]) time ↔
      Overtakes json time events event ∨
        Overtaken json events time ∧ ((run json events).step json event).flushTimer ≠ none := by
  rw [Overtaken, since_concat_iff, Disarms, run_concat]
  rfl

theorem Overtakes.armed {time : Time} (overtakes : Overtakes json time events event) :
    ((run json events).step json event).flushTimer ≠ none := by
  cases event with
  | update ticker payload now later =>
      obtain ⟨-, -, -, armed⟩ := overtakes
      rw [run_concat] at armed
      exact Option.isSome_iff_ne_none.mp armed
  | _ => exact overtakes.elim

theorem Overtaken.armed {time : Time} (overtaken : Overtaken json events time) :
    (run json events).flushTimer ≠ none := by
  rcases List.eq_nil_or_concat events with rfl | ⟨earlier, event, rfl⟩
  · exact absurd overtaken not_since_nil
  · rw [List.concat_eq_append] at overtaken ⊢
    rw [run_concat]
    rcases overtaken_concat_iff.mp overtaken with overtakes | ⟨-, armed⟩
    · exact overtakes.armed
    · exact armed

theorem Timed.step (timed : Timed json events) (forward : event.Forward)
    (paced : ((run json events).step json event).Paced) : Timed json (events ++ [event]) := by
  refine ⟨run_concat events event ▸ paced, ?_, ?_⟩
  · intro deadline armed
    rw [run_concat] at armed ⊢
    have still : ((run json events).step json event).flushTimer ≠ none := by
      rw [armed]
      exact Option.some_ne_none deadline
    cases step_armed json _ event armed with
    | kept before lastPush =>
        rw [lastPush]
        rcases timed.deadline deadline before with late | overtaken
        · exact .inl late
        · exact .inr (overtaken_concat_iff.mpr (.inr ⟨overtaken, still⟩))
    | overtaken ticker payload now later update before atOnce lastPush =>
        subst update
        refine .inr (overtaken_concat_iff.mpr (.inl ⟨lastPush.symm, ?_, atOnce, ?_⟩))
        · rw [before]
          rfl
        · rw [run_concat]
          exact Option.isSome_iff_ne_none.mpr still
    | set ticker payload now later update before new lastPush =>
        subst update
        have order : now ≤ later := forward
        rw [lastPush, new]
        left
        linarith
  · intro time overtaken
    have still := overtaken.armed
    rw [run_concat] at still ⊢
    obtain ⟨deadline, armed⟩ := Option.ne_none_iff_exists'.mp still
    rw [overtaken_concat_iff] at overtaken
    cases step_armed json _ event armed with
    | kept before lastPush marks delayed =>
        rw [lastPush, marks]
        rcases overtaken with overtakes | ⟨before, -⟩
        · cases event with
          | update ticker payload now later =>
              exact absurd overtakes.2.2.1 (delayed _ _ _ _ rfl)
          | _ => exact overtakes.elim
        · exact timed.overtaken time before
    | overtaken ticker payload now later update before atOnce lastPush marks =>
        subst update
        rw [lastPush, marks, List.getLast?_concat]
        refine ⟨?_, rfl⟩
        rcases overtaken with ⟨same, -⟩ | ⟨before, -⟩
        · exact same.ge
        · have order : now ≤ later := forward
          have positive : 0 ≤ minPushInterval := by norm_num [minPushInterval]
          have earlier := (timed.overtaken time before).1
          have late := atOnce.2
          linarith
    | set ticker payload now later update before =>
        subst update
        rcases overtaken with ⟨-, armedBefore, -⟩ | ⟨overtaken, -⟩
        · rw [before] at armedBefore
          cases armedBefore
        · exact absurd before overtaken.armed

theorem Timed.runDueTimer (timed : Timed json events) {now later : Time} (forward : now ≤ later) :
    (((run json events).runDueTimer json now later).Capped ↔
        Spaced json events (.timers now later)) ∧
      (Spaced json events (.timers now later) →
        ((run json events).runDueTimer json now later).Paced) := by
  have paced := timed.paced
  rw [Client.runDueTimer, Spaced]
  cases armed : (run json events).flushTimer with
  | none =>
      refine ⟨⟨fun _ deadline same => ?_, fun _ => paced.capped⟩, fun _ => paced⟩
      cases same
  | some deadline =>
      simp only [Option.some.injEq, forall_eq']
      split
      · next due =>
          have condition : ((run json events).pendingPayload.isSome →
              (run json events).InTime later) ↔
              (deadline ≤ now → (run json events).pendingPayload.isSome →
                ∀ time, Overtaken json events time → time + minPushInterval ≤ later) := by
            constructor
            · intro inTime _ pending time overtaken
              obtain ⟨before, last⟩ := timed.overtaken time overtaken
              have late := inTime pending last
              linarith
            · intro spaced pending _
              rcases timed.deadline deadline armed with late | overtaken
              · exact late.trans (due.trans forward)
              · exact spaced due pending _ overtaken
          rw [← condition]
          have disarmed : Paced { run json events with flushTimer := none } :=
            ⟨paced.capped, paced.last⟩
          exact disarmed.flushPending json later
      · next early =>
          exact ⟨⟨fun _ due => absurd due early, fun _ => paced.capped⟩, fun _ => paced⟩

theorem Timed.paced_step (timed : Timed json events) (forward : event.Forward) :
    (((run json events).step json event).Capped ↔ Spaced json events event) ∧
      (Spaced json events event → ((run json events).step json event).Paced) := by
  have paced := timed.paced
  have always {after : Client} (next : after.Paced) :
      (after.Capped ↔ True) ∧ (True → after.Paced) :=
    ⟨iff_true_intro next.capped, fun _ => next⟩
  cases event with
  | readable lookup received => exact always ((paced_kept json).onReadable paced lookup received)
  | update ticker payload now later =>
      exact always (paced.callQueueUpdate json ticker payload forward)
  | event event =>
      have noted := paced.note (.sendEvent event) rfl
      refine always ?_
      rw [Client.step, callSendEvent, sendEvent]
      split
      · exact noted
      · exact (paced_kept json).enqueue noted _
  | timers now later => exact timed.runDueTimer forward
  | writable sent =>
      exact always (onWritable_keeps (fun _ good => good.teardown)
        (fun _ _ good => ⟨good.capped, good.last⟩) paced sent)
  | close => exact always paced.teardown

private theorem timed_nil : Timed json [] where
  paced := ⟨.nil, fun _ same => by cases same⟩
  deadline _ same := by cases same
  overtaken _ overtaken := absurd overtaken not_since_nil

/-- In every state of a run all consecutive pushes are apart exactly when all events of the
run were spaced. -/
theorem pushes_capped_iff (json : Json) (events : List ClientEvent)
    (forward : ∀ event ∈ events, event.Forward) :
    (∀ n, (run json (events.take n)).Capped) ↔
      ∀ n event, events[n]? = some event → Spaced json (events.take n) event := by
  refine forall_take_visible_iff (Timed json) (fun earlier => (run json earlier).Capped)
    (Spaced json) timed_nil events (fun _ timed => timed.paced.capped) ?_ ?_
  · intro earlier event member timed capped
    rw [run_concat] at capped
    exact (timed.paced_step (forward event member)).1.mp capped
  · intro earlier event member timed spaced
    exact timed.step (forward event member)
      ((timed.paced_step (forward event member)).2 spaced)

/-- The timer armed at 1.05 s is due at 1.1 s. The batch that begins at 1.09 s takes until
1.12 s: one update is pushed at once, and the timer then pushes the next. -/
def overtakenTimer : List ClientEvent :=
  [.timers 1 1, .update [] .unknown 1 1,
    .timers (21 / 20) (21 / 20), .update [] .unknown (21 / 20) (21 / 20),
    .timers (109 / 100) (109 / 100), .update [] .unknown (111 / 100) (111 / 100),
    .update [] .unknown (28 / 25) (28 / 25),
    .timers (113 / 100) (113 / 100)]

theorem pushes_capped_iff_overtakenTimer :
    (∀ event ∈ overtakenTimer, event.Forward) ∧
      ((∀ n, (run ⟨fun _ => none, fun _ => []⟩ (overtakenTimer.take n)).Capped) ↔
        ∀ n event, overtakenTimer[n]? = some event →
          Spaced ⟨fun _ => none, fun _ => []⟩ (overtakenTimer.take n) event) := by
  have forward : ∀ event ∈ overtakenTimer, event.Forward := by
    simp [overtakenTimer, ClientEvent.Forward]
  exact ⟨forward, pushes_capped_iff _ overtakenTimer forward⟩

theorem overtakenTimer_not_capped :
    (run ⟨fun _ => none, fun _ => []⟩ overtakenTimer).marks =
        [some 1, some (111 / 100), some (113 / 100)] ∧
      ¬ (run ⟨fun _ => none, fun _ => []⟩ overtakenTimer).Capped := by
  have pushes : (run ⟨fun _ => none, fun _ => []⟩ overtakenTimer).marks =
      [some 1, some (111 / 100), some (113 / 100)] := by
    decide +kernel
  refine ⟨pushes, ?_⟩
  rw [Capped, pushes]
  intro capped
  have close : (111 / 100 : Time) + minPushInterval ≤ 113 / 100 :=
    (List.isChain_cons_cons.mp (List.isChain_cons_cons.mp capped).2).1
  norm_num [minPushInterval] at close

end Client

end ProtoFH.Web
