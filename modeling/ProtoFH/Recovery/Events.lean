import ProtoFH.Foundation.Execution
import ProtoFH.Recovery.Loss

/-! # System events across a crash

The rows that hold the latest system event have no ticker and are skipped on
recovery, so an event survives only as far as later updates of books copied it. -/

namespace ProtoFH

namespace PubContext

/-- The contexts report the same event for every group, and go on doing so after any
further events noted in both. -/
def KeepAgreeing (left right : PubContext) : Prop :=
  ∀ (notes : List (CStr 4 × UInt8)) (group : CStr 4),
    (notes.foldl (fun ctx note => ctx.noteEvent note.1 note.2) left).eventFor group =
      (notes.foldl (fun ctx note => ctx.noteEvent note.1 note.2) right).eventFor group

def ownEvent (ctx : PubContext) (group : CStr 4) : Option UInt8 := ctx.lastSysEvent[group]?

theorem eventFor_eq (ctx : PubContext) (group : CStr 4) :
    ctx.eventFor group = (ctx.ownEvent group).getD ((ctx.ownEvent .empty).getD 0) := by
  unfold eventFor ownEvent
  cases ctx.lastSysEvent[group]? <;> rfl

theorem ownEvent_noteEvent (ctx : PubContext) (group other : CStr 4) (event : UInt8) :
    (ctx.noteEvent group event).ownEvent other =
      if group = other then some event else ctx.ownEvent other :=
  OrderedMap.lookup_insert _ _ _ _

theorem exists_other_event (first : UInt8) : ∃ event : UInt8, event ≠ first :=
  ⟨first + 1, by simp⟩

/-- Contexts keep agreeing exactly when every group has the same event of its own,
where for the system-wide one no event and NUL are the same. -/
theorem keepAgreeing_iff (left right : PubContext) :
    KeepAgreeing left right ↔
      (∀ group, group ≠ .empty → left.ownEvent group = right.ownEvent group) ∧
        (left.ownEvent .empty).getD 0 = (right.ownEvent .empty).getD 0 := by
  constructor
  · intro agree
    constructor
    · intro group named
      -- A new system-wide event shows through exactly where a group has none of its own.
      have probe (event : UInt8) := agree [(.empty, event)] group
      simp only [List.foldl_cons, List.foldl_nil, eventFor_eq, ownEvent_noteEvent,
        if_neg (Ne.symm named), if_true, Option.getD_some] at probe
      cases own : left.ownEvent group with
      | none =>
          cases other : right.ownEvent group with
          | none => rfl
          | some event =>
              obtain ⟨different, distinct⟩ := exists_other_event event
              have shown := probe different
              rw [own, other] at shown
              exact absurd shown distinct
      | some event =>
          cases other : right.ownEvent group with
          | none =>
              obtain ⟨different, distinct⟩ := exists_other_event event
              have shown := probe different
              rw [own, other] at shown
              exact absurd shown.symm distinct
          | some same =>
              have shown := probe 0
              rw [own, other] at shown
              exact congrArg some shown
    · have wide := agree [] .empty
      simp only [List.foldl_nil, eventFor_eq] at wide
      cases own : left.ownEvent .empty <;> cases other : right.ownEvent .empty <;>
        simp_all
  · rintro ⟨named, wide⟩ notes
    induction notes generalizing left right with
    | nil =>
        intro group
        simp only [List.foldl_nil, eventFor_eq]
        by_cases blank : group = .empty
        · subst blank
          cases own : left.ownEvent .empty <;> cases other : right.ownEvent .empty <;>
            simp_all
        · rw [named group blank, wide]
    | cons note notes induction =>
        apply induction
        · intro group nonblank
          simp only [ownEvent_noteEvent, named group nonblank]
        · simp only [ownEvent_noteEvent]
          split
          · rfl
          · exact wide

@[simp] theorem note_ownEvent (ctx : PubContext) (res : ApplyResult) (exchNs : UInt64)
    (group : CStr 4) : (ctx.note res exchNs).ownEvent group = ctx.ownEvent group := by
  unfold note
  split <;> rfl

end PubContext

theorem noted_ownEvent (ctx : PubContext) (market : Market) (msg : ItchMsg) (exchNs : UInt64)
    (group : CStr 4) :
    (Fh.noted ctx msg (market.apply msg).2 exchNs).ownEvent group =
      match msg with
      | .systemEvent _ own event => if own = group then some event else ctx.ownEvent group
      | _ => ctx.ownEvent group := by
  cases msg with
  | systemEvent ns own event =>
      change (PubContext.note (ctx.noteEvent own event) _ _).ownEvent group = _
      rw [PubContext.note_ownEvent, PubContext.ownEvent_noteEvent]
  | _ => exact PubContext.note_ownEvent _ _ _ _

private theorem onDecoded_ownEvent (fh : Fh) (seq : UInt64) (msg : ItchMsg) (group : CStr 4) :
    (fh.onDecoded seq msg).1.ctx.ownEvent group =
      match msg with
      | .systemEvent _ own event => if own = group then some event else fh.ctx.ownEvent group
      | _ => fh.ctx.ownEvent group := by
  cases clock : msg.isClock with
  | true =>
      rw [fh.onDecoded_clock seq clock]
      cases msg with
      | seconds seconds => rfl
      | _ => cases clock
  | false =>
      rw [fh.onDecoded_update seq clock]
      exact noted_ownEvent _ _ _ _ _

/-! ## The events of a log -/

def latestEvent (messages : List ItchMsg) (group : CStr 4) : Option UInt8 :=
  lastWrite (fun msg =>
    match msg with
    | .systemEvent _ own event => if own = group then some event else none
    | _ => none) messages

/-- The event that a book of the group is published with: the latest of the group, or else
the latest system-wide one. -/
def shownEvent (messages : List ItchMsg) (group : CStr 4) : UInt8 :=
  (latestEvent messages group).getD ((latestEvent messages .empty).getD 0)

/-- The row that a message updates and the event it writes there. A `T` updates none. -/
def writesEvent (earlier : List ItchMsg) (msg : ItchMsg) : Option (RowKey × UInt8) :=
  if msg.isClock then none
  else
    let (market, res) := (Market.run {} earlier).apply msg
    let group := publishedGroup (byTicker market.refdata.instruments res.ticker) res
    some (⟨res.ticker.trimmed, group.trimmed⟩, shownEvent (earlier ++ [msg]) group)

def writtenAt (messages : List ItchMsg) (key : RowKey) (n : Nat) : Option UInt8 := do
  let msg ← messages[n]?
  let (row, event) ← writesEvent (messages.take n) msg
  if row = key then some event else none

/-- The event in a row after the messages: that of the last message that updated it. -/
def rowEvent (messages : List ItchMsg) (key : RowKey) : Option UInt8 :=
  lastWrite (writtenAt messages key) (List.range messages.length)

def Unrecorded (messages : List ItchMsg) (group : CStr 4) : Prop :=
  ∀ ticker, ticker ≠ .empty → (rowEvent messages ⟨ticker, group⟩).getD 0 = 0

/-- A book of the group was last published with the event, and those behind it in the
order of the tickers with none. -/
def Recorded (messages : List ItchMsg) (group : CStr 4) (event : UInt8) : Prop :=
  event ≠ 0 ∧ ∃ ticker, ticker ≠ .empty ∧ rowEvent messages ⟨ticker, group⟩ = some event ∧
    ∀ later, later ≠ .empty → compare ticker later = .lt →
      (rowEvent messages ⟨later, group⟩).getD 0 = 0

/-- Books of the group carry its latest event, or none if it has none. A NUL event that is
system-wide is as good as none. -/
def EventSurvives (messages : List ItchMsg) (group : CStr 4) : Prop :=
  match latestEvent messages group with
  | none => Unrecorded messages group
  | some event =>
      if group = .empty ∧ event = 0 then Unrecorded messages group
      else Recorded messages group event

theorem latestEvent_concat (messages : List ItchMsg) (msg : ItchMsg) (group : CStr 4) :
    latestEvent (messages ++ [msg]) group =
      match msg with
      | .systemEvent _ own event => if own = group then some event else latestEvent messages group
      | _ => latestEvent messages group := by
  rw [latestEvent, lastWrite_concat]
  cases msg with
  | systemEvent ns own event =>
      dsimp only
      split <;> rfl
  | _ => rfl

theorem rowEvent_concat (messages : List ItchMsg) (msg : ItchMsg) (key : RowKey) :
    rowEvent (messages ++ [msg]) key =
      ((writesEvent messages msg).bind fun written =>
        if written.1 = key then some written.2 else none).or (rowEvent messages key) := by
  have last : writtenAt (messages ++ [msg]) key messages.length =
      (writesEvent messages msg).bind fun written =>
        if written.1 = key then some written.2 else none := by
    rw [writtenAt, List.getElem?_concat_length, List.take_left]
    rfl
  have before : ∀ n ∈ List.range messages.length,
      writtenAt (messages ++ [msg]) key n = writtenAt messages key n := by
    intro n member
    have within := List.mem_range.mp member
    rw [writtenAt, writtenAt, List.getElem?_append_left within,
      List.take_append_of_le_length (Nat.le_of_lt within)]
  rw [rowEvent, List.length_append, List.length_singleton, List.range_succ, lastWrite_concat,
    last, rowEvent, lastWrite_congr before]

theorem exists_of_rowEvent {messages : List ItchMsg} {key : RowKey} {event : UInt8}
    (written : rowEvent messages key = some event) :
    ∃ earlier msg later, messages = earlier ++ msg :: later ∧
      writesEvent earlier msg = some (key, event) := by
  obtain ⟨n, -, found⟩ := exists_of_lastWrite_eq_some written
  obtain ⟨msg, next, found⟩ := Option.bind_eq_some_iff.mp found
  obtain ⟨⟨row, noted⟩, writes, found⟩ := Option.bind_eq_some_iff.mp found
  change (if row = key then some noted else none) = some event at found
  refine ⟨messages.take n, msg, messages.drop (n + 1), ?_, ?_⟩
  · obtain ⟨within, rfl⟩ := List.getElem?_eq_some_iff.mp next
    rw [List.getElem_cons_drop, List.take_append_drop]
  · obtain ⟨rfl, same⟩ := Option.ite_none_right_eq_some.mp found
    cases same
    exact writes

private theorem rowEvent_trimmed {messages : List ItchMsg} {key : RowKey} {event : UInt8}
    (written : rowEvent messages key = some event) :
    key.ticker.trimmed = key.ticker ∧ key.group.trimmed = key.group := by
  obtain ⟨earlier, msg, later, -, writes⟩ := exists_of_rowEvent written
  rw [writesEvent] at writes
  split at writes
  · cases writes
  · cases writes
    exact ⟨CStr.trimmed_trimmed _, CStr.trimmed_trimmed _⟩

/-! ## Messages that say nothing -/

def Uninformative : ItchMsg → Prop
  | .systemEvent _ group event => group = .empty ∧ event = 0
  | _ => True

section Quiet

variable {messages : List ItchMsg} (quiet : ∀ msg ∈ messages, Uninformative msg)
include quiet

theorem latestEvent_quiet {group : CStr 4} {event : UInt8}
    (latest : latestEvent messages group = some event) : group = .empty ∧ event = 0 := by
  obtain ⟨msg, member, noted⟩ := exists_of_lastWrite_eq_some latest
  have nothing := quiet msg member
  cases msg with
  | systemEvent ns own other =>
      dsimp only at noted
      split at noted
      · next same =>
          cases noted
          exact ⟨same ▸ nothing.1, nothing.2⟩
      · cases noted
  | _ => cases noted

private theorem shownEvent_quiet (group : CStr 4) : shownEvent messages group = 0 := by
  have nul (own : CStr 4) : (latestEvent messages own).getD 0 = 0 := by
    cases latest : latestEvent messages own with
    | none => rfl
    | some event => exact (latestEvent_quiet quiet latest).2
  rw [shownEvent, nul]
  exact nul group

theorem rowEvent_quiet (key : RowKey) : (rowEvent messages key).getD 0 = 0 := by
  cases written : rowEvent messages key with
  | none => rfl
  | some event =>
      obtain ⟨earlier, msg, later, rfl, writes⟩ := exists_of_rowEvent written
      rw [writesEvent] at writes
      split at writes
      · cases writes
      · cases writes
        refine shownEvent_quiet (fun other member => quiet other ?_) _
        simp only [List.mem_append, List.mem_cons, List.not_mem_nil, or_false] at member ⊢
        exact member.imp_right .inl

private theorem eventSurvives_quiet (group : CStr 4) : EventSurvives messages group := by
  have unrecorded : Unrecorded messages group := fun ticker _ => rowEvent_quiet quiet _
  rw [EventSurvives]
  cases latest : latestEvent messages group with
  | none => exact unrecorded
  | some event =>
      dsimp only
      rw [if_pos (latestEvent_quiet quiet latest)]
      exact unrecorded

private theorem uninformative_of_survives {msg : ItchMsg}
    (survives : ∀ group, EventSurvives (messages ++ [msg]) group) : Uninformative msg := by
  cases msg with
  | systemEvent ns group event =>
      have own := survives group
      rw [EventSurvives, latestEvent_concat] at own
      simp only [if_true] at own
      split at own
      · assumption
      · obtain ⟨real, ticker, named, written, -⟩ := own
        have skipped : ((writesEvent messages (.systemEvent ns group event)).bind fun row =>
            if row.1 = ⟨ticker, group⟩ then some row.2 else none) = none :=
          if_neg fun same => named (congrArg RowKey.ticker same).symm
        rw [rowEvent_concat, skipped, Option.none_or] at written
        have nothing := rowEvent_quiet quiet ⟨ticker, group⟩
        rw [written] at nothing
        exact absurd nothing real
  | _ => trivial

end Quiet

/-! ## The recovered events -/

private theorem restoreContext_lastSysEvent (rec : UpdateRecord) (ctx : PubContext) :
    (rec.restoreContext ctx).lastSysEvent =
      if rec.state.lastSystemEvent ≠ 0 then
        ctx.lastSysEvent.insert rec.envelope.group rec.state.lastSystemEvent
      else ctx.lastSysEvent := by
  unfold UpdateRecord.restoreContext
  split <;> split <;> rfl

theorem RowKey.compare_of_group {ticker later : CStr 4} (group : CStr 4) :
    compare (RowKey.mk ticker group) (RowKey.mk later group) = compare ticker later := by
  have same : compare group group = .eq := Std.ReflCmp.compare_self
  change (compare ticker later).then (compare group group) = _
  rw [same, Ordering.then_eq]

def eventIn (group : CStr 4) (key : RowKey) (row : BookRow) : Option UInt8 :=
  if key.group.trimmed = group ∧ key.ticker.trimmed ≠ .empty ∧ row.state.lastSystemEvent ≠ 0 then
    some row.state.lastSystemEvent
  else none

theorem restored_ownEvent (tables : Tables) (group : CStr 4) :
    tables.restored.ctx.ownEvent group =
      OrderedMap.lastWhere tables.books (eventIn group) := by
  have steps (ctx : PubContext) (entry : RowKey × BookRow) :
      ((Tables.dumpRow entry).rowContext ctx).ownEvent group =
        (eventIn group entry.1 entry.2).or (ctx.ownEvent group) := by
    have name : (Tables.dumpRow entry).envelope.ticker = entry.1.ticker.trimmed := rfl
    have event : (Tables.dumpRow entry).state.lastSystemEvent = entry.2.state.lastSystemEvent := rfl
    have under : (Tables.dumpRow entry).envelope.group = entry.1.group.trimmed := rfl
    rw [UpdateRecord.rowContext, eventIn, name]
    by_cases blank : entry.1.ticker.trimmed = .empty
    · rw [if_pos blank, if_neg fun all => all.2.1 blank]
      rfl
    · rw [if_neg blank, PubContext.ownEvent, restoreContext_lastSysEvent, event, under]
      by_cases nul : entry.2.state.lastSystemEvent = 0
      · rw [if_neg (not_not.mpr nul), if_neg fun all => all.2.2 nul]
        rfl
      · rw [if_pos nul, OrderedMap.lookup_insert]
        by_cases own : entry.1.group.trimmed = group
        · rw [if_pos own, if_pos ⟨own, blank, nul⟩]
          rfl
        · rw [if_neg own, if_neg fun all => own all.1]
          rfl
  rw [Tables.restored_ctx]
  refine (read_foldl (fun ctx : PubContext => ctx.ownEvent group) steps
    tables.books.toList {}).trans ?_
  simp [OrderedMap.lastWhere, PubContext.ownEvent]

structure Noted (messages : List ItchMsg) (fh : Fh) (tables : Tables) : Prop where
  market : fh.market = Market.run {} messages
  latest : ∀ group, fh.ctx.ownEvent group = latestEvent messages group
  rows : ∀ key, tables.books[key]?.map (fun row => row.state.lastSystemEvent) =
    rowEvent messages key

namespace Noted

variable {messages : List ItchMsg} {fh : Fh} {tables : Tables} (noted : Noted messages fh tables)
include noted

theorem onDecoded (seq : UInt64) (msg : ItchMsg) :
    Noted (messages ++ [msg]) (fh.onDecoded seq msg).1
      (tables.receive (fh.onDecoded seq msg).2) := by
  have latest (group : CStr 4) : (fh.onDecoded seq msg).1.ctx.ownEvent group =
      latestEvent (messages ++ [msg]) group := by
    rw [onDecoded_ownEvent, latestEvent_concat, noted.latest]
  refine ⟨?_, latest, fun key => ?_⟩
  · rw [LiveState.onDecoded_market, noted.market, Market.run_concat]
  · rw [rowEvent_concat, writesEvent]
    cases clock : msg.isClock with
    | true =>
        rw [fh.onDecoded_clock seq clock, if_pos rfl]
        exact noted.rows key
    | false =>
        rw [if_neg Bool.false_ne_true, Option.bind_some, ← noted.rows, ← noted.market]
        rw [fh.onDecoded_update seq clock] at latest ⊢
        have shown (group : CStr 4) :
            (fh.contextAfter msg).eventFor group = shownEvent (messages ++ [msg]) group := by
          rw [PubContext.eventFor_eq, shownEvent, ← latest, ← latest]
        change (tables.books.insert (fh.updateFor seq msg).wired.key _)[key]?.map _ = _
        rw [OrderedMap.lookup_insert]
        by_cases own : (fh.updateFor seq msg).wired.key = key
        · rw [if_pos own, if_pos (by exact own), Option.map_some, Option.some_or, Option.some_inj,
            ← shown]
          change (stateSection _ (fh.contextAfter msg) _ _ _).lastSystemEvent = _
          cases byTicker (fh.market.apply msg).1.refdata.instruments
            (fh.market.apply msg).2.ticker <;> rfl
        · rw [if_neg own, if_neg (by exact own), Option.none_or]

theorem row {key : RowKey} {row : BookRow} (stored : tables.books[key]? = some row) :
    rowEvent messages key = some row.state.lastSystemEvent := by
  rw [← noted.rows, stored, Option.map_some]

theorem eventIn_eq {group : CStr 4} {key : RowKey} {row : BookRow}
    (stored : tables.books[key]? = some row) :
    eventIn group key row =
      if key.group = group ∧ key.ticker ≠ .empty ∧ row.state.lastSystemEvent ≠ 0 then
        some row.state.lastSystemEvent
      else none := by
  obtain ⟨ticker, own⟩ := rowEvent_trimmed (noted.row stored)
  rw [eventIn, ticker, own]

theorem restored_none_iff (group : CStr 4) :
    tables.restored.ctx.ownEvent group = none ↔ Unrecorded messages group := by
  rw [restored_ownEvent, OrderedMap.lastWhere_eq_none_iff]
  constructor
  · intro nothing ticker named
    rw [← noted.rows]
    cases stored : tables.books[(⟨ticker, group⟩ : RowKey)]? with
    | none => rfl
    | some row =>
        have skipped := nothing _ row stored
        rw [noted.eventIn_eq stored] at skipped
        by_contra real
        rw [if_pos ⟨rfl, named, real⟩] at skipped
        cases skipped
  · rintro unrecorded ⟨ticker, own⟩ row stored
    rw [noted.eventIn_eq stored, if_neg]
    rintro ⟨rfl, named, real⟩
    have nul := unrecorded ticker named
    rw [noted.row stored] at nul
    exact real nul

theorem restored_some_iff (group : CStr 4) (event : UInt8) :
    tables.restored.ctx.ownEvent group = some event ↔ Recorded messages group event := by
  rw [restored_ownEvent, OrderedMap.lastWhere_eq_some_iff]
  constructor
  · rintro ⟨⟨ticker, own⟩, row, stored, picked, beyond⟩
    rw [noted.eventIn_eq stored] at picked
    split at picked
    · next holds =>
        obtain ⟨rfl, named, real⟩ := holds
        cases picked
        refine ⟨real, ticker, named, noted.row stored, fun later nonblank above => ?_⟩
        rw [← noted.rows]
        cases other : tables.books[(⟨later, own⟩ : RowKey)]? with
        | none => rfl
        | some held =>
            have skipped := beyond _ held other ((RowKey.compare_of_group own).trans above)
            rw [noted.eventIn_eq other] at skipped
            by_contra nul
            rw [if_pos ⟨rfl, nonblank, nul⟩] at skipped
            cases skipped
    · cases picked
  · rintro ⟨real, ticker, named, written, nothing⟩
    rw [← noted.rows] at written
    obtain ⟨row, stored, rfl⟩ := Option.map_eq_some_iff.mp written
    refine ⟨_, row, stored, ?_, ?_⟩
    · rw [noted.eventIn_eq stored, if_pos ⟨rfl, named, real⟩]
    · rintro ⟨later, own⟩ held other above
      rw [noted.eventIn_eq other, if_neg]
      rintro ⟨rfl, nonblank, shown⟩
      have nul := nothing later nonblank ((RowKey.compare_of_group _).symm.trans above)
      rw [noted.row other] at nul
      exact shown nul

theorem survives_iff {group : CStr 4} (named : group ≠ .empty) :
    EventSurvives messages group ↔
      tables.restored.ctx.ownEvent group = fh.ctx.ownEvent group := by
  rw [EventSurvives, noted.latest]
  cases latestEvent messages group with
  | none => exact (noted.restored_none_iff group).symm
  | some event =>
      dsimp only
      rw [if_neg fun both => named both.1]
      exact (noted.restored_some_iff group event).symm

theorem survives_empty_iff :
    EventSurvives messages .empty ↔
      (tables.restored.ctx.ownEvent .empty).getD 0 = (fh.ctx.ownEvent .empty).getD 0 := by
  have unrecorded := noted.restored_none_iff .empty
  have recorded := noted.restored_some_iff .empty
  rw [EventSurvives, noted.latest]
  cases restored : tables.restored.ctx.ownEvent .empty with
  | none =>
      have none := unrecorded.mp restored
      cases latestEvent messages .empty with
      | none => exact iff_of_true none rfl
      | some event =>
          by_cases nul : event = 0
          · subst nul
            exact iff_of_true (by simpa using none) rfl
          · dsimp only
            rw [if_neg fun both => nul both.2, ← recorded, restored]
            exact iff_of_false (Option.some_ne_none event).symm (Ne.symm nul)
  | some found =>
      have held := (recorded found).mp restored
      have some : ¬ Unrecorded messages .empty := by
        rw [← unrecorded, restored]
        exact Option.some_ne_none found
      cases latestEvent messages .empty with
      | none => exact iff_of_false some held.1
      | some event =>
          by_cases nul : event = 0
          · subst nul
            exact iff_of_false (by simpa using some) held.1
          · dsimp only
            rw [if_neg fun both => nul both.2, ← recorded, restored]
            exact Option.some_inj

theorem keepAgreeing_iff :
    tables.restored.ctx.KeepAgreeing fh.ctx ↔ ∀ group, EventSurvives messages group := by
  rw [PubContext.keepAgreeing_iff]
  constructor
  · rintro ⟨named, wide⟩ group
    by_cases blank : group = .empty
    · rw [blank]
      exact noted.survives_empty_iff.mpr wide
    · exact (noted.survives_iff blank).mpr (named group blank)
  · intro survives
    exact ⟨fun group named => (noted.survives_iff named).mp (survives group),
      noted.survives_empty_iff.mp (survives .empty)⟩

end Noted

/-! ## Every crash point -/

private theorem LiveState.run_noted (prior : Tables) (epoch : UInt64) (session : Bytes)
    (log : ExchangeLog) (count : Nat) :
    Noted (messages (log.payloads.take count)) (run prior epoch session log count).fh
      (run prior epoch session log count).db.tables := by
  induction count with
  | zero =>
      obtain ⟨-, fh, tables⟩ := coldStart_settled prior epoch session
      change Noted [] (coldStart prior epoch session).fh (coldStart prior epoch session).db.tables
      rw [fh, tables]
      refine ⟨rfl, fun group => ?_, fun key => ?_⟩
      · simp [PubContext.ownEvent, latestEvent]
      · change ((∅ : OrderedMap RowKey BookRow)[key]?).map _ = none
        simp
  | succ count induction =>
      cases next : log.payloads[count]? with
      | none =>
          have ended : log.payloads.take (count + 1) = log.payloads.take count := by
            rw [List.take_add_one, next, Option.toList_none, List.append_nil]
          rwa [run_past _ _ _ next, ended]
      | some payload =>
          have stepped := run_succ prior epoch session next
          rw [messages_take_succ next]
          cases decoded : decode payload with
          | error reason =>
              rw [decoded] at stepped
              rw [stepped]
              simpa [Except.toOption] using induction
          | ok msg =>
              rw [decoded] at stepped
              rw [stepped.1, stepped.2]
              exact induction.onDecoded _ msg

/-- After a crash the events are those of the crashed feed handler exactly when each
group's survives. They survive a crash at every point of a log exactly when no system
event of the log says anything: each is system-wide and NUL. -/
theorem events_survive_iff (prior : Tables) (epoch : UInt64) (session : Bytes)
    (log : ExchangeLog) :
    (∀ count, ∃ restarted,
        recoverFromDb (LiveState.run prior epoch session log count).db.stateReply =
          some restarted ∧
        (restarted.ctx.KeepAgreeing (LiveState.run prior epoch session log count).fh.ctx ↔
          ∀ group, EventSurvives (messages (log.payloads.take count)) group)) ∧
      ((∀ count, ∃ restarted,
          recoverFromDb (LiveState.run prior epoch session log count).db.stateReply =
            some restarted ∧
          restarted.ctx.KeepAgreeing (LiveState.run prior epoch session log count).fh.ctx) ↔
        ∀ msg ∈ messages log.payloads, Uninformative msg) := by
  have recovers (count : Nat) := (LiveState.run_recoverable prior epoch session log count).1
  have exact (count : Nat) :=
    (LiveState.run_noted prior epoch session log count).keepAgreeing_iff
  refine ⟨fun count => ⟨_, recovers count, exact count⟩, ?_, ?_⟩
  · intro survive
    have survives (count : Nat) : ∀ group, EventSurvives (messages (log.payloads.take count))
        group := by
      obtain ⟨restarted, recovered, agree⟩ := survive count
      rw [recovers count] at recovered
      cases recovered
      exact (exact count).mp agree
    have quiet (count : Nat) : ∀ msg ∈ messages (log.payloads.take count), Uninformative msg := by
      induction count with
      | zero => simp [messages]
      | succ count induction =>
          have after := survives (count + 1)
          cases next : log.payloads[count]? with
          | none =>
              rw [List.take_add_one, next, Option.toList_none, List.append_nil]
              exact induction
          | some payload =>
              rw [messages_take_succ next] at after ⊢
              cases decoded : decode payload with
              | error reason => simpa [Except.toOption] using induction
              | ok msg =>
                  rw [decoded] at after
                  have last := uninformative_of_survives induction after
                  intro other member
                  rcases List.mem_append.mp member with earlier | isLast
                  · exact induction other earlier
                  · rw [List.mem_singleton.mp isLast]
                    exact last
    have whole := quiet log.payloads.length
    rwa [List.take_length] at whole
  · intro quiet count
    refine ⟨_, recovers count, (exact count).mpr (eventSurvives_quiet fun msg member => ?_)⟩
    obtain ⟨payload, taken, decoded⟩ := mem_messages.mp member
    exact quiet msg (mem_messages.mpr ⟨payload, List.mem_of_mem_take taken, decoded⟩)

def eventLog : ExchangeLog where
  payloads := [[ascii 'S', 0, 0, 0, 0, ascii 'D', ascii 'A', ascii 'Y', space, ascii 'O']]
  numbered := by decide

def dayGroup : CStr 4 := CStr.copy 4 [ascii 'D', ascii 'A', ascii 'Y']

theorem event_lost :
    let crashed := LiveState.run {} 1 [] eventLog 1
    ∃ restarted, recoverFromDb crashed.db.stateReply = some restarted ∧
      crashed.fh.ctx.eventFor dayGroup = ascii 'O' ∧
      restarted.ctx.eventFor dayGroup = 0 := by
  intro crashed
  obtain ⟨recovered, -⟩ := LiveState.run_recoverable {} 1 [] eventLog 1
  refine ⟨_, recovered, by decide +kernel, by decide +kernel⟩

end ProtoFH
