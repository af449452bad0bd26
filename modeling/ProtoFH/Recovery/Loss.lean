import ProtoFH.Recovery.Restored

/-! # What a crash loses

Tick tables reach the database only in a full sync and the session clock not at all.
A feed handler that restarts from the database has neither. -/

namespace ProtoFH

private theorem Tables.receive_shallow {tables : Tables} (shallow : tables.Shallow) {fh : Fh}
    {seq : UInt64} {msg : ItchMsg} :
    (tables.receive (fh.onDecoded seq msg).2).Shallow := by
  cases published : (fh.onDecoded seq msg).2 with
  | none => exact shallow
  | some rec =>
      have stored := shallow.store (LiveState.onDecoded_shallow published).wired
      exact stored

@[simp] theorem Tables.receive_ticks (tables : Tables) (rec : Option UpdateRecord) :
    (tables.receive rec).ticks = tables.ticks := by
  cases rec <;> rfl

theorem LiveState.run_recoverable (prior : Tables) (epoch : UInt64) (session : Bytes)
    (log : ExchangeLog) (count : Nat) :
    let state := LiveState.run prior epoch session log count
    recoverFromDb state.db.stateReply = some state.db.tables.restored ∧
      state.db.tables.ticks = ∅ := by
  intro state
  have start : (rebased prior epoch).Shallow ∧ (rebased prior epoch).ticks = ∅ := by
    refine ⟨?_, rfl⟩
    intro key row stored
    change (∅ : OrderedMap RowKey BookRow)[key]? = some row at stored
    simp at stored
  obtain ⟨settled, shallow, ticks⟩ :
      state.Settled _ ∧ state.db.tables.Shallow ∧ state.db.tables.ticks = ∅ :=
    LiveState.run_settled (fun _ tables => tables.Shallow ∧ tables.ticks = ∅)
      (fun fh tables seq payload msg _ _ holds =>
        ⟨Tables.receive_shallow holds.1, by rw [Tables.receive_ticks, holds.2]⟩) start count
  refine ⟨?_, ticks⟩
  rw [IngestServer.stateReply_eq settled.outside, Tables.recoverFromDb_dumpState shallow]

/-! ## Tick tables -/

private theorem tickRow_apply (market : Market) (msg : ItchMsg) (table start : UInt32) :
    (market.apply msg).1.refdata.tickRow table start =
      match msg with
      | .tickSize _ tableId tickSize priceStart =>
          if tableId = table ∧ priceStart = start then some tickSize
          else market.refdata.tickRow table start
      | _ => market.refdata.tickRow table start := by
  rw [Market.apply_refdata]
  cases msg with
  | tickSize ns tableId tickSize priceStart => exact RefData.tickRow_addTick _ _ _ _ _ _
  | addOrder order =>
      by_cases reference : order.orderNumber = 0 <;>
        simp [RefData.apply, RefData.tickRow, reference]
  | _ => rfl

private theorem tickRow_run_none_iff (messages : List ItchMsg) :
    (∀ table start, (Market.run {} messages).refdata.tickRow table start = none) ↔
      ∀ ns tableId tickSize priceStart, .tickSize ns tableId tickSize priceStart ∉ messages := by
  induction messages using List.reverseRecOn with
  | nil =>
      refine iff_of_true ?_ (by simp)
      intro table start
      simp [Market.run, RefData.tickRow]
  | append_singleton earlier msg induction =>
      simp only [Market.run_concat, tickRow_apply]
      cases msg with
      | tickSize ns tableId tickSize priceStart =>
          refine iff_of_false ?_ ?_
          · intro none
            have stored := none tableId priceStart
            simp at stored
          · intro absent
            exact absent ns tableId tickSize priceStart (by simp)
      | _ => simpa using induction

theorem restored_tickRow_none {tables : Tables} (noTicks : tables.ticks = ∅)
    (table start : UInt32) : tables.restored.market.refdata.tickRow table start = none := by
  rw [Tables.restored_tickRow, Tables.tickRow, noTicks]
  simp

/-- A restarted feed handler has the tick tables of the crashed one exactly when the
messages the database recorded held no `L`. -/
theorem tickTables_survive_iff (prior : Tables) (epoch : UInt64) (session : Bytes)
    (log : ExchangeLog) (count : Nat) :
    let crashed := LiveState.run prior epoch session log count
    ∃ restarted, recoverFromDb crashed.db.stateReply = some restarted ∧
      ((∀ table start, restarted.market.refdata.tickRow table start =
          crashed.fh.market.refdata.tickRow table start) ↔
        ∀ ns tableId tickSize priceStart,
          .tickSize ns tableId tickSize priceStart ∉ messages (log.payloads.take count)) := by
  intro crashed
  obtain ⟨recovered, ticks⟩ := LiveState.run_recoverable prior epoch session log count
  refine ⟨_, recovered, ?_⟩
  rw [← tickRow_run_none_iff, ← LiveState.run_market prior epoch session log count]
  simp only [restored_tickRow_none ticks]
  exact ⟨fun same table start => (same table start).symm,
    fun empty table start => (empty table start).symm⟩

/-- An `L`: table 1 has tick size 5 from price 0 on. -/
def tickLog : ExchangeLog where
  payloads := [[ascii 'L', 0, 0, 0, 0, 0, 0, 0, 1, 0, 0, 0, 5, 0, 0, 0, 0]]
  numbered := by decide

theorem tickTables_lost :
    let crashed := LiveState.run {} 1 [] tickLog 1
    ∃ restarted, recoverFromDb crashed.db.stateReply = some restarted ∧
      crashed.fh.market.refdata.tickRow 1 0 = some 5 ∧
      restarted.market.refdata.tickRow 1 0 = none := by
  intro crashed
  obtain ⟨recovered, ticks⟩ := LiveState.run_recoverable {} 1 [] tickLog 1
  refine ⟨_, recovered, ?_, restored_tickRow_none ticks 1 0⟩
  rw [LiveState.run_market]
  decide

/-! ## The session clock -/

/-- The update published for each message from `first` on, if there is one. -/
def Fh.published (fh : Fh) : (first : Nat) → List Bytes → List (Option UpdateRecord)
  | _, [] => []
  | first, payload :: later =>
      (fh.onMessage (UInt64.ofNat first) payload).2 ::
        (fh.onMessage (UInt64.ofNat first) payload).1.published (first + 1) later

def Fh.exchTimes (fh : Fh) (first : Nat) (payloads : List Bytes) : List (Option UInt64) :=
  (fh.published first payloads).map (Option.map fun rec => rec.envelope.exchNs)

def clockTimes (seconds : UInt64) : List Bytes → List (Option UInt64)
  | [] => []
  | payload :: later =>
      match decode payload with
      | .error _ => none :: clockTimes seconds later
      | .ok (.seconds clock) => none :: clockTimes clock.toUInt64 later
      | .ok msg => some (makeTimestamp seconds msg.ns) :: clockTimes seconds later

private theorem onDecoded_exchNs (fh : Fh) (seq : UInt64) (msg : ItchMsg) :
    (fh.onDecoded seq msg).2.map (fun rec => rec.envelope.exchNs) =
      if msg.isClock then none else some (makeTimestamp fh.market.seconds msg.ns) := by
  cases clock : msg.isClock with
  | true => rw [fh.onDecoded_clock seq clock]; rfl
  | false =>
      rw [fh.onDecoded_update seq clock]
      change some (makeTimestamp (fh.market.apply msg).1.seconds msg.ns) = _
      rw [Market.apply_seconds]
      cases msg with
      | seconds seconds => cases clock
      | _ => rfl

theorem Fh.exchTimes_eq (fh : Fh) (first : Nat) (payloads : List Bytes) :
    fh.exchTimes first payloads = clockTimes fh.market.seconds payloads := by
  induction payloads generalizing fh first with
  | nil => rfl
  | cons payload later induction =>
      change (fh.onMessage (UInt64.ofNat first) payload).2.map _ ::
        (fh.onMessage (UInt64.ofNat first) payload).1.exchTimes (first + 1) later = _
      rw [induction]
      cases decoded : decode payload with
      | error reason => simp [Fh.onMessage, clockTimes, decoded]
      | ok msg =>
          have market := LiveState.onDecoded_market fh (UInt64.ofNat first) msg
          have exchNs := onDecoded_exchNs fh (UInt64.ofNat first) msg
          have seconds := Market.apply_seconds fh.market msg
          simp only [Fh.onMessage, decoded, clockTimes]
          rw [exchNs, market, seconds]
          cases msg <;> rfl

theorem makeTimestamp_toNat {seconds : UInt64} (small : seconds.toNat < 2 ^ 32) (ns : UInt32) :
    (makeTimestamp seconds ns).toNat = seconds.toNat * 1000000000 + ns.toNat := by
  have bound := ns.toNat_lt
  simp [makeTimestamp]
  omega

/-- The first message that decodes, if any does, is a `T`. -/
def ClockFirst : List Bytes → Prop
  | [] => True
  | payload :: later =>
      match decode payload with
      | .error _ => ClockFirst later
      | .ok (.seconds _) => True
      | .ok _ => False

private theorem clockTimes_zero_iff {seconds : UInt64} (small : seconds.toNat < 2 ^ 32)
    (payloads : List Bytes) :
    clockTimes 0 payloads = clockTimes seconds payloads ↔
      seconds = 0 ∨ ClockFirst payloads := by
  have distinct (ns : UInt32) :
      makeTimestamp 0 ns = makeTimestamp seconds ns ↔ seconds = 0 := by
    rw [← UInt64.toNat_inj, ← UInt64.toNat_inj, makeTimestamp_toNat small ns,
      makeTimestamp_toNat (by decide) ns, UInt64.toNat_zero]
    omega
  induction payloads with
  | nil => simp [clockTimes, ClockFirst]
  | cons payload later induction =>
      cases decoded : decode payload with
      | error reason => simpa [clockTimes, ClockFirst, decoded] using induction
      | ok msg =>
          cases msg with
          | seconds clock => simp [clockTimes, ClockFirst, decoded]
          | _ =>
              simp only [clockTimes, ClockFirst, decoded, List.cons.injEq, Option.some.injEq,
                distinct, or_false]
              exact ⟨fun both => both.1, fun zero => ⟨zero, by rw [zero]⟩⟩

private theorem run_seconds_lt (messages : List ItchMsg) :
    (Market.run {} messages).seconds.toNat < 2 ^ 32 := by
  induction messages using List.reverseRecOn with
  | nil => decide
  | append_singleton earlier msg induction =>
      rw [Market.run_concat, Market.apply_seconds]
      cases msg with
      | seconds clock => exact clock.toNat_lt
      | _ => exact induction

/-- With the database at position `k`, the updates of a restarted feed handler carry
the times of an uninterrupted one exactly when the clock stood at 0 after `k`
messages, or nothing is published after `k` before the next `T`. -/
theorem exchNs_survive_iff (prior : Tables) (epoch : UInt64) (session : Bytes)
    (log : ExchangeLog) (count : Nat) :
    let crashed := LiveState.run prior epoch session log count
    let k := crashed.db.tables.dbMeta.lastExchSeq.toNat
    let uninterrupted := (LiveState.run prior epoch session log k).fh
    ∃ restarted, recoverFromDb crashed.db.stateReply = some restarted ∧
      ((Fh.resume restarted).exchTimes (k + 1) (log.payloads.drop k) =
          uninterrupted.exchTimes (k + 1) (log.payloads.drop k) ↔
        uninterrupted.market.seconds = 0 ∨ ClockFirst (log.payloads.drop k)) := by
  intro crashed k uninterrupted
  obtain ⟨recovered, -⟩ := LiveState.run_recoverable prior epoch session log count
  refine ⟨_, recovered, ?_⟩
  have small : uninterrupted.market.seconds.toNat < 2 ^ 32 := by
    change (LiveState.run prior epoch session log k).fh.market.seconds.toNat < 2 ^ 32
    rw [LiveState.run_market]
    exact run_seconds_lt _
  rw [Fh.exchTimes_eq, Fh.exchTimes_eq]
  exact clockTimes_zero_iff small _

/-- A `T` at one second and two orders in book `1301`, 7 ns and 9 ns later. -/
def clockLog : ExchangeLog where
  payloads :=
    [[ascii 'T', 0, 0, 0, 1],
      [ascii 'A', 0, 0, 0, 7, 0, 0, 0, 0, 0, 0, 0, 1, ascii 'B', 0, 0, 0, 100,
        ascii '1', ascii '3', ascii '0', ascii '1', ascii 'D', ascii 'A', ascii 'Y', space,
        0, 0, 3, 232],
      [ascii 'A', 0, 0, 0, 9, 0, 0, 0, 0, 0, 0, 0, 2, ascii 'B', 0, 0, 0, 100,
        ascii '1', ascii '3', ascii '0', ascii '1', ascii 'D', ascii 'A', ascii 'Y', space,
        0, 0, 3, 232]]
  numbered := by decide

/-- With the crash after the first order, the second one is published a second early. -/
theorem exchNs_lost :
    let crashed := LiveState.run {} 1 [] clockLog 2
    ∃ restarted, recoverFromDb crashed.db.stateReply = some restarted ∧
      crashed.db.tables.dbMeta.lastExchSeq = 2 ∧
      crashed.fh.exchTimes 3 (clockLog.payloads.drop 2) = [some 1000000009] ∧
      (Fh.resume restarted).exchTimes 3 (clockLog.payloads.drop 2) = [some 9] := by
  intro crashed
  obtain ⟨recovered, -⟩ := LiveState.run_recoverable {} 1 [] clockLog 2
  refine ⟨_, recovered, by decide +kernel, ?_, ?_⟩
  · rw [Fh.exchTimes_eq, LiveState.run_market]
    decide
  · rw [Fh.exchTimes_eq]
    change clockTimes 0 _ = _
    decide

end ProtoFH
