import ProtoFH.Fh.Live
import ProtoFH.Foundation.Text
import ProtoFH.Market.Invariants

/-! # The feed that is shown

The updates of a feed handler in the order of their publication, and the executions
among them. -/

namespace ProtoFH

/-- What a feed handler publishes for some messages, numbered from `first` on, as it
goes over the wire. -/
def Fh.publishes (fh : Fh) : (first : Nat) → List Bytes → List UpdateRecord
  | _, [] => []
  | first, payload :: later =>
      let (next, rec) := fh.onMessage (UInt64.ofNat first) payload
      (rec.map UpdateRecord.wired).toList ++ next.publishes (first + 1) later

namespace Web

def shownTicker (sent : UpdateRecord) : Text := stripRight sent.envelope.ticker.bytes

/-- The updates of a feed handler, in order: a record that has a last trade follows or is
the `E` of an execution of its ticker. -/
structure Feed where
  records : List UpdateRecord
  ascending : records.Pairwise fun rec later => rec.envelope.exchSeq < later.envelope.exchSeq
  traded : ∀ past rec, past ++ [rec] <+: records → rec.trade.lastTradeNs ≠ 0 →
    ∃ sent ∈ past ++ [rec], sent.envelope.trigger = ascii 'E' ∧
      shownTicker sent = shownTicker rec

namespace Feed

def executions (feed : Feed) (ticker : Text) : List Nat :=
  (feed.records.filter fun sent =>
    sent.envelope.trigger = ascii 'E' ∧ shownTicker sent = ticker).map
      fun sent => sent.envelope.exchSeq.toNat

def executionAt (feed : Feed) (ticker : Text) (exchSeq : Nat) : Option Nat :=
  ((feed.executions ticker).filter (· ≤ exchSeq)).max?

variable {feed : Feed} {ticker : Text}

theorem mem_executions {exchSeq : Nat} :
    exchSeq ∈ feed.executions ticker ↔
      ∃ sent ∈ feed.records, sent.envelope.trigger = ascii 'E' ∧ shownTicker sent = ticker ∧
        sent.envelope.exchSeq.toNat = exchSeq := by
  simp [executions, and_assoc]

theorem executionAt_eq_some_iff {exchSeq execution : Nat} :
    feed.executionAt ticker exchSeq = some execution ↔
      (execution ∈ feed.executions ticker ∧ execution ≤ exchSeq) ∧
        ∀ other ∈ feed.executions ticker, other ≤ exchSeq → other ≤ execution := by
  simp [executionAt, List.max?_eq_some_iff]

theorem executionAt_self {exchSeq : Nat} (member : exchSeq ∈ feed.executions ticker) :
    feed.executionAt ticker exchSeq = some exchSeq :=
  executionAt_eq_some_iff.mpr ⟨⟨member, Nat.le_refl _⟩, fun _ _ within => within⟩

theorem executionAt_isSome {exchSeq execution : Nat} (member : execution ∈ feed.executions ticker)
    (within : execution ≤ exchSeq) : (feed.executionAt ticker exchSeq).isSome := by
  rw [executionAt, List.isSome_max?_iff]
  exact List.ne_nil_of_mem (List.mem_filter.mpr ⟨member, by simpa using within⟩)

theorem executionAt_lt_iff {before after last next : Nat}
    (isLast : feed.executionAt ticker before = some last)
    (isNext : feed.executionAt ticker after = some next) :
    last < next ↔ ∃ execution ∈ feed.executions ticker,
      before < execution ∧ execution ≤ after := by
  obtain ⟨⟨-, lastWithin⟩, lastGreatest⟩ := executionAt_eq_some_iff.mp isLast
  obtain ⟨⟨nextMember, nextWithin⟩, nextGreatest⟩ := executionAt_eq_some_iff.mp isNext
  constructor
  · intro less
    refine ⟨next, nextMember, ?_, nextWithin⟩
    by_contra early
    exact absurd (lastGreatest next nextMember (Nat.le_of_not_lt early)) (Nat.not_le.mpr less)
  · rintro ⟨execution, member, beyond, within⟩
    exact Nat.lt_of_le_of_lt lastWithin
      (Nat.lt_of_lt_of_le beyond (nextGreatest execution member within))

end Feed

/-! ## The feed of a log -/

/-- Every ticker that has traded is that of an `E` among the records. -/
def Backed (fh : Fh) (past : List UpdateRecord) : Prop :=
  ∀ (ticker : CStr 4) (stats : BookStats), fh.market.tape.stats[ticker]? = some stats →
    ∃ sent ∈ past, sent.envelope.trigger = ascii 'E' ∧
      shownTicker sent = stripRight ticker.bytes

variable {fh : Fh} {past : List UpdateRecord}

theorem Backed.mono (backed : Backed fh past) (later : List UpdateRecord) :
    Backed fh (past ++ later) := by
  intro ticker stats traded
  obtain ⟨sent, member, isExecution⟩ := backed ticker stats traded
  exact ⟨sent, List.mem_append_left _ member, isExecution⟩

theorem shownTicker_wired (rec : UpdateRecord) : shownTicker rec.wired = shownTicker rec :=
  stripRight_stripRight _

variable {msg : ItchMsg}

theorem Backed.update (backed : Backed fh past) (seq : UInt64) (clock : msg.isClock = false) :
    Backed (fh.onDecoded seq msg).1 (past ++ [(fh.updateFor seq msg).wired]) := by
  rw [fh.onDecoded_update seq clock]
  intro ticker stats traded
  change (fh.market.apply msg).1.tape.stats[ticker]? = some stats at traded
  rcases fh.market.apply_tape_cases msg with
    ⟨ns, orderNumber, executedQty, matchNumber, order, rfl, -, isTicker, recorded⟩ | ⟨same, -⟩
  · rw [recorded] at traded
    by_cases own : order.orderbookId = ticker
    · refine ⟨_, List.mem_append_right _ List.mem_cons_self, ?_, ?_⟩
      · exact Market.apply_trigger fh.market (.executed ns orderNumber executedQty matchNumber)
      · rw [shownTicker_wired, ← own, ← isTicker]
        rfl
    · have kept : fh.market.tape.stats[ticker]? = some stats := by
        rw [← traded]
        exact (OrderedMap.lookup_insert_of_ne _ _ own).symm
      exact backed.mono _ ticker stats kept
  · rw [same] at traded
    exact backed.mono _ ticker stats traded

theorem Backed.clock (backed : Backed fh past) (seq : UInt64) (clock : msg.isClock = true) :
    Backed { fh with market := (fh.market.apply msg).1, lastExchSeq := seq } past := by
  rcases fh.market.apply_tape_cases msg with ⟨ns, orderNumber, qty, number, order, rfl, -⟩ |
    ⟨same, -⟩
  · cases clock
  · intro ticker stats traded
    change (fh.market.apply msg).1.tape.stats[ticker]? = some stats at traded
    rw [same] at traded
    exact backed ticker stats traded

private theorem updateFor_traded {seq : UInt64} (clock : msg.isClock = false)
    (traded : (fh.updateFor seq msg).wired.trade.lastTradeNs ≠ 0) :
    ∃ stats, (fh.onDecoded seq msg).1.market.tape.stats[
      (fh.updateFor seq msg).envelope.ticker]? = some stats := by
  have trade : (fh.updateFor seq msg).wired.trade =
      tradeSection (fh.contextAfter msg) (fh.market.apply msg).2.ticker
        (byTicker (fh.market.apply msg).1.tape.stats (fh.market.apply msg).2.ticker) := rfl
  rw [fh.onDecoded_update seq clock]
  rw [trade, byTicker] at traded
  cases found : (fh.market.apply msg).1.tape.stats[(fh.market.apply msg).2.ticker]? with
  | some stats => exact ⟨stats, found⟩
  | none =>
      rw [found, ite_self] at traded
      exact absurd rfl traded

theorem publishes_traded {earlier : List UpdateRecord} (backed : Backed fh earlier) (first : Nat)
    (payloads : List Bytes) (past : List UpdateRecord) (rec : UpdateRecord)
    (isPast : past ++ [rec] <+: fh.publishes first payloads) (traded : rec.trade.lastTradeNs ≠ 0) :
    ∃ sent ∈ earlier ++ (past ++ [rec]), sent.envelope.trigger = ascii 'E' ∧
      shownTicker sent = shownTicker rec := by
  induction payloads generalizing fh earlier first past with
  | nil => simp [Fh.publishes] at isPast
  | cons payload later induction =>
      rw [Fh.publishes] at isPast
      rcases fh.onMessage_cases (UInt64.ofNat first) payload with
        ⟨reason, -, silent⟩ | ⟨msg, -, ⟨clock, silent⟩ | ⟨clock, published⟩⟩
      · rw [silent] at isPast
        exact induction backed (first + 1) past isPast
      · rw [silent] at isPast
        exact induction (backed.clock _ clock) (first + 1) past isPast
      · rw [published] at isPast
        have after := backed.update (UInt64.ofNat first) clock
        rw [fh.onDecoded_update _ clock] at after
        cases past with
        | nil =>
            obtain ⟨rest, isFirst⟩ := isPast
            obtain ⟨isRec, -⟩ := List.cons.inj isFirst
            subst isRec
            obtain ⟨stats, found⟩ := updateFor_traded clock traded
            rw [fh.onDecoded_update _ clock] at found
            obtain ⟨sent, member, isExecution, same⟩ := after _ stats found
            refine ⟨sent, member, isExecution, same.trans ?_⟩
            rw [shownTicker_wired]
            rfl
        | cons front past =>
            rw [List.cons_append] at isPast
            obtain ⟨isFront, rest⟩ := List.cons_prefix_cons.mp isPast
            obtain ⟨sent, member, isExecution, same⟩ := induction after (first + 1) past rest
            rw [← isFront, List.append_assoc] at member
            exact ⟨sent, member, isExecution, same⟩

theorem publishes_ascending (fh : Fh) (first : Nat) (payloads : List Bytes)
    (bound : first + payloads.length ≤ 2 ^ 64) :
    (∀ rec ∈ fh.publishes first payloads, first ≤ rec.envelope.exchSeq.toNat) ∧
      (fh.publishes first payloads).Pairwise
        fun rec later => rec.envelope.exchSeq < later.envelope.exchSeq := by
  induction payloads generalizing fh first with
  | nil => exact ⟨nofun, .nil⟩
  | cons payload later induction =>
      rw [List.length_cons] at bound
      have small : (UInt64.ofNat first).toNat = first :=
        UInt64.toNat_ofNat_of_lt (show first < 2 ^ 64 by omega)
      obtain ⟨numbered, ascending⟩ := induction
        (fh.onMessage (UInt64.ofNat first) payload).1 (first + 1) (by omega)
      rw [Fh.publishes]
      rcases fh.onMessage_cases (UInt64.ofNat first) payload with
        ⟨reason, -, silent⟩ | ⟨msg, -, ⟨clock, silent⟩ | ⟨clock, published⟩⟩
      · rw [silent] at numbered ascending ⊢
        exact ⟨fun rec member => Nat.le_of_succ_le (numbered rec member), ascending⟩
      · rw [silent] at numbered ascending ⊢
        exact ⟨fun rec member => Nat.le_of_succ_le (numbered rec member), ascending⟩
      · rw [published] at numbered ascending ⊢
        have own : (fh.updateFor (UInt64.ofNat first) msg).wired.envelope.exchSeq =
            UInt64.ofNat first := rfl
        constructor
        · intro rec member
          rcases List.mem_cons.mp member with rfl | inLater
          · rw [own, small]
          · exact Nat.le_of_succ_le (numbered rec inLater)
        · refine List.pairwise_cons.mpr ⟨fun rec member => ?_, ascending⟩
          rw [own, UInt64.lt_iff_toNat_lt, small]
          exact numbered rec member

def logFeed (epoch : UInt64) (session : Bytes) (log : ExchangeLog) : Feed where
  records := Fh.publishes { epoch, session } 1 log.payloads
  ascending := (publishes_ascending _ 1 log.payloads (by have := log.numbered; omega)).2
  traded past rec isPast traded := by
    have untraded : Backed { epoch, session } [] := fun ticker stats found => by simp at found
    exact publishes_traded untraded 1 log.payloads past rec isPast traded

end Web

end ProtoFH
