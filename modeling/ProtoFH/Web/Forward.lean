import Mathlib.Data.Prod.Lex
import ProtoFH.Db.Snapshot
import ProtoFH.Foundation.Execution
import ProtoFH.Web.Codec
import ProtoFH.Web.State

/-! # Going forward only

What a ticker shows is at a position of the feed, its epoch and exchange sequence. A
merged snapshot never moves a ticker back. A live update overwrites whatever is there,
so that it does when a snapshot ran ahead of it. -/

namespace ProtoFH.Web

def Update.position (rec : Update) : Nat ×ₗ Nat := toLex (rec.envelope.epoch, rec.envelope.exchSeq)

theorem Update.position_le_iff {left right : Update} :
    left.position ≤ right.position ↔
      left.envelope.epoch < right.envelope.epoch ∨
        left.envelope.epoch = right.envelope.epoch ∧
          left.envelope.exchSeq ≤ right.envelope.exchSeq :=
  Prod.Lex.toLex_le_toLex

namespace State

/-! ## What the calls do to the cached records -/

theorem enterEpoch_lastEpoch (state : State) (epoch : Nat) :
    (state.enterEpoch epoch).lastEpoch = some epoch := by
  rw [enterEpoch]
  split
  · assumption
  · split <;> rfl

theorem applyUpdate_lastEpoch (state : State) (rec : Update) :
    (state.applyUpdate rec).lastEpoch = some rec.envelope.epoch := by
  rw [← enterEpoch_lastEpoch state rec.envelope.epoch]
  simp only [applyUpdate, notify]
  split <;> rfl

theorem applyUpdate_tickers (state : State) (rec : Update) :
    (state.applyUpdate rec).tickers =
      (state.enterEpoch rec.envelope.epoch).tickers.set rec.envelope.ticker rec := by
  simp only [applyUpdate, notify]
  split <;> rfl

theorem seedTrade_cached (state : State) (ticker : Text) (rec : Update) :
    (state.seedTrade ticker rec).tickers = state.tickers ∧
      (state.seedTrade ticker rec).lastEpoch = state.lastEpoch := by
  rw [seedTrade]
  split
  · exact ⟨rfl, rfl⟩
  · split
    · split <;> exact ⟨rfl, rfl⟩
    · exact ⟨rfl, rfl⟩

theorem mergeRow_cases (progress : State × Nat) (rec : Update) :
    mergeRow progress rec = progress ∨
      mergeRow progress rec = storeRow progress rec ∧
        ∀ cached, progress.1.tickers.find? rec.envelope.ticker = some cached →
          cached.envelope.exchSeq < rec.envelope.exchSeq := by
  rw [mergeRow]
  split
  · next cached found =>
      split
      · exact .inl rfl
      · next newer =>
          refine .inr ⟨rfl, fun other foundOther => ?_⟩
          rw [found, Option.some_inj] at foundOther
          rw [← foundOther]
          exact Nat.not_le.mp newer
  · next unknown =>
      refine .inr ⟨rfl, fun cached found => ?_⟩
      rw [unknown] at found
      cases found

theorem storeRow_tickers (progress : State × Nat) (rec : Update) :
    (storeRow progress rec).1.tickers = progress.1.tickers.set rec.envelope.ticker rec :=
  (seedTrade_cached _ _ rec).1

theorem storeRow_lastEpoch (progress : State × Nat) (rec : Update) :
    (storeRow progress rec).1.lastEpoch = progress.1.lastEpoch :=
  (seedTrade_cached _ _ rec).2

theorem mergeRow_lastEpoch (progress : State × Nat) (rec : Update) :
    (mergeRow progress rec).1.lastEpoch = progress.1.lastEpoch := by
  rcases mergeRow_cases progress rec with same | ⟨stored, -⟩
  · rw [same]
  · rw [stored, storeRow_lastEpoch]

/-! ## Coherent states -/

def Coherent (state : State) : Prop :=
  ∀ ticker rec, state.tickers.find? ticker = some rec → state.lastEpoch = some rec.envelope.epoch

theorem coherent_empty : Coherent {} := nofun

variable {state : State}

theorem Coherent.enterEpoch (coherent : state.Coherent) (epoch : Nat) :
    (state.enterEpoch epoch).Coherent := by
  rw [State.enterEpoch]
  split
  · exact coherent
  · split
    · next unknown =>
        intro ticker rec found
        have last := coherent ticker rec found
        rw [unknown] at last
        cases last
    · nofun

theorem Coherent.applyUpdate (coherent : state.Coherent) (rec : Update) :
    (state.applyUpdate rec).Coherent := by
  intro ticker cached found
  rw [applyUpdate_tickers, Dict.find?_set] at found
  rw [applyUpdate_lastEpoch]
  split at found
  · cases found
    rfl
  · have last := coherent.enterEpoch rec.envelope.epoch ticker cached found
    rwa [enterEpoch_lastEpoch] at last

def Advances (state later : State) : Prop :=
  ∀ ticker rec, state.tickers.find? ticker = some rec →
    ∃ newer, later.tickers.find? ticker = some newer ∧ rec.position ≤ newer.position

theorem Advances.refl (state : State) : state.Advances state :=
  fun _ rec found => ⟨rec, found, le_refl _⟩

theorem Advances.trans {first second third : State} (front : first.Advances second)
    (back : second.Advances third) : first.Advances third := by
  intro ticker rec found
  obtain ⟨middle, foundMiddle, before⟩ := front ticker rec found
  obtain ⟨last, foundLast, after⟩ := back ticker middle foundMiddle
  exact ⟨last, foundLast, le_trans before after⟩

private theorem mergeRow_advances {progress : State × Nat} {rec : Update}
    (coherent : progress.1.Coherent) (epoch : progress.1.lastEpoch = some rec.envelope.epoch) :
    progress.1.Advances (mergeRow progress rec).1 ∧ (mergeRow progress rec).1.Coherent := by
  rcases mergeRow_cases progress rec with same | ⟨stored, newer⟩
  · rw [same]
    exact ⟨.refl _, coherent⟩
  · rw [stored]
    constructor
    · intro ticker cached found
      rw [storeRow_tickers, Dict.find?_set]
      split
      · next isTicker =>
          rw [← isTicker] at found
          have sameEpoch := (coherent _ _ found).symm.trans epoch
          rw [Option.some_inj] at sameEpoch
          exact ⟨rec, rfl, Update.position_le_iff.mpr
            (.inr ⟨sameEpoch, Nat.le_of_lt (newer cached found)⟩)⟩
      · exact ⟨cached, found, le_refl _⟩
    · intro ticker cached found
      rw [storeRow_tickers, Dict.find?_set] at found
      rw [storeRow_lastEpoch]
      split at found
      · cases found
        exact epoch
      · exact coherent ticker cached found

theorem mergeRows_advances {rows : List Update} {epoch : Nat}
    (dumped : ∀ rec ∈ rows, rec.envelope.epoch = epoch) (coherent : state.Coherent)
    (current : state.lastEpoch = some epoch) :
    state.Advances (state.mergeRows rows).1 ∧ (state.mergeRows rows).1.Coherent ∧
      (state.mergeRows rows).1.lastEpoch = some epoch := by
  -- The rows are merged one by one; the statistics afterwards change no record.
  suffices ∀ progress : State × Nat, progress.1.Coherent → progress.1.lastEpoch = some epoch →
      progress.1.Advances (rows.foldl mergeRow progress).1 ∧
        (rows.foldl mergeRow progress).1.Coherent ∧
          (rows.foldl mergeRow progress).1.lastEpoch = some epoch from
    this (state, 0) coherent current
  induction rows with
  | nil => exact fun progress coherent current => ⟨.refl _, coherent, current⟩
  | cons rec rows induction =>
      intro progress coherent current
      have ofEpoch := dumped rec List.mem_cons_self
      have step := mergeRow_advances coherent (ofEpoch ▸ current)
      have rest := induction (fun other member => dumped other (List.mem_cons_of_mem _ member))
        (mergeRow progress rec) step.2 ((mergeRow_lastEpoch progress rec).trans current)
      exact ⟨step.1.trans rest.1, rest.2⟩

/-! ## Forward steps -/

/-- The last epoch does not decrease, and no ticker moves back unless it is cleared at
an increase of the epoch. -/
structure Forward (state later : State) : Prop where
  epoch : ∀ last, state.lastEpoch = some last → ∃ next, later.lastEpoch = some next ∧ last ≤ next
  cached : ∀ ticker rec, state.tickers.find? ticker = some rec →
    (∃ newer, later.tickers.find? ticker = some newer ∧ rec.position ≤ newer.position) ∨
      later.tickers.find? ticker = none ∧
        ∃ last next, state.lastEpoch = some last ∧ later.lastEpoch = some next ∧ last < next

theorem Forward.refl (state : State) : state.Forward state :=
  ⟨fun last known => ⟨last, known, Nat.le_refl _⟩,
    fun _ rec found => .inl ⟨rec, found, le_refl _⟩⟩

theorem Coherent.forward_of_lt {state later : State} (coherent : state.Coherent)
    (coherentLater : later.Coherent) {last next : Nat} (known : state.lastEpoch = some last)
    (knownLater : later.lastEpoch = some next) (increase : last < next) :
    state.Forward later := by
  constructor
  · intro other knownOther
    rw [known, Option.some_inj] at knownOther
    exact ⟨next, knownLater, knownOther ▸ Nat.le_of_lt increase⟩
  · intro ticker rec found
    cases foundLater : later.tickers.find? ticker with
    | none => exact .inr ⟨rfl, last, next, known, knownLater, increase⟩
    | some newer =>
        have before := (coherent ticker rec found).symm.trans known
        have after := (coherentLater ticker newer foundLater).symm.trans knownLater
        rw [Option.some_inj] at before after
        exact .inl ⟨newer, rfl, Update.position_le_iff.mpr (.inl (by omega))⟩

theorem Coherent.forward_of_unknown (coherent : state.Coherent) (later : State)
    (unknown : state.lastEpoch = none) : state.Forward later := by
  constructor
  · intro last known
    rw [unknown] at known
    cases known
  · intro ticker rec found
    have known := coherent ticker rec found
    rw [unknown] at known
    cases known

theorem Advances.forward {state later : State} (advances : state.Advances later)
    (same : later.lastEpoch = state.lastEpoch) : state.Forward later where
  epoch last known := ⟨last, same.trans known, Nat.le_refl _⟩
  cached ticker rec found := .inl (advances ticker rec found)

theorem Coherent.mergeSnapshot (coherent : state.Coherent) {rows : List Update} {snapEpoch : Nat}
    (dumped : ∀ rec ∈ rows, rec.envelope.epoch = snapEpoch) :
    state.Forward (state.mergeSnapshot rows snapEpoch).1 ∧
      (state.mergeSnapshot rows snapEpoch).1.Coherent := by
  rw [State.mergeSnapshot]
  cases known : state.lastEpoch with
  | none =>
      have adopted : (state.adoptEpoch snapEpoch).Coherent := by
        intro ticker rec found
        have last := coherent ticker rec found
        rw [known] at last
        cases last
      exact ⟨coherent.forward_of_unknown _ known, (mergeRows_advances dumped adopted rfl).2.1⟩
  | some last =>
      dsimp only
      split
      · exact ⟨.refl state, coherent⟩
      split
      · next newer =>
          have cleared : ((state.restart snapEpoch).adoptEpoch snapEpoch).Coherent := nofun
          have merged := mergeRows_advances dumped cleared rfl
          exact ⟨coherent.forward_of_lt merged.2.1 known merged.2.2 newer, merged.2.1⟩
      · next notOlder notNewer =>
          have current : state.lastEpoch = some snapEpoch := by
            rw [known]
            congr 1
            omega
          have merged := mergeRows_advances dumped coherent current
          exact ⟨merged.1.forward (merged.2.2.trans current.symm), merged.2.1⟩

structure InOrder (state : State) (rec : Update) : Prop where
  epoch : ∀ last, state.lastEpoch = some last → last ≤ rec.envelope.epoch
  exchSeq : ∀ cached, state.tickers.find? rec.envelope.ticker = some cached →
    cached.envelope.epoch = rec.envelope.epoch →
      cached.envelope.exchSeq ≤ rec.envelope.exchSeq

instance (state : State) (rec : Update) : Decidable (state.InOrder rec) :=
  decidable_of_iff
    ((state.lastEpoch.all fun last => last ≤ rec.envelope.epoch) = true ∧
      ((state.tickers.find? rec.envelope.ticker).all fun cached =>
        cached.envelope.epoch = rec.envelope.epoch →
          cached.envelope.exchSeq ≤ rec.envelope.exchSeq) = true) (by
    simp only [Option.all_eq_true, decide_eq_true_eq]
    exact ⟨fun both => ⟨both.1, both.2⟩, fun inOrder => ⟨inOrder.epoch, inOrder.exchSeq⟩⟩)

theorem Coherent.applyUpdate_forward_iff (coherent : state.Coherent) (rec : Update) :
    state.Forward (state.applyUpdate rec) ↔ state.InOrder rec := by
  have epochLater := applyUpdate_lastEpoch state rec
  have shown : (state.applyUpdate rec).tickers.find? rec.envelope.ticker = some rec := by
    rw [applyUpdate_tickers, Dict.find?_set, if_pos rfl]
  constructor
  · intro forward
    constructor
    · intro last known
      obtain ⟨next, knownNext, le⟩ := forward.epoch last known
      rw [epochLater, Option.some_inj] at knownNext
      exact knownNext ▸ le
    · intro cached found sameEpoch
      rcases forward.cached _ cached found with ⟨newer, foundNewer, le⟩ | ⟨gone, -⟩
      · rw [shown, Option.some_inj] at foundNewer
        rw [← foundNewer, Update.position_le_iff] at le
        omega
      · rw [shown] at gone
        cases gone
  · intro inOrder
    cases known : state.lastEpoch with
    | none => exact coherent.forward_of_unknown _ known
    | some last =>
        rcases Nat.lt_or_eq_of_le (inOrder.epoch last known) with increase | same
        · exact coherent.forward_of_lt (coherent.applyUpdate rec) known epochLater increase
        · rw [same] at known
          refine Advances.forward ?_ (epochLater.trans known.symm)
          intro ticker cached found
          have entered : state.enterEpoch rec.envelope.epoch = state := if_pos known
          rw [applyUpdate_tickers, entered, Dict.find?_set]
          split
          · next isTicker =>
              subst isTicker
              have sameEpoch := (coherent _ _ found).symm.trans known
              rw [Option.some_inj] at sameEpoch
              exact ⟨rec, rfl, Update.position_le_iff.mpr
                (.inr ⟨sameEpoch, inOrder.exchSeq cached found sameEpoch⟩)⟩
          · exact ⟨cached, found, le_refl _⟩

end State

/-! ## Runs -/

inductive Call where
  | update (rec : Update)
  | merge (rows : List Update) (snapEpoch : Nat)

def Call.Dumped : Call → Prop
  | .update _ => True
  | .merge rows snapEpoch => ∀ rec ∈ rows, rec.envelope.epoch = snapEpoch

namespace State

def call (state : State) : Call → State
  | .update rec => state.applyUpdate rec
  | .merge rows snapEpoch => (state.mergeSnapshot rows snapEpoch).1

def run (calls : List Call) : State := calls.foldl call {}

private theorem coherent_run {calls : List Call} (dumped : ∀ call ∈ calls, call.Dumped) :
    (run calls).Coherent := by
  refine foldl_invariant Coherent ?_ coherent_empty
  intro state call member coherent
  cases call with
  | update rec => exact coherent.applyUpdate rec
  | merge rows snapEpoch => exact (coherent.mergeSnapshot (dumped _ member)).2

/-- A run of calls never goes back exactly when every live update is, on its arrival, not
older than what the state already shows. -/
theorem never_backwards_iff (calls : List Call) (dumped : ∀ call ∈ calls, call.Dumped) :
    (∀ n, (run (calls.take n)).Forward (run (calls.take (n + 1)))) ↔
      ∀ n rec, calls[n]? = some (.update rec) → (run (calls.take n)).InOrder rec := by
  have coherent (n : Nat) : (run (calls.take n)).Coherent :=
    coherent_run fun call member => dumped call (List.mem_of_mem_take member)
  have advance {n : Nat} {next : Call} (found : calls[n]? = some next) :
      run (calls.take (n + 1)) = (run (calls.take n)).call next := by
    rw [run, List.take_add_one, found, List.foldl_append]
    rfl
  constructor
  · intro forward n rec found
    rw [← (coherent n).applyUpdate_forward_iff rec]
    have step := forward n
    rwa [advance found] at step
  · intro inOrder n
    cases found : calls[n]? with
    | none =>
        have ended : calls.take (n + 1) = calls.take n := by
          rw [List.take_add_one, found]
          simp
        rw [ended]
        exact .refl _
    | some next =>
        rw [advance found]
        cases next with
        | update rec => exact ((coherent n).applyUpdate_forward_iff rec).mpr (inOrder n rec found)
        | merge rows snapEpoch =>
            have member : Call.merge rows snapEpoch ∈ calls := List.mem_of_getElem? found
            exact ((coherent n).mergeSnapshot (dumped _ member)).1

end State

/-! ## Snapshots of the same feed -/

def feedTables (feed : List UpdateRecord) : Tables :=
  feed.foldl (fun tables rec => tables.applyUpdate rec false) {}

/-- The call has a datagram of the feed, or a snapshot the database gave at some point
of it. -/
def Call.FromFeed (feed : List UpdateRecord) : Call → Prop
  | .update rec => ∃ sent ∈ feed, decodeRecord (ProtoFH.encodeUpdate sent) = .ok (.update rec)
  | .merge rows snapEpoch =>
      ∃ past, past <+: feed ∧
        (feedTables past).snap.rows.map decodeRecord = rows.map (fun rec => .ok (.update rec)) ∧
          (feedTables past).snap.epoch.toNat = snapEpoch

theorem alpha_padded {text : CStr width} {shown : Text} (decoded : alpha text.padded = .ok shown) :
    shown = stripRight text.bytes := by
  rw [alpha] at decoded
  split at decoded
  · cases decoded
    change stripRight (putAlpha width text.bytes) = _
    rw [putAlpha, stripRight_append_spaces, List.take_of_length_le text.fits]
  · cases decoded

variable {rec : Update}

theorem decoded_update {sent : UpdateRecord}
    (decoded : decodeRecord (ProtoFH.encodeUpdate sent) = .ok (.update rec)) :
    rec.envelope.epoch = sent.envelope.epoch.toNat ∧
      rec.envelope.exchSeq = sent.envelope.exchSeq.toNat ∧
      rec.envelope.trigger = [sent.envelope.trigger] ∧
      rec.envelope.ticker = stripRight sent.envelope.ticker.bytes ∧
      rec.trade = .decode sent.trade.values := by
  have length : sent.put.length = RecordKind.bodyLen .update := sent.put_length
  have whole : decodeRecord (ProtoFH.encodeUpdate sent) = decodeUpdateBody sent.put :=
    decodeRecord_of_length length
  rw [whole, decodeUpdateBody, sent.packs.unpack] at decoded
  simp only [liftStruct_ok, codec_ok_bind] at decoded
  obtain ⟨envelope, isEnvelope, rest⟩ := except_bind_eq_ok.mp decoded
  obtain ⟨static, -, rest⟩ := except_bind_eq_ok.mp rest
  obtain ⟨book, -, rest⟩ := except_bind_eq_ok.mp rest
  obtain ⟨session, -, isEnvelope⟩ := except_bind_eq_ok.mp isEnvelope
  obtain ⟨ticker, isTicker, isEnvelope⟩ := except_bind_eq_ok.mp isEnvelope
  obtain ⟨group, -, isEnvelope⟩ := except_bind_eq_ok.mp isEnvelope
  cases rest
  cases isEnvelope
  exact ⟨rfl, rfl, rfl, alpha_padded isTicker, rfl⟩

theorem Call.FromFeed.dumped {feed : List UpdateRecord} {call : Call}
    (fromFeed : call.FromFeed feed) : call.Dumped := by
  cases call with
  | update rec => trivial
  | merge rows snapEpoch =>
      obtain ⟨past, -, decoded, epoch⟩ := fromFeed
      intro rec member
      have reply : (Except.ok (.update rec) : Codec Record) ∈
          rows.map (fun rec => .ok (.update rec)) := List.mem_map_of_mem member
      rw [← decoded, Tables.snap, List.map_map, List.mem_map] at reply
      obtain ⟨entry, -, row⟩ := reply
      rw [(decoded_update row).1, ← epoch]
      rfl

def aheadFeed : List UpdateRecord :=
  [1, 2].map fun exchSeq =>
    { envelope := { epoch := 1, pubSeq := exchSeq, exchSeq, trigger := ascii 'A'
                    ticker := CStr.copy 4 [49, 51, 48, 49] } }

def decodedUpdate? (row : Bytes) : Option Update :=
  match decodeRecord row with
  | .ok (.update rec) => some rec
  | _ => none

theorem decodeRecord_of_decodedUpdate? {row : Bytes} (decoded : decodedUpdate? row = some rec) :
    decodeRecord row = .ok (.update rec) := by
  rw [decodedUpdate?] at decoded
  split at decoded
  · next found =>
      cases decoded
      exact found
  · cases decoded

def decodedUpdates (rows : List Bytes) : List Update := rows.filterMap decodedUpdate?

theorem map_decodeRecord {rows : List Bytes} (all : (decodedUpdates rows).length = rows.length) :
    rows.map decodeRecord = (decodedUpdates rows).map fun rec => .ok (.update rec) := by
  induction rows with
  | nil => rfl
  | cons row rows induction =>
      have fewer : (decodedUpdates rows).length ≤ rows.length := List.length_filterMap_le _ _
      cases decoded : decodedUpdate? row with
      | none =>
          have skipped : decodedUpdates (row :: rows) = decodedUpdates rows :=
            List.filterMap_cons_none decoded
          rw [skipped, List.length_cons] at all
          omega
      | some rec =>
          have kept : decodedUpdates (row :: rows) = rec :: decodedUpdates rows :=
            List.filterMap_cons_some decoded
          rw [kept, List.length_cons, List.length_cons, Nat.add_right_cancel_iff] at all
          rw [kept, List.map_cons, List.map_cons, decodeRecord_of_decodedUpdate? decoded,
            induction all]

theorem fromFeed_live {feed : List UpdateRecord}
    (member : rec ∈ decodedUpdates (feed.map ProtoFH.encodeUpdate)) :
    Call.FromFeed feed (.update rec) := by
  obtain ⟨row, inRows, isRec⟩ := List.mem_filterMap.mp member
  obtain ⟨sent, inFeed, rfl⟩ := List.mem_map.mp inRows
  exact ⟨sent, inFeed, decodeRecord_of_decodedUpdate? isRec⟩

/-- A snapshot taken after the second update arrives while both datagrams are still
queued. -/
def aheadCalls : List Call :=
  .merge (decodedUpdates (feedTables aheadFeed).snap.rows) 1 ::
    (decodedUpdates (aheadFeed.map ProtoFH.encodeUpdate)).map .update

def liveUpdates (calls : List Call) : List Update :=
  calls.filterMap fun call =>
    match call with
    | .update rec => some rec
    | .merge _ _ => none

/-- The ticker goes from sequence 2 back to sequence 1. -/
theorem aheadCalls_backwards :
    (∀ call ∈ aheadCalls, call.FromFeed aheadFeed) ∧
    (liveUpdates aheadCalls).Pairwise (fun earlier later => earlier.position < later.position) ∧
    ¬ ∀ n, (State.run (aheadCalls.take n)).Forward (State.run (aheadCalls.take (n + 1))) := by
  refine ⟨?_, by decide +kernel, fun forward => ?_⟩
  · intro call member
    rcases List.mem_cons.mp member with rfl | live
    · exact ⟨aheadFeed, List.prefix_refl _, map_decodeRecord (by decide +kernel), rfl⟩
    · obtain ⟨rec, decoded, rfl⟩ := List.mem_map.mp live
      exact fromFeed_live decoded
  · have before : ((State.run (aheadCalls.take 1)).tickers.find? [49, 51, 48, 49]).map
        (fun rec => (rec.envelope.epoch, rec.envelope.exchSeq)) = some (1, 2) := by
      decide +kernel
    have after : ((State.run (aheadCalls.take 2)).tickers.find? [49, 51, 48, 49]).map
        (fun rec => (rec.envelope.epoch, rec.envelope.exchSeq)) = some (1, 1) := by
      decide +kernel
    obtain ⟨rec, found, second⟩ := Option.map_eq_some_iff.mp before
    obtain ⟨older, foundOlder, first⟩ := Option.map_eq_some_iff.mp after
    rw [Prod.mk.injEq] at first second
    rcases (forward 1).cached _ rec found with ⟨newer, foundNewer, le⟩ | ⟨gone, -⟩
    · rw [foundOlder, Option.some_inj] at foundNewer
      rw [← foundNewer, Update.position_le_iff] at le
      omega
    · rw [foundOlder] at gone
      cases gone

def secondLive : List Update := decodedUpdates ((aheadFeed.drop 1).map ProtoFH.encodeUpdate)

def caughtUpCalls : List Call :=
  .merge (decodedUpdates (feedTables (aheadFeed.take 1)).snap.rows) 1 :: secondLive.map .update

theorem caughtUpCalls_forward :
    caughtUpCalls.length = 2 ∧
      ∀ n, (State.run (caughtUpCalls.take n)).Forward (State.run (caughtUpCalls.take (n + 1))) := by
  have single : secondLive.length = 1 := by decide +kernel
  have inOrder : ∀ rec ∈ secondLive, (State.run (caughtUpCalls.take 1)).InOrder rec := by
    decide +kernel
  refine ⟨by rw [caughtUpCalls, List.length_cons, List.length_map, single],
    (State.never_backwards_iff caughtUpCalls ?_).mpr ?_⟩
  · intro call member
    rcases List.mem_cons.mp member with rfl | live
    · have fromFeed : Call.FromFeed aheadFeed (.merge _ 1) :=
        ⟨aheadFeed.take 1, List.take_prefix _ _, map_decodeRecord (by decide +kernel), rfl⟩
      exact fromFeed.dumped
    · obtain ⟨rec, -, rfl⟩ := List.mem_map.mp live
      trivial
  · intro n rec found
    cases n with
    | zero => cases found
    | succ n =>
        rw [caughtUpCalls, List.getElem?_cons_succ, List.getElem?_map] at found
        obtain ⟨live, position, equal⟩ := Option.map_eq_some_iff.mp found
        cases equal
        obtain ⟨inside, -⟩ := List.getElem?_eq_some_iff.mp position
        have first : n = 0 := by omega
        subst first
        exact inOrder rec (List.mem_of_getElem? position)

end ProtoFH.Web
