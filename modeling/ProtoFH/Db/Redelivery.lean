import ProtoFH.Db.Tables

/-! # Redelivered updates

The guard of `apply_update` against updates that arrive again. It compares with the
position of the last update, so it relies on that position growing and on the counter
of applied updates, which has 64 bits, not being zero. -/

namespace ProtoFH

/-- The records arrive in the order of the stream, and records that have arrived may
arrive again at any later time. -/
inductive Redelivered : (stream delivered : List UpdateRecord) → (copies : Nat) → Prop where
  | start : Redelivered [] [] 0
  | fresh {stream delivered : List UpdateRecord} {copies : Nat} (rec : UpdateRecord)
      (before : Redelivered stream delivered copies) :
      Redelivered (stream ++ [rec]) (delivered ++ [rec]) copies
  | copy {stream delivered : List UpdateRecord} {copies : Nat} (rec : UpdateRecord)
      (before : Redelivered stream delivered copies) (arrived : rec ∈ delivered) :
      Redelivered stream (delivered ++ [rec]) (copies + 1)

theorem Redelivered.refl (stream : List UpdateRecord) : Redelivered stream stream 0 := by
  induction stream using List.reverseRecOn with
  | nil => exact .start
  | append_singleton stream rec induction => exact .fresh rec induction

private theorem Redelivered.mem_stream {stream delivered : List UpdateRecord} {copies : Nat}
    (redelivered : Redelivered stream delivered copies) :
    ∀ rec ∈ delivered, rec ∈ stream := by
  induction redelivered with
  | start => nofun
  | fresh last before induction =>
      intro rec member
      rcases List.mem_append.mp member with earlier | now
      · exact List.mem_append_left _ (induction rec earlier)
      · exact List.mem_append_right _ now
  | copy again before arrived induction =>
      intro rec member
      rcases List.mem_append.mp member with earlier | now
      · exact induction rec earlier
      · exact induction rec (List.mem_singleton.mp now ▸ arrived)

structure LiveStream (epoch : UInt64) (stream : List UpdateRecord) : Prop where
  epoch_eq : ∀ rec ∈ stream, rec.envelope.epoch = epoch
  increasing : stream.Pairwise fun first second =>
    first.envelope.exchSeq < second.envelope.exchSeq

instance (epoch : UInt64) (stream : List UpdateRecord) : Decidable (LiveStream epoch stream) :=
  decidable_of_iff
    ((∀ rec ∈ stream, rec.envelope.epoch = epoch) ∧
      stream.Pairwise fun first second => first.envelope.exchSeq < second.envelope.exchSeq)
    ⟨fun both => ⟨both.1, both.2⟩, fun live => ⟨live.epoch_eq, live.increasing⟩⟩

theorem LiveStream.init {epoch : UInt64} {stream : List UpdateRecord} {rec : UpdateRecord}
    (live : LiveStream epoch (stream ++ [rec])) : LiveStream epoch stream where
  epoch_eq other member := live.epoch_eq other (List.mem_append_left _ member)
  increasing := (List.pairwise_append.mp live.increasing).1

theorem LiveStream.lt_last {epoch : UInt64} {stream : List UpdateRecord} {rec : UpdateRecord}
    (live : LiveStream epoch (stream ++ [rec])) :
    ∀ other ∈ stream, other.envelope.exchSeq < rec.envelope.exchSeq := fun other member =>
  (List.pairwise_append.mp live.increasing).2.2 other member rec (List.mem_singleton.mpr rfl)

namespace Tables

def applyLive (tables : Tables) (stream : List UpdateRecord) : Tables :=
  stream.foldl (fun tables rec => tables.applyUpdate rec false) tables

@[simp] theorem applyLive_concat (tables : Tables) (stream : List UpdateRecord)
    (rec : UpdateRecord) :
    tables.applyLive (stream ++ [rec]) = (tables.applyLive stream).applyUpdate rec false := by
  rw [applyLive, List.foldl_append]
  rfl

def withDups (tables : Tables) (dups : UInt64) : Tables :=
  { tables with dbMeta := { tables.dbMeta with dupsDropped := dups } }

variable {tables : Tables} {rec : UpdateRecord}

private theorem applyUpdate_withDups (fresh : ¬ tables.isDup rec) (dups : UInt64) :
    (tables.withDups dups).applyUpdate rec false =
      (tables.applyUpdate rec false).withDups dups := by
  have freshToo : ¬ (tables.withDups dups).isDup rec := fresh
  simp only [applyUpdate, Bool.false_eq_true, if_false, if_neg fresh, if_neg freshToo]
  rfl

structure Follows (tables : Tables) (stream : List UpdateRecord) : Prop where
  counted : tables.dbMeta.updatesApplied = UInt64.ofNat stream.length
  noDups : tables.dbMeta.dupsDropped = 0
  upToDate : ∀ rec ∈ stream, rec.envelope.epoch = tables.dbMeta.epoch ∧
    rec.envelope.exchSeq ≤ tables.dbMeta.lastExchSeq
  /-- The position is that of a record, once there is one. -/
  reached : stream ≠ [] → ∃ rec ∈ stream, rec.envelope.exchSeq = tables.dbMeta.lastExchSeq

variable {stream : List UpdateRecord}

variable {epoch : UInt64}

theorem Follows.fresh (follows : tables.Follows stream)
    (live : LiveStream epoch (stream ++ [rec])) : ¬ tables.isDup rec := by
  rintro ⟨-, old, some⟩
  have nonempty : stream ≠ [] := by
    rintro rfl
    rw [follows.counted] at some
    exact absurd some (by decide)
  obtain ⟨last, member, position⟩ := follows.reached nonempty
  have newer := live.lt_last last member
  rw [position] at newer
  exact absurd old (UInt64.not_le.mpr newer)

theorem Follows.apply (follows : tables.Follows stream)
    (live : LiveStream epoch (stream ++ [rec])) :
    (tables.applyUpdate rec false).Follows (stream ++ [rec]) := by
  rw [applyUpdate, if_neg Bool.false_ne_true, if_neg (follows.fresh live)]
  have last : rec ∈ stream ++ [rec] := List.mem_append_right _ (List.mem_singleton.mpr rfl)
  refine ⟨?_, follows.noDups, ?_, fun _ => ⟨rec, last, rfl⟩⟩
  · change tables.dbMeta.updatesApplied + 1 = _
    rw [follows.counted, List.length_append, List.length_singleton, UInt64.ofNat_add]
    rfl
  · intro other member
    refine ⟨(live.epoch_eq other member).trans (live.epoch_eq rec last).symm, ?_⟩
    rcases List.mem_append.mp member with earlier | now
    · exact UInt64.le_of_lt (live.lt_last other earlier)
    · rw [List.mem_singleton.mp now]
      exact UInt64.le_refl _

theorem follows_applyLive (live : LiveStream epoch stream) :
    (applyLive {} stream).Follows stream := by
  induction stream using List.reverseRecOn with
  | nil => exact ⟨rfl, rfl, nofun, fun nonempty => absurd rfl nonempty⟩
  | append_singleton stream rec induction =>
      rw [applyLive_concat]
      exact (induction live.init).apply live

theorem Follows.isDup (follows : tables.Follows stream) (short : stream.length < 2 ^ 64)
    (member : rec ∈ stream) : tables.isDup rec := by
  obtain ⟨epoch, old⟩ := follows.upToDate rec member
  refine ⟨epoch, old, ?_⟩
  have positive := List.length_pos_of_mem member
  rw [follows.counted, gt_iff_lt, UInt64.lt_iff_toNat_lt, UInt64.toNat_ofNat_of_lt' short]
  exact positive

/-- Copies of updates that have arrived change nothing but the count of duplicates. -/
theorem redelivery_harmless {epoch : UInt64} {stream delivered : List UpdateRecord} {copies : Nat}
    (live : LiveStream epoch stream) (short : stream.length < 2 ^ 64)
    (redelivered : Redelivered stream delivered copies) :
    applyLive {} delivered = (applyLive {} stream).withDups (UInt64.ofNat copies) := by
  induction redelivered with
  | start => rfl
  | @fresh stream delivered copies rec before induction =>
      have shorter : stream.length < 2 ^ 64 := by
        rw [List.length_append] at short
        omega
      rw [applyLive_concat, applyLive_concat, induction live.init shorter,
        applyUpdate_withDups ((follows_applyLive live.init).fresh live)]
  | @copy stream delivered copies rec before arrived induction =>
      have dup := (follows_applyLive live).isDup short (before.mem_stream rec arrived)
      have dropped : ((applyLive {} stream).withDups (UInt64.ofNat copies)).isDup rec := dup
      rw [applyLive_concat, induction live short, applyUpdate, if_neg Bool.false_ne_true,
        if_pos dropped, UInt64.ofNat_add]
      rfl

/-! ## A stream and its copies -/

def executionAt (exchSeq : UInt64) : UpdateRecord where
  envelope := { epoch := 1, exchSeq, trigger := ascii 'E',
                ticker := CStr.copy 4 [ascii '1', ascii '3', ascii '0', ascii '1'] }

theorem redelivery_harmless_executions :
    applyLive {} [executionAt 1, executionAt 1, executionAt 2, executionAt 1, executionAt 2] =
      (applyLive {} [executionAt 1, executionAt 2]).withDups 3 := by
  have live : LiveStream 1 [executionAt 1, executionAt 2] := by decide
  have first := (Redelivered.start.fresh (executionAt 1)).copy (executionAt 1) (by simp)
  have both := ((first.fresh (executionAt 2)).copy (executionAt 1) (by simp)).copy
    (executionAt 2) (by simp)
  exact redelivery_harmless live (by decide) both

def executionsBelow (count : Nat) : List UpdateRecord :=
  (List.range count).map fun exchSeq => executionAt (UInt64.ofNat exchSeq)

private theorem live_executionsBelow {count : Nat} (positions : count ≤ 2 ^ 64) :
    LiveStream 1 (executionsBelow count) where
  epoch_eq rec member := by
    obtain ⟨exchSeq, -, rfl⟩ := List.mem_map.mp member
    rfl
  increasing := by
    rw [executionsBelow, List.pairwise_map]
    apply List.pairwise_lt_range.imp_of_mem
    intro first second firstIn secondIn less
    rw [List.mem_range] at firstIn secondIn
    change UInt64.ofNat first < UInt64.ofNat second
    rw [UInt64.lt_iff_toNat_lt, UInt64.toNat_ofNat_of_lt' (Nat.lt_of_lt_of_le firstIn positions),
      UInt64.toNat_ofNat_of_lt' (Nat.lt_of_lt_of_le secondIn positions)]
    exact less

/-- With an update at every position there is, the count of applied updates is back at
zero, and whatever comes next is applied. -/
theorem dupsDropped_of_full (live : LiveStream epoch stream) (full : stream.length = 2 ^ 64)
    (rec : UpdateRecord) : (applyLive {} (stream ++ [rec])).dbMeta.dupsDropped = 0 := by
  have follows := follows_applyLive live
  have none : (applyLive {} stream).dbMeta.updatesApplied = 0 := by
    rw [follows.counted, full]
    rfl
  have accepted : ¬ (applyLive {} stream).isDup rec := by
    rintro ⟨-, -, some⟩
    rw [none] at some
    exact absurd some (by decide)
  rw [applyLive_concat, applyUpdate, if_neg Bool.false_ne_true, if_neg accepted]
  exact follows.noDups

theorem copy_after_every_position :
    LiveStream 1 (executionsBelow (2 ^ 64)) ∧
      Redelivered (executionsBelow (2 ^ 64))
        (executionsBelow (2 ^ 64) ++ [executionAt (UInt64.ofNat (2 ^ 64 - 1))]) 1 ∧
      (applyLive {}
        (executionsBelow (2 ^ 64) ++
          [executionAt (UInt64.ofNat (2 ^ 64 - 1))])).dbMeta.dupsDropped = 0 := by
  have live := live_executionsBelow (Nat.le_refl (2 ^ 64))
  have member : executionAt (UInt64.ofNat (2 ^ 64 - 1)) ∈ executionsBelow (2 ^ 64) :=
    List.mem_map.mpr ⟨2 ^ 64 - 1, List.mem_range.mpr (by omega), rfl⟩
  have length : (executionsBelow (2 ^ 64)).length = 2 ^ 64 := by
    rw [executionsBelow, List.length_map, List.length_range]
  exact ⟨live, (Redelivered.refl _).copy _ member, dupsDropped_of_full live length _⟩

end Tables

end ProtoFH
