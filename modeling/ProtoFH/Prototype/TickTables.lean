import ProtoFH.Prototype.Agreement

/-! # Tick tables of the prototype

Two parallel lists, searched by bisection, hold what the C++ map of rows holds, and
both find the same tick size at every price. -/

namespace ProtoFH

namespace Prototype.TickTable

structure Lists (table : TickTable) (rows : List (Nat × Nat)) : Prop where
  starts : table.starts = rows.map Prod.fst
  sizes : table.sizes = rows.map Prod.snd
  ascending : rows.Pairwise fun row next => row.1 < next.1

theorem lists_empty : Lists {} [] := ⟨rfl, rfl, .nil⟩

theorem mem_between {front rest : List (Nat × Nat)} {priceStart tickSize : Nat}
    (below : ∀ row ∈ front, row.1 < priceStart) (above : ∀ row ∈ rest, priceStart < row.1)
    (start size : Nat) :
    (start, size) ∈ front ++ (priceStart, tickSize) :: rest ↔
      if priceStart = start then size = tickSize else (start, size) ∈ front ++ rest := by
  rw [List.mem_append, List.mem_cons, List.mem_append, Prod.mk.injEq]
  by_cases own : priceStart = start
  · subst own
    have notFront : (priceStart, size) ∉ front := fun member => Nat.lt_irrefl _ (below _ member)
    have notRest : (priceStart, size) ∉ rest := fun member => Nat.lt_irrefl _ (above _ member)
    simp [notFront, notRest]
  · simp [own, Ne.symm own]

variable {table : TickTable} {rows : List (Nat × Nat)} (lists : table.Lists rows)
include lists

theorem Lists.starts_ascending : table.starts.Pairwise (· < ·) := by
  rw [lists.starts, List.pairwise_map]
  exact lists.ascending

theorem Lists.cut (priceStart : Nat) :
    ∃ front back, rows = front ++ back ∧ bisectLeft table.starts priceStart = front.length ∧
      (∀ row ∈ front, row.1 < priceStart) ∧ ∀ row ∈ back, priceStart ≤ row.1 := by
  rcases bisectLeft_cut lists.starts_ascending priceStart with
    ⟨frontStarts, backStarts, split, place, below, above⟩
  rw [lists.starts] at split
  rcases List.map_eq_append_iff.mp split with ⟨front, back, rfl, rfl, rfl⟩
  refine ⟨front, back, rfl, ?_, ?_, ?_⟩
  · rw [place, List.length_map]
  · intro row member
    exact below row.1 (List.mem_map_of_mem member)
  · intro row member
    exact above row.1 (List.mem_map_of_mem member)

theorem Lists.add (priceStart tickSize : Nat) :
    ∃ written, (table.add priceStart tickSize).Lists written ∧
      ∀ start size, (start, size) ∈ written ↔
        if priceStart = start then size = tickSize else (start, size) ∈ rows := by
  rcases lists.cut priceStart with ⟨front, back, rfl, place, below, above⟩
  rcases List.pairwise_append.mp lists.ascending with ⟨frontAscending, backAscending, -⟩
  have starts : table.starts = front.map Prod.fst ++ back.map Prod.fst := by
    rw [lists.starts, List.map_append]
  have sizes : table.sizes = front.map Prod.snd ++ back.map Prod.snd := by
    rw [lists.sizes, List.map_append]
  have between (rest : List (Nat × Nat))
      (restAscending : rest.Pairwise fun row next => row.1 < next.1)
      (above : ∀ row ∈ rest, priceStart < row.1) :
      (front ++ (priceStart, tickSize) :: rest).Pairwise fun row next => row.1 < next.1 := by
    refine List.pairwise_append.mpr
      ⟨frontAscending, List.pairwise_cons.mpr ⟨above, restAscending⟩, ?_⟩
    intro row inFront next inRest
    have less := below row inFront
    rcases List.mem_cons.mp inRest with rfl | inRest
    · exact less
    · exact Nat.lt_trans less (above next inRest)
  have there : table.starts[front.length]? = (back.map Prod.fst)[0]? := by
    rw [starts, List.getElem?_append_right (by simp)]
    simp
  rw [TickTable.add, place, there]
  by_cases present : (back.map Prod.fst)[0]? = some priceStart
  · rw [if_pos present]
    rcases back with _ | ⟨⟨own, old⟩, rest⟩
    · cases present
    · cases present
      rcases List.pairwise_cons.mp backAscending with ⟨beyond, restAscending⟩
      refine ⟨front ++ (own, tickSize) :: rest, ⟨?_, ?_, between rest restAscending beyond⟩, ?_⟩
      · rw [starts]
        simp
      · rw [sizes]
        simp
      · intro start size
        rw [mem_between below beyond]
        by_cases same : own = start
        · rw [if_pos same, if_pos same]
        · simp [same, Ne.symm same]
  · rw [if_neg present]
    have beyond : ∀ row ∈ back, priceStart < row.1 := by
      intro row member
      have least := above row member
      rcases back with _ | ⟨first, rest⟩
      · cases member
      · have different : first.1 ≠ priceStart := fun equal => present (by simp [equal])
        have firstLeast := above first List.mem_cons_self
        rcases List.mem_cons.mp member with rfl | inRest
        · omega
        · have := (List.pairwise_cons.mp backAscending).1 row inRest
          omega
    refine ⟨front ++ (priceStart, tickSize) :: back, ⟨?_, ?_, between back backAscending beyond⟩,
      mem_between below beyond⟩
    · change table.starts.insertIdx front.length priceStart = _
      rw [starts, ← List.length_map Prod.fst, insertIdx_length_append]
      simp
    · change table.sizes.insertIdx front.length tickSize = _
      rw [sizes, ← List.length_map Prod.snd, insertIdx_length_append]
      simp

theorem Lists.tickSize_eq_some_iff (price size : Nat) :
    table.tickSize price = some size ↔
      ∃ start, (start, size) ∈ rows ∧ start ≤ price ∧
        ∀ other tick, (other, tick) ∈ rows → start < other → ¬ other ≤ price := by
  rcases bisectRight_cut lists.starts_ascending price with
    ⟨frontStarts, backStarts, split, place, below, above⟩
  rw [lists.starts] at split
  rcases List.map_eq_append_iff.mp split with ⟨front, back, rfl, rfl, rfl⟩
  have within : ∀ row ∈ front, row.1 ≤ price := fun row member =>
    below row.1 (List.mem_map_of_mem member)
  have beyond : ∀ row ∈ back, price < row.1 := fun row member =>
    above row.1 (List.mem_map_of_mem member)
  rw [List.length_map] at place
  rw [tickSize, place]
  -- the row that counts is the last one of `front`
  rcases List.eq_nil_or_concat front with rfl | ⟨init, last, rfl⟩
  · refine ⟨nofun, ?_⟩
    rintro ⟨start, member, low, -⟩
    exact absurd low (Nat.not_le.mpr (beyond _ member))
  · have found : table.sizes[init.length]? = some last.2 := by
      rw [lists.sizes]
      simp
    have lastMember : last ∈ init.concat last ++ back := by simp
    have ascending := lists.ascending
    rw [List.concat_eq_append, List.append_assoc, List.singleton_append] at ascending
    have lower : ∀ row ∈ init, row.1 < last.1 := fun row member =>
      (List.pairwise_append.mp ascending).2.2 row member last List.mem_cons_self
    rw [List.length_concat]
    change table.sizes[init.length]? = some size ↔ _
    rw [found, Option.some_inj]
    constructor
    · rintro rfl
      refine ⟨last.1, lastMember, within last (by simp), ?_⟩
      intro other tick member greater low
      rcases List.mem_append.mp member with inFront | inBack
      · rw [List.concat_eq_append, List.mem_append, List.mem_singleton] at inFront
        rcases inFront with inInit | rfl
        · exact Nat.lt_asymm greater (lower _ inInit)
        · exact Nat.lt_irrefl _ greater
      · exact absurd low (Nat.not_le.mpr (beyond _ inBack))
    · rintro ⟨start, member, low, greatest⟩
      rcases List.mem_append.mp member with inFront | inBack
      · rw [List.concat_eq_append, List.mem_append, List.mem_singleton] at inFront
        rcases inFront with inInit | equal
        · exact absurd (within last (by simp)) (greatest last.1 last.2 lastMember (lower _ inInit))
        · rw [← equal]
      · exact absurd low (Nat.not_le.mpr (beyond _ inBack))

end Prototype.TickTable

namespace TickTable

def Refines (table : TickTable) (proto : Prototype.TickTable) : Prop :=
  ∃ rows, proto.Lists rows ∧ ∀ start size, (start, size) ∈ rows ↔
    ∃ (own tick : UInt32), table.rows[own]? = some tick ∧ own.toNat = start ∧ tick.toNat = size

theorem refines_empty : Refines {} {} := by
  refine ⟨[], Prototype.TickTable.lists_empty, ?_⟩
  intro start size
  simp

theorem Refines.add {table : TickTable} {proto : Prototype.TickTable}
    (refines : table.Refines proto) (priceStart tickSize : UInt32) :
    (table.add priceStart tickSize).Refines
      (proto.add priceStart.toNat tickSize.toNat) := by
  rcases refines with ⟨rows, lists, same⟩
  rcases lists.add priceStart.toNat tickSize.toNat with ⟨written, listsWritten, members⟩
  refine ⟨written, listsWritten, ?_⟩
  intro start size
  rw [members, same]
  simp only [TickTable.add, OrderedMap.lookup_insert]
  by_cases own : priceStart.toNat = start
  · rw [if_pos own]
    constructor
    · rintro rfl
      exact ⟨priceStart, tickSize, if_pos rfl, own, rfl⟩
    · rintro ⟨other, tick, found, equal, rfl⟩
      have same : priceStart = other := UInt32.toNat_inj.mp (own.trans equal.symm)
      rw [if_pos same] at found
      rw [Option.some_inj.mp found]
  · rw [if_neg own]
    constructor
    · rintro ⟨other, tick, found, rfl, rfl⟩
      exact ⟨other, tick, by rw [if_neg fun same => own (by rw [same])]; exact found, rfl, rfl⟩
    · rintro ⟨other, tick, found, rfl, rfl⟩
      rw [if_neg fun same => own (by rw [same])] at found
      exact ⟨other, tick, found, rfl, rfl⟩

theorem Refines.tickSize {table : TickTable} {proto : Prototype.TickTable}
    (refines : table.Refines proto) (price : UInt32) :
    proto.tickSize price.toNat = (table.tickSize price).map UInt32.toNat := by
  rcases refines with ⟨rows, lists, same⟩
  apply Option.ext
  intro size
  rw [lists.tickSize_eq_some_iff, TickTable.tickSize, Option.map_map, Option.map_eq_some_iff]
  constructor
  · rintro ⟨start, member, low, greatest⟩
    rcases (same start size).mp member with ⟨own, tick, found, rfl, rfl⟩
    refine ⟨(own, tick), ?_, rfl⟩
    simp only [OrderedMap.getEntryLE?_eq_some_iff, Std.isLE_compare, Std.compare_eq_lt,
      UInt32.le_iff_toNat_le, UInt32.lt_iff_toNat_lt]
    refine ⟨found, low, ?_⟩
    intro other stored present greater
    exact greatest _ _ ((same _ _).mpr ⟨other, stored, present, rfl, rfl⟩) greater
  · rintro ⟨⟨own, tick⟩, found, rfl⟩
    simp only [OrderedMap.getEntryLE?_eq_some_iff, Std.isLE_compare, Std.compare_eq_lt,
      UInt32.le_iff_toNat_le, UInt32.lt_iff_toNat_lt] at found
    rcases found with ⟨present, low, greatest⟩
    refine ⟨own.toNat, (same _ _).mpr ⟨own, tick, present, rfl, rfl⟩, low, ?_⟩
    intro other size member greater
    rcases (same other size).mp member with ⟨key, stored, held, rfl, rfl⟩
    exact greatest key stored held greater

end TickTable

/-! ## Any sequence of calls -/

namespace TickTable

/-- The C++ table after a sequence of calls of `add`. -/
def build (calls : List (UInt32 × UInt32)) : TickTable :=
  calls.foldl (fun table call => table.add call.1 call.2) {}

end TickTable

namespace Prototype.TickTable

/-- The prototype's table after a sequence of calls of `add`. -/
def build (calls : List (Nat × Nat)) : TickTable :=
  calls.foldl (fun table call => table.add call.1 call.2) {}

theorem build_concat (calls : List (Nat × Nat)) (call : Nat × Nat) :
    build (calls ++ [call]) = (build calls).add call.1 call.2 := by
  simp only [build, List.foldl_append, List.foldl_cons, List.foldl_nil]

def lastAdded (calls : List (Nat × Nat)) (start : Nat) : Option Nat :=
  lastWrite (fun call => if call.1 = start then some call.2 else none) calls

def greatestStart (calls : List (Nat × Nat)) (price : Nat) : Option Nat :=
  ((calls.map Prod.fst).filter fun start => start ≤ price).max?

theorem lastAdded_isSome {calls : List (Nat × Nat)} {start : Nat} :
    (∃ size, lastAdded calls start = some size) ↔ start ∈ calls.map Prod.fst := by
  constructor
  · rintro ⟨size, added⟩
    rcases exists_of_lastWrite_eq_some added with ⟨call, member, own⟩
    split at own
    · next same => exact List.mem_map.mpr ⟨call, member, same⟩
    · cases own
  · intro member
    rcases List.mem_map.mp member with ⟨call, called, rfl⟩
    cases added : lastAdded calls call.1 with
    | some size => exact ⟨size, rfl⟩
    | none =>
        have never := (lastWrite_eq_none_iff calls).mp added call called
        rw [if_pos rfl] at never
        cases never

theorem build_lists (calls : List (Nat × Nat)) :
    ∃ rows, (build calls).Lists rows ∧
      ∀ start size, (start, size) ∈ rows ↔ lastAdded calls start = some size := by
  induction calls using List.reverseRecOn with
  | nil => exact ⟨[], lists_empty, fun start size => by simp [lastAdded]⟩
  | append_singleton calls call induction =>
      rcases induction with ⟨rows, lists, members⟩
      rcases lists.add call.1 call.2 with ⟨written, listsWritten, membersWritten⟩
      refine ⟨written, by rw [build_concat]; exact listsWritten, ?_⟩
      intro start size
      rw [membersWritten, members, lastAdded, lastAdded, lastWrite_concat]
      by_cases own : call.1 = start
      · rw [if_pos own, if_pos own, Option.some_or, Option.some_inj]
        exact eq_comm
      · rw [if_neg own, if_neg own, Option.none_or]

theorem tickSize_build (calls : List (Nat × Nat)) (price : Nat) :
    (build calls).tickSize price = (greatestStart calls price).bind (lastAdded calls) := by
  rcases build_lists calls with ⟨rows, lists, members⟩
  have within (start : Nat) :
      start ∈ (calls.map Prod.fst).filter (fun start => start ≤ price) ↔
        (∃ size, lastAdded calls start = some size) ∧ start ≤ price := by
    rw [List.mem_filter, decide_eq_true_eq, lastAdded_isSome]
  apply Option.ext
  intro size
  rw [lists.tickSize_eq_some_iff, Option.bind_eq_some_iff]
  refine exists_congr fun start => ?_
  rw [members, greatestStart, List.max?_eq_some_iff, within]
  constructor
  · rintro ⟨added, low, greatest⟩
    refine ⟨⟨⟨⟨size, added⟩, low⟩, ?_⟩, added⟩
    intro other member
    rcases (within other).mp member with ⟨⟨tick, addedOther⟩, lowOther⟩
    by_contra above
    exact greatest other tick ((members other tick).mpr addedOther) (Nat.not_le.mp above) lowOther
  · rintro ⟨⟨⟨-, low⟩, greatest⟩, added⟩
    refine ⟨added, low, ?_⟩
    intro other tick member above lowOther
    have bound := greatest other
      ((within other).mpr ⟨⟨tick, (members other tick).mp member⟩, lowOther⟩)
    exact absurd bound (Nat.not_le.mpr above)

private theorem lastAdded_starts (calls : List (Nat × Nat)) :
    (build calls).starts.map (lastAdded calls) = (build calls).sizes.map some := by
  rcases build_lists calls with ⟨rows, lists, members⟩
  rw [lists.starts, lists.sizes, List.map_map, List.map_map]
  apply List.map_congr_left
  intro row member
  exact (members row.1 row.2).mp member

private theorem refines_build (calls : List (UInt32 × UInt32)) :
    (ProtoFH.TickTable.build calls).Refines
      (build (calls.map fun call => (call.1.toNat, call.2.toNat))) := by
  induction calls using List.reverseRecOn with
  | nil => exact ProtoFH.TickTable.refines_empty
  | append_singleton calls call induction =>
      rw [List.map_append, List.map_singleton, build_concat]
      have added := induction.add call.1 call.2
      rw [ProtoFH.TickTable.build, List.foldl_append]
      exact added

/-- After any calls the tick size at a price is the one added last for the greatest start at
or below it, the lists are parallel and the starts ascend; and the C++ table answers alike. -/
theorem tick_size_after_calls :
    (∀ (calls : List (Nat × Nat)) (price : Nat),
      (build calls).tickSize price = (greatestStart calls price).bind (lastAdded calls) ∧
        (build calls).starts.Pairwise (· < ·) ∧
        (build calls).starts.map (lastAdded calls) = (build calls).sizes.map some) ∧
    ∀ (calls : List (UInt32 × UInt32)) (price : UInt32),
      (build (calls.map fun call => (call.1.toNat, call.2.toNat))).tickSize price.toNat =
        ((ProtoFH.TickTable.build calls).tickSize price).map UInt32.toNat := by
  refine ⟨?_, fun calls price => (refines_build calls).tickSize price⟩
  intro calls price
  rcases build_lists calls with ⟨rows, lists, -⟩
  exact ⟨tickSize_build calls price, lists.starts_ascending, lastAdded_starts calls⟩

end Prototype.TickTable

end ProtoFH
