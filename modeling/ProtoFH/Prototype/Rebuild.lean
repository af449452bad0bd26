import ProtoFH.Prototype.Glimpse
import ProtoFH.Prototype.TickTables

/-! # A snapshot says what the market holds

Applied to an empty market, the messages of a snapshot bring back the orders and the
instruments in their order, the tick tables and the clock. -/

namespace ProtoFH.Prototype

/-! ## Orders -/

/-- What is stored under an order number can be sent as an `A`. -/
structure Order.Stored (order : Order) : Prop where
  real : order.orderNumber ≠ 0
  positive : 0 < order.remainingQty
  fits : (Message.orderAdded order.added).Fits

namespace Orders

private theorem apply_added {orders : Orders} {order : Order} (real : order.orderNumber ≠ 0)
    (absent : orders.find? order.orderNumber = none) :
    orders.apply (.orderAdded order.added) = orders.set order.orderNumber order := by
  rw [apply, place, if_neg (show order.added.orderNumber ≠ 0 from real)]
  change (orders.erase order.orderNumber).set order.orderNumber _ = _
  rw [Dict.erase_of_find?_eq_none absent]
  rfl

theorem foldl_added {orders : Orders} (keyed : orders.Keyed)
    (stored : ∀ orderNumber order, orders.find? orderNumber = some order → order.Stored) :
    (orders.values.map fun order => Message.orderAdded order.added).foldl Orders.apply ∅ =
      orders := by
  apply Dict.ext_entries
  have entries := Dict.values_map_entry keyed
  rw [List.foldl_map, ← entries]
  apply Dict.entries_foldl id rfl
  · have keys := congrArg (List.map Prod.fst) entries
    rw [List.map_map] at keys
    exact keys ▸ orders.distinct
  · intro order member state absent
    obtain ⟨orderNumber, found⟩ := Dict.mem_values.mp member
    exact apply_added (stored orderNumber order found).real absent

end Orders

/-! ## Instruments -/

theorem fits_letter {letter : UInt8} (isAscii : letter < 128) (visible : letter ≠ space) :
    FieldType.Fits 1 .alpha [letter] := by
  refine ⟨fun byte member => ?_, Nat.le_refl _, ?_⟩
  · rw [List.mem_singleton.mp member]
    exact isAscii
  · rw [stripRight, List.rdropWhile_singleton, if_neg (by simpa using visible)]

/-- What is known of an instrument can be sent: it has the fields of a directory entry or
none of them, and all of them fit. -/
structure Instrument.Recordable (inst : Instrument) : Prop where
  group : ∀ group, inst.group = some group → FieldType.Fits 4 .alpha group
  trading : FieldType.Fits 1 .alpha inst.tradingState
  shortSell : FieldType.Fits 1 .alpha inst.shortSellState
  reference : ∀ price, inst.referencePrice = some price → price < 256 ^ 4
  blank : inst.directoryMissing = true →
    inst =
      { orderbookId := inst.orderbookId, group := inst.group, tradingState := inst.tradingState
        shortSellState := inst.shortSellState, referencePrice := inst.referencePrice }
  described : inst.directoryMissing = false →
    ∃ entry, inst.directory? = some entry ∧ inst.describe entry = inst ∧
      (Message.orderbookDirectory entry).Fits

structure Instrument.Recorded (inst : Instrument) : Prop extends inst.Recordable where
  identified : FieldType.Fits 4 .alpha inst.orderbookId
  grouped : inst.group.isSome

namespace Instrument

theorem recordable_new (orderbookId : Text) : Recordable { orderbookId } where
  group group known := by cases known
  trading := fits_letter (by decide) (by decide)
  shortSell := fits_letter (by decide) (by decide)
  reference price known := by cases known
  blank _ := rfl
  described missing := by cases missing

theorem Recordable.update {inst : Instrument} (recordable : inst.Recordable)
    (identified : FieldType.Fits 4 .alpha inst.orderbookId) {group trading shortSell : Text}
    {reference : Option Nat} (groupFits : FieldType.Fits 4 .alpha group)
    (tradingFits : FieldType.Fits 1 .alpha trading)
    (shortSellFits : FieldType.Fits 1 .alpha shortSell)
    (referenceFits : ∀ price, reference = some price → price < 256 ^ 4) :
    Recorded { inst.fillGroup group with
      tradingState := trading, shortSellState := shortSell, referencePrice := reference } where
  identified := identified
  grouped := rfl
  group learned same := by
    cases same
    cases known : inst.group with
    | none => exact groupFits
    | some earlier => exact recordable.group earlier known
  trading := tradingFits
  shortSell := shortSellFits
  reference := referenceFits
  blank missing := by
    have blank := recordable.blank missing
    conv_lhs => rw [blank]
    rfl
  described announced := by
    obtain ⟨entry, found, described, fits⟩ := recordable.described announced
    have known : inst.group = some entry.group := by rw [← described]; rfl
    refine ⟨entry, ?_, ?_, fits⟩
    · rw [← found]
      simp [directory?, fillGroup, known]
    · conv_rhs => rw [← described]
      simp [fillGroup, describe]

theorem Recordable.describe {inst : Instrument} (recordable : inst.Recordable)
    {entry : OrderbookDirectory} (own : entry.orderbookId = inst.orderbookId)
    (fits : (Message.orderbookDirectory entry).Fits) : (inst.describe entry).Recorded where
  identified := own ▸ fits.2.1
  grouped := rfl
  group learned same := by
    cases same
    exact fits.2.2.2.1
  trading := recordable.trading
  shortSell := recordable.shortSell
  reference := recordable.reference
  blank missing := by cases missing
  described _ := by
    obtain ⟨-, rest⟩ := fits
    refine ⟨{ entry with ns := 0, orderbookId := inst.orderbookId }, rfl, rfl, ?_⟩
    rw [← own]
    exact ⟨Nat.pow_pos (by decide), rest⟩

end Instrument

namespace RefData

theorem get_modify (refdata : RefData) (orderbookId : Text) (change : Instrument → Instrument) :
    (refdata.modify orderbookId change).get orderbookId = change (refdata.get orderbookId) := by
  rw [get, modify, Dict.find?_set_self]
  rfl

theorem modify_modify (refdata : RefData) (orderbookId : Text)
    (change later : Instrument → Instrument) :
    (refdata.modify orderbookId change).modify orderbookId later =
      refdata.modify orderbookId (later ∘ change) := by
  rw [modify, get_modify]
  exact congrArg (fun instruments => { refdata with instruments }) (Dict.set_set ..)

theorem modify_of_absent {refdata : RefData} {orderbookId : Text}
    (absent : refdata.instruments.find? orderbookId = none) (change : Instrument → Instrument) :
    refdata.modify orderbookId change =
      { refdata with
        instruments := refdata.instruments.set orderbookId (change { orderbookId }) } := by
  rw [modify, get, absent]
  rfl

end RefData

/-- Messages about an instrument: they say nothing to orders, tick tables and clock. -/
def Message.describes : Message → Bool
  | .orderbookDirectory _ | .tradingState .. | .shortSellRestriction .. => true
  | .orderAdded order => order.orderNumber = 0
  | _ => false

namespace Instrument

def RebuiltBy (inst : Instrument) (messages : List Message) : Prop :=
  ∀ refdata : RefData, refdata.instruments.find? inst.orderbookId = none →
    messages.foldl RefData.apply refdata =
      { refdata with instruments := refdata.instruments.set inst.orderbookId inst }

def settle (inst start : Instrument) : Instrument :=
  { start.fillGroup (inst.group.getD []) with
    tradingState := inst.tradingState
    shortSellState := inst.shortSellState
    referencePrice := inst.referencePrice.or start.referencePrice }

theorem foldl_states (inst : Instrument) (refdata : RefData) :
    inst.states.foldl RefData.apply refdata = refdata.modify inst.orderbookId inst.settle := by
  rw [states]
  cases price : inst.referencePrice with
  | none =>
      simp only [List.foldl_cons, List.foldl_nil, RefData.apply, RefData.modify_modify]
      congr 1
      funext start
      simp only [Function.comp, settle, fillGroup, price]
      rfl
  | some price =>
      simp only [List.foldl_cons, List.foldl_nil, RefData.apply, RefData.modify_modify, if_true]
      congr 1
      funext start
      simp only [Function.comp, settle, fillGroup, price]
      rfl

private theorem directory?_eq_some {inst : Instrument} {entry : OrderbookDirectory}
    (found : inst.directory? = some entry) : entry.orderbookId = inst.orderbookId := by
  simp only [directory?, Option.bind_eq_bind, Option.bind_eq_some_iff] at found
  obtain ⟨isin, -, roundLot, -, tickTableId, -, priceDecimals, -, upper, -, lower, -, same⟩ := found
  cases same
  rfl

theorem Recorded.snapshot_rebuilds {inst : Instrument} (recorded : inst.Recorded) :
    ∃ messages, inst.snapshot = .ok messages ∧
      (∀ msg ∈ messages, msg.Fits ∧ msg.describes = true) ∧ inst.RebuiltBy messages := by
  obtain ⟨group, grouped⟩ := Option.isSome_iff_exists.mp recorded.grouped
  have states : ∀ msg ∈ inst.states, msg.Fits ∧ msg.describes = true := by
    rw [states, List.forall_mem_cons, List.forall_mem_cons]
    have zero (size : Nat) : 0 < 256 ^ size := Nat.pow_pos (by decide)
    have groupFits : FieldType.Fits 4 .alpha (inst.group.getD []) := by
      rw [grouped]
      exact recorded.group group grouped
    refine ⟨⟨⟨zero 4, recorded.identified, groupFits, recorded.trading, trivial⟩, rfl⟩,
      ⟨⟨zero 4, recorded.identified, groupFits, recorded.shortSell, trivial⟩, rfl⟩, ?_⟩
    cases known : inst.referencePrice with
    | none => exact fun msg member => absurd member List.not_mem_nil
    | some price =>
        refine List.forall_mem_singleton.mpr ⟨?_, rfl⟩
        exact ⟨zero 4, zero 8, fits_letter (by decide) (by decide), zero 4, recorded.identified,
          groupFits, recorded.reference price known, trivial⟩
  cases missing : inst.directoryMissing with
  | true =>
      refine ⟨inst.states, by rw [snapshot, if_pos missing], states, fun refdata absent => ?_⟩
      rw [foldl_states, RefData.modify_of_absent absent]
      have blank := recorded.blank missing
      have settled : inst.settle { orderbookId := inst.orderbookId } = inst := by
        conv_rhs => rw [blank]
        rw [settle, fillGroup, grouped]
        simp
      rw [settled]
  | false =>
      obtain ⟨entry, found, described, fits⟩ := recorded.described missing
      refine ⟨.orderbookDirectory entry :: inst.states, ?_, ?_, fun refdata absent => ?_⟩
      · rw [snapshot, if_neg (by rw [missing]; exact Bool.false_ne_true), found]
      · exact List.forall_mem_cons.mpr ⟨⟨fits, rfl⟩, states⟩
      · rw [List.foldl_cons, RefData.apply, foldl_states, directory?_eq_some found,
          RefData.modify_modify, RefData.modify_of_absent absent]
        have settled : inst.settle (({ orderbookId := inst.orderbookId } : Instrument).describe
            entry) = inst := by
          conv_rhs => rw [← described]
          simp [settle, fillGroup, describe]
        rw [Function.comp, settled]

end Instrument

theorem RefData.foldl_instruments {instruments : Dict Text Instrument}
    (named : ∀ orderbookId inst, instruments.find? orderbookId = some inst →
      inst.orderbookId = orderbookId ∧ inst.Recorded) :
    ∃ lists, instruments.values.mapM Instrument.snapshot = .ok lists ∧
      (∀ msg ∈ lists.flatten, msg.Fits ∧ msg.describes = true) ∧
      ∀ refdata : RefData, refdata.instruments = ∅ →
        (lists.flatten.foldl RefData.apply refdata).instruments = instruments := by
  let messages (inst : Instrument) : List Message := inst.snapshot.toOption.getD []
  have rebuilt : ∀ inst ∈ instruments.values, inst.snapshot = .ok (messages inst) ∧
      (∀ msg ∈ messages inst, msg.Fits ∧ msg.describes = true) ∧
      inst.RebuiltBy (messages inst) := by
    intro inst member
    obtain ⟨orderbookId, found⟩ := Dict.mem_values.mp member
    obtain ⟨own, sent, fits, rebuilds⟩ := (named orderbookId inst found).2.snapshot_rebuilds
    have same : messages inst = own := by
      change inst.snapshot.toOption.getD [] = own
      rw [sent]
      rfl
    rw [same]
    exact ⟨sent, fits, rebuilds⟩
  have entries := Dict.values_map_entry fun orderbookId inst found =>
    (named orderbookId inst found).1
  refine ⟨instruments.values.map messages,
    mapM_eq_ok_map fun inst member => (rebuilt inst member).1, ?_, fun refdata empty => ?_⟩
  · intro msg member
    obtain ⟨own, ofInst, member⟩ := List.mem_flatten.mp member
    obtain ⟨inst, present, rfl⟩ := List.mem_map.mp ofInst
    exact (rebuilt inst present).2.1 msg member
  · apply Dict.ext_entries
    rw [← List.flatMap_def, List.foldl_flatMap, ← entries]
    apply Dict.entries_foldl RefData.instruments empty
    · have keys := congrArg (List.map Prod.fst) entries
      rw [List.map_map] at keys
      exact keys ▸ instruments.distinct
    · intro inst member state absent
      rw [(rebuilt inst member).2.2 state absent]

/-! ## Tick tables -/

namespace TickTable

variable {rows : List (Nat × Nat)}

theorem Lists.unique {table other : TickTable} (lists : table.Lists rows)
    (otherLists : other.Lists rows) : table = other := by
  obtain ⟨starts, sizes⟩ := table
  obtain ⟨otherStarts, otherSizes⟩ := other
  have sameStarts : starts = otherStarts := lists.starts.trans otherLists.starts.symm
  have sameSizes : sizes = otherSizes := lists.sizes.trans otherLists.sizes.symm
  rw [sameStarts, sameSizes]

variable {table : TickTable}

theorem Lists.rows_eq (lists : table.Lists rows) : table.rows = rows := by
  rw [TickTable.rows, lists.starts, lists.sizes, List.zip_map']
  exact List.map_id rows

def addRow (table : TickTable) (row : Nat × Nat) : TickTable := table.add row.1 row.2

private theorem lists_foldl_addRow (ascending : rows.Pairwise fun row next => row.1 < next.1) :
    (rows.foldl addRow {}).Lists rows := by
  induction rows using List.reverseRecOn with
  | nil => exact lists_empty
  | append_singleton rows last induction =>
      obtain ⟨front, -, below⟩ := List.pairwise_append.mp ascending
      obtain ⟨written, lists, members⟩ := (induction front).add last.1 last.2
      have same : written = rows ++ [last] := by
        have irrefl : Std.Irrefl fun row next : Nat × Nat => row.1 < next.1 :=
          ⟨fun row => Nat.lt_irrefl row.1⟩
        have antisymm : Std.Antisymm fun row next : Nat × Nat => row.1 < next.1 :=
          ⟨fun row next less more => absurd less (Nat.lt_asymm more)⟩
        apply List.Pairwise.eq_of_mem_iff lists.ascending ascending
        rintro ⟨start, size⟩
        rw [members, List.mem_append, List.mem_singleton, Prod.ext_iff]
        by_cases own : last.1 = start
        · have fresh : (start, size) ∉ rows := fun member =>
            absurd (below _ member last List.mem_cons_self) (by rw [own]; exact Nat.lt_irrefl _)
          simp [own, fresh]
        · simp [own, Ne.symm own]
      rw [List.foldl_append, ← same]
      exact lists

/-- A table as `L` messages fill it: ascending rows, at least one, and all of them fit. -/
def Filled (table : TickTable) : Prop :=
  ∃ rows, rows ≠ [] ∧ table.Lists rows ∧ ∀ row ∈ rows, row.1 < 256 ^ 4 ∧ row.2 < 256 ^ 4

private theorem Filled.foldl_rows (filled : table.Filled) : table.rows.foldl addRow {} = table := by
  obtain ⟨rows, -, lists, -⟩ := filled
  rw [lists.rows_eq]
  exact (lists_foldl_addRow lists.ascending).unique lists

private theorem Filled.rows_ne_nil (filled : table.Filled) : table.rows ≠ [] := by
  obtain ⟨rows, nonempty, lists, -⟩ := filled
  rwa [lists.rows_eq]

theorem Filled.add (filled : table.Filled ∨ table = {}) {priceStart tickSize : Nat}
    (startFits : priceStart < 256 ^ 4) (sizeFits : tickSize < 256 ^ 4) :
    (table.add priceStart tickSize).Filled := by
  obtain ⟨rows, lists, fit⟩ : ∃ rows, table.Lists rows ∧
      ∀ row ∈ rows, row.1 < 256 ^ 4 ∧ row.2 < 256 ^ 4 := by
    rcases filled with ⟨rows, -, lists, fit⟩ | rfl
    · exact ⟨rows, lists, fit⟩
    · exact ⟨[], lists_empty, fun row member => absurd member List.not_mem_nil⟩
  obtain ⟨written, writtenLists, members⟩ := lists.add priceStart tickSize
  have own : (priceStart, tickSize) ∈ written := (members _ _).mpr (by rw [if_pos rfl])
  refine ⟨written, List.ne_nil_of_mem own, writtenLists, ?_⟩
  rintro ⟨start, size⟩ member
  rw [members] at member
  split at member
  · next same => exact ⟨same ▸ startFits, member ▸ sizeFits⟩
  · exact fit _ member

end TickTable

namespace RefData

def rowMessage (tableId : Nat) (row : Nat × Nat) : Message :=
  .priceTickSize 0 tableId row.2 row.1

private theorem find?_foldl_rows (tableId : Nat) {rows : List (Nat × Nat)} (nonempty : rows ≠ [])
    (refdata : RefData) (other : Nat) :
    ((rows.map (rowMessage tableId)).foldl RefData.apply refdata).tickTables.find? other =
      if tableId = other then
        some (rows.foldl TickTable.addRow ((refdata.tickTables.find? tableId).getD {}))
      else refdata.tickTables.find? other := by
  induction rows generalizing refdata with
  | nil => exact absurd rfl nonempty
  | cons row rows induction =>
      have first (key : Nat) : (refdata.apply (rowMessage tableId row)).tickTables.find? key =
          if tableId = key then
            some (TickTable.addRow ((refdata.tickTables.find? tableId).getD {}) row)
          else refdata.tickTables.find? key := Dict.find?_set ..
      rw [List.map_cons, List.foldl_cons, List.foldl_cons]
      cases rows with
      | nil => exact first other
      | cons next rows =>
          rw [induction (List.cons_ne_nil _ _), first, first, if_pos rfl]
          split <;> rfl

private theorem find?_foldl_tables {tables : Dict Nat TickTable} {tableIds : List Nat}
    (distinct : tableIds.Nodup)
    (filled : ∀ tableId ∈ tableIds, ∃ table, tables.find? tableId = some table ∧ table.Filled)
    {start : RefData} (fresh : ∀ tableId ∈ tableIds, start.tickTables.find? tableId = none)
    (other : Nat) :
    ((tableIds.flatMap fun tableId =>
        ((tables.find? tableId).getD {}).rows.map (rowMessage tableId)).foldl
      RefData.apply start).tickTables.find? other =
      if other ∈ tableIds then tables.find? other else start.tickTables.find? other := by
  induction tableIds generalizing start with
  | nil => rfl
  | cons tableId tableIds induction =>
      rw [List.nodup_cons] at distinct
      rw [List.forall_mem_cons] at filled fresh
      obtain ⟨⟨table, found, tableFilled⟩, restFilled⟩ := filled
      have first := find?_foldl_rows tableId tableFilled.rows_ne_nil start
      rw [fresh.1, Option.getD_none, tableFilled.foldl_rows, ← found] at first
      rw [List.flatMap_cons, List.foldl_append, found, Option.getD_some]
      rw [induction distinct.2 restFilled]
      · rw [first]
        by_cases own : tableId = other
        · subst own
          simp [distinct.1]
        · simp [own, Ne.symm own]
      · intro later member
        have different : tableId ≠ later := fun same => distinct.1 (same ▸ member)
        rw [first, if_neg different]
        exact fresh.2 later member

theorem find?_foldl_tickRows {refdata start : RefData}
    (filled : ∀ tableId table, refdata.tickTables.find? tableId = some table → table.Filled)
    (empty : start.tickTables = ∅) (other : Nat) :
    (refdata.tickRows.foldl RefData.apply start).tickTables.find? other =
      refdata.tickTables.find? other := by
  let tableIds := refdata.tickTables.keys.insertionSort (· ≤ ·)
  have sorted : tableIds.Perm refdata.tickTables.keys := List.perm_insertionSort _ _
  have known (tableId : Nat) : tableId ∈ tableIds ↔ (refdata.tickTables.find? tableId).isSome :=
    sorted.mem_iff.trans Dict.mem_keys
  have rebuilt : (refdata.tickRows.foldl RefData.apply start).tickTables.find? other =
      if other ∈ tableIds then refdata.tickTables.find? other
      else start.tickTables.find? other := by
    apply find?_foldl_tables (sorted.nodup_iff.mpr refdata.tickTables.distinct)
    · intro tableId member
      obtain ⟨table, found⟩ := Option.isSome_iff_exists.mp ((known tableId).mp member)
      exact ⟨table, found, filled tableId table found⟩
    · intro tableId _
      rw [empty]
      rfl
  rw [rebuilt]
  split
  · rfl
  · next unknown =>
      rw [known, Option.not_isSome_iff_eq_none] at unknown
      rw [empty, unknown]
      rfl

end RefData

end ProtoFH.Prototype
