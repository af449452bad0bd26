import ProtoFH.Prototype.Rebuild
import ProtoFH.Prototype.Sides

/-! # A snapshot stands for the messages before its cut

What decodable messages leave in a market can be sent as a snapshot. A fresh market that
applies the snapshot shows what the first one did, and whatever comes next keeps them
together. -/

namespace ProtoFH.Prototype

def Message.NoZeroReplacement : Message → Prop
  | .orderReplaced _ _ newOrderNumber _ _ => newOrderNumber ≠ 0
  | _ => True

/-- A message as the feed has it: its fields have their widths, and its orders a number
and a positive quantity. -/
structure Message.Proper (msg : Message) : Prop where
  fits : msg.Fits
  positive : msg.PositiveQty
  numbered : msg.NoZeroReplacement

/-! ## What can be sent stays so -/

theorem Order.Stored.shrink {order : Order} (stored : order.Stored) {qty : Nat} (some : 0 < qty)
    (less : qty ≤ order.remainingQty) : Order.Stored { order with remainingQty := qty } where
  real := stored.real
  positive := some
  fits := by
    obtain ⟨ns, number, side, fits, rest⟩ := stored.fits
    exact ⟨ns, number, side, Nat.lt_of_le_of_lt less fits, rest⟩

namespace Orders

def AllStored (orders : Orders) : Prop :=
  ∀ orderNumber order, orders.find? orderNumber = some order → order.Stored

variable {orders : Orders}

theorem AllStored.take (stored : orders.AllStored) {taking : Taking} (own : taking.order.Stored) :
    AllStored (orders.take taking) := by
  rw [Orders.take]
  split
  · exact Dict.forall_find?_erase stored _
  · next stays =>
      exact Dict.forall_find?_set stored
        (own.shrink (Nat.pos_of_ne_zero stays) (Nat.sub_le _ _))

theorem AllStored.place (stored : orders.AllStored) {order : OrderAdded}
    (fits : (Message.orderAdded order).Fits) (positive : order.orderNumber ≠ 0 → 0 < order.qty) :
    AllStored (orders.place order) := by
  rw [Orders.place]
  split
  · exact stored
  · next real =>
      refine Dict.forall_find?_set (Dict.forall_find?_erase stored _) ⟨real, positive real, ?_⟩
      exact ⟨Nat.pow_pos (by decide), fits.2⟩

theorem AllStored.apply (stored : orders.AllStored) {msg : Message} (proper : msg.Proper) :
    AllStored (orders.apply msg) := by
  obtain ⟨fits, positive, numbered⟩ := proper
  cases msg with
  | orderAdded order => exact stored.place fits positive
  | orderAddedWithAttributes order attribution orderType =>
      obtain ⟨ns, number, side, qty, book, group, price, -⟩ := fits
      exact stored.place ⟨ns, number, side, qty, book, group, price, trivial⟩ positive
  | orderExecuted ns orderNumber executedQty matchNumber =>
      rw [Orders.apply, fill]
      split
      · exact stored
      · next order found => exact stored.take (stored orderNumber order found)
  | orderDeleted ns orderNumber =>
      rw [Orders.apply]
      split
      · exact stored
      · exact Dict.forall_find?_erase stored _
  | orderReplaced ns origOrderNumber newOrderNumber qty price =>
      rw [Orders.apply, replace]
      split
      · exact stored
      · next orig found =>
          obtain ⟨nsFits, -, side, -, book, group, -⟩ := (stored origOrderNumber orig found).fits
          obtain ⟨-, -, numberFits, qtyFits, priceFits, -⟩ := fits
          refine Dict.forall_find?_set
            (Dict.forall_find?_erase (Dict.forall_find?_erase stored _) _)
            ⟨numbered, positive, ?_⟩
          exact ⟨nsFits, numberFits, side, qtyFits, book, group, priceFits, trivial⟩
  | _ => exact stored

end Orders

namespace RefData

structure Sendable (refdata : RefData) : Prop where
  instruments : ∀ orderbookId inst, refdata.instruments.find? orderbookId = some inst →
    inst.orderbookId = orderbookId ∧ inst.Recorded
  tables : ∀ tableId table, refdata.tickTables.find? tableId = some table →
    tableId < 256 ^ 4 ∧ table.Filled

namespace Sendable

variable {refdata : RefData} (sendable : refdata.Sendable)

include sendable

theorem get (orderbookId : Text) :
    (refdata.get orderbookId).orderbookId = orderbookId ∧
      (refdata.get orderbookId).Recordable := by
  rw [RefData.get]
  cases found : refdata.instruments.find? orderbookId with
  | none => exact ⟨rfl, Instrument.recordable_new orderbookId⟩
  | some inst =>
      obtain ⟨named, recorded⟩ := sendable.instruments orderbookId inst found
      exact ⟨named, recorded.toRecordable⟩

theorem modify {orderbookId : Text} {change : Instrument → Instrument}
    (kept : (change (refdata.get orderbookId)).orderbookId = orderbookId)
    (recorded : (change (refdata.get orderbookId)).Recorded) :
    (refdata.modify orderbookId change).Sendable where
  instruments := Dict.forall_find?_set sendable.instruments ⟨kept, recorded⟩
  tables := sendable.tables

theorem addTick {tableId priceStart tickSize : Nat} (idFits : tableId < 256 ^ 4)
    (startFits : priceStart < 256 ^ 4) (sizeFits : tickSize < 256 ^ 4) :
    (refdata.addTick tableId priceStart tickSize).Sendable where
  instruments := sendable.instruments
  tables := by
    refine Dict.forall_find?_set sendable.tables
      ⟨idFits, TickTable.Filled.add ?_ startFits sizeFits⟩
    cases found : refdata.tickTables.find? tableId with
    | none => exact .inr rfl
    | some table => exact .inl (sendable.tables tableId table found).2

theorem apply {msg : Message} (fits : msg.Fits) : (refdata.apply msg).Sendable := by
  cases msg with
  | orderbookDirectory entry =>
      obtain ⟨named, recordable⟩ := sendable.get entry.orderbookId
      rw [RefData.apply]
      refine sendable.modify named ?_
      exact recordable.describe named.symm fits
  | priceTickSize ns tableId tickSize priceStart =>
      obtain ⟨-, idFits, sizeFits, startFits, -⟩ := fits
      exact sendable.addTick idFits startFits sizeFits
  | tradingState ns orderbookId group state =>
      obtain ⟨named, recordable⟩ := sendable.get orderbookId
      obtain ⟨-, idFits, groupFits, stateFits, -⟩ := fits
      rw [RefData.apply]
      refine sendable.modify named ?_
      exact recordable.update (named.symm ▸ idFits) groupFits stateFits recordable.shortSell
        recordable.reference
  | shortSellRestriction ns orderbookId group state =>
      obtain ⟨named, recordable⟩ := sendable.get orderbookId
      obtain ⟨-, idFits, groupFits, stateFits, -⟩ := fits
      rw [RefData.apply]
      refine sendable.modify named ?_
      exact recordable.update (named.symm ▸ idFits) groupFits recordable.trading stateFits
        recordable.reference
  | orderAdded order =>
      rw [RefData.apply]
      split
      · obtain ⟨named, recordable⟩ := sendable.get order.orderbookId
        obtain ⟨-, -, -, -, idFits, groupFits, priceFits, -⟩ := fits
        refine sendable.modify named ?_
        refine recordable.update (named.symm ▸ idFits) groupFits recordable.trading
          recordable.shortSell ?_
        rintro price same
        cases same
        exact priceFits
      · exact sendable
  | systemEvent ns group event => exact ⟨sendable.instruments, sendable.tables⟩
  | _ => exact sendable

end Sendable

end RefData

/-! ## What is visible -/

namespace Visible

structure Sendable (visible : Visible) : Prop where
  keyed : Orders.Keyed visible.orders
  stored : Orders.AllStored visible.orders
  refdata : visible.refdata.Sendable
  clock : visible.seconds < 256 ^ 4

private theorem sendable_fresh : Sendable ({} : Market).visible where
  keyed orderNumber order found := by cases found
  stored orderNumber order found := by cases found
  refdata := { instruments orderbookId inst found := by cases found
               tables tableId table found := by cases found }
  clock := Nat.pow_pos (by decide)

theorem Sendable.apply {visible : Visible} (sendable : visible.Sendable) {msg : Message}
    (proper : msg.Proper) : (visible.apply msg).Sendable where
  keyed := sendable.keyed.apply msg
  stored := sendable.stored.apply proper
  refdata := sendable.refdata.apply proper.fits
  clock := by
    cases msg with
    | timestampSeconds seconds => exact proper.fits.1
    | _ => exact sendable.clock

/-- One market shows what the other does; of the trades it lacks those of an earlier one. -/
structure Resumes (boot full prior : Visible) : Prop where
  orders : boot.orders = full.orders
  instruments : boot.refdata.instruments = full.refdata.instruments
  tickTables : ∀ tableId,
    boot.refdata.tickTables.find? tableId = full.refdata.tickTables.find? tableId
  seconds : boot.seconds = full.seconds
  tradeCount : boot.tradeCount + prior.tradeCount = full.tradeCount
  totalVolume : boot.totalVolume + prior.totalVolume = full.totalVolume

theorem Resumes.apply {boot full prior : Visible} (resumes : Resumes boot full prior)
    (msg : Message) : Resumes (boot.apply msg) (full.apply msg) prior := by
  obtain ⟨orders, instruments, tickTables, seconds, tradeCount, totalVolume⟩ := resumes
  have get (orderbookId : Text) : boot.refdata.get orderbookId = full.refdata.get orderbookId := by
    rw [RefData.get, RefData.get, instruments]
  have modified (orderbookId : Text) (change : Instrument → Instrument) :
      (boot.refdata.modify orderbookId change).instruments =
        (full.refdata.modify orderbookId change).instruments := by
    rw [RefData.modify, RefData.modify, get, instruments]
  refine ⟨?_, ?_, ?_, ?_, ?_, ?_⟩
  · exact congrArg (Orders.apply · msg) orders
  · cases msg with
    | orderbookDirectory entry | tradingState ns orderbookId group state
    | shortSellRestriction ns orderbookId group state =>
        exact modified _ _
    | orderAdded order =>
        change (boot.refdata.apply _).instruments = (full.refdata.apply _).instruments
        rw [RefData.apply, RefData.apply]
        split
        · exact modified _ _
        · exact instruments
    | _ => exact instruments
  · cases msg with
    | priceTickSize ns tableId tickSize priceStart =>
        intro other
        change (boot.refdata.addTick _ _ _).tickTables.find? other =
          (full.refdata.addTick _ _ _).tickTables.find? other
        rw [RefData.addTick, RefData.addTick, Dict.find?_set, Dict.find?_set, tickTables,
          tickTables]
    | orderAdded order =>
        change ∀ other, (boot.refdata.apply _).tickTables.find? other =
          (full.refdata.apply _).tickTables.find? other
        rw [RefData.apply, RefData.apply]
        split <;> exact tickTables
    | _ => exact tickTables
  · cases msg with
    | timestampSeconds seconds => rfl
    | _ => exact seconds
  · change _ + (Orders.tradedQty _ msg).toList.length + _ =
      _ + (Orders.tradedQty _ msg).toList.length
    rw [orders]
    omega
  · change _ + (Orders.tradedQty _ msg).getD 0 + _ = _ + (Orders.tradedQty _ msg).getD 0
    rw [orders]
    omega

theorem Resumes.foldl {boot full prior : Visible} (resumes : Resumes boot full prior)
    (messages : List Message) :
    Resumes (messages.foldl Visible.apply boot) (messages.foldl Visible.apply full) prior := by
  induction messages generalizing boot full with
  | nil => exact resumes
  | cons msg messages induction => exact induction (resumes.apply msg)

private theorem orders_foldl (messages : List Message) (visible : Visible) :
    (messages.foldl Visible.apply visible).orders =
      messages.foldl Orders.apply visible.orders :=
  (List.foldl_hom Visible.orders fun _ _ => rfl).symm

theorem refdata_foldl (messages : List Message) (visible : Visible) :
    (messages.foldl Visible.apply visible).refdata =
      messages.foldl RefData.apply visible.refdata :=
  (List.foldl_hom Visible.refdata fun _ _ => rfl).symm

end Visible

/-! ## The snapshot -/

namespace Visible

def trades (visible : Visible) : Nat × Nat := (visible.tradeCount, visible.totalVolume)

def besidesInstruments (visible : Visible) : Orders × Dict Nat TickTable × Nat × Nat × Nat :=
  (visible.orders, visible.refdata.tickTables, visible.seconds, visible.trades)

def besidesTables (visible : Visible) : Orders × Dict Text Instrument × Nat × Nat × Nat :=
  (visible.orders, visible.refdata.instruments, visible.seconds, visible.trades)

def besidesOrders (visible : Visible) : RefData × Nat × Nat × Nat :=
  (visible.refdata, visible.seconds, visible.trades)

private theorem foldl_describes {messages : List Message}
    (describe : ∀ msg ∈ messages, msg.describes = true) (visible : Visible) :
    (messages.foldl Visible.apply visible).besidesInstruments = visible.besidesInstruments := by
  refine foldl_frame besidesInstruments (fun visible msg member => ?_) visible
  have describes := describe msg member
  cases msg with
  | orderbookDirectory entry | tradingState ns orderbookId group state
  | shortSellRestriction ns orderbookId group state =>
      rfl
  | orderAdded order =>
      have reference : order.orderNumber = 0 := of_decide_eq_true describes
      have orders : (visible.apply (.orderAdded order)).orders = visible.orders := by
        change Orders.place visible.orders order = _
        rw [Orders.place, if_pos reference]
      have refdata : (visible.apply (.orderAdded order)).refdata.tickTables =
          visible.refdata.tickTables := by
        change (visible.refdata.apply _).tickTables = _
        rw [RefData.apply, if_pos reference]
        rfl
      rw [besidesInstruments, orders, refdata]
      rfl
  | _ => cases describes

private theorem foldl_tickRows (refdata : RefData) (visible : Visible) :
    (refdata.tickRows.foldl Visible.apply visible).besidesTables = visible.besidesTables := by
  refine foldl_frame besidesTables (fun visible msg member => ?_) visible
  obtain ⟨tableId, -, member⟩ := List.mem_flatMap.mp member
  obtain ⟨row, -, rfl⟩ := List.mem_map.mp member
  rfl

private theorem foldl_orders {orders : List Order} (real : ∀ order ∈ orders, order.orderNumber ≠ 0)
    (visible : Visible) :
    ((orders.map fun order => Message.orderAdded order.added).foldl Visible.apply
      visible).besidesOrders = visible.besidesOrders := by
  refine foldl_frame besidesOrders (fun visible msg member => ?_) visible
  obtain ⟨order, present, rfl⟩ := List.mem_map.mp member
  have refdata : (visible.apply (.orderAdded order.added)).refdata = visible.refdata := by
    change visible.refdata.apply (.orderAdded order.added) = _
    rw [RefData.apply, if_neg (show order.added.orderNumber ≠ 0 from real order present)]
  rw [besidesOrders, refdata]
  rfl

end Visible

private theorem Visible.foldl_clock (seconds : Nat) :
    (Market.clock seconds).foldl Visible.apply ({} : Market).visible =
      { ({} : Market).visible with seconds } := by
  rw [Market.clock]
  split
  · next zero => rw [zero]; rfl
  · rfl

private theorem Message.Proper.ofDescribes {msg : Message} (fits : msg.Fits)
    (describes : msg.describes = true) : msg.Proper where
  fits := fits
  positive := by
    cases msg with
    | orderAdded order => exact fun real => absurd (of_decide_eq_true describes) real
    | orderAddedWithAttributes | orderReplaced => cases describes
    | _ => trivial
  numbered := by
    cases msg with
    | orderReplaced => cases describes
    | _ => trivial

private theorem RefData.Sendable.proper_tickRows {refdata : RefData} (sendable : refdata.Sendable) :
    ∀ msg ∈ refdata.tickRows, msg.Proper := by
  intro msg member
  obtain ⟨tableId, -, member⟩ := List.mem_flatMap.mp member
  obtain ⟨row, listed, rfl⟩ := List.mem_map.mp member
  cases found : refdata.tickTables.find? tableId with
  | none =>
      rw [found] at listed
      cases listed
  | some table =>
      rw [found] at listed
      obtain ⟨idFits, rows, -, lists, fit⟩ := sendable.tables tableId table found
      rw [Option.getD_some, lists.rows_eq] at listed
      obtain ⟨startFits, sizeFits⟩ := fit row listed
      exact ⟨⟨Nat.pow_pos (by decide), idFits, sizeFits, startFits, trivial⟩, trivial, trivial⟩

theorem Visible.Sendable.snapshot {market : Market} (sendable : market.visible.Sendable) :
    ∃ messages, market.snapshot = .ok messages ∧ (∀ msg ∈ messages, msg.Proper) ∧
      Visible.Resumes (messages.foldl Visible.apply ({} : Market).visible) market.visible
        market.visible := by
  obtain ⟨lists, sent, told, rebuilt⟩ := RefData.foldl_instruments sendable.refdata.instruments
  let orders := market.books.orders
  let added := orders.values.map fun order => Message.orderAdded order.added
  have stored : ∀ order ∈ orders.values, order.Stored := by
    intro order member
    obtain ⟨orderNumber, found⟩ := Dict.mem_values.mp member
    exact sendable.stored orderNumber order found
  refine ⟨Market.clock market.seconds ++ market.refdata.tickRows ++ lists.flatten ++ added, ?_,
    ?_, ?_⟩
  · change market.refdata.instruments.values.mapM Instrument.snapshot = _ at sent
    rw [Market.snapshot, sent]
    rfl
  · simp only [List.forall_mem_append]
    refine ⟨⟨⟨?_, sendable.refdata.proper_tickRows⟩, fun msg member => ?_⟩, fun msg member => ?_⟩
    · rw [Market.clock]
      split
      · exact fun msg member => absurd member List.not_mem_nil
      · exact List.forall_mem_singleton.mpr ⟨⟨sendable.clock, trivial⟩, trivial, trivial⟩
    · obtain ⟨fits, describes⟩ := told msg member
      exact .ofDescribes fits describes
    · obtain ⟨order, present, rfl⟩ := List.mem_map.mp member
      exact ⟨(stored order present).fits, fun _ => (stored order present).positive, trivial⟩
  · -- Each part sets its own component and leaves the others.
    rw [List.foldl_append, List.foldl_append, List.foldl_append, Visible.foldl_clock]
    let clocked : Visible := { ({} : Market).visible with seconds := market.seconds }
    let tabled := market.refdata.tickRows.foldl Visible.apply clocked
    let listed := lists.flatten.foldl Visible.apply tabled
    let boot := added.foldl Visible.apply listed
    have tables := Visible.foldl_tickRows market.refdata clocked
    have instruments := Visible.foldl_describes (fun msg member => (told msg member).2) tabled
    have last := Visible.foldl_orders (fun order member => (stored order member).real) listed
    simp only [Visible.besidesTables, Prod.mk.injEq] at tables
    simp only [Visible.besidesInstruments, Prod.mk.injEq] at instruments
    simp only [Visible.besidesOrders, Prod.mk.injEq] at last
    have trades : boot.trades = (0, 0) := by
      rw [last.2.2, instruments.2.2.2, tables.2.2.2]
      rfl
    refine ⟨?_, ?_, fun tableId => ?_, ?_, ?_, ?_⟩
    · rw [Visible.orders_foldl, instruments.1, tables.1]
      exact Orders.foldl_added sendable.keyed sendable.stored
    · rw [last.1, Visible.refdata_foldl]
      exact rebuilt tabled.refdata tables.2.1
    · rw [last.1, instruments.2.1, Visible.refdata_foldl]
      exact RefData.find?_foldl_tickRows
        (fun tableId table found => (sendable.refdata.tables tableId table found).2) rfl tableId
    · rw [last.2.1, instruments.2.2.1, tables.2.2.1]
      rfl
    · have count : boot.tradeCount = 0 := congrArg Prod.fst trades
      change boot.tradeCount + _ = _
      rw [count, Nat.zero_add]
    · have volume : boot.totalVolume = 0 := congrArg Prod.snd trades
      change boot.totalVolume + _ = _
      rw [volume, Nat.zero_add]

/-! ## Runs -/

namespace Market

theorem stocked_apply {market after : Market} {msg : Message} (stocked : market.books.Stocked)
    (positive : msg.PositiveQty) (applied : market.apply msg = .ok after) :
    after.books.Stocked := by
  obtain ⟨execution, stepped, -⟩ := apply_eq_ok applied
  cases msg with
  | orderAdded order =>
      rw [storeStep] at stepped
      split at stepped
      · obtain ⟨same, -⟩ := Prod.mk.inj (Except.ok.inj stepped)
        rw [← same]
        exact stocked
      · exact stocked.apply positive stepped
  | _ => exact stocked.apply positive stepped

theorem run_positive {messages : List Message} (positive : ∀ msg ∈ messages, msg.PositiveQty) :
    ∃ market, run {} messages = .ok market ∧ market.books.Covered ∧ market.books.Stocked ∧
      market.visible = messages.foldl Visible.apply ({} : Market).visible := by
  obtain ⟨market, reached⟩ := run_never_raises messages fun _ msg _ _ reached =>
    strandsNone_of_positive positive reached msg
  have invariant : market.books.Covered ∧ market.books.Stocked ∧
      Orders.AllPositive market.books.orders := by
    refine run_invariant (fun market => market.books.Covered ∧ market.books.Stocked ∧
      Orders.AllPositive market.books.orders) ?_
      ⟨OrderBookStore.covered_empty, .empty, fun _ _ found => by cases found⟩ reached
    rintro market msg after member ⟨covered, stocked, allPositive⟩ applied
    obtain ⟨result, done, covers⟩ := apply_isOk covered (allPositive.strandNone _)
    rw [applied] at done
    cases done
    refine ⟨covers, stocked_apply stocked (positive msg member) applied, ?_⟩
    rw [apply_books applied covered.keyed]
    exact allPositive.apply (positive msg member)
  exact ⟨market, reached, invariant.1, invariant.2.1,
    run_visible OrderBookStore.covered_empty.keyed reached⟩

private theorem foldlM_applyRaw {raws : List Bytes} {messages : List Message} {init last : Market}
    (decoded : raws.mapM Message.decode = .ok messages) (reached : run init messages = .ok last) :
    raws.foldlM applyRaw init = .ok last := by
  rw [run] at reached
  induction raws generalizing messages init with
  | nil =>
      cases decoded
      cases reached
      rfl
  | cons raw raws induction =>
      obtain ⟨msg, later, first, rest, rfl⟩ := mapM_cons_eq_ok decoded
      rw [List.foldlM_cons] at reached ⊢
      obtain ⟨next, applied, reached⟩ := except_bind_eq_ok.mp reached
      rw [applyRaw, first]
      change ((init.apply msg).mapError _ >>= _) = _
      rw [applied]
      exact induction rest reached

end Market

private theorem exists_encoded {messages : List Message} (fits : ∀ msg ∈ messages, msg.Fits) :
    ∃ raws, messages.mapM (fun msg => msg.encode.mapError SnapshotError.encode) = .ok raws ∧
      raws.mapM Message.decode = .ok messages := by
  refine ⟨messages.map Message.wire, mapM_eq_ok_map fun msg member => ?_, ?_⟩
  · rw [Message.encode_of_fits (fits msg member)]
    rfl
  · rw [List.mapM_map]
    conv_rhs => rw [← List.map_id messages]
    refine mapM_eq_ok_map fun msg member => ?_
    obtain ⟨buf, encoded, decoded⟩ := Message.decode_encode (fits msg member)
    rw [Message.encode_of_fits (fits msg member)] at encoded
    cases encoded
    exact decoded

private theorem buildSnapshot_eq {raws : List Bytes} {messages told : List Message} {prior : Market}
    (decoded : raws.mapM Message.decode = .ok messages) {c : Nat}
    (reached : Market.run {} (messages.take c) = .ok prior) (sent : prior.snapshot = .ok told)
    (fits : ∀ msg ∈ told, msg.Fits) :
    ∃ snapshot, buildSnapshot raws c = .ok (snapshot, min c raws.length + 1) ∧
      snapshot.mapM Message.decode = .ok told := by
  obtain ⟨snapshot, encoded, again⟩ := exists_encoded fits
  refine ⟨snapshot, ?_, again⟩
  have cut : raws.take (min c raws.length) = raws.take c := by
    rw [List.take_eq_take_iff, Nat.min_assoc, Nat.min_self]
  have replayed := Market.foldlM_applyRaw (mapM_take decoded c) reached
  rw [buildSnapshot, cut]
  exact except_bind_eq_ok.mpr ⟨prior, replayed, except_bind_eq_ok.mpr
    ⟨told, sent, except_bind_eq_ok.mpr ⟨snapshot, encoded, rfl⟩⟩⟩

namespace Market

/-- A fresh market that applies the snapshot at any cut, the `G` and the messages after the
cut shows what one shows that applied all messages; of the trades it has those after the
cut. -/
theorem bootstrap_equals_replay {raws : List Bytes} {messages : List Message}
    (decoded : raws.mapM Message.decode = .ok messages)
    (positive : ∀ msg ∈ messages, msg.PositiveQty)
    (numbered : ∀ msg ∈ messages, msg.NoZeroReplacement) (c : Nat) :
    ∃ snapshot next told full prior boot,
      buildSnapshot raws c = .ok (snapshot, next) ∧
      snapshot.mapM Message.decode = .ok told ∧
      run {} messages = .ok full ∧
      run {} (messages.take c) = .ok prior ∧
      run {} (told ++ .endOfSnapshot next :: messages.drop c) = .ok boot ∧
      boot.books.orders = full.books.orders ∧
      (∀ orderbookId,
        (boot.books.book orderbookId).bidLevels = (full.books.book orderbookId).bidLevels ∧
        (boot.books.book orderbookId).askLevels = (full.books.book orderbookId).askLevels) ∧
      boot.refdata.instruments = full.refdata.instruments ∧
      (∀ tableId,
        boot.refdata.tickTables.find? tableId = full.refdata.tickTables.find? tableId) ∧
      boot.seconds = full.seconds ∧
      boot.tape.tradeCount + prior.tape.tradeCount = full.tape.tradeCount ∧
      boot.tape.totalVolume + prior.tape.totalVolume = full.tape.totalVolume := by
  have proper : ∀ msg ∈ messages, msg.Proper := by
    intro msg member
    obtain ⟨raw, -, read⟩ := exists_mem_of_mapM_eq_ok decoded member
    exact ⟨(Message.decode_eq_ok_wire read).1, positive msg member, numbered msg member⟩
  have priorProper : ∀ msg ∈ messages.take c, msg.Proper :=
    fun msg member => proper msg (List.mem_of_mem_take member)
  obtain ⟨full, fullReached, fullCovered, fullStocked, fullVisible⟩ := run_positive positive
  obtain ⟨prior, priorReached, -, -, priorVisible⟩ :=
    run_positive fun msg member => (priorProper msg member).positive
  have sendable : prior.visible.Sendable := by
    rw [priorVisible]
    exact foldl_invariant Visible.Sendable
      (fun _ msg member before => before.apply (priorProper msg member)) Visible.sendable_fresh
  obtain ⟨told, sent, toldProper, resumes⟩ := sendable.snapshot
  obtain ⟨snapshot, built, again⟩ :=
    buildSnapshot_eq decoded priorReached sent fun msg member => (toldProper msg member).fits
  have bootPositive : ∀ msg ∈ told ++ .endOfSnapshot (min c raws.length + 1) :: messages.drop c,
      msg.PositiveQty := by
    simp only [List.forall_mem_append, List.forall_mem_cons]
    exact ⟨fun msg member => (toldProper msg member).positive, trivial,
      fun msg member => positive msg (List.mem_of_mem_drop member)⟩
  obtain ⟨boot, bootReached, bootCovered, bootStocked, bootVisible⟩ := run_positive bootPositive
  -- From the cut on both markets apply the same messages; the `G` shows nothing.
  have together : Visible.Resumes boot.visible full.visible prior.visible := by
    have split : full.visible = (messages.drop c).foldl Visible.apply prior.visible := by
      rw [fullVisible, priorVisible, ← List.foldl_append, List.take_append_drop]
    rw [split, bootVisible, List.foldl_append]
    exact resumes.foldl (messages.drop c)
  have levels := OrderBookStore.levels_eq bootCovered bootStocked fullCovered fullStocked
    together.orders
  refine ⟨snapshot, min c raws.length + 1, told, full, prior, boot, built, again, fullReached,
    priorReached, bootReached, together.orders, fun orderbookId => ⟨?_, ?_⟩,
    together.instruments, together.tickTables, together.seconds, together.tradeCount,
    together.totalVolume⟩
  · exact congrArg List.reverse (levels ⟨orderbookId, true⟩)
  · exact levels ⟨orderbookId, false⟩

theorem bootstrap_equals_replay_plainMessages :
    (plainMessages.map Message.wire).mapM Message.decode = .ok plainMessages ∧
      (∀ msg ∈ plainMessages, msg.PositiveQty) ∧
      (∀ msg ∈ plainMessages, msg.NoZeroReplacement) ∧
      ∃ snapshot next told full prior boot,
        buildSnapshot (plainMessages.map Message.wire) 2 = .ok (snapshot, next) ∧
        snapshot.mapM Message.decode = .ok told ∧
        run {} plainMessages = .ok full ∧
        run {} (plainMessages.take 2) = .ok prior ∧
        run {} (told ++ .endOfSnapshot next :: plainMessages.drop 2) = .ok boot ∧
        boot.books.orders = full.books.orders ∧
        boot.tape.tradeCount + prior.tape.tradeCount = full.tape.tradeCount := by
  have decoded : (plainMessages.map Message.wire).mapM Message.decode = .ok plainMessages := by
    decide +kernel
  have positive : ∀ msg ∈ plainMessages, msg.PositiveQty := by
    simp [plainMessages, Message.PositiveQty]
  have numbered : ∀ msg ∈ plainMessages, msg.NoZeroReplacement := by
    simp [plainMessages, Message.NoZeroReplacement]
  obtain ⟨snapshot, next, told, full, prior, boot, built, again, fullRun, priorRun, bootRun,
    orders, -, -, -, -, trades, -⟩ := bootstrap_equals_replay decoded positive numbered 2
  exact ⟨decoded, positive, numbered, snapshot, next, told, full, prior, boot, built, again,
    fullRun, priorRun, bootRun, orders, trades⟩

end Market

end ProtoFH.Prototype
