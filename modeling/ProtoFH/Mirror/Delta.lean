import ProtoFH.Db.Tables
import ProtoFH.Fh.Publish
import ProtoFH.Foundation.Execution

/-! # Order deltas

The delta section of an update tells the database what a message did to the order
store. Here the two are compared: the orders of the store against the orders left
by applying the published deltas. -/

namespace ProtoFH

def OrderRecord.view (keepGroup : Bool) (rec : OrderRecord) : OrderRecord :=
  if keepGroup then rec else { rec with group := .empty }

@[simp] theorem OrderRecord.view_orderNumber (keepGroup : Bool) (rec : OrderRecord) :
    (rec.view keepGroup).orderNumber = rec.orderNumber := by
  cases keepGroup <;> rfl

/-- The table holds the live orders of the store: the same numbers, each with the
same ticker, side, price, remaining quantity and type, and with the same group if
`keepGroup`. -/
def Agree (keepGroup : Bool) (orders : OrderMap) (table : OrderTable) : Prop :=
  ∀ number, (table.find? number).map (OrderRecord.view keepGroup) =
    (orders.find? number).map fun order => order.toRecord.view keepGroup

namespace Agree

variable {keepGroup : Bool} {orders : OrderMap} {table : OrderTable}

theorem empty : Agree keepGroup ∅ ∅ := by
  intro number
  simp

theorem insert (agree : Agree keepGroup orders table) {order : Order} {rec : OrderRecord}
    (same : rec.view keepGroup = order.toRecord.view keepGroup) :
    Agree keepGroup (orders.insert order) (table.insert rec) := by
  intro number
  have key : rec.orderNumber = order.orderNumber := by
    have equal := congrArg OrderRecord.orderNumber same
    simpa [Order.toRecord] using equal
  rw [KeyedMap.find?_insert, KeyedMap.find?_insert, key]
  split
  · simp [same]
  · exact agree number

theorem erase (agree : Agree keepGroup orders table) (number : UInt64) :
    Agree keepGroup (orders.erase number) (table.erase number) := by
  intro other
  rw [KeyedMap.find?_erase, KeyedMap.find?_erase]
  split
  · rfl
  · exact agree other

theorem find?_eq_none (agree : Agree keepGroup orders table) {number : UInt64}
    (absent : orders.find? number = none) : table.find? number = none := by
  have equal := agree number
  rw [absent] at equal
  simpa using equal

theorem find?_eq_some (agree : Agree keepGroup orders table) {number : UInt64} {order : Order}
    (present : orders.find? number = some order) :
    ∃ rec, table.find? number = some rec ∧
      rec.view keepGroup = order.toRecord.view keepGroup := by
  have equal := agree number
  rw [present] at equal
  simpa using equal

end Agree

structure Reports (keepGroup : Bool) (market : Market) (res : ApplyResult)
    (rec : UpdateRecord) : Prop where
  delta : rec.delta = deltaSection market res.delta
  ticker : res.delta.isSome → rec.envelope.ticker = res.ticker
  group : keepGroup → res.delta.isSome → rec.envelope.group = res.group

/-! ## One message -/

/-- An `F` with order number 0 is dropped by the store and still published as an
insertion. It does no harm only where the store already holds that very order. -/
def HarmlessZero (keepGroup : Bool) (orders : OrderMap) : ItchMsg → Prop
  | .addAttributed msg _ orderType =>
      msg.orderNumber = 0 →
        (orders.find? 0).map (fun order => order.toRecord.view keepGroup) =
          some ((msg.toOrder orderType).toRecord.view keepGroup)
  | _ => True

section Step

variable {keepGroup : Bool} {market after : Market} {table : OrderTable} {rec : UpdateRecord}

theorem view_deltaOrder_add {msg : AddOrder} {op : OrderOp} {orderType : UInt8}
    (added : op = .A ∨ op = .F)
    (reports : Reports keepGroup after (Market.addResult msg op orderType) rec) :
    rec.deltaOrder.view keepGroup = (msg.toOrder orderType).toRecord.view keepGroup := by
  have delta := reports.delta
  have ticker := reports.ticker
  have group := reports.group
  rcases added with rfl | rfl <;> cases keepGroup <;>
    simp_all [UpdateRecord.deltaOrder, OrderRecord.view, Order.toRecord, AddOrder.toOrder,
      deltaSection, deltaQty, Market.addResult]

theorem applyDelta_add {msg : AddOrder} {op : OrderOp} {orderType : UInt8}
    (added : op = .A ∨ op = .F)
    (reports : Reports keepGroup after (Market.addResult msg op orderType) rec) :
    applyDelta table rec = table.insert rec.deltaOrder := by
  have op' : rec.delta.op = ascii 'A' := by
    rw [reports.delta]
    rcases added with rfl | rfl <;> rfl
  rw [applyDelta, if_pos op']

theorem applyDelta_none (none : rec.delta.op = ascii '#') : applyDelta table rec = table := by
  rw [applyDelta, none]
  rfl

variable {orders : OrderMap} {order : Order}

theorem Agree.fill (agree : Agree keepGroup orders table) {orderNumber : UInt64}
    {executedQty : UInt32} (found : orders.find? orderNumber = some order)
    (op : rec.delta.op = ascii 'E') (number : rec.delta.orderNumber = orderNumber)
    (price : rec.delta.price = order.price)
    (qty : rec.delta.qty = (((orders.fill orderNumber executedQty).find? orderNumber).map
      Order.remainingQty).getD 0) :
    Agree keepGroup (orders.fill orderNumber executedQty) (applyDelta table rec) := by
  obtain ⟨stored, inTable, same⟩ := agree.find?_eq_some found
  have key := KeyedMap.key_of_find? found
  have applied : applyDelta table rec =
      if rec.delta.qty = 0 then table.erase orderNumber
      else
        table.insert { stored with qtyRemaining := rec.delta.qty, price := rec.delta.price } := by
    rw [applyDelta, if_neg (by rw [op]; decide), if_pos op, number, inTable]
  by_cases gone : order.remainingQty - OrderBookStore.clampedQty order executedQty = 0
  · have filled : orders.fill orderNumber executedQty = orders.erase orderNumber := by
      simp only [OrderMap.fill, found, gone, if_true]
    have zero : rec.delta.qty = 0 := by
      rw [qty, filled, KeyedMap.find?_erase_self]
      rfl
    rw [applied, if_pos zero, filled]
    exact agree.erase orderNumber
  · have filled : orders.fill orderNumber executedQty =
        orders.insert { order with remainingQty :=
          order.remainingQty - OrderBookStore.clampedQty order executedQty } := by
      simp only [OrderMap.fill, found, gone, if_false]
    have left : rec.delta.qty =
        order.remainingQty - OrderBookStore.clampedQty order executedQty := by
      rw [qty, filled, KeyedMap.find?_insert, if_pos key]
      rfl
    rw [applied, if_neg (by rw [left]; exact gone), filled]
    apply agree.insert
    rw [left, price]
    cases keepGroup <;> simp_all [OrderRecord.view, Order.toRecord]

theorem Agree.replace (agree : Agree keepGroup orders table)
    {origOrderNumber newOrderNumber : UInt64} {qty price : UInt32}
    (found : orders.find? origOrderNumber = some order)
    (reports : Reports keepGroup after (Market.replacementResult origOrderNumber newOrderNumber qty
      price order) rec) :
    Agree keepGroup (orders.replace origOrderNumber newOrderNumber qty price)
      (applyDelta table rec) := by
  have delta := reports.delta
  have ticker := reports.ticker
  have group := reports.group
  have op : rec.delta.op = ascii 'U' := by rw [delta]; rfl
  have orig : rec.delta.origOrderNumber = origOrderNumber := by rw [delta]; rfl
  have applied : applyDelta table rec = (table.erase origOrderNumber).insert rec.deltaOrder := by
    rw [applyDelta, if_neg (by rw [op]; decide), if_neg (by rw [op]; decide),
      if_neg (by rw [op]; decide), if_pos op, orig]
  rw [applied, OrderMap.replace, found]
  apply (agree.erase origOrderNumber).insert
  cases keepGroup <;>
    simp_all [UpdateRecord.deltaOrder, OrderRecord.view, Order.toRecord, deltaSection, deltaQty,
      Market.replacementResult]

theorem Agree.delete (agree : Agree keepGroup orders table) {orderNumber : UInt64}
    (reports : Reports keepGroup after (Market.deletionResult orderNumber order) rec) :
    Agree keepGroup (orders.erase orderNumber) (applyDelta table rec) := by
  have op : rec.delta.op = ascii 'D' := by rw [reports.delta]; rfl
  have number : rec.delta.orderNumber = orderNumber := by rw [reports.delta]; rfl
  rw [applyDelta, if_neg (by rw [op]; decide), if_neg (by rw [op]; decide), if_pos op, number]
  exact agree.erase orderNumber

private theorem Agree.insert_iff (agree : Agree keepGroup orders table) (inserted : OrderRecord) :
    Agree keepGroup orders (table.insert inserted) ↔
      (orders.find? inserted.orderNumber).map (fun order => order.toRecord.view keepGroup) =
        some (inserted.view keepGroup) := by
  constructor
  · intro later
    rw [← later inserted.orderNumber, KeyedMap.find?_insert_self]
    rfl
  · intro held number
    rw [KeyedMap.find?_insert]
    split
    · next equal => rw [← equal, held]; rfl
    · exact agree number

end Step

theorem Agree.apply_iff {keepGroup : Bool} {market : Market} {table : OrderTable}
    {rec : UpdateRecord} {msg : ItchMsg} (agree : Agree keepGroup market.books.orders table)
    (reports : Reports keepGroup (market.apply msg).1 (market.apply msg).2 rec) :
    Agree keepGroup (market.apply msg).1.books.orders (applyDelta table rec) ↔
      HarmlessZero keepGroup market.books.orders msg := by
  have silent (none : (market.apply msg).2.delta = none) : applyDelta table rec = table :=
    applyDelta_none (by rw [reports.delta, none]; rfl)
  rw [Market.apply_orders]
  cases msg with
  | addAttributed order attribution orderType =>
      have reports' : Reports keepGroup _ (Market.addResult order .F orderType) rec := reports
      have view := view_deltaOrder_add (.inr rfl) reports'
      rw [applyDelta_add (.inr rfl) reports']
      by_cases zero : order.orderNumber = 0
      · have number : rec.deltaOrder.orderNumber = 0 := by
          have equal := congrArg OrderRecord.orderNumber view
          simpa [Order.toRecord, AddOrder.toOrder, zero] using equal
        have unchanged : OrderMap.apply market.books.orders
            (.addAttributed order attribution orderType) = market.books.orders := by
          simp [OrderMap.apply, OrderMap.place, zero]
        rw [unchanged, agree.insert_iff, number, view]
        simp [HarmlessZero, zero]
      · have placed : OrderMap.apply market.books.orders
            (.addAttributed order attribution orderType) =
              market.books.orders.insert (order.toOrder orderType) := by
          simp [OrderMap.apply, OrderMap.place, zero]
        rw [placed]
        exact iff_of_true (agree.insert view) (fun absurd => (zero absurd).elim)
  | addOrder order =>
      refine iff_of_true ?_ trivial
      have result := Market.apply_addOrder_result market order
      by_cases zero : order.orderNumber = 0
      · rw [if_pos zero] at result
        rw [silent (by rw [result])]
        simpa [OrderMap.apply, OrderMap.place, zero] using agree
      · rw [if_neg zero] at result
        rw [result] at reports
        rw [applyDelta_add (.inl rfl) reports]
        have placed : OrderMap.apply market.books.orders (.addOrder order) =
            market.books.orders.insert (order.toOrder space) := by
          simp [OrderMap.apply, OrderMap.place, zero]
        rw [placed]
        exact agree.insert (view_deltaOrder_add (.inl rfl) reports)
  | executed ns orderNumber executedQty matchNumber =>
      refine iff_of_true ?_ trivial
      have result := Market.apply_executed_result market ns orderNumber executedQty matchNumber
      cases found : market.books.orders.find? orderNumber with
      | none =>
          rw [found] at result
          rw [silent (by rw [result])]
          simpa [OrderMap.apply, OrderMap.fill, found] using agree
      | some order =>
          rw [found] at result
          have delta := reports.delta
          rw [result] at delta
          apply agree.fill found (by rw [delta]; rfl) (by rw [delta]; rfl) (by rw [delta]; rfl)
          have looked : rec.delta.qty = (((market.apply (.executed ns orderNumber executedQty
              matchNumber)).1.books.orders.find? orderNumber).map Order.remainingQty).getD 0 := by
            rw [delta]
            rfl
          rw [looked, Market.apply_orders]
          rfl
  | deleted ns orderNumber =>
      refine iff_of_true ?_ trivial
      have result := Market.apply_deleted_result market ns orderNumber
      cases found : market.books.orders.find? orderNumber with
      | none =>
          rw [found] at result
          rw [silent (by rw [result])]
          have gone : OrderMap.apply market.books.orders (.deleted ns orderNumber) =
              market.books.orders := KeyedMap.erase_of_find?_eq_none found
          rwa [gone]
      | some order =>
          rw [found] at result
          rw [result] at reports
          exact agree.delete reports
  | replaced ns origOrderNumber newOrderNumber qty price =>
      refine iff_of_true ?_ trivial
      have result :=
        Market.apply_replaced_result market ns origOrderNumber newOrderNumber qty price
      cases found : market.books.orders.find? origOrderNumber with
      | none =>
          rw [found] at result
          rw [silent (by rw [result])]
          simpa [OrderMap.apply, OrderMap.replace, found] using agree
      | some order =>
          rw [found] at result
          rw [result] at reports
          exact agree.replace found reports
  | _ =>
      refine iff_of_true ?_ trivial
      rw [silent rfl]
      exact agree

/-! ## A sequence of messages -/

structure Publication where
  msg : ItchMsg
  ctx : PubContext := {}
  env : Envelope := {}

/-- The updates published for a sequence of messages: one for each that is not a `T`. -/
def updates (market : Market) : List Publication → List UpdateRecord
  | [] => []
  | publication :: later =>
      let (after, res) := market.apply publication.msg
      (if res.trigger = ascii 'T' then []
        else [makeUpdate after publication.ctx res publication.env]) ++ updates after later

def replayStep (state : Market × OrderTable) (publication : Publication) :
    Market × OrderTable :=
  ((state.1.apply publication.msg).1,
    (updates state.1 [publication]).foldl applyDelta state.2)

private theorem foldl_replayStep (publications : List Publication) (state : Market × OrderTable) :
    publications.foldl replayStep state =
      (state.1.run (publications.map Publication.msg),
        (updates state.1 publications).foldl applyDelta state.2) := by
  induction publications generalizing state with
  | nil => rfl
  | cons publication later induction =>
      rw [List.foldl_cons, induction]
      simp only [replayStep, updates, List.append_nil, List.foldl_append]
      rfl

private theorem makeUpdate_reports (market : Market) (ctx : PubContext) (res : ApplyResult)
    (env : Envelope) : Reports false market res (makeUpdate market ctx res env) where
  delta := rfl
  ticker _ := rfl
  group := by simp

private theorem replayStep_agree_iff (state : Market × OrderTable) (publication : Publication)
    (agree : Agree false state.1.books.orders state.2) :
    Agree false (replayStep state publication).1.books.orders (replayStep state publication).2 ↔
      HarmlessZero false state.1.books.orders publication.msg := by
  have trigger := Market.apply_trigger state.1 publication.msg
  by_cases clock : publication.msg.type = ascii 'T'
  · have silent : (replayStep state publication).2 = state.2 := by
      simp [replayStep, updates, trigger, clock]
    rw [silent]
    change Agree false (state.1.apply publication.msg).1.books.orders state.2 ↔ _
    rw [Market.apply_orders]
    cases message : publication.msg with
    | seconds seconds => exact iff_of_true agree trivial
    | _ => rw [message] at clock; cases clock
  · have published : (replayStep state publication).2 = applyDelta state.2
        (makeUpdate (state.1.apply publication.msg).1 publication.ctx
          (state.1.apply publication.msg).2 publication.env) := by
      simp [replayStep, updates, trigger, clock]
    rw [published]
    exact agree.apply_iff (makeUpdate_reports _ _ _ _)

/-- The orders replayed from the published deltas agree with the order store at
every point of a run exactly when no `F` with order number 0 does harm. -/
theorem published_deltas_replay_iff (publications : List Publication) :
    (∀ n, Agree false
        (Market.run {} ((publications.take n).map Publication.msg)).books.orders
        ((updates {} (publications.take n)).foldl applyDelta ∅)) ↔
      ∀ n publication, publications[n]? = some publication →
        HarmlessZero false
          (Market.run {} ((publications.take n).map Publication.msg)).books.orders
          publication.msg := by
  let good (state : Market × OrderTable) : Prop := Agree false state.1.books.orders state.2
  have start : good ({}, ∅) := Agree.empty
  have exact_run := forall_take_foldl_iff replayStep good
    (fun state publication => HarmlessZero false state.1.books.orders publication.msg)
    start publications fun state publication _ => replayStep_agree_iff state publication
  simpa only [good, foldl_replayStep] using exact_run

/-- An `F` for 100 at 1000 in book `1301` that carries order number 0. -/
def zeroAttributedPayload : Bytes :=
  [ascii 'F', 0, 0, 0, 0, 0, 0, 0, 0, 0, 0, 0, 0, ascii 'B', 0, 0, 0, 100,
    ascii '1', ascii '3', ascii '0', ascii '1', ascii 'D', ascii 'A', ascii 'Y', space,
    0, 0, 3, 232, space, space, space, space, ascii 'Q']

def zeroAttributed : ItchMsg :=
  .addAttributed
    { ns := 0, orderNumber := 0, side := ascii 'B', qty := 100
      orderbookId := CStr.copy 4 [ascii '1', ascii '3', ascii '0', ascii '1']
      group := CStr.copy 4 [ascii 'D', ascii 'A', ascii 'Y'], price := 1000 }
    .empty (ascii 'Q')

/-- The store drops it, the replayed orders keep it. -/
theorem zeroAttributed_diverges :
    decode zeroAttributedPayload = .ok zeroAttributed ∧
      (Market.run {} [zeroAttributed]).books.orders.find? 0 = none ∧
      ((updates {} [{ msg := zeroAttributed }]).foldl applyDelta ∅).find? 0 =
        some ({ orderNumber := 0
                ticker := CStr.copy 4 [ascii '1', ascii '3', ascii '0', ascii '1']
                group := CStr.copy 4 [ascii 'D', ascii 'A', ascii 'Y']
                side := ascii 'B', price := 1000, qtyRemaining := 100
                orderType := ascii 'Q' } : OrderRecord) ∧
      ¬ Agree false (Market.run {} [zeroAttributed]).books.orders
        ((updates {} [{ msg := zeroAttributed }]).foldl applyDelta ∅) := by
  have dropped : (Market.run {} [zeroAttributed]).books.orders.find? 0 = none := by decide
  refine ⟨by decide, dropped, by decide, ?_⟩
  intro agree
  have absent := agree.find?_eq_none dropped
  revert absent
  decide

end ProtoFH
