import ProtoFH.Market.Invariants
import ProtoFH.Mirror.Delta
import ProtoFH.Recovery.FullSync

/-! # Orders at a position

A position in the exchange's log stands for the orders after the messages up to it.
Publishing a message, a full sync and a recovery carry the orders of one position over
to the other side of the link. -/

namespace ProtoFH

/-- The order store after the first `count` messages of a log. -/
def ordersAfter (log : ExchangeLog) (count : Nat) : OrderMap :=
  (Market.run {} (messages (log.payloads.take count))).books.orders

@[simp] theorem ordersAfter_zero (log : ExchangeLog) : ordersAfter log 0 = ∅ := rfl

theorem ordersAfter_succ {log : ExchangeLog} {count : Nat} {payload : Bytes}
    (next : log.payloads[count]? = some payload) :
    ordersAfter log (count + 1) =
      match decode payload with
      | .error _ => ordersAfter log count
      | .ok msg => (ordersAfter log count).apply msg := by
  rw [ordersAfter, messages_take_succ next]
  cases decoded : decode payload with
  | error reason => simp [Except.toOption, ordersAfter]
  | ok msg =>
      change (Market.run {} (messages (log.payloads.take count) ++ [msg])).books.orders = _
      rw [Market.run_concat, Market.apply_orders]
      rfl

/-- The logs on which the order records of the database can be complete: names without
NUL bytes, every added order with a group, and no `F` numbered 0. -/
structure ExchangeLog.Clean (log : ExchangeLog) : Prop where
  nulFree : ∀ payload ∈ log.payloads, NulFree payload
  grouped : ∀ msg ∈ messages log.payloads, ∀ order, msg.added = some order →
    order.group ≠ .empty
  numbered : ∀ msg ∈ messages log.payloads, ∀ order attribution orderType,
    msg = .addAttributed order attribution orderType → order.orderNumber ≠ 0

def Recordable (orderbookId group : CStr 4) : Prop :=
  WireStable orderbookId group ∧ group ≠ .empty

def OrderMap.Recordable (orders : OrderMap) : Prop :=
  ∀ orderNumber order, orders.find? orderNumber = some order →
    ProtoFH.Recordable order.orderbookId order.group

namespace ExchangeLog.Clean

variable {log : ExchangeLog} (clean : log.Clean)

include clean

theorem added {payload : Bytes} {msg : ItchMsg} (member : payload ∈ log.payloads)
    (decoded : decode payload = .ok msg) {order : AddOrder} (added : msg.added = some order) :
    Recordable order.orderbookId order.group :=
  ⟨(decode_trimmed decoded (clean.nulFree payload member)).wireStable
      (ItchMsg.book?_of_added added),
    clean.grouped msg (mem_messages.mpr ⟨payload, member, decoded⟩) order added⟩

theorem harmless {payload : Bytes} {msg : ItchMsg} (member : payload ∈ log.payloads)
    (decoded : decode payload = .ok msg) (orders : OrderMap) : HarmlessZero true orders msg := by
  cases msg with
  | addAttributed order attribution orderType =>
      intro zero
      exact absurd zero (clean.numbered _ (mem_messages.mpr ⟨payload, member, decoded⟩) _ _ _ rfl)
  | _ => trivial

theorem recordable (count : Nat) : (ordersAfter log count).Recordable := by
  induction count with
  | zero =>
      intro orderNumber order found
      simp at found
  | succ count induction =>
      cases next : log.payloads[count]? with
      | none =>
          have ended : log.payloads.take (count + 1) = log.payloads.take count := by
            rw [List.take_add_one, next]
            simp
          rw [ordersAfter, ended]
          exact induction
      | some payload =>
          rw [ordersAfter_succ next]
          cases decoded : decode payload with
          | error reason => exact induction
          | ok msg =>
              intro orderNumber order found
              rcases OrderMap.apply_origin found with
                ⟨number, old, live, id, group⟩ | ⟨add, isAdd, id, group⟩
              · rw [← id, ← group]
                exact induction number old live
              · rw [← id, ← group]
                exact clean.added (List.mem_of_getElem? next) decoded isAdd

end ExchangeLog.Clean

/-! ## Publishing -/

theorem Market.apply_delta_origin {market : Market} {msg : ItchMsg}
    (reported : (market.apply msg).2.delta.isSome) :
    (∃ orderNumber order, market.books.orders.find? orderNumber = some order ∧
        order.orderbookId = (market.apply msg).2.ticker ∧
        order.group = (market.apply msg).2.group) ∨
      ∃ added, msg.added = some added ∧ added.orderbookId = (market.apply msg).2.ticker ∧
        added.group = (market.apply msg).2.group := by
  cases msg with
  | addOrder order =>
      right
      refine ⟨order, rfl, ?_⟩
      rw [apply_addOrder_result]
      split <;> exact ⟨rfl, rfl⟩
  | addAttributed order attribution orderType => exact .inr ⟨order, rfl, rfl, rfl⟩
  | executed ns orderNumber executedQty matchNumber =>
      rw [apply_executed_result] at reported ⊢
      cases found : market.books.orders.find? orderNumber with
      | none => rw [found] at reported; cases reported
      | some order => exact .inl ⟨orderNumber, order, found, rfl, rfl⟩
  | deleted ns orderNumber =>
      rw [apply_deleted_result] at reported ⊢
      cases found : market.books.orders.find? orderNumber with
      | none => rw [found] at reported; cases reported
      | some order => exact .inl ⟨orderNumber, order, found, rfl, rfl⟩
  | replaced ns origOrderNumber newOrderNumber qty price =>
      rw [apply_replaced_result] at reported ⊢
      cases found : market.books.orders.find? origOrderNumber with
      | none => rw [found] at reported; cases reported
      | some order => exact .inl ⟨origOrderNumber, order, found, rfl, rfl⟩
  | _ => cases reported

theorem updateFor_reports {fh : Fh} {msg : ItchMsg}
    (recordable : fh.market.books.orders.Recordable)
    (added : ∀ order, msg.added = some order → Recordable order.orderbookId order.group)
    (seq : UInt64) :
    Reports true (fh.market.apply msg).1 (fh.market.apply msg).2 (fh.updateFor seq msg).wired := by
  have named (reported : (fh.market.apply msg).2.delta.isSome) :
      Recordable (fh.market.apply msg).2.ticker (fh.market.apply msg).2.group := by
    rcases Market.apply_delta_origin reported with
      ⟨orderNumber, order, live, id, group⟩ | ⟨order, isAdd, id, group⟩
    · rw [← id, ← group]
      exact recordable orderNumber order live
    · rw [← id, ← group]
      exact added order isAdd
  refine ⟨rfl, fun reported => (named reported).1.1, fun _ reported => ?_⟩
  have published : (fh.updateFor seq msg).wired.envelope.group =
      (publishedGroup (byTicker (fh.market.apply msg).1.refdata.instruments
        (fh.market.apply msg).2.ticker) (fh.market.apply msg).2).trimmed := rfl
  have own (inst : Option Instrument) :
      publishedGroup inst (fh.market.apply msg).2 = (fh.market.apply msg).2.group := by
    cases inst with
    | none => rfl
    | some inst => exact if_neg (named reported).2
  rw [published, own]
  exact (named reported).1.2

/-! ## Syncing and recovering -/

theorem synced_agree {fh : Fh} (recordable : fh.market.books.orders.Recordable)
    (prior : Tables) : Agree true fh.market.books.orders (fh.synced prior).orders := by
  intro orderNumber
  rw [Fh.synced_order, Option.map_map]
  cases found : fh.market.books.orders.find? orderNumber with
  | none => rfl
  | some order =>
      rcases recordable orderNumber order found with ⟨⟨id, group⟩, -⟩
      simp only [Option.map_some, Function.comp_apply, OrderRecord.wired, OrderRecord.view,
        Order.toRecord, id, group, if_true]

theorem restored_orders {tables : Tables} {orders : OrderMap} (recordable : orders.Recordable)
    (agree : Agree true orders tables.orders) :
    tables.restored.market.books.orders = orders := by
  apply KeyedMap.ext_find?
  intro orderNumber
  rw [Tables.restored_order]
  cases found : orders.find? orderNumber with
  | none => rw [agree.find?_eq_none found]; rfl
  | some order =>
      rcases agree.find?_eq_some found with ⟨rec, stored, view⟩
      have equal : rec = order.toRecord := view
      rcases recordable orderNumber order found with ⟨⟨id, group⟩, -⟩
      rw [stored, equal]
      simp only [Option.map_some, OrderRecord.wired, Order.toRecord, OrderRecord.toOrder, id, group]

end ProtoFH
