import ProtoFH.Prototype.Levels

/-! # Labels

Groups, ISINs and attributions are stored and handed on, but never looked at. Messages that
differ only in them leave orders that differ only in their groups. -/

namespace ProtoFH.Prototype

section Messages

variable (change : Text → Text)

def OrderAdded.relabel (order : OrderAdded) : OrderAdded :=
  { order with group := change order.group }

def OrderbookDirectory.relabel (entry : OrderbookDirectory) : OrderbookDirectory :=
  { entry with isin := change entry.isin, group := change entry.group }

def Message.relabel : Message → Message
  | .systemEvent ns group event => .systemEvent ns (change group) event
  | .orderbookDirectory entry => .orderbookDirectory (entry.relabel change)
  | .tradingState ns orderbookId group state => .tradingState ns orderbookId (change group) state
  | .shortSellRestriction ns orderbookId group state =>
      .shortSellRestriction ns orderbookId (change group) state
  | .orderAdded order => .orderAdded (order.relabel change)
  | .orderAddedWithAttributes order attribution orderType =>
      .orderAddedWithAttributes (order.relabel change) (change attribution) orderType
  | msg => msg

end Messages

theorem Message.relabel_id (msg : Message) : msg.relabel id = msg := by cases msg <;> rfl

def Message.unlabelled (msg : Message) : Message := msg.relabel fun _ => []

def Order.unlabelled (order : Order) : Order := { order with group := [] }

namespace Orders

def Alike (orders other : Orders) : Prop :=
  ∀ orderNumber, (orders.find? orderNumber).map Order.unlabelled =
    (other.find? orderNumber).map Order.unlabelled

namespace Alike

theorem refl (orders : Orders) : orders.Alike orders := fun _ => rfl

variable {orders other : Orders} (alike : orders.Alike other)
include alike

theorem cases (orderNumber : Nat) :
    orders.find? orderNumber = none ∧ other.find? orderNumber = none ∨
      ∃ order group, orders.find? orderNumber = some order ∧
        other.find? orderNumber = some { order with group } := by
  have same := alike orderNumber
  cases found : orders.find? orderNumber with
  | none =>
      rw [found, Option.map_none, eq_comm, Option.map_eq_none_iff] at same
      exact .inl ⟨rfl, same⟩
  | some order =>
      rw [found, Option.map_some, eq_comm, Option.map_eq_some_iff] at same
      obtain ⟨held, present, equal⟩ := same
      simp only [Order.unlabelled, Order.mk.injEq] at equal
      obtain ⟨number, orderbookId, -, side, price, remainingQty⟩ := equal
      refine .inr ⟨order, held.group, rfl, ?_⟩
      rw [present, ← number, ← orderbookId, ← side, ← price, ← remainingQty]

theorem keyed (keyed : other.Keyed) : orders.Keyed := by
  intro orderNumber order found
  rcases alike.cases orderNumber with ⟨absent, -⟩ | ⟨held, group, present, view⟩
  · rw [absent] at found
    cases found
  · rw [present] at found
    cases found
    have number := keyed orderNumber _ view
    exact number

theorem erase (orderNumber : Nat) : Alike (orders.erase orderNumber) (other.erase orderNumber) := by
  intro number
  rw [Dict.find?_erase, Dict.find?_erase]
  split
  · rfl
  · exact alike number

theorem set (orderNumber : Nat) (order : Order) (group : Text) :
    Alike (orders.set orderNumber order) (other.set orderNumber { order with group }) := by
  intro number
  rw [Dict.find?_set, Dict.find?_set]
  split
  · rfl
  · exact alike number

theorem take (order : Order) (group : Text) (qty : Nat) :
    Alike (orders.take ⟨order, qty⟩) (other.take ⟨{ order with group }, qty⟩) := by
  rw [Orders.take, Orders.take]
  change Alike _ (if Taking.left ⟨order, qty⟩ = 0 then _ else _)
  split
  · exact alike.erase _
  · exact alike.set _ _ group

theorem apply (msg : Message) : (orders.apply msg).Alike (other.apply msg.unlabelled) := by
  have place (order : OrderAdded) : (orders.place order).Alike
      (other.place (order.relabel fun _ => [])) := by
    rw [Orders.place, Orders.place]
    change Alike _ (if order.orderNumber = 0 then _ else _)
    split
    · exact alike
    · exact (alike.erase _).set _ _ []
  cases msg with
  | orderAdded order | orderAddedWithAttributes order attribution orderType => exact place order
  | orderExecuted ns orderNumber executedQty matchNumber =>
      change Alike (orders.fill orderNumber executedQty) (other.fill orderNumber executedQty)
      rw [fill, fill]
      rcases alike.cases orderNumber with ⟨absent, gone⟩ | ⟨order, group, found, present⟩
      · rw [absent, gone]
        exact alike
      · rw [found, present]
        exact alike.take order group _
  | orderDeleted ns orderNumber =>
      change Alike _ (Orders.apply other (.orderDeleted ns orderNumber))
      rw [Orders.apply, Orders.apply]
      rcases alike.cases orderNumber with ⟨absent, gone⟩ | ⟨order, group, found, present⟩
      · rw [absent, gone]
        exact alike
      · rw [found, present]
        exact alike.erase _
  | orderReplaced ns origOrderNumber newOrderNumber qty price =>
      change Alike (orders.replace origOrderNumber newOrderNumber qty price)
        (other.replace origOrderNumber newOrderNumber qty price)
      rw [replace, replace]
      rcases alike.cases origOrderNumber with ⟨absent, gone⟩ | ⟨orig, group, found, present⟩
      · rw [absent, gone]
        exact alike
      · rw [found, present]
        exact ((alike.erase _).erase _).set _ _ group
  | _ => exact alike

theorem execution (msg : Message) :
    (orders.execution msg).map (fun execution => (execution.orderbookId, execution.price)) =
      (other.execution msg.unlabelled).map fun execution =>
        (execution.orderbookId, execution.price) := by
  cases msg with
  | orderExecuted ns orderNumber executedQty matchNumber =>
      change _ = (Orders.execution other (.orderExecuted ns orderNumber executedQty _)).map _
      rw [Orders.execution, Orders.execution]
      rcases alike.cases orderNumber with ⟨absent, gone⟩ | ⟨order, group, found, present⟩
      · rw [absent, gone]
      · rw [found, present]
        rfl
  | _ => rfl

end Alike

end Orders

end ProtoFH.Prototype
