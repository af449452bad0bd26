import Mathlib.Logic.Function.Basic
import ProtoFH.Foundation.Iteration
import ProtoFH.Web.Sending

/-! # The WebSocket hub

`WsHub` keeps the connected clients in a list and walks over it to hand out updates and
restart banners. A client that is dropped meanwhile leaves the list that is being walked
over. -/

namespace ProtoFH.Web

structure Callback where
  id : Nat
  before : Client
  event : ClientEvent

/-- `WsHub`: the connected clients in order, by identities that are given out once, the
objects they stand for, and the callbacks that were made on them. -/
structure Hub where
  clients : List Nat
  objects : Nat → Client
  next : Nat
  calls : List Callback
  distinct : clients.Nodup
  issued : ∀ id ∈ clients, id < next

namespace Hub

def empty : Hub where
  clients := []
  objects _ := {}
  next := 0
  calls := []
  distinct := List.nodup_nil
  issued _ member := absurd member List.not_mem_nil

private theorem distinct_attach (hub : Hub) : (hub.clients ++ [hub.next]).Nodup := by
  refine List.nodup_append.mpr ⟨hub.distinct, List.nodup_singleton _, fun id member other new => ?_⟩
  rw [List.mem_singleton.mp new]
  exact Nat.ne_of_lt (hub.issued id member)

theorem issued_attach (hub : Hub) : ∀ id ∈ hub.clients ++ [hub.next], id < hub.next + 1 := by
  intro id member
  rcases List.mem_append.mp member with old | new
  · exact Nat.lt_succ_of_lt (hub.issued id old)
  · rw [List.mem_singleton.mp new]
    exact Nat.lt_succ_self _

def attach (hub : Hub) : Hub where
  clients := hub.clients ++ [hub.next]
  objects := Function.update hub.objects hub.next {}
  next := hub.next + 1
  calls := hub.calls
  distinct := hub.distinct_attach
  issued := hub.issued_attach

def remove (hub : Hub) (id : Nat) : Hub where
  clients := hub.clients.erase id
  objects := hub.objects
  next := hub.next
  calls := hub.calls
  distinct := hub.distinct.erase id
  issued other member := hub.issued other (List.mem_of_mem_erase member)

variable (json : Json)

def call (hub : Hub) (id : Nat) (event : ClientEvent) : Hub :=
  let before := hub.objects id
  let after := before.step json event
  let called :=
    { hub with
      objects := Function.update hub.objects id after
      calls := hub.calls ++ [⟨id, before, event⟩] }
  if after.tornDown && !before.tornDown then called.remove id else called

theorem objects_call (hub : Hub) (id other : Nat) (event : ClientEvent) :
    (hub.call json id event).objects other =
      if other = id then (hub.objects id).step json event else hub.objects other := by
  rw [call, ← Function.update_apply]
  split <;> rfl

theorem calls_call (hub : Hub) (id : Nat) (event : ClientEvent) :
    (hub.call json id event).calls = hub.calls ++ [⟨id, hub.objects id, event⟩] := by
  rw [call]
  split <;> rfl

theorem next_call (hub : Hub) (id : Nat) (event : ClientEvent) :
    (hub.call json id event).next = hub.next := by
  rw [call]
  split <;> rfl

private theorem clients_call (hub : Hub) (id : Nat) (event : ClientEvent) :
    (hub.call json id event).clients =
      if ((hub.objects id).step json event).tornDown && !(hub.objects id).tornDown then
        hub.clients.erase id
      else hub.clients := by
  rw [call]
  split <;> rfl

/-! ## Walks over the clients -/

abbrev Offer := Nat → Client → Option ClientEvent

def answered (offer : Offer) (id : Nat) (client : Client) : Client :=
  match offer id client with
  | none => client
  | some event => client.step json event

def visit (offer : Offer) (hub : Hub) (id : Nat) : Hub :=
  match offer id (hub.objects id) with
  | none => hub
  | some event => hub.call json id event

private theorem objects_visit (offer : Offer) (hub : Hub) (id other : Nat) :
    (hub.visit json offer id).objects other =
      if other = id then answered json offer id (hub.objects id) else hub.objects other := by
  rw [visit, answered]
  split
  · split
    · next same => rw [same]
    · rfl
  · exact hub.objects_call json id other _

private theorem clients_visit (offer : Offer) (hub : Hub) (id : Nat) :
    (hub.visit json offer id).clients =
      if (answered json offer id (hub.objects id)).tornDown && !(hub.objects id).tornDown then
        hub.clients.erase id
      else hub.clients := by
  rw [visit, answered]
  split
  · rw [Bool.and_not_self]
    rfl
  · exact hub.clients_call json id _

/-- `for client in self.clients` -/
def loop (offer : Offer) : LocalLoop Hub Nat Client where
  items := clients
  view := objects
  act := visit json offer
  change := answered json offer
  drops id client := (answered json offer id client).tornDown && !client.tornDown
  items_act := clients_visit json offer
  view_act := objects_visit json offer

/-- `on_ticker_update` calls `queue_update` on the subscribers. Without a snapshot it returns
at the first of them. `clock` gives the readings during the call of each client. -/
def offerUpdate (ticker : Text) (snap : Option Reply) (clock : Nat → Time × Time) : Offer :=
  fun id client =>
    if client.subscribed = some ticker then
      snap.map fun snap => .update ticker snap (clock id).1 (clock id).2
    else none

def onTickerUpdate (hub : Hub) (state : State) (ticker : Text) (clock : Nat → Time × Time) : Hub :=
  (loop json (offerUpdate ticker (state.lookup ticker) clock)).run hub

def offerEvent (event : Reply) : Offer := fun _ _ => some (.event event)

def onRestart (hub : Hub) (epoch : Nat) : Hub :=
  (loop json (offerEvent (.restarted epoch))).run hub

end Hub

end ProtoFH.Web
