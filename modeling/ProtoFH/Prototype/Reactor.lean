import ProtoFH.Foundation.Dictionary
import ProtoFH.Foundation.Execution

/-! # The reactor

The event loop that drives the sockets of the Python programs. The loop goes through a
batch of events that the selector returned before any of their callbacks ran, and finds
the callbacks in the `_SocketState` that the selector's key holds. Sockets are open when
they are given to the reactor. What a callback does apart from calling the reactor, and
the times at which timers are due, are left open: a run is any list of steps. -/

namespace ProtoFH.Prototype

inductive EventKind where
  | read
  | write
deriving DecidableEq

structure SocketState (α : Type) where
  readCb : Option α := none
  writeCb : Option α := none

def SocketState.callback (state : SocketState α) : EventKind → Option α
  | .read => state.readCb
  | .write => state.writeCb

structure EventMask where
  read : Bool
  write : Bool

def EventMask.inter (mask other : EventMask) : EventMask where
  read := mask.read && other.read
  write := mask.write && other.write

/-- The selector's key of a socket; `data` is the number of a `_SocketState`. -/
structure SelectorKey where
  events : EventMask
  data : Nat

structure DueEvent (σ : Type) where
  sock : σ
  data : Nat
  kind : EventKind

inductive ReactorEntry (σ α : Type) where
  | registered (sock : σ)
  | unregistered (sock : σ)
  | invoked (sock : σ) (callback : α)
deriving DecidableEq

section Log

variable {σ α : Type}

namespace Reactor

/-- `unregister` was called for the socket, and it has not been registered since. -/
def Unregistered (log : List (ReactorEntry σ α)) (sock : σ) : Prop :=
  Since (fun _ entry => entry = .unregistered sock) (fun _ entry => entry = .registered sock) log

/-- No callback of a socket is invoked after `unregister`, unless it was registered again. -/
def Clean (log : List (ReactorEntry σ α)) : Prop :=
  ∀ n entry, log[n]? = some entry → ∀ sock callback, entry = .invoked sock callback →
    ¬ Unregistered (log.take n) sock

theorem unregistered_concat {log : List (ReactorEntry σ α)} {entry : ReactorEntry σ α} {sock : σ} :
    Unregistered (log ++ [entry]) sock ↔
      entry = .unregistered sock ∨ (Unregistered log sock ∧ entry ≠ .registered sock) :=
  since_concat_iff

private theorem not_unregistered_registered (log : List (ReactorEntry σ α)) (sock : σ) :
    ¬ Unregistered (log ++ [.registered sock]) sock := by
  rw [unregistered_concat]
  simp

theorem unregistered_concat_invoked {log : List (ReactorEntry σ α)} {other sock : σ}
    {callback : α} :
    Unregistered (log ++ [.invoked other callback]) sock ↔ Unregistered log sock := by
  rw [unregistered_concat]
  simp

theorem clean_concat {log : List (ReactorEntry σ α)} {entry : ReactorEntry σ α} :
    Clean (log ++ [entry]) ↔
      Clean log ∧ ∀ sock callback, entry = .invoked sock callback → ¬ Unregistered log sock :=
  @forall_getElem?_concat_iff _
    (fun earlier entry => ∀ (sock : σ) (callback : α),
      entry = ReactorEntry.invoked sock callback → ¬ Unregistered earlier sock) log entry

end Reactor

end Log

/-- `Reactor`. `objects` are all `_SocketState` objects in the order they were made, `batch`
is what the loop of `run` has not looked at yet. -/
structure Reactor (σ α : Type) where
  objects : List (SocketState α) := []
  states : Dict σ Nat := ∅
  selector : Dict σ SelectorKey := ∅
  running : Bool := false
  batch : List (DueEvent σ) := []
  log : List (ReactorEntry σ α) := []

/-- The arguments of `_set_interest`: `None`, `False` or a callback. -/
inductive Interest (α : Type) where
  | keep
  | clear
  | call (callback : α)

def Interest.update : Interest α → Option α → Option α
  | .keep, current => current
  | .clear, _ => none
  | .call callback, _ => some callback

inductive ReactorCall (σ α : Type) where
  | registerRead (sock : σ) (callback : α)
  | registerWrite (sock : σ) (callback : α)
  | unregisterRead (sock : σ)
  | unregisterWrite (sock : σ)
  | unregister (sock : σ)
  | stop

/-- The socket is passed to `register_read` or `register_write`. -/
def ReactorCall.Registers (sock : σ) : ReactorCall σ α → Prop
  | .registerRead other _ => other = sock
  | .registerWrite other _ => other = sock
  | _ => False

namespace Reactor

variable {σ α : Type} [DecidableEq σ]

def note (reactor : Reactor σ α) (entry : ReactorEntry σ α) : Reactor σ α :=
  { reactor with log := reactor.log ++ [entry] }

def object (reactor : Reactor σ α) (data : Nat) : SocketState α := reactor.objects.getD data {}

/-- The `_SocketState` of a socket, made if there is none. -/
def stateOf (reactor : Reactor σ α) (sock : σ) : Reactor σ α × Nat :=
  match reactor.states.find? sock with
  | some data => (reactor, data)
  | none =>
      let data := reactor.objects.length
      ({ reactor with
          objects := reactor.objects ++ [{}]
          states := reactor.states.set sock data }, data)

def setInterest (reactor : Reactor σ α) (sock : σ) (readCb writeCb : Interest α) : Reactor σ α :=
  let (reactor, data) := reactor.stateOf sock
  let state : SocketState α :=
    { readCb := readCb.update (reactor.object data).readCb
      writeCb := writeCb.update (reactor.object data).writeCb }
  let mask : EventMask := { read := state.readCb.isSome, write := state.writeCb.isSome }
  let changed :=
    { reactor with
      objects := reactor.objects.set data state
      selector := reactor.selector.erase sock }
  if mask.read = false ∧ mask.write = false then
    { changed with states := reactor.states.erase sock }
  else { changed with selector := changed.selector.set sock { events := mask, data } }

def unregister (reactor : Reactor σ α) (sock : σ) : Reactor σ α :=
  match reactor.states.find? sock with
  | none => reactor
  | some _ =>
      { reactor with
        states := reactor.states.erase sock
        selector := reactor.selector.erase sock }

def perform (reactor : Reactor σ α) : ReactorCall σ α → Reactor σ α
  | .registerRead sock callback =>
      (reactor.note (.registered sock)).setInterest sock (.call callback) .keep
  | .registerWrite sock callback =>
      (reactor.note (.registered sock)).setInterest sock .keep (.call callback)
  | .unregisterRead sock => reactor.setInterest sock .clear .keep
  | .unregisterWrite sock => reactor.setInterest sock .keep .clear
  | .unregister sock => (reactor.note (.unregistered sock)).unregister sock
  | .stop => { reactor with running := false }

def performAll (reactor : Reactor σ α) (calls : List (ReactorCall σ α)) : Reactor σ α :=
  calls.foldl perform reactor

/-- The events that `select` returns for the sockets that are ready, with the bits of each
in the order in which the loop looks at them. -/
def ready (reactor : Reactor σ α) (events : List (σ × EventMask)) : List (DueEvent σ) :=
  events.flatMap fun (sock, mask) =>
    match reactor.selector.find? sock with
    | none => []
    | some key =>
        let bits := mask.inter key.events
        (if bits.read then [{ sock, data := key.data, kind := .read }] else []) ++
          if bits.write then [{ sock, data := key.data, kind := .write }] else []

/-- The end of a callback: an exception leaves `run`, and so does the loop once `stop` was
called. -/
def leave (reactor : Reactor σ α) (raises : Bool) : Reactor σ α :=
  if raises ∨ reactor.running = false then { reactor with batch := [] } else reactor

/-- The next event of the batch. If the callback is set in the object of the key, it is
called and makes the given calls. -/
def dispatch (reactor : Reactor σ α) (calls : List (ReactorCall σ α)) (raises : Bool) :
    Reactor σ α :=
  match reactor.batch with
  | [] => reactor
  | due :: batch =>
      match (reactor.object due.data).callback due.kind with
      | none => { reactor with batch }
      | some callback =>
          (({ reactor with batch }.note (.invoked due.sock callback)).performAll calls).leave
            raises

/-- The steps of a run: calls of the reactor outside a batch (before `run`, or by a timer
that is due), `run`, a batch, and the next event of the batch. -/
inductive Step (σ α : Type) where
  | outside (calls : List (ReactorCall σ α))
  | run
  | select (events : List (σ × EventMask))
  | dispatch (calls : List (ReactorCall σ α)) (raises : Bool)

def step (reactor : Reactor σ α) : Step σ α → Reactor σ α
  | .outside calls => if reactor.batch.isEmpty then reactor.performAll calls else reactor
  | .run => if reactor.batch.isEmpty then { reactor with running := true } else reactor
  | .select events =>
      if reactor.batch.isEmpty ∧ reactor.running then
        { reactor with batch := reactor.ready events }
      else reactor
  | .dispatch calls raises => reactor.dispatch calls raises

def after (steps : List (Step σ α)) : Reactor σ α := steps.foldl step {}

def finish (reactor : Reactor σ α) : Reactor σ α :=
  (fun reactor => reactor.dispatch [] false)^[reactor.batch.length] reactor

/-! ## Invariants -/

def Kept (reactor : Reactor σ α) : Prop :=
  ∀ due ∈ reactor.batch, Unregistered reactor.log due.sock →
    (reactor.object due.data).callback due.kind = none

/-- The selector knows only sockets that have a state, and those are not unregistered. A
`_SocketState` is that of one socket only, and an event in the batch holds that of its own. -/
structure Sound (reactor : Reactor σ α) : Prop where
  keyed : ∀ sock key, reactor.selector.find? sock = some key →
    reactor.states.find? sock = some key.data
  known : ∀ sock, (reactor.states.find? sock).isSome → ¬ Unregistered reactor.log sock
  bound : ∀ sock data, reactor.states.find? sock = some data → data < reactor.objects.length
  injective : ∀ sock other data, reactor.states.find? sock = some data →
    reactor.states.find? other = some data → sock = other
  held : ∀ due ∈ reactor.batch, due.data < reactor.objects.length
  owned : ∀ due ∈ reactor.batch, ∀ sock, reactor.states.find? sock = some due.data →
    sock = due.sock

def Resting (reactor : Reactor σ α) : Prop := reactor.running = false → reactor.batch = []

/-- What a call may do to the tables of the reactor: to those of one socket, and to no object
that is another's or nobody's. -/
structure Touches (before after : Reactor σ α) (sock : σ) : Prop where
  batch : after.batch = before.batch
  others : ∀ other, sock ≠ other →
    after.states.find? other = before.states.find? other ∧
      after.selector.find? other = before.selector.find? other
  keyed : ∀ key, after.selector.find? sock = some key → after.states.find? sock = some key.data
  own : ∀ data, after.states.find? sock = some data → data < after.objects.length ∧
    (before.states.find? sock = some data ∨ before.objects.length ≤ data)
  grows : before.objects.length ≤ after.objects.length
  object : ∀ data, data < before.objects.length → before.states.find? sock ≠ some data →
    after.object data = before.object data

variable {sock : σ}

theorem Touches.of_note {before after : Reactor σ α} {entry : ReactorEntry σ α}
    (touches : Touches (before.note entry) after sock) : Touches before after sock :=
  ⟨touches.batch, touches.others, touches.keyed, touches.own, touches.grows, touches.object⟩

variable {reactor : Reactor σ α}

theorem touches_setInterest (sock : σ) (readCb writeCb : Interest α)
    (bound : ∀ data, reactor.states.find? sock = some data → data < reactor.objects.length) :
    Touches reactor (reactor.setInterest sock readCb writeCb) sock := by
  have set_other {objects : List (SocketState α)} {data other : Nat} {state : SocketState α}
      (different : data ≠ other) :
      (objects.set data state).getD other {} = objects.getD other {} := by
    rw [List.getD_eq_getElem?_getD, List.getD_eq_getElem?_getD, List.getElem?_set_ne different]
  cases found : reactor.states.find? sock with
  | some data =>
      have isState : reactor.stateOf sock = (reactor, data) := by rw [stateOf, found]
      have inside := bound data found
      rw [setInterest, isState]
      dsimp only
      split
      · refine ⟨rfl, fun other different => ⟨?_, ?_⟩, ?_, ?_, (List.length_set ..).ge, ?_⟩
        · exact (Dict.find?_erase ..).trans (if_neg different)
        · exact (Dict.find?_erase ..).trans (if_neg different)
        · simp
        · simp
        · exact fun other _ different => set_other fun same => different (same ▸ found)
      · refine ⟨rfl, fun other different => ⟨rfl, ?_⟩, ?_, ?_, (List.length_set ..).ge, ?_⟩
        · rw [Dict.find?_set, if_neg different, Dict.find?_erase, if_neg different]
        · intro key isKey
          rw [Dict.find?_set, if_pos rfl] at isKey
          cases isKey
          exact found
        · intro other isState
          rw [found] at isState
          cases isState
          exact ⟨by rw [List.length_set]; exact inside, .inl found⟩
        · exact fun other _ different => set_other fun same => different (same ▸ found)
  | none =>
      let made : Reactor σ α :=
        { reactor with
          objects := reactor.objects ++ [{}]
          states := reactor.states.set sock reactor.objects.length }
      have isState : reactor.stateOf sock = (made, reactor.objects.length) := by
        rw [stateOf, found]
      have length (state : SocketState α) :
          (made.objects.set reactor.objects.length state).length = reactor.objects.length + 1 := by
        rw [List.length_set, List.length_append]
        rfl
      have object (state : SocketState α) (data : Nat) (inside : data < reactor.objects.length) :
          (made.objects.set reactor.objects.length state).getD data {} = reactor.object data := by
        rw [set_other (Nat.ne_of_gt inside), List.getD_eq_getElem?_getD,
          List.getElem?_append_left inside]
        exact (List.getD_eq_getElem?_getD ..).symm
      rw [setInterest, isState]
      dsimp only
      split
      · refine ⟨rfl, fun other different => ⟨?_, ?_⟩, ?_, ?_, ?_, ?_⟩
        · rw [Dict.find?_erase, if_neg different]
          exact (Dict.find?_set ..).trans (if_neg different)
        · exact (Dict.find?_erase ..).trans (if_neg different)
        · simp
        · simp
        · exact (Nat.le_succ _).trans_eq (length _).symm
        · exact fun data inside _ => object _ data inside
      · refine ⟨rfl, fun other different => ⟨?_, ?_⟩, ?_, ?_, ?_, ?_⟩
        · exact (Dict.find?_set ..).trans (if_neg different)
        · rw [Dict.find?_set, if_neg different]
          exact (Dict.find?_erase ..).trans (if_neg different)
        · intro key isKey
          rw [Dict.find?_set, if_pos rfl] at isKey
          cases isKey
          exact (Dict.find?_set ..).trans (if_pos rfl)
        · intro data isState
          have same : (reactor.states.set sock reactor.objects.length).find? sock = some data :=
            isState
          rw [Dict.find?_set, if_pos rfl] at same
          cases same
          exact ⟨(Nat.lt_succ_self _).trans_eq (length _).symm, .inr le_rfl⟩
        · exact (Nat.le_succ _).trans_eq (length _).symm
        · exact fun data inside _ => object _ data inside

theorem setInterest_frame (reactor : Reactor σ α) (sock : σ) (readCb writeCb : Interest α) :
    (reactor.setInterest sock readCb writeCb).log = reactor.log ∧
      (reactor.setInterest sock readCb writeCb).batch = reactor.batch ∧
      (reactor.setInterest sock readCb writeCb).running = reactor.running := by
  rw [setInterest, stateOf]
  cases reactor.states.find? sock with
  | some data | none =>
      dsimp only
      split <;> exact ⟨rfl, rfl, rfl⟩

private theorem setInterest_known {readCb writeCb : Interest α}
    (known : ((reactor.setInterest sock readCb writeCb).states.find? sock).isSome) :
    (reactor.states.find? sock).isSome ∨
      (readCb.update none).isSome ∨ (writeCb.update none).isSome := by
  cases found : reactor.states.find? sock with
  | some data => exact .inl rfl
  | none =>
      right
      have empty : (reactor.objects ++ [({} : SocketState α)]).getD reactor.objects.length {} =
          {} := by simp
      rw [setInterest, stateOf, found] at known
      dsimp only [object] at known
      rw [empty] at known
      split at known
      · simp at known
      · next someCallback =>
          rw [not_and_or, Bool.not_eq_false, Bool.not_eq_false] at someCallback
          exact someCallback

theorem touches_unregister (reactor : Reactor σ α)
    (keyed : ∀ key, reactor.selector.find? sock = some key →
      reactor.states.find? sock = some key.data) :
    Touches reactor (reactor.unregister sock) sock := by
  rw [unregister]
  cases found : reactor.states.find? sock with
  | none =>
      refine ⟨rfl, fun _ _ => ⟨rfl, rfl⟩, keyed, ?_, le_rfl, fun _ _ _ => rfl⟩
      intro data isState
      rw [found] at isState
      cases isState
  | some data =>
      refine ⟨rfl, fun other different => ⟨?_, ?_⟩, ?_, ?_, le_rfl, fun _ _ _ => rfl⟩
      · exact (Dict.find?_erase ..).trans (if_neg different)
      · exact (Dict.find?_erase ..).trans (if_neg different)
      · simp
      · simp

theorem Sound.touched {before after : Reactor σ α} (sound : before.Sound)
    (touches : Touches before after sock)
    (known : ∀ other, (after.states.find? other).isSome → ¬ Unregistered after.log other) :
    after.Sound := by
  -- what another socket had it has still, and what the socket itself has is its own or new
  have either (other : σ) (data : Nat) (isState : after.states.find? other = some data) :
      before.states.find? other = some data ∨
        other = sock ∧ before.objects.length ≤ data ∧ data < after.objects.length := by
    by_cases same : sock = other
    · subst same
      obtain ⟨inside, already | new⟩ := touches.own data isState
      · exact .inl already
      · exact .inr ⟨rfl, new, inside⟩
    · rw [(touches.others other same).1] at isState
      exact .inl isState
  refine ⟨?_, known, ?_, ?_, ?_, ?_⟩
  · intro other key isKey
    by_cases same : sock = other
    · subst same
      exact touches.keyed key isKey
    · rw [(touches.others other same).2] at isKey
      rw [(touches.others other same).1]
      exact sound.keyed other key isKey
  · intro other data isState
    rcases either other data isState with already | ⟨-, -, inside⟩
    · exact (sound.bound other data already).trans_le touches.grows
    · exact inside
  · intro first second data isFirst isSecond
    rcases either first data isFirst with oldFirst | ⟨rfl, new, -⟩
    · rcases either second data isSecond with oldSecond | ⟨rfl, new, -⟩
      · exact sound.injective first second data oldFirst oldSecond
      · exact absurd (sound.bound first data oldFirst) (Nat.not_lt.mpr new)
    · rcases either second data isSecond with oldSecond | ⟨rfl, -, -⟩
      · exact absurd (sound.bound second data oldSecond) (Nat.not_lt.mpr new)
      · rfl
  · intro due member
    rw [touches.batch] at member
    exact (sound.held due member).trans_le touches.grows
  · intro due member other isState
    rw [touches.batch] at member
    rcases either other due.data isState with already | ⟨-, new, -⟩
    · exact sound.owned due member other already
    · exact absurd (sound.held due member) (Nat.not_lt.mpr new)

theorem Sound.of_tables {before after : Reactor σ α} (sound : before.Sound)
    (objects : after.objects = before.objects) (states : after.states = before.states)
    (selector : after.selector = before.selector)
    (batch : ∀ due ∈ after.batch, due ∈ before.batch)
    (log : ∀ sock, Unregistered after.log sock → Unregistered before.log sock) : after.Sound := by
  refine ⟨?_, ?_, ?_, ?_, ?_, ?_⟩
  · rw [selector, states]
    exact sound.keyed
  · rw [states]
    exact fun sock known => mt (log sock) (sound.known sock known)
  · rw [states, objects]
    exact sound.bound
  · rw [states]
    exact sound.injective
  · rw [objects]
    exact fun due member => sound.held due (batch due member)
  · rw [states]
    exact fun due member => sound.owned due (batch due member)

theorem Sound.note_registered (sound : reactor.Sound) (sock : σ) :
    (reactor.note (.registered sock)).Sound := by
  refine sound.of_tables rfl rfl rfl (fun _ => id) fun other unregistered => ?_
  rcases unregistered_concat.mp unregistered with same | ⟨before, -⟩
  · cases same
  · exact before

theorem Sound.setInterest (sound : reactor.Sound) (sock : σ) (readCb writeCb : Interest α)
    (allowed : (readCb.update none).isSome ∨ (writeCb.update none).isSome →
      ¬ Unregistered reactor.log sock) :
    (reactor.setInterest sock readCb writeCb).Sound := by
  have touches := touches_setInterest sock readCb writeCb (sound.bound sock)
  refine sound.touched touches fun other isKnown => ?_
  rw [(setInterest_frame ..).1]
  by_cases same : sock = other
  · subst same
    exact (setInterest_known isKnown).elim (sound.known sock) allowed
  · rw [(touches.others other same).1] at isKnown
    exact sound.known other isKnown

theorem unregister_log (reactor : Reactor σ α) (sock : σ) :
    (reactor.unregister sock).log = reactor.log := by
  rw [unregister]
  split <;> rfl

private theorem unregister_objects (reactor : Reactor σ α) (sock : σ) :
    (reactor.unregister sock).objects = reactor.objects := by
  rw [unregister]
  split <;> rfl

private theorem unregister_states (reactor : Reactor σ α) (sock : σ) :
    (reactor.unregister sock).states.find? sock = none := by
  rw [unregister]
  split
  · assumption
  · simp

theorem Sound.unregister (sound : reactor.Sound) (sock : σ) :
    ((reactor.note (.unregistered sock)).unregister sock).Sound := by
  have touches := (touches_unregister (reactor.note (.unregistered sock))
    (sound.keyed sock)).of_note
  refine sound.touched touches fun other isKnown => ?_
  rw [unregister_log]
  by_cases own : sock = other
  · subst own
    rw [unregister_states] at isKnown
    cases isKnown
  · rw [(touches.others other own).1] at isKnown
    intro unregistered
    rcases unregistered_concat.mp unregistered with same | ⟨before, -⟩
    · cases same
      exact own rfl
    · exact sound.known other isKnown before

theorem Sound.perform (sound : reactor.Sound) (call : ReactorCall σ α) :
    (reactor.perform call).Sound := by
  cases call with
  | registerRead sock callback | registerWrite sock callback =>
      rw [Reactor.perform]
      exact (sound.note_registered sock).setInterest sock _ _ fun _ =>
        not_unregistered_registered reactor.log sock
  | unregisterRead sock | unregisterWrite sock =>
      refine sound.setInterest sock _ _ ?_
      rintro (isSome | isSome) <;> cases isSome
  | unregister sock => exact sound.unregister sock
  | stop => exact sound.of_tables rfl rfl rfl (fun _ => id) fun _ => id

theorem perform_batch (reactor : Reactor σ α) (call : ReactorCall σ α) :
    (reactor.perform call).batch = reactor.batch := by
  cases call with
  | unregister sock =>
      rw [perform, unregister]
      split <;> rfl
  | stop => rfl
  | _ => exact (setInterest_frame ..).2.1

private theorem perform_running {call : ReactorCall σ α} (goesOn : call ≠ .stop) :
    (reactor.perform call).running = reactor.running := by
  cases call with
  | unregister sock =>
      rw [perform, unregister]
      split <;> rfl
  | stop => exact absurd rfl goesOn
  | _ => exact (setInterest_frame ..).2.2

private theorem clean_perform (reactor : Reactor σ α) (call : ReactorCall σ α)
    (clean : Clean reactor.log) : Clean (reactor.perform call).log := by
  have concat (entry : ReactorEntry σ α) (other : ∀ sock callback, entry ≠ .invoked sock callback) :
      Clean (reactor.log ++ [entry]) :=
    clean_concat.mpr ⟨clean, fun sock callback same => absurd same (other sock callback)⟩
  cases call with
  | registerRead sock callback | registerWrite sock callback =>
      rw [perform, (setInterest_frame ..).1]
      exact concat (.registered sock) nofun
  | unregister sock =>
      rw [perform, unregister_log]
      exact concat (.unregistered sock) nofun
  | unregisterRead sock | unregisterWrite sock =>
      rw [perform, (setInterest_frame ..).1]
      exact clean
  | stop => exact clean

theorem unregistered_perform {call : ReactorCall σ α} :
    Unregistered (reactor.perform call).log sock ↔
      call = .unregister sock ∨ Unregistered reactor.log sock ∧ ¬ call.Registers sock := by
  cases call with
  | registerRead other callback | registerWrite other callback =>
      rw [perform, (setInterest_frame ..).1]
      refine unregistered_concat.trans ?_
      simp [ReactorCall.Registers]
  | unregister other =>
      rw [perform, unregister_log]
      refine unregistered_concat.trans ?_
      simp [ReactorCall.Registers]
  | unregisterRead other | unregisterWrite other =>
      rw [perform, (setInterest_frame ..).1]
      simp [ReactorCall.Registers]
  | stop => simp [perform, ReactorCall.Registers]

/-! ## Calls in a row -/

theorem Sound.performAll (sound : reactor.Sound) (calls : List (ReactorCall σ α)) :
    (reactor.performAll calls).Sound :=
  foldl_invariant Sound (fun _ call _ sound => sound.perform call) sound

theorem clean_performAll (reactor : Reactor σ α) (calls : List (ReactorCall σ α))
    (clean : Clean reactor.log) : Clean (reactor.performAll calls).log :=
  foldl_invariant (fun reactor => Clean reactor.log)
    (fun reactor call _ clean => clean_perform reactor call clean) clean

theorem performAll_batch (reactor : Reactor σ α) (calls : List (ReactorCall σ α)) :
    (reactor.performAll calls).batch = reactor.batch :=
  foldl_frame Reactor.batch (fun reactor call _ => perform_batch reactor call) reactor

theorem performAll_running_iff {calls : List (ReactorCall σ α)} :
    (reactor.performAll calls).running = true ↔ reactor.running = true ∧ .stop ∉ calls := by
  induction calls using List.reverseRecOn with
  | nil => simp [performAll]
  | append_singleton calls call induction =>
      rw [performAll, List.foldl_concat, ← performAll]
      by_cases stops : call = .stop
      · subst stops
        simp [perform]
      · rw [perform_running stops, induction]
        simp [Ne.symm stops]

theorem unregistered_performAll {calls : List (ReactorCall σ α)} :
    Unregistered (reactor.performAll calls).log sock ↔
      Since (fun _ call => call = .unregister sock) (fun _ call => call.Registers sock) calls ∨
        Unregistered reactor.log sock ∧ ∀ call ∈ calls, ¬ call.Registers sock := by
  induction calls using List.reverseRecOn with
  | nil => simp [performAll, not_since_nil]
  | append_singleton calls call induction =>
      rw [performAll, List.foldl_concat, ← performAll, unregistered_perform, induction,
        since_concat_iff]
      simp only [List.mem_append, List.mem_singleton]
      constructor
      · rintro (last | ⟨since | ⟨before, never⟩, kept⟩)
        · exact .inl (.inl last)
        · exact .inl (.inr ⟨since, kept⟩)
        · refine .inr ⟨before, fun other member => ?_⟩
          rcases member with earlier | rfl
          · exact never other earlier
          · exact kept
      · rintro ((last | ⟨since, kept⟩) | ⟨before, never⟩)
        · exact .inl last
        · exact .inr ⟨.inl since, kept⟩
        · exact .inr ⟨.inr ⟨before, fun other member => never other (.inl member)⟩,
            never call (.inr rfl)⟩

def Orphan (reactor : Reactor σ α) (data : Nat) : Prop :=
  data < reactor.objects.length ∧ ∀ sock, reactor.states.find? sock ≠ some data

theorem Touches.orphan {before after : Reactor σ α} (touches : Touches before after sock)
    {data : Nat} (orphan : before.Orphan data) :
    after.Orphan data ∧ after.object data = before.object data := by
  refine ⟨⟨orphan.1.trans_le touches.grows, fun other isState => ?_⟩,
    touches.object data orphan.1 (orphan.2 sock)⟩
  by_cases same : sock = other
  · subst same
    obtain ⟨-, already | new⟩ := touches.own data isState
    · exact orphan.2 sock already
    · exact absurd orphan.1 (Nat.not_lt.mpr new)
  · rw [(touches.others other same).1] at isState
    exact orphan.2 other isState

private theorem Sound.orphan_perform (sound : reactor.Sound) (call : ReactorCall σ α) {data : Nat}
    (orphan : reactor.Orphan data) :
    (reactor.perform call).Orphan data ∧
      (reactor.perform call).object data = reactor.object data := by
  cases call with
  | registerRead sock callback | registerWrite sock callback =>
      exact (touches_setInterest sock _ _ ((sound.note_registered sock).bound sock)).orphan orphan
  | unregisterRead sock | unregisterWrite sock =>
      exact (touches_setInterest sock _ _ (sound.bound sock)).orphan orphan
  | unregister sock =>
      exact (touches_unregister (reactor.note (.unregistered sock))
        (sound.keyed sock)).of_note.orphan orphan
  | stop => exact ⟨orphan, rfl⟩

theorem Sound.object_orphan (sound : reactor.Sound) (calls : List (ReactorCall σ α)) {data : Nat}
    (orphan : reactor.Orphan data) :
    (reactor.performAll calls).object data = reactor.object data := by
  induction calls generalizing reactor with
  | nil => rfl
  | cons call calls induction =>
      have next := sound.orphan_perform call orphan
      exact (induction (sound.perform call) next.1).trans next.2

theorem Sound.orphan (sound : reactor.Sound) {due : DueEvent σ} (member : due ∈ reactor.batch)
    (unregistered : Unregistered reactor.log due.sock) : reactor.Orphan due.data := by
  refine ⟨sound.held due member, fun sock isState => ?_⟩
  have same := sound.owned due member sock isState
  subst same
  exact sound.known _ (by rw [isState]; rfl) unregistered

theorem Sound.object_unregistered (sound : reactor.Sound) {due : DueEvent σ}
    (member : due ∈ reactor.batch) {calls : List (ReactorCall σ α)} {n : Nat}
    (unregisters : calls[n]? = some (.unregister due.sock)) :
    (reactor.performAll calls).object due.data =
      (reactor.performAll (calls.take n)).object due.data := by
  obtain ⟨within, isCall⟩ := List.getElem?_eq_some_iff.mp unregisters
  let before := reactor.performAll (calls.take n)
  have split : reactor.performAll calls =
      (before.perform (.unregister due.sock)).performAll (calls.drop (n + 1)) := by
    have whole : calls = calls.take n ++ .unregister due.sock :: calls.drop (n + 1) := by
      rw [← isCall, List.getElem_cons_drop, List.take_append_drop]
    conv_lhs => rw [whole]
    exact List.foldl_append
  have still : due ∈ (before.perform (.unregister due.sock)).batch := by
    rw [perform_batch, performAll_batch]
    exact member
  have gone := ((sound.performAll (calls.take n)).perform (.unregister due.sock)).orphan still
    (unregistered_perform.mpr (.inl rfl))
  rw [split, (((sound.performAll _).perform _).object_orphan _ gone)]
  rw [Reactor.object, Reactor.object, Reactor.perform, unregister_objects]
  rfl

/-- Calls find the same objects whatever has been logged and whatever is in the batch. -/
def Alike (reactor other : Reactor σ α) : Prop :=
  reactor.objects = other.objects ∧ reactor.states = other.states

theorem Alike.setInterest {reactor other : Reactor σ α} (alike : reactor.Alike other) (sock : σ)
    (readCb writeCb : Interest α) :
    (reactor.setInterest sock readCb writeCb).Alike (other.setInterest sock readCb writeCb) := by
  obtain ⟨objects, states, _, _, _, _⟩ := reactor
  obtain ⟨_, _, _, _, _, _⟩ := other
  obtain ⟨rfl, rfl⟩ := alike
  rw [Reactor.setInterest, Reactor.setInterest, stateOf, stateOf]
  cases states.find? sock with
  | some data | none =>
      dsimp only [object]
      split_ifs <;> exact ⟨rfl, rfl⟩

theorem Alike.perform {reactor other : Reactor σ α} (alike : reactor.Alike other)
    (call : ReactorCall σ α) : (reactor.perform call).Alike (other.perform call) := by
  cases call with
  | unregister sock =>
      have states : (reactor.note (.unregistered sock)).states =
          (other.note (.unregistered sock)).states := alike.2
      rw [Reactor.perform, Reactor.perform, Reactor.unregister, Reactor.unregister, states]
      cases (other.note (.unregistered sock)).states.find? sock with
      | none => exact alike
      | some data => exact ⟨alike.1, rfl⟩
  | stop => exact alike
  | registerRead sock callback | registerWrite sock callback =>
      have noted : (reactor.note (.registered sock)).Alike (other.note (.registered sock)) := alike
      exact noted.setInterest ..
  | unregisterRead sock | unregisterWrite sock => exact alike.setInterest ..

theorem Alike.performAll {reactor other : Reactor σ α} (alike : reactor.Alike other)
    (calls : List (ReactorCall σ α)) :
    (reactor.performAll calls).Alike (other.performAll calls) := by
  induction calls generalizing reactor other with
  | nil => exact alike
  | cons call calls induction => exact induction (alike.perform call)

/-! ## Steps and runs -/

theorem dispatch_cons {due : DueEvent σ} {batch : List (DueEvent σ)}
    (next : reactor.batch = due :: batch) (calls : List (ReactorCall σ α)) (raises : Bool) :
    reactor.dispatch calls raises =
      match (reactor.object due.data).callback due.kind with
      | none => { reactor with batch }
      | some callback =>
          (({ reactor with batch }.note (.invoked due.sock callback)).performAll calls).leave
            raises := by
  rw [dispatch, next]

omit [DecidableEq σ] in
private theorem leave_log (reactor : Reactor σ α) (raises : Bool) :
    (reactor.leave raises).log = reactor.log := by
  rw [leave]
  split <;> rfl

theorem Sound.leave (sound : reactor.Sound) (raises : Bool) : (reactor.leave raises).Sound := by
  rw [Reactor.leave]
  split
  · exact sound.of_tables rfl rfl rfl (fun _ member => by cases member) fun _ => id
  · exact sound

omit [DecidableEq σ] in
private theorem resting_leave (reactor : Reactor σ α) (raises : Bool) :
    (reactor.leave raises).Resting := by
  rw [leave]
  split
  · exact fun _ => rfl
  · next stays => exact fun stopped => absurd (.inr stopped) stays

theorem Sound.note_invoked (sound : reactor.Sound) (sock : σ) (callback : α) :
    (reactor.note (.invoked sock callback)).Sound :=
  sound.of_tables rfl rfl rfl (fun _ => id) fun _ => unregistered_concat_invoked.mp

theorem Sound.pop (sound : reactor.Sound) {due : DueEvent σ} {batch : List (DueEvent σ)}
    (next : reactor.batch = due :: batch) : { reactor with batch }.Sound := by
  refine sound.of_tables rfl rfl rfl (fun other member => ?_) fun _ => id
  rw [next]
  exact List.mem_cons_of_mem _ member

/-- What every run keeps up, as long as the batch holds no callback of a socket that is
unregistered. -/
structure Good (reactor : Reactor σ α) : Prop where
  clean : Clean reactor.log
  kept : reactor.Kept
  sound : reactor.Sound
  resting : reactor.Resting

theorem Sound.dispatch (sound : reactor.Sound) (calls : List (ReactorCall σ α)) (raises : Bool) :
    (reactor.dispatch calls raises).Sound := by
  cases next : reactor.batch with
  | nil =>
      rw [Reactor.dispatch, next]
      exact sound
  | cons due batch =>
      rw [dispatch_cons next]
      have popped := sound.pop next
      cases (reactor.object due.data).callback due.kind with
      | none => exact popped
      | some callback =>
          exact ((popped.note_invoked due.sock callback).performAll calls).leave raises

theorem Resting.dispatch (resting : reactor.Resting) (calls : List (ReactorCall σ α))
    (raises : Bool) : (reactor.dispatch calls raises).Resting := by
  cases next : reactor.batch with
  | nil =>
      rw [Reactor.dispatch, next]
      exact resting
  | cons due batch =>
      rw [dispatch_cons next]
      cases (reactor.object due.data).callback due.kind with
      | none =>
          intro stopped
          have empty := resting stopped
          rw [next] at empty
          cases empty
      | some callback => exact resting_leave _ raises

theorem Good.clean_dispatch (good : reactor.Good) (calls : List (ReactorCall σ α)) (raises : Bool) :
    Clean (reactor.dispatch calls raises).log := by
  cases next : reactor.batch with
  | nil =>
      rw [Reactor.dispatch, next]
      exact good.clean
  | cons due batch =>
      rw [dispatch_cons next]
      cases live : (reactor.object due.data).callback due.kind with
      | none => exact good.clean
      | some callback =>
          have registered : ¬ Unregistered reactor.log due.sock := by
            intro unregistered
            have gone := good.kept due (by rw [next]; exact List.mem_cons_self) unregistered
            rw [live] at gone
            cases gone
          have clean : Clean (reactor.log ++ [.invoked due.sock callback]) := by
            refine clean_concat.mpr ⟨good.clean, fun sock other same => ?_⟩
            cases same
            exact registered
          rw [leave_log]
          exact clean_performAll ({ reactor with batch }.note _) calls clean

omit [DecidableEq σ] in
theorem kept_of_batch_nil (empty : reactor.batch = []) : reactor.Kept := by
  intro due member
  rw [empty] at member
  cases member

theorem Sound.ready (sound : reactor.Sound) (events : List (σ × EventMask)) :
    ∀ due ∈ reactor.ready events, reactor.states.find? due.sock = some due.data := by
  intro due member
  obtain ⟨⟨sock, mask⟩, -, found⟩ := List.mem_flatMap.mp member
  dsimp only at found
  cases keyed : reactor.selector.find? sock with
  | none =>
      rw [keyed] at found
      cases found
  | some key =>
      rw [keyed] at found
      have same : due.sock = sock ∧ due.data = key.data := by
        rcases List.mem_append.mp found with isRead | isWrite
        · split at isRead
          · rw [List.mem_singleton.mp isRead]
            exact ⟨rfl, rfl⟩
          · cases isRead
        · split at isWrite
          · rw [List.mem_singleton.mp isWrite]
            exact ⟨rfl, rfl⟩
          · cases isWrite
      rw [same.1, same.2]
      exact sound.keyed sock key keyed

theorem Sound.select (sound : reactor.Sound) (events : List (σ × EventMask)) :
    { reactor with batch := reactor.ready events }.Sound := by
  refine ⟨sound.keyed, sound.known, sound.bound, sound.injective, ?_, ?_⟩
  · exact fun due member => sound.bound due.sock due.data (sound.ready events due member)
  · exact fun due member sock isState =>
      sound.injective sock due.sock due.data isState (sound.ready events due member)

theorem Sound.step (sound : reactor.Sound) (step : Step σ α) : (reactor.step step).Sound := by
  cases step with
  | outside calls =>
      rw [Reactor.step]
      split
      · exact sound.performAll calls
      · exact sound
  | run =>
      rw [Reactor.step]
      split
      · exact sound.of_tables rfl rfl rfl (fun _ => id) fun _ => id
      · exact sound
  | select events =>
      rw [Reactor.step]
      split
      · exact sound.select events
      · exact sound
  | dispatch calls raises => exact sound.dispatch calls raises

theorem Resting.step (resting : reactor.Resting) (step : Step σ α) :
    (reactor.step step).Resting := by
  cases step with
  | outside calls =>
      rw [Reactor.step]
      split
      · next empty =>
          exact fun _ => (performAll_batch reactor calls).trans (List.isEmpty_iff.mp empty)
      · exact resting
  | run =>
      rw [Reactor.step]
      split
      · exact nofun
      · exact resting
  | select events =>
      rw [Reactor.step]
      split
      · next able =>
          intro stopped
          rw [able.2] at stopped
          cases stopped
      · exact resting
  | dispatch calls raises => exact resting.dispatch calls raises

private theorem Good.clean_step (good : reactor.Good) (step : Step σ α) :
    Clean (reactor.step step).log := by
  cases step with
  | outside calls =>
      rw [Reactor.step]
      split
      · exact clean_performAll reactor calls good.clean
      · exact good.clean
  | run | select events =>
      rw [Reactor.step]
      split <;> exact good.clean
  | dispatch calls raises => exact good.clean_dispatch calls raises

/-- If the step runs a callback and the loop goes on, then the callback has not unregistered
the socket of an event that is still to come, for good, while the callback of that event was
set. -/
def Spares (reactor : Reactor σ α) : Step σ α → Prop
  | .dispatch calls raises =>
      ∀ due batch, reactor.batch = due :: batch →
        ((reactor.object due.data).callback due.kind).isSome → raises = false → .stop ∉ calls →
        ∀ pending ∈ batch, ∀ n, calls[n]? = some (.unregister pending.sock) →
          (∀ m call, n < m → calls[m]? = some call → ¬ call.Registers pending.sock) →
          ((reactor.performAll (calls.take n)).object pending.data).callback pending.kind = none
  | _ => True

private theorem kept_leave_iff {called : Reactor σ α} (running : called.running = true)
    (calls : List (ReactorCall σ α)) (raises : Bool) :
    ((called.performAll calls).leave raises).Kept ↔
      (raises = false → .stop ∉ calls → (called.performAll calls).Kept) := by
  rw [leave]
  split
  · next left =>
      refine iff_of_true (kept_of_batch_nil rfl) fun calm goesOn => ?_
      rcases left with raised | stopped
      · rw [calm] at raised
        cases raised
      · rw [performAll_running_iff.mpr ⟨running, goesOn⟩] at stopped
        cases stopped
  · next stays =>
      rw [not_or, Bool.not_eq_true, Bool.not_eq_false] at stays
      exact ⟨fun kept _ _ => kept, fun kept => kept stays.1 (performAll_running_iff.mp stays.2).2⟩

theorem Good.kept_dispatch (good : reactor.Good) (calls : List (ReactorCall σ α)) (raises : Bool) :
    (reactor.dispatch calls raises).Kept ↔ reactor.Spares (.dispatch calls raises) := by
  cases next : reactor.batch with
  | nil =>
      refine iff_of_true ?_ ?_
      · rw [Reactor.dispatch, next]
        exact good.kept
      · intro due batch same
        rw [next] at same
        cases same
  | cons due batch =>
      have rest : ∀ pending ∈ batch, pending ∈ reactor.batch := by
        rw [next]
        exact fun pending => List.mem_cons_of_mem due
      rw [dispatch_cons next]
      cases live : (reactor.object due.data).callback due.kind with
      | none =>
          refine iff_of_true ?_ ?_
          · exact fun pending member => good.kept pending (rest pending member)
          · intro other later same isLive
            rw [next] at same
            cases same
            rw [live] at isLive
            cases isLive
      | some callback =>
          let called := { reactor with batch }.note (.invoked due.sock callback)
          have sound : called.Sound := (good.sound.pop next).note_invoked due.sock callback
          have alike : called.Alike reactor := ⟨rfl, rfl⟩
          have object (front : List (ReactorCall σ α)) (data : Nat) :
              (called.performAll front).object data =
                (reactor.performAll front).object data := by
            rw [Reactor.object, Reactor.object, (alike.performAll front).1]
          have running : called.running = true := by
            rw [← Bool.not_eq_false]
            intro stopped
            have empty := good.resting stopped
            rw [next] at empty
            cases empty
          refine (kept_leave_iff running calls raises).trans ⟨fun kept => ?_, fun spares calm goesOn pending member gone => ?_⟩
          · intro other later same _ calm goesOn pending member n unregisters never
            rw [next] at same
            cases same
            have gone : Unregistered (called.performAll calls).log pending.sock :=
              unregistered_performAll.mpr (.inl ⟨n, _, unregisters, rfl, never⟩)
            have none := kept calm goesOn pending (by rwa [performAll_batch]) gone
            rwa [sound.object_unregistered member unregisters, object] at none
          · rw [performAll_batch] at member
            rcases unregistered_performAll.mp gone with ⟨n, call, found, rfl, never⟩ | ⟨before, -⟩
            · rw [sound.object_unregistered member found, object]
              exact spares due batch next (by rw [live]; rfl) calm goesOn pending member n found
                never
            · rw [sound.object_orphan calls (sound.orphan member before)]
              exact good.kept pending (rest pending member)
                (unregistered_concat_invoked.mp before)

private theorem Good.kept_step (good : reactor.Good) (step : Step σ α) :
    (reactor.step step).Kept ↔ reactor.Spares step := by
  cases step with
  | dispatch calls raises => exact good.kept_dispatch calls raises
  | outside calls =>
      refine iff_of_true ?_ trivial
      rw [Reactor.step]
      split
      · next empty =>
          exact kept_of_batch_nil
            ((performAll_batch reactor calls).trans (List.isEmpty_iff.mp empty))
      · exact good.kept
  | run =>
      refine iff_of_true ?_ trivial
      rw [Reactor.step]
      split
      · next empty => exact kept_of_batch_nil (List.isEmpty_iff.mp empty)
      · exact good.kept
  | select events =>
      refine iff_of_true ?_ trivial
      rw [Reactor.step]
      split
      · intro due member unregistered
        have isState := good.sound.ready events due member
        exact absurd unregistered (good.sound.known due.sock (by rw [isState]; rfl))
      · exact good.kept

theorem clean_finish (sound : reactor.Sound) (resting : reactor.Resting) :
    Clean reactor.finish.log ↔ Clean reactor.log ∧ reactor.Kept := by
  rw [Reactor.finish]
  induction pending : reactor.batch generalizing reactor with
  | nil => exact (and_iff_left (kept_of_batch_nil pending)).symm
  | cons due batch induction =>
      rw [List.length_cons, Function.iterate_succ_apply, dispatch_cons pending]
      have running : ¬ (false = true ∨ reactor.running = false) := by
        rintro (raised | stopped)
        · cases raised
        · rw [resting stopped] at pending
          cases pending
      have popped := sound.pop pending
      have goesOn : { reactor with batch }.Resting := fun stopped => absurd (.inr stopped) running
      cases live : (reactor.object due.data).callback due.kind with
      | none =>
          refine (induction popped goesOn rfl).trans (and_congr_right fun _ => ?_)
          constructor
          · intro kept other member unregistered
            rw [pending] at member
            rcases List.mem_cons.mp member with rfl | later
            · exact live
            · exact kept other later unregistered
          · intro kept other member
            exact kept other (by rw [pending]; exact List.mem_cons_of_mem _ member)
      | some callback =>
          have stays : (({ reactor with batch }.note (.invoked due.sock callback)).performAll
              []).leave false = { reactor with batch }.note (.invoked due.sock callback) :=
            if_neg running
          dsimp only
          rw [stays]
          refine (induction (popped.note_invoked _ _) goesOn rfl).trans ?_
          constructor
          · rintro ⟨clean, kept⟩
            obtain ⟨before, last⟩ := clean_concat.mp clean
            refine ⟨before, fun other member unregistered => ?_⟩
            rw [pending] at member
            rcases List.mem_cons.mp member with rfl | later
            · exact absurd unregistered (last _ _ rfl)
            · exact kept other later (unregistered_concat_invoked.mpr unregistered)
          · rintro ⟨clean, kept⟩
            refine ⟨clean_concat.mpr ⟨clean, fun sock other same unregistered => ?_⟩, ?_⟩
            · cases same
              have gone := kept due (by rw [pending]; exact List.mem_cons_self) unregistered
              rw [live] at gone
              cases gone
            · intro other member unregistered
              exact kept other (by rw [pending]; exact List.mem_cons_of_mem _ member)
                (unregistered_concat_invoked.mp unregistered)

theorem good_empty : ({} : Reactor σ α).Good where
  clean n entry found := by cases found
  kept due member := by cases member
  sound :=
    { keyed _ _ isKey := by cases isKey
      known _ known := by cases known
      bound _ _ isState := by cases isState
      injective _ _ _ isState := by cases isState
      held _ member := by cases member
      owned _ member := by cases member }
  resting _ := rfl

private theorem good_iff (sound : reactor.Sound) (resting : reactor.Resting) :
    reactor.Good ↔ Clean reactor.log ∧ Clean reactor.finish.log := by
  rw [clean_finish sound resting]
  exact ⟨fun good => ⟨good.clean, good.clean, good.kept⟩,
    fun ⟨clean, _, kept⟩ => ⟨clean, kept, sound, resting⟩⟩

/-- No callback is invoked after `unregister`, in the run and also if the rest of a batch
makes no further calls, exactly if no callback leaves behind an event in its batch, with a
callback set, of a socket that is unregistered. -/
theorem clean_throughout_iff (steps : List (Step σ α)) :
    (∀ n, Clean (after (steps.take n)).log ∧ Clean (after (steps.take n)).finish.log) ↔
      ∀ n step, steps[n]? = some step → (after (steps.take n)).Spares step := by
  have sound (n : Nat) : (after (steps.take n)).Sound :=
    foldl_invariant Sound (fun _ step _ sound => sound.step step) good_empty.sound
  have resting (n : Nat) : (after (steps.take n)).Resting :=
    foldl_invariant Resting (fun _ step _ resting => resting.step step) good_empty.resting
  have good : (∀ n, Clean (after (steps.take n)).log ∧ Clean (after (steps.take n)).finish.log) ↔
      ∀ n, (after (steps.take n)).Good :=
    forall_congr' fun n => (good_iff (sound n) (resting n)).symm
  rw [good]
  refine forall_take_foldl_iff step Good Spares good_empty steps fun reactor step _ good => ?_
  rw [← good.kept_step]
  exact ⟨fun next => next.kept,
    fun kept => ⟨good.clean_step step, kept, good.sound.step step, good.resting.step step⟩⟩

end Reactor

/-! ## A query that is cancelled -/

inductive WebCallback where
  | onDatagram
  | onWritable
deriving DecidableEq

namespace Reactor

/-- jnxweb with its multicast socket 0 and a snapshot query on socket 1 that is connecting.
Both sockets are ready; the datagram is that of a restarted feed handler, for which
`SnapshotBootstrap._schedule` cancels the query. -/
def restartRun : List (Step Nat WebCallback) :=
  [.outside [.registerRead 0 .onDatagram, .registerWrite 1 .onWritable], .run,
    .select [(0, { read := true, write := false }), (1, { read := false, write := true })],
    .dispatch [.unregister 1] false,
    .dispatch [] true]

/-- `_on_writable` of the query runs after `cancel` has unregistered its socket. -/
theorem cancelled_invoked :
    (after restartRun).log =
        [.registered 0, .registered 1, .invoked 0 .onDatagram, .unregistered 1,
          .invoked 1 .onWritable] ∧
      ¬ Clean (after restartRun).log := by
  have log : (after restartRun).log =
      [.registered 0, .registered 1, .invoked 0 .onDatagram, .unregistered 1] ++
        [.invoked 1 .onWritable] := by
    decide
  refine ⟨log, fun clean => ?_⟩
  rw [log] at clean
  refine (clean_concat.mp clean).2 1 .onWritable rfl ?_
  exact ⟨3, .unregistered 1, rfl, rfl, fun m other later found => by
    rw [List.getElem?_eq_none (Nat.succ_le_of_lt later)] at found
    cases found⟩

end Reactor

end ProtoFH.Prototype
