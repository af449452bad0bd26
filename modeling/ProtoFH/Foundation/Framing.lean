import ProtoFH.Foundation.Bytes

/-! # Framing a byte stream

A framing says what stands at the front of a buffer: a whole frame, the start of
one, or bytes that cannot start a frame. When a frame once complete stays the same
however many bytes follow, the frames of a stream do not depend on the chunks it
arrives in. -/

namespace ProtoFH

inductive FrameStep (φ : Type) where
  | more
  | frame (value : φ) (rest : Bytes)
  | bad (reason : String)

structure Framing (φ : Type) where
  step : Bytes → FrameStep φ
  shrinks : ∀ {buf : Bytes} {value : φ} {rest : Bytes},
    step buf = .frame value rest → rest.length < buf.length
  frame_append : ∀ {buf : Bytes} {value : φ} {rest : Bytes} (later : Bytes),
    step buf = .frame value rest → step (buf ++ later) = .frame value (rest ++ later)

namespace Framing

variable (framing : Framing φ)

/-- At most `fuel` frames from the front of a buffer, and what follows them. -/
def drainUpTo : (fuel : Nat) → Bytes → List φ × Bytes
  | 0, buf => ([], buf)
  | fuel + 1, buf =>
      match framing.step buf with
      | .frame value rest =>
          (value :: (drainUpTo fuel rest).1, (drainUpTo fuel rest).2)
      | _ => ([], buf)

/-- All whole frames at the front of a buffer, and what follows them. Every frame
takes at least one byte, so the length bounds their number. -/
def drain (buf : Bytes) : List φ × Bytes := framing.drainUpTo buf.length buf

theorem drainUpTo_eq_drain {fuel : Nat} {buf : Bytes} (enough : buf.length ≤ fuel) :
    framing.drainUpTo fuel buf = framing.drain buf := by
  -- Both sides peel the same first frame; the rest is shorter than either bound.
  suffices ∀ fuel other (buf : Bytes), buf.length ≤ fuel → buf.length ≤ other →
      framing.drainUpTo fuel buf = framing.drainUpTo other buf from
    this fuel buf.length buf enough (Nat.le_refl _)
  intro fuel
  induction fuel with
  | zero =>
      intro other buf short _
      have empty : buf = [] := List.eq_nil_of_length_eq_zero (Nat.le_zero.mp short)
      subst empty
      cases other with
      | zero => rfl
      | succ other =>
          cases step : framing.step [] with
          | frame value rest => exact absurd (framing.shrinks step) (Nat.not_lt_zero _)
          | more | bad reason => simp only [drainUpTo, step]
  | succ fuel induction =>
      intro other buf short bound
      cases step : framing.step buf with
      | frame value rest =>
          have shorter := framing.shrinks step
          cases other with
          | zero => omega
          | succ other =>
              have same := induction other rest (by omega) (by omega)
              simp only [drainUpTo, step, same]
      | more | bad reason => cases other <;> simp only [drainUpTo, step]

theorem drain_frame {buf : Bytes} {value : φ} {rest : Bytes}
    (step : framing.step buf = .frame value rest) :
    framing.drain buf = (value :: (framing.drain rest).1, (framing.drain rest).2) := by
  have shorter := framing.shrinks step
  cases length : buf.length with
  | zero => omega
  | succ fuel =>
      rw [drain, length, drainUpTo, step]
      simp only [framing.drainUpTo_eq_drain (show rest.length ≤ fuel by omega)]

def Stuck (buf : Bytes) : Prop := ∀ value rest, framing.step buf ≠ .frame value rest

theorem drain_stuck {buf : Bytes} (stuck : framing.Stuck buf) :
    framing.drain buf = ([], buf) := by
  rw [drain]
  cases buf.length with
  | zero => rfl
  | succ fuel =>
      cases step : framing.step buf with
      | frame value rest => exact absurd step (stuck value rest)
      | more | bad reason => simp only [drainUpTo, step]

theorem frame_induction {motive : Bytes → Prop}
    (stuck : ∀ buf, framing.Stuck buf → motive buf)
    (frame : ∀ buf value rest, framing.step buf = .frame value rest → motive rest → motive buf)
    (buf : Bytes) : motive buf := by
  induction length : buf.length using Nat.strong_induction_on generalizing buf with
  | h n induction =>
      cases step : framing.step buf with
      | frame value rest =>
          have shorter := length ▸ framing.shrinks step
          exact frame buf value rest step (induction rest.length shorter rest rfl)
      | more | bad reason => exact stuck buf (by simp [Stuck, step])

variable {buf left : Bytes}

theorem drain_eq_nil (drained : framing.drain buf = ([], left)) :
    left = buf ∧ framing.Stuck buf := by
  have stuck : framing.Stuck buf := by
    intro value rest step
    rw [framing.drain_frame step] at drained
    cases drained
  rw [framing.drain_stuck stuck] at drained
  cases drained
  exact ⟨rfl, stuck⟩

theorem drain_eq_cons {value : φ} {values : List φ}
    (drained : framing.drain buf = (value :: values, left)) :
    ∃ rest, framing.step buf = .frame value rest ∧ framing.drain rest = (values, left) := by
  cases step : framing.step buf with
  | frame first rest =>
      rw [framing.drain_frame step] at drained
      cases drained
      exact ⟨rest, rfl, rfl⟩
  | more | bad reason =>
      rw [framing.drain_stuck (by simp [Stuck, step])] at drained
      cases drained

theorem stuck_drain (buf : Bytes) : framing.Stuck (framing.drain buf).2 := by
  induction buf using framing.frame_induction with
  | stuck buf stuck => rwa [framing.drain_stuck stuck]
  | frame buf value rest step induction => rwa [framing.drain_frame step]

theorem drain_append (buf later : Bytes) :
    framing.drain (buf ++ later) =
      ((framing.drain buf).1 ++ (framing.drain ((framing.drain buf).2 ++ later)).1,
        (framing.drain ((framing.drain buf).2 ++ later)).2) := by
  induction buf using framing.frame_induction with
  | stuck buf stuck => rw [framing.drain_stuck stuck]; rfl
  | frame buf value rest step induction =>
      rw [framing.drain_frame (framing.frame_append later step), induction,
        framing.drain_frame step]
      rfl

theorem stuck_nil : framing.Stuck [] :=
  fun _ _ step => absurd (framing.shrinks step) (Nat.not_lt_zero _)

theorem drain_split
    (own : ∀ {buf value rest}, framing.step buf = .frame value rest →
      ∃ piece, buf = piece ++ rest ∧ framing.step piece = .frame value [])
    {values later : List φ} (drained : framing.drain buf = (values ++ later, left)) :
    ∃ front back, buf = front ++ back ∧ framing.drain front = (values, []) ∧
      framing.drain back = (later, left) := by
  induction values generalizing buf with
  | nil => exact ⟨[], buf, rfl, framing.drain_stuck framing.stuck_nil, drained⟩
  | cons value values induction =>
      obtain ⟨rest, step, drainedRest⟩ := framing.drain_eq_cons drained
      obtain ⟨front, back, rfl, drainedFront, drainedBack⟩ := induction drainedRest
      obtain ⟨piece, rfl, stepPiece⟩ := own step
      refine ⟨piece ++ front, back, (List.append_assoc ..).symm, ?_, drainedBack⟩
      have stepFront := framing.frame_append front stepPiece
      rw [framing.drain_frame stepFront, List.nil_append, drainedFront]

theorem drain_isPrefix {buf whole : Bytes} (front : buf <+: whole) :
    (framing.drain buf).1 <+: (framing.drain whole).1 := by
  obtain ⟨later, rfl⟩ := front
  rw [framing.drain_append]
  exact List.prefix_append _ _

theorem drain_flatMap {items : List α} {wire : α → Bytes} {value : α → φ}
    (framed : ∀ item ∈ items, ∀ rest,
      framing.step (wire item ++ rest) = .frame (value item) rest) :
    framing.drain (items.flatMap wire) = (items.map value, []) := by
  induction items with
  | nil => exact framing.drain_stuck framing.stuck_nil
  | cons item items induction =>
      rw [List.forall_mem_cons] at framed
      rw [List.flatMap_cons, framing.drain_frame (framed.1 _), induction framed.2]
      rfl

end Framing

/-! ## Readers of a stream -/

/-- A buffer that is fed bytes and asked for the next item until it has none. Each item
uses up some of what is pending. -/
structure StreamReader (σ ρ : Type) where
  feed : σ → Bytes → σ
  next : σ → σ × Option ρ
  pending : σ → Nat
  shrinks : ∀ {state after : σ} {item : ρ},
    next state = (after, some item) → pending after < pending state

namespace StreamReader

variable (reader : StreamReader σ ρ)

/-- The items of at most `fuel` calls of `next`, up to the first that returns none. -/
def drainUpTo : (fuel : Nat) → σ → List ρ × σ
  | 0, state => ([], state)
  | fuel + 1, state =>
      match reader.next state with
      | (after, some item) =>
          (item :: (drainUpTo fuel after).1, (drainUpTo fuel after).2)
      | (after, none) => ([], after)

def drained (state : σ) : List ρ × σ :=
  reader.drainUpTo (reader.pending state + 1) state

variable {state : σ}

theorem drainUpTo_eq_drained {fuel : Nat} (enough : reader.pending state < fuel) :
    reader.drainUpTo fuel state = reader.drained state := by
  suffices ∀ fuel other (state : σ), reader.pending state < fuel →
      reader.pending state < other →
        reader.drainUpTo fuel state = reader.drainUpTo other state from
    this fuel _ state enough (Nat.lt_succ_self _)
  intro fuel
  induction fuel with
  | zero => intro _ _ none; omega
  | succ fuel induction =>
      intro other state bound otherBound
      cases other with
      | zero => omega
      | succ other =>
          rcases next : reader.next state with ⟨after, _ | item⟩
          · simp only [drainUpTo, next]
          · have fewer := reader.shrinks next
            have same := induction other after (by omega) (by omega)
            simp only [drainUpTo, next, same]

theorem drained_item {state after : σ} {item : ρ}
    (next : reader.next state = (after, some item)) :
    reader.drained state = (item :: (reader.drained after).1, (reader.drained after).2) := by
  rw [drained, drainUpTo, next]
  simp only [reader.drainUpTo_eq_drained (reader.shrinks next)]

theorem drained_done {state after : σ} (next : reader.next state = (after, none)) :
    reader.drained state = ([], after) := by
  rw [drained, drainUpTo, next]

theorem drained_congr {state other : σ} (next : reader.next state = reader.next other) :
    reader.drained state = reader.drained other := by
  rcases calls : reader.next other with ⟨after, _ | item⟩
  · rw [reader.drained_done (next.trans calls), reader.drained_done calls]
  · rw [reader.drained_item (next.trans calls), reader.drained_item calls]

theorem drained_invariant (invariant : σ → Prop)
    (kept : ∀ state, invariant state → invariant (reader.next state).1) (start : invariant state) :
    invariant (reader.drained state).2 := by
  induction pending : reader.pending state using Nat.strong_induction_on generalizing state with
  | _ bound induction =>
      have next := kept state start
      rcases calls : reader.next state with ⟨after, _ | item⟩
      · rw [reader.drained_done calls]
        rw [calls] at next
        exact next
      · rw [reader.drained_item calls]
        rw [calls] at next
        exact induction _ (pending ▸ reader.shrinks calls) next rfl

/-- A condition on the states in which `next` is called until it returns none. -/
inductive Along (condition : σ → Prop) : σ → Prop
  | done {state after : σ} (next : reader.next state = (after, none))
      (here : condition state) : Along condition state
  | item {state after : σ} {item : ρ} (next : reader.next state = (after, some item))
      (here : condition state) (rest : Along condition after) : Along condition state

theorem along_of_invariant (invariant : σ → Prop) {condition : σ → Prop}
    (kept : ∀ state, invariant state → invariant (reader.next state).1)
    (implies : ∀ state, invariant state → condition state) (start : invariant state) :
    reader.Along condition state := by
  induction pending : reader.pending state using Nat.strong_induction_on generalizing state with
  | _ bound induction =>
      have next := kept state start
      rcases calls : reader.next state with ⟨after, _ | item⟩
      · exact .done calls (implies state start)
      · rw [calls] at next
        exact .item calls (implies state start)
          (induction _ (pending ▸ reader.shrinks calls) next rfl)

theorem along_congr (invariant : σ → Prop) {condition other : σ → Prop}
    (kept : ∀ state, invariant state → invariant (reader.next state).1)
    (agree : ∀ state, invariant state → (condition state ↔ other state)) (start : invariant state) :
    reader.Along condition state ↔ reader.Along other state := by
  have transfer {left right : σ → Prop} (implies : ∀ state, invariant state → left state →
      right state) (along : reader.Along left state) : reader.Along right state := by
    induction along with
    | done next here => exact .done next (implies _ start here)
    | item next here _ induction =>
        have later := kept _ start
        rw [next] at later
        exact .item next (implies _ start here) (induction later)
  exact ⟨transfer fun state holds => (agree state holds).mp,
    transfer fun state holds => (agree state holds).mpr⟩

theorem visible_of_drained (visible : σ → Prop)
    (lasting : ∀ state, visible (reader.next state).1 → visible state) (state : σ)
    (later : visible (reader.drained state).2) : visible state := by
  induction pending : reader.pending state using Nat.strong_induction_on generalizing state with
  | _ bound induction =>
      apply lasting
      rcases calls : reader.next state with ⟨after, _ | item⟩
      · rwa [reader.drained_done calls] at later
      · rw [reader.drained_item calls] at later
        exact induction _ (pending ▸ reader.shrinks calls) after later rfl

/-- When a call keeps the good states under a condition, and what is visible of a state
shows that it was violated, all that is visible in the end tells whether every call met the
condition. -/
theorem drained_visible_iff (good visible condition : σ → Prop)
    (shows : ∀ state, good state → visible state)
    (forced : ∀ state, good state → visible (reader.next state).1 → condition state)
    (kept : ∀ state, good state → condition state → good (reader.next state).1)
    (lasting : ∀ state, visible (reader.next state).1 → visible state) (start : good state) :
    (visible (reader.drained state).2 ↔ reader.Along condition state) ∧
      (reader.Along condition state → good (reader.drained state).2) := by
  have earlier := reader.visible_of_drained visible lasting
  have along (met : reader.Along condition state) : good (reader.drained state).2 := by
    induction met with
    | done next here =>
        have last := kept _ start here
        rw [next] at last
        rwa [reader.drained_done next]
    | item next here rest induction =>
        have later := kept _ start here
        rw [next] at later
        rw [reader.drained_item next]
        exact induction later
  refine ⟨⟨fun last => ?_, fun met => shows _ (along met)⟩, along⟩
  clear along
  induction pending : reader.pending state using Nat.strong_induction_on generalizing state with
  | _ bound induction =>
      rcases calls : reader.next state with ⟨after, _ | item⟩
      · rw [reader.drained_done calls] at last
        exact .done calls (forced state start (by rwa [calls]))
      · rw [reader.drained_item calls] at last
        have here := forced state start (by rw [calls]; exact earlier after last)
        have next := kept state start here
        rw [calls] at next
        exact .item calls here (induction _ (pending ▸ reader.shrinks calls) next last rfl)

def feedAll (state : σ) (chunks : List Bytes) : List ρ × σ :=
  chunks.foldl
    (fun got chunk =>
      let drained := reader.drained (reader.feed got.2 chunk)
      (got.1 ++ drained.1, drained.2))
    ([], state)

/-- The reader finds the frames of a framing: `keep` picks the ones it returns, and
`view seen left` is its state when the bytes `left` follow the frames `seen`. -/
def Follows (framing : Framing φ) (keep : φ → Option ρ) (view : List φ → Bytes → σ) : Prop :=
  ∀ seen left data, framing.Stuck left →
    reader.drained (reader.feed (view seen left) data) =
      ((framing.drain (left ++ data)).1.filterMap keep,
        view (seen ++ (framing.drain (left ++ data)).1) (framing.drain (left ++ data)).2)

theorem Follows.feedAll_eq {reader : StreamReader σ ρ} {framing : Framing φ}
    {keep : φ → Option ρ} {view : List φ → Bytes → σ}
    (follows : reader.Follows framing keep view) (chunks : List Bytes) :
    reader.feedAll (view [] []) chunks =
      ((framing.drain chunks.flatten).1.filterMap keep,
        view (framing.drain chunks.flatten).1 (framing.drain chunks.flatten).2) := by
  -- The last chunk is drained behind what the ones before it left.
  induction chunks using List.reverseRecOn with
  | nil =>
      rw [List.flatten_nil, framing.drain_stuck framing.stuck_nil]
      rfl
  | append_singleton chunks chunk induction =>
      have last := follows (framing.drain chunks.flatten).1
        (framing.drain chunks.flatten).2 chunk (framing.stuck_drain _)
      rw [feedAll] at induction
      rw [feedAll, List.foldl_append, List.foldl_cons, List.foldl_nil, induction, last,
        List.flatten_append, List.flatten_singleton, framing.drain_append chunks.flatten chunk,
        List.filterMap_append]

theorem Follows.feedAll_flatten {reader : StreamReader σ ρ} {framing : Framing φ}
    {keep : φ → Option ρ} {view : List φ → Bytes → σ}
    (follows : reader.Follows framing keep view) (chunks : List Bytes) :
    reader.feedAll (view [] []) chunks = reader.feedAll (view [] []) [chunks.flatten] := by
  rw [follows.feedAll_eq, follows.feedAll_eq, List.flatten_singleton]

end StreamReader

end ProtoFH
