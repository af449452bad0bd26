import Mathlib.Tactic

/-! # Executions

Runs of a step function over a list of inputs, and runs of a step relation. -/

namespace ProtoFH

variable {ι : Type v}

variable {σ : Type u}

/-- When a step keeps the good states exactly under a condition, all states of a run
are good exactly when every step meets the condition. -/
theorem forall_take_foldl_iff (step : σ → ι → σ) (good : σ → Prop) (condition : σ → ι → Prop)
    {init : σ} (start : good init) (inputs : List ι)
    (exact_step : ∀ state input, input ∈ inputs → good state →
      (good (step state input) ↔ condition state input)) :
    (∀ n, good ((inputs.take n).foldl step init)) ↔
      ∀ n input, inputs[n]? = some input →
        condition ((inputs.take n).foldl step init) input := by
  have advance (n : Nat) (input : ι) (next : inputs[n]? = some input) :
      (inputs.take (n + 1)).foldl step init = step ((inputs.take n).foldl step init) input := by
    rw [List.take_add_one, next, List.foldl_append]
    rfl
  constructor
  · intro always n input next
    rw [← exact_step _ _ (List.mem_of_getElem? next) (always n), ← advance n input next]
    exact always (n + 1)
  · intro conditions n
    induction n with
    | zero => exact start
    | succ n induction =>
        cases next : inputs[n]? with
        | some input =>
            rw [advance n input next, exact_step _ _ (List.mem_of_getElem? next) induction]
            exact conditions n input next
        | none =>
            have ended : inputs.take (n + 1) = inputs.take n := by
              rw [List.take_add_one, next]
              simp
            rw [ended]
            exact induction

/-- The same for a property that needs an invariant beside it: where the invariant holds, a
step that violates the condition shows in the property. -/
theorem forall_take_foldl_visible_iff (step : σ → ι → σ) (good visible : σ → Prop)
    (condition : σ → ι → Prop) {init : σ} (start : good init) (inputs : List ι)
    (shows : ∀ state, good state → visible state)
    (forced : ∀ state input, input ∈ inputs → good state → visible (step state input) →
      condition state input)
    (kept : ∀ state input, input ∈ inputs → good state → condition state input →
      good (step state input)) :
    (∀ n, visible ((inputs.take n).foldl step init)) ↔
      ∀ n input, inputs[n]? = some input →
        condition ((inputs.take n).foldl step init) input := by
  rw [← forall_take_foldl_iff step good condition start inputs fun state input member isGood =>
    ⟨fun next => forced state input member isGood (shows _ next),
      kept state input member isGood⟩]
  constructor
  · intro always n
    induction n with
    | zero => exact start
    | succ n induction =>
        have next := always (n + 1)
        rw [List.take_add_one] at next ⊢
        cases found : inputs[n]? with
        | none =>
            rw [Option.toList_none, List.append_nil]
            exact induction
        | some input =>
            simp only [found, Option.toList_some, List.foldl_concat] at next ⊢
            have member := List.mem_of_getElem? found
            exact kept _ input member induction (forced _ input member induction next)
  · exact fun always n => shows _ (always n)

theorem forall_take_visible_iff (good visible : List ι → Prop) (condition : List ι → ι → Prop)
    (start : good []) (inputs : List ι) (shows : ∀ earlier, good earlier → visible earlier)
    (forced : ∀ earlier input, input ∈ inputs → good earlier → visible (earlier ++ [input]) →
      condition earlier input)
    (kept : ∀ earlier input, input ∈ inputs → good earlier → condition earlier input →
      good (earlier ++ [input])) :
    (∀ n, visible (inputs.take n)) ↔
      ∀ n input, inputs[n]? = some input → condition (inputs.take n) input := by
  have whole (inputs : List ι) : inputs.foldl (fun earlier input => earlier ++ [input]) [] =
      inputs := by
    induction inputs using List.reverseRecOn with
    | nil => rfl
    | append_singleton earlier input induction => rw [List.foldl_concat, induction]
  have run := forall_take_foldl_visible_iff (fun earlier input => earlier ++ [input]) good visible
    condition start inputs shows forced kept
  simpa only [whole] using run

variable {inputs : List ι}

theorem foldl_invariant {step : σ → ι → σ} (invariant : σ → Prop)
    (preserved : ∀ state input, input ∈ inputs → invariant state → invariant (step state input))
    {init : σ} (start : invariant init) : invariant (inputs.foldl step init) := by
  induction inputs generalizing init with
  | nil => exact start
  | cons input inputs induction =>
      apply induction
      · intro state other member
        exact preserved state other (List.mem_cons_of_mem _ member)
      · exact preserved init input List.mem_cons_self start

/-- An invariant that is kept only from good states, along a run of good states. -/
theorem foldl_invariant_along {step : σ → ι → σ} (invariant good : σ → Prop)
    (kept : ∀ state input, good state → invariant state → invariant (step state input))
    {init : σ} (start : invariant init)
    (along : ∀ n < inputs.length, good ((inputs.take n).foldl step init)) :
    invariant (inputs.foldl step init) := by
  induction inputs generalizing init with
  | nil => exact start
  | cons input inputs induction =>
      apply induction (kept init input (along 0 (Nat.succ_pos _)) start)
      exact fun n within => along (n + 1) (Nat.succ_lt_succ within)

variable {α : Type w}

theorem foldl_frame {step : σ → ι → σ} (observe : σ → α)
    (kept : ∀ state input, input ∈ inputs → observe (step state input) = observe state) (init : σ) :
    observe (inputs.foldl step init) = observe init :=
  foldl_invariant (fun state => observe state = observe init)
    (fun state input member same => (kept state input member).trans same) rfl

theorem foldlM_invariant {step : σ → ι → Option σ} (invariant : σ → Prop)
    (preserved : ∀ state input later, invariant state → step state input = some later →
      invariant later)
    {init last : σ} (start : invariant init) (reached : inputs.foldlM step init = some last) :
    invariant last := by
  induction inputs generalizing init with
  | nil =>
      cases reached
      exact start
  | cons input inputs induction =>
      rw [List.foldlM_cons] at reached
      rcases Option.bind_eq_some_iff.mp reached with ⟨next, stepped, rest⟩
      exact induction (preserved init input next start stepped) rest

variable {ε : Type u}

theorem except_bind_eq_ok {α β : Type v} {first : Except ε α} {next : α → Except ε β} {result : β} :
    (first >>= next) = .ok result ↔ ∃ value, first = .ok value ∧ next value = .ok result := by
  cases first with
  | error reason => exact ⟨fun equal => (by cases equal), fun ⟨_, equal, _⟩ => (by cases equal)⟩
  | ok value => exact ⟨fun equal => ⟨value, rfl, equal⟩, fun ⟨_, equal, next⟩ => (by
      cases equal
      exact next)⟩

theorem foldlM_simulates {σ : Type v} {τ : Type w} {ι : Type x} {step : σ → ι → Except ε σ}
    {follow : τ → ι → Except ε τ} (related : σ → τ → Prop)
    (follows : ∀ state other input next, related state other → step state input = .ok next →
      ∃ later, follow other input = .ok later ∧ related next later)
    {inputs : List ι} {init last : σ} {other : τ} (start : related init other)
    (reached : inputs.foldlM step init = .ok last) :
    ∃ final, inputs.foldlM follow other = .ok final ∧ related last final := by
  induction inputs generalizing init other with
  | nil =>
      cases reached
      exact ⟨other, rfl, start⟩
  | cons input inputs induction =>
      rw [List.foldlM_cons] at reached
      obtain ⟨next, stepped, rest⟩ := except_bind_eq_ok.mp reached
      obtain ⟨later, followed, still⟩ := follows init other input next start stepped
      obtain ⟨final, ran, ends⟩ := induction still rest
      rw [List.foldlM_cons]
      exact ⟨final, except_bind_eq_ok.mpr ⟨later, followed, ran⟩, ends⟩

theorem mapM_cons_eq_ok {β : Type v} {f : α → Except ε β} {input : α} {inputs : List α}
    {outputs : List β} (done : (input :: inputs).mapM f = .ok outputs) :
    ∃ first later, f input = .ok first ∧ inputs.mapM f = .ok later ∧ first :: later = outputs := by
  rw [List.mapM_cons] at done
  obtain ⟨first, computed, done⟩ := except_bind_eq_ok.mp done
  obtain ⟨later, rest, done⟩ := except_bind_eq_ok.mp done
  cases done
  exact ⟨first, later, computed, rest, rfl⟩

theorem mapM_map_congr {β γ δ : Type v} {f : α → Except ε β} {ε' : Type u} {g : α → Except ε' γ}
    {observe : β → δ} {view : γ → δ} {inputs : List α} {outputs : List β} {others : List γ}
    (same : ∀ input ∈ inputs, ∀ output other, f input = .ok output → g input = .ok other →
      observe output = view other)
    (done : inputs.mapM f = .ok outputs) (seen : inputs.mapM g = .ok others) :
    outputs.map observe = others.map view := by
  induction inputs generalizing outputs others with
  | nil =>
      cases done
      cases seen
      rfl
  | cons input inputs induction =>
      obtain ⟨output, rest, first, later, rfl⟩ := mapM_cons_eq_ok done
      obtain ⟨other, restSeen, firstSeen, laterSeen, rfl⟩ := mapM_cons_eq_ok seen
      rw [List.forall_mem_cons] at same
      rw [List.map_cons, List.map_cons, same.1 output other first firstSeen,
        induction same.2 later laterSeen]

theorem exists_mem_of_mapM_eq_ok {β : Type v} {f : α → Except ε β} {inputs : List α}
    {outputs : List β} (done : inputs.mapM f = .ok outputs) {output : β}
    (member : output ∈ outputs) : ∃ input ∈ inputs, f input = .ok output := by
  induction inputs generalizing outputs with
  | nil =>
      cases done
      cases member
  | cons input inputs induction =>
      obtain ⟨first, later, computed, rest, rfl⟩ := mapM_cons_eq_ok done
      rcases List.mem_cons.mp member with rfl | member
      · exact ⟨input, List.mem_cons_self, computed⟩
      · obtain ⟨other, found, computed⟩ := induction rest member
        exact ⟨other, List.mem_cons_of_mem _ found, computed⟩

theorem mapM_eq_ok_map {β : Type v} {f : α → Except ε β} {value : α → β} {inputs : List α}
    (each : ∀ input ∈ inputs, f input = .ok (value input)) :
    inputs.mapM f = .ok (inputs.map value) := by
  induction inputs with
  | nil => rfl
  | cons input inputs induction =>
      rw [List.forall_mem_cons] at each
      rw [List.mapM_cons, each.1, induction each.2]
      rfl

theorem mapM_take {β : Type v} {f : α → Except ε β} {inputs : List α} {outputs : List β}
    (done : inputs.mapM f = .ok outputs) (n : Nat) :
    (inputs.take n).mapM f = .ok (outputs.take n) := by
  induction inputs generalizing outputs n with
  | nil =>
      cases done
      cases n <;> rfl
  | cons input inputs induction =>
      obtain ⟨first, later, computed, rest, rfl⟩ := mapM_cons_eq_ok done
      cases n with
      | zero => rfl
      | succ n =>
          rw [List.take_succ_cons, List.mapM_cons, computed, induction rest n]
          rfl

/-- Whether a computation fails with a given error can be decided without comparing
results. -/
instance decidableEqError {ε : Type u} {α : Type v} [DecidableEq ε] (result : Except ε α)
    (error : ε) : Decidable (result = .error error) :=
  match result with
  | .ok _ => isFalse nofun
  | .error other => decidable_of_iff (other = error) (by simp)

theorem except_exists_of_isOk {α : Type v} {result : Except ε α} (ok : result.isOk = true) :
    ∃ value, result = .ok value := by
  cases result with
  | error reason => cases ok
  | ok value => exact ⟨value, rfl⟩

def Ensures {ε : Type u} {α : Type v} (good : α → Prop) (bad : ε → Prop) : Except ε α → Prop
  | .ok value => good value
  | .error reason => bad reason

instance decidableEnsures {ε : Type u} {α : Type v} (good : α → Prop) (bad : ε → Prop)
    [DecidablePred good] [DecidablePred bad] (result : Except ε α) :
    Decidable (Ensures good bad result) :=
  match result with
  | .ok value => inferInstanceAs (Decidable (good value))
  | .error reason => inferInstanceAs (Decidable (bad reason))

theorem Ensures.exists_ok {α : Type v} {result : Except ε α} {good : α → Prop}
    (ensures : Ensures good (fun _ => False) result) :
    ∃ value, result = .ok value ∧ good value := by
  cases result with
  | error reason => exact ensures.elim
  | ok value => exact ⟨value, rfl, ensures⟩

theorem Ensures.mono {α : Type v} {result : Except ε α} {good other : α → Prop}
    {bad worse : ε → Prop} (ensures : Ensures good bad result)
    (weaker : ∀ value, good value → other value) (worsen : ∀ reason, bad reason → worse reason) :
    Ensures other worse result := by
  cases result with
  | error reason => exact worsen reason ensures
  | ok value => exact weaker value ensures

theorem Ensures.bind {α β : Type v} {first : Except ε α} {next : α → Except ε β} (middle : α → Prop)
    {good : β → Prop} {bad : ε → Prop} (before : Ensures middle bad first)
    (after : ∀ value, middle value → Ensures good bad (next value)) :
    Ensures good bad (first >>= next) := by
  cases first with
  | error reason => exact before
  | ok value => exact after value before

theorem Ensures.foldlM {σ : Type v} {ι : Type w} {step : σ → ι → Except ε σ} {invariant : σ → Prop}
    {bad : ε → Prop}
    (preserved : ∀ state input, invariant state → Ensures invariant bad (step state input))
    {inputs : List ι} {init : σ} (start : invariant init) :
    Ensures invariant bad (inputs.foldlM step init) := by
  induction inputs generalizing init with
  | nil => exact start
  | cons input inputs induction =>
      rw [List.foldlM_cons]
      exact Ensures.bind invariant (preserved init input start) fun next kept => induction kept

theorem foldlM_take_succ {σ : Type v} {ι : Type w} (step : σ → ι → Except ε σ) (inputs : List ι)
    {n : Nat} {input : ι} (next : inputs[n]? = some input) (init : σ) :
    (inputs.take (n + 1)).foldlM step init =
      (inputs.take n).foldlM step init >>= fun state => step state input := by
  have split : inputs.take (n + 1) = inputs.take n ++ [input] := by
    rw [List.take_add_one, next]
    rfl
  rw [split, List.foldlM_append]
  congr 1
  funext state
  rw [List.foldlM_cons]
  cases step state input <;> rfl

/-- The part of a state that only some of the inputs change, and those by a step of its
own, comes out of a run as out of a run on these inputs. -/
theorem foldlM_filter_eq_ok {σ τ : Type v} {ι : Type w} (observe : σ → τ)
    {step : σ → ι → Except ε σ} {ownStep : τ → ι → Except ε τ} {own : ι → Bool}
    (follows : ∀ {state after : σ} {input : ι}, step state input = .ok after →
      if own input then ownStep (observe state) input = .ok (observe after)
      else observe after = observe state)
    {inputs : List ι} {init last : σ} (ran : inputs.foldlM step init = .ok last) :
    (inputs.filter own).foldlM ownStep (observe init) = .ok (observe last) := by
  induction inputs generalizing init with
  | nil =>
      cases ran
      rfl
  | cons input inputs induction =>
      rw [List.foldlM_cons] at ran
      rcases except_bind_eq_ok.mp ran with ⟨after, stepped, rest⟩
      have change := follows stepped
      cases mine : own input with
      | true =>
          rw [mine, if_pos rfl] at change
          rw [List.filter_cons_of_pos mine, List.foldlM_cons, change]
          exact induction rest
      | false =>
          rw [mine, if_neg Bool.false_ne_true] at change
          rw [List.filter_cons_of_neg (by simp [mine]), ← change]
          exact induction rest

/-! ## All states of a fold -/

section Throughout

variable {σ : Type u} {ι : Type v}

def Throughout (step : σ → ι → σ) (good : σ → Prop) : σ → List ι → Prop
  | state, [] => good state
  | state, input :: inputs => good state ∧ Throughout step good (step state input) inputs

variable {step : σ → ι → σ} {good : σ → Prop} {state : σ}

variable {inputs : List ι}

theorem Throughout.first (all : Throughout step good state inputs) : good state := by
  cases inputs with
  | nil => exact all
  | cons input inputs => exact all.1

theorem throughout_append (earlier later : List ι) :
    Throughout step good state (earlier ++ later) ↔
      Throughout step good state earlier ∧
        Throughout step good (earlier.foldl step state) later := by
  induction earlier generalizing state with
  | nil => exact ⟨fun all => ⟨all.first, all⟩, And.right⟩
  | cons input earlier induction =>
      rw [List.cons_append, Throughout, induction, Throughout, and_assoc]
      rfl

theorem throughout_of_invariant {invariant : σ → Prop}
    (preserved : ∀ state input, input ∈ inputs → invariant state → invariant (step state input))
    (implies : ∀ state, invariant state → good state) (start : invariant state) :
    Throughout step good state inputs := by
  induction inputs generalizing state with
  | nil => exact implies state start
  | cons input inputs induction =>
      refine ⟨implies state start, induction ?_ (preserved state input List.mem_cons_self start)⟩
      intro other later member
      exact preserved other later (List.mem_cons_of_mem _ member)

theorem Throughout.transfer (related : σ → σ → Prop) {other : σ}
    (all : Throughout step good state inputs) (start : related state other)
    (steps : ∀ left right input, related left right → related (step left input) (step right input))
    (same : ∀ left right, related left right → good left → good right) :
    Throughout step good other inputs := by
  induction inputs generalizing state other with
  | nil => exact same _ _ start all
  | cons input inputs induction =>
      exact ⟨same _ _ start all.1, induction all.2 (steps _ _ _ start)⟩

end Throughout

/-! ## Logs that grow -/

section Logs

variable {α : Type u}

theorem forall_getElem?_concat_iff {holds : List α → α → Prop} {log : List α} {last : α} :
    (∀ n entry, (log ++ [last])[n]? = some entry → holds ((log ++ [last]).take n) entry) ↔
      (∀ n entry, log[n]? = some entry → holds (log.take n) entry) ∧ holds log last := by
  constructor
  · intro all
    refine ⟨fun n entry found => ?_, ?_⟩
    · have within : n < log.length := (List.getElem?_eq_some_iff.mp found).1
      have here := all n entry ((List.getElem?_append_left within).trans found)
      rwa [List.take_append_of_le_length (Nat.le_of_lt within)] at here
    · have here := all log.length last List.getElem?_concat_length
      rwa [List.take_left] at here
  · rintro ⟨before, here⟩ n entry found
    rcases Nat.lt_trichotomy n log.length with within | atEnd | beyond
    · rw [List.getElem?_append_left within] at found
      rw [List.take_append_of_le_length (Nat.le_of_lt within)]
      exact before n entry found
    · rw [atEnd, List.getElem?_concat_length, Option.some_inj] at found
      rw [atEnd, List.take_left, ← found]
      exact here
    · rw [List.getElem?_eq_none (by rw [List.length_append]; exact beyond)] at found
      cases found

/-- An entry of the log, behind those before it, starts something, and no later one stops it. -/
def Since (starts stops : List α → α → Prop) (log : List α) : Prop :=
  ∃ n entry, log[n]? = some entry ∧ starts (log.take n) entry ∧
    ∀ m other, n < m → log[m]? = some other → ¬ stops (log.take m) other

theorem not_since_nil {starts stops : List α → α → Prop} : ¬ Since starts stops [] := by
  rintro ⟨n, entry, found, -⟩
  cases found

theorem since_concat_iff {starts stops : List α → α → Prop} {log : List α} {last : α} :
    Since starts stops (log ++ [last]) ↔
      starts log last ∨ Since starts stops log ∧ ¬ stops log last := by
  have before {n : Nat} (within : n < log.length) :
      (log ++ [last])[n]? = log[n]? ∧ (log ++ [last]).take n = log.take n :=
    ⟨List.getElem?_append_left within, List.take_append_of_le_length (Nat.le_of_lt within)⟩
  have bounded {n : Nat} {entry : α} (found : (log ++ [last])[n]? = some entry) :
      n < log.length ∨ n = log.length ∧ entry = last := by
    have within := (List.getElem?_eq_some_iff.mp found).1
    rw [List.length_append, List.length_singleton] at within
    rcases Nat.lt_or_eq_of_le (Nat.le_of_lt_succ within) with earlier | rfl
    · exact .inl earlier
    · rw [List.getElem?_concat_length, Option.some_inj] at found
      exact .inr ⟨rfl, found.symm⟩
  constructor
  · rintro ⟨n, entry, found, started, lasting⟩
    rcases bounded found with within | ⟨rfl, rfl⟩
    · rw [(before within).1] at found
      rw [(before within).2] at started
      refine .inr ⟨⟨n, entry, found, started, fun m other later next => ?_⟩, ?_⟩
      · have inside := (List.getElem?_eq_some_iff.mp next).1
        have goesOn := lasting m other later ((before inside).1.trans next)
        rwa [(before inside).2] at goesOn
      · have goesOn := lasting log.length last within List.getElem?_concat_length
        rwa [List.take_left] at goesOn
    · rw [List.take_left] at started
      exact .inl started
  · rintro (started | ⟨⟨n, entry, found, started, lasting⟩, goesOn⟩)
    · refine ⟨log.length, last, List.getElem?_concat_length, ?_, fun m other later next => ?_⟩
      · rwa [List.take_left]
      · rcases bounded next with within | ⟨rfl, -⟩
        · exact absurd later (Nat.not_lt.mpr (Nat.le_of_lt within))
        · exact absurd later (Nat.lt_irrefl _)
    · have within := (List.getElem?_eq_some_iff.mp found).1
      refine ⟨n, entry, (before within).1.trans found, ?_, fun m other later next => ?_⟩
      · rwa [(before within).2]
      · rcases bounded next with inside | ⟨rfl, rfl⟩
        · rw [(before inside).1] at next
          rw [(before inside).2]
          exact lasting m other later next
        · rwa [List.take_left]

end Logs

/-! ## Labelled runs -/

section Histories

variable {σ : Type u} {ε : Type v}

inductive History (step : σ → ε → σ → Prop) : σ → List ε → σ → Prop where
  | nil (state : σ) : History step state [] state
  | cons {state next last : σ} {event : ε} {events : List ε} :
      step state event next → History step next events last →
        History step state (event :: events) last

variable {step : σ → ε → σ → Prop}

theorem History.append {first middle last : σ} {earlier later : List ε}
    (front : History step first earlier middle) (back : History step middle later last) :
    History step first (earlier ++ later) last := by
  induction front with
  | nil => exact back
  | cons stepped _ induction => exact .cons stepped (induction back)

theorem History.exists_middle {first last : σ} {earlier later : List ε}
    (whole : History step first (earlier ++ later) last) :
    ∃ middle, History step first earlier middle ∧ History step middle later last := by
  induction earlier generalizing first with
  | nil => exact ⟨first, .nil first, whole⟩
  | cons event earlier induction =>
      cases whole with
      | cons stepped rest =>
          rcases induction rest with ⟨middle, front, back⟩
          exact ⟨middle, .cons stepped front, back⟩

def emitted {τ : Type w} {ι : Type x} (advance : τ → ι → τ) (emit : τ → ι → List ε) :
    τ → List ι → List ε
  | _, [] => []
  | state, input :: inputs =>
      emit state input ++ emitted advance emit (advance state input) inputs

theorem emitted_append {τ : Type w} {ι : Type x} (advance : τ → ι → τ) (emit : τ → ι → List ε)
    (state : τ) (earlier later : List ι) :
    emitted advance emit state (earlier ++ later) =
      emitted advance emit state earlier ++
        emitted advance emit (earlier.foldl advance state) later := by
  induction earlier generalizing state with
  | nil => rfl
  | cons input earlier induction =>
      rw [List.cons_append, emitted, emitted, induction, List.append_assoc]
      rfl

theorem History.emitted {τ : Type w} {ι : Type x} {advance : τ → ι → τ}
    {emit : τ → ι → List ε} (observe : τ → σ)
    (single : ∀ state input,
      History step (observe state) (emit state input) (observe (advance state input)))
    (state : τ) (inputs : List ι) :
    History step (observe state) (ProtoFH.emitted advance emit state inputs)
      (observe (inputs.foldl advance state)) := by
  induction inputs generalizing state with
  | nil => exact .nil _
  | cons input inputs induction =>
      exact (single state input).append (induction (advance state input))

end Histories

end ProtoFH
