import Mathlib.Tactic

/-! # The last write wins

A loop whose steps each either write an observed value or leave it alone. What is
read afterwards is the last value written. -/

namespace ProtoFH

universe u v w

variable {σ : Type u} {ι : Type v} {α : Type w}

/-- The last value that `write` makes of the inputs, if it makes any. -/
def lastWrite (write : ι → Option α) (inputs : List ι) : Option α :=
  inputs.foldl (fun last input => (write input).or last) none

variable {write : ι → Option α}

@[simp] theorem lastWrite_nil : lastWrite write [] = none := rfl

theorem lastWrite_concat (inputs : List ι) (input : ι) :
    lastWrite write (inputs ++ [input]) = (write input).or (lastWrite write inputs) := by
  rw [lastWrite, List.foldl_append]
  rfl

theorem lastWrite_guard (good : ι → Bool) (inputs : List ι) :
    lastWrite (fun input => if good input then some input else none) inputs =
      inputs.findRev? good := by
  induction inputs using List.reverseRecOn with
  | nil => rfl
  | append_singleton inputs input induction =>
      rw [lastWrite_concat, induction, List.findRev?_eq_find?_reverse,
        List.findRev?_eq_find?_reverse, List.reverse_append, List.reverse_singleton,
        List.singleton_append, List.find?_cons]
      cases good input <;> rfl

theorem lastWrite_map {κ : Type u} (write : ι → Option α) (convert : κ → ι) (inputs : List κ) :
    lastWrite write (inputs.map convert) = lastWrite (fun input => write (convert input)) inputs :=
  List.foldl_map

variable {inputs : List ι}

theorem lastWrite_congr {other : ι → Option α}
    (same : ∀ input ∈ inputs, write input = other input) :
    lastWrite write inputs = lastWrite other inputs := by
  induction inputs using List.reverseRecOn with
  | nil => rfl
  | append_singleton inputs input induction =>
      rw [lastWrite_concat, lastWrite_concat, same input (by simp),
        induction fun earlier member => same earlier (List.mem_append_left _ member)]

theorem read_foldl (read : σ → Option α) {step : σ → ι → σ}
    (steps : ∀ state input, read (step state input) = (write input).or (read state))
    (inputs : List ι) (init : σ) :
    read (inputs.foldl step init) = (lastWrite write inputs).or (read init) := by
  induction inputs using List.reverseRecOn with
  | nil => simp
  | append_singleton inputs input induction =>
      rw [List.foldl_append, List.foldl_cons, List.foldl_nil, steps, induction, lastWrite_concat,
        Option.or_assoc]

theorem lastWrite_eq_none_iff (inputs : List ι) :
    lastWrite write inputs = none ↔ ∀ input ∈ inputs, write input = none := by
  induction inputs using List.reverseRecOn with
  | nil => simp
  | append_singleton inputs input induction =>
      rw [lastWrite_concat, Option.or_eq_none_iff, induction]
      simp only [List.mem_append, List.mem_singleton]
      constructor
      · rintro ⟨last, earlier⟩ other (member | rfl)
        · exact earlier other member
        · exact last
      · intro nothing
        exact ⟨nothing input (.inr rfl), fun other member => nothing other (.inl member)⟩

theorem exists_of_lastWrite_eq_some {value : α} (written : lastWrite write inputs = some value) :
    ∃ input ∈ inputs, write input = some value := by
  induction inputs using List.reverseRecOn with
  | nil => cases written
  | append_singleton inputs input induction =>
      rw [lastWrite_concat] at written
      cases here : write input with
      | some other =>
          rw [here, Option.some_or] at written
          exact ⟨input, by simp, by rw [here, written]⟩
      | none =>
          rw [here, Option.none_or] at written
          rcases induction written with ⟨earlier, member, found⟩
          exact ⟨earlier, List.mem_append_left _ member, found⟩

theorem lastWrite_eq_some {value : α} {input : ι} (member : input ∈ inputs)
    (written : write input = some value)
    (only : ∀ other ∈ inputs, ∀ found, write other = some found → found = value) :
    lastWrite write inputs = some value := by
  cases last : lastWrite write inputs with
  | none =>
      rw [(lastWrite_eq_none_iff inputs).mp last input member] at written
      cases written
  | some found =>
      rcases exists_of_lastWrite_eq_some last with ⟨other, inInputs, writes⟩
      rw [only other inInputs found writes]

end ProtoFH
