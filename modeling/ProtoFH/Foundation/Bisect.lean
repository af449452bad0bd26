import Mathlib.Tactic

/-! # Binary search

The search of `bisect` over a list, with the predicate that sends it to the right as
a parameter, and what it finds in an ascending list. -/

namespace ProtoFH

/-- The loop over a window `[low, high)`: half of it is dropped in every round. -/
def bisectFrom (before : α → Bool) (values : List α) : (rounds low high : Nat) → Nat
  | 0, low, _ => low
  | rounds + 1, low, high =>
      if low < high then
        let middle := (low + high) / 2
        if values[middle]?.any before then bisectFrom before values rounds (middle + 1) high
        else bisectFrom before values rounds low middle
      else low

def bisect (before : α → Bool) (values : List α) : Nat :=
  bisectFrom before values values.length 0 values.length

theorem bisectFrom_eq {before : α → Bool} {front back : List α}
    (earlier : ∀ value ∈ front, before value = true)
    (later : ∀ value ∈ back, before value = false) {rounds low high : Nat}
    (enough : high - low ≤ rounds) (above : low ≤ front.length) (below : front.length ≤ high)
    (inside : high ≤ (front ++ back).length) :
    bisectFrom before (front ++ back) rounds low high = front.length := by
  induction rounds generalizing low high with
  | zero =>
      rw [bisectFrom]
      omega
  | succ rounds induction =>
      rw [bisectFrom]
      by_cases open_ : low < high
      · rw [if_pos open_]
        dsimp only
        by_cases left : (low + high) / 2 < front.length
        · have sent : ((front ++ back)[(low + high) / 2]?.any before) = true := by
            rw [List.getElem?_append_left left, List.getElem?_eq_getElem left]
            exact earlier _ (List.getElem_mem left)
          rw [if_pos sent]
          exact induction (by omega) (by omega) below inside
        · have within : (low + high) / 2 - front.length < back.length := by
            rw [List.length_append] at inside
            omega
          have kept : ((front ++ back)[(low + high) / 2]?.any before) = false := by
            rw [List.getElem?_append_right (by omega), List.getElem?_eq_getElem within]
            exact later _ (List.getElem_mem within)
          rw [kept, if_neg Bool.false_ne_true]
          exact induction (by omega) above (by omega) (by omega)
      · rw [if_neg open_]
        omega

theorem bisect_eq {before : α → Bool} {front back : List α}
    (earlier : ∀ value ∈ front, before value = true)
    (later : ∀ value ∈ back, before value = false) :
    bisect before (front ++ back) = front.length :=
  bisectFrom_eq earlier later (Nat.le_refl _) (Nat.zero_le _) (by simp) (Nat.le_refl _)

def bisectLeft (values : List Nat) (value : Nat) : Nat := bisect (fun other => other < value) values

def bisectRight (values : List Nat) (value : Nat) : Nat :=
  bisect (fun other => !(value < other)) values

/-- `insort`: insert behind the values that are not greater. -/
def insort (values : List Nat) (value : Nat) : List Nat :=
  values.insertIdx (bisectRight values value) value

/-! ## Ascending lists -/

theorem insertIdx_length_append (front back : List α) (value : α) :
    (front ++ back).insertIdx front.length value = front ++ value :: back := by
  induction front with
  | nil => simp
  | cons first rest induction => simp [induction]

section Ascending

variable {values : List Nat} (ascending : values.Pairwise (· < ·)) (value : Nat)
include ascending

theorem exists_cut :
    ∃ front back, values = front ++ back ∧ (∀ other ∈ front, other < value) ∧
      ∀ other ∈ back, value ≤ other := by
  induction values with
  | nil => exact ⟨[], [], rfl, by simp, by simp⟩
  | cons first rest induction =>
      rw [List.pairwise_cons] at ascending
      by_cases small : first < value
      · rcases induction ascending.2 with ⟨front, back, cut, below, above⟩
        refine ⟨first :: front, back, by rw [cut]; rfl, ?_, above⟩
        rw [List.forall_mem_cons]
        exact ⟨small, below⟩
      · refine ⟨[], first :: rest, rfl, by simp, ?_⟩
        rw [List.forall_mem_cons]
        refine ⟨Nat.le_of_not_lt small, ?_⟩
        intro other member
        have := ascending.1 other member
        omega

theorem bisectLeft_cut :
    ∃ front back, values = front ++ back ∧ bisectLeft values value = front.length ∧
      (∀ other ∈ front, other < value) ∧ ∀ other ∈ back, value ≤ other := by
  rcases exists_cut ascending value with ⟨front, back, rfl, below, above⟩
  refine ⟨front, back, rfl, bisect_eq ?_ ?_, below, above⟩
  · intro other member
    exact decide_eq_true (below other member)
  · intro other member
    exact decide_eq_false (Nat.not_lt.mpr (above other member))

theorem bisectRight_cut :
    ∃ front back, values = front ++ back ∧ bisectRight values value = front.length ∧
      (∀ other ∈ front, other ≤ value) ∧ ∀ other ∈ back, value < other := by
  rcases exists_cut ascending (value + 1) with ⟨front, back, rfl, below, above⟩
  refine ⟨front, back, rfl, bisect_eq ?_ ?_, ?_, above⟩
  · intro other member
    have := below other member
    simp only [Bool.not_eq_true', decide_eq_false_iff_not]
    omega
  · intro other member
    have := above other member
    simp only [Bool.not_eq_false', decide_eq_true_eq]
    omega
  · intro other member
    exact Nat.le_of_lt_succ (below other member)

theorem insort_ascending (fresh : value ∉ values) :
    (insort values value).Pairwise (· < ·) ∧
      ∀ other, other ∈ insort values value ↔ other = value ∨ other ∈ values := by
  rcases bisectRight_cut ascending value with ⟨front, back, rfl, place, below, above⟩
  have inserted : insort (front ++ back) value = front ++ value :: back := by
    rw [insort, place, insertIdx_length_append]
  rw [inserted]
  constructor
  · rw [List.pairwise_append] at ascending ⊢
    refine ⟨ascending.1, List.pairwise_cons.mpr ⟨above, ascending.2.1⟩, ?_⟩
    intro left inFront right inRest
    rcases List.mem_cons.mp inRest with rfl | inBack
    · have different : left ≠ right := fun equal =>
        fresh (List.mem_append_left _ (equal ▸ inFront))
      exact Nat.lt_of_le_of_ne (below left inFront) different
    · exact ascending.2.2 left inFront right inBack
  · intro other
    simp only [List.mem_append, List.mem_cons]
    tauto

theorem eraseIdx_bisectLeft (member : value ∈ values) :
    (values.eraseIdx (bisectLeft values value)).Pairwise (· < ·) ∧
      ∀ other, other ∈ values.eraseIdx (bisectLeft values value) ↔
        other ∈ values ∧ other ≠ value := by
  refine ⟨ascending.sublist (List.eraseIdx_sublist _ _), ?_⟩
  rcases bisectLeft_cut ascending value with ⟨front, back, rfl, place, below, above⟩
  have inBack : value ∈ back := by
    rcases List.mem_append.mp member with inFront | inBack
    · exact absurd (below value inFront) (Nat.lt_irrefl value)
    · exact inBack
  have distinct := (List.pairwise_append.mp ascending)
  cases back with
  | nil => cases inBack
  | cons first rest =>
      have first_eq : first = value := by
        rcases List.mem_cons.mp inBack with equal | inRest
        · exact equal.symm
        · have less := (List.pairwise_cons.mp distinct.2.1).1 value inRest
          have := above first List.mem_cons_self
          omega
      subst first_eq
      have erased : (front ++ first :: rest).eraseIdx front.length = front ++ rest := by
        rw [List.eraseIdx_append_of_length_le (Nat.le_refl _)]
        simp
      rw [place, erased]
      intro other
      simp only [List.mem_append, List.mem_cons]
      constructor
      · rintro (inFront | inRest)
        · exact ⟨Or.inl inFront, Nat.ne_of_lt (below other inFront)⟩
        · exact ⟨Or.inr (Or.inr inRest),
            Nat.ne_of_gt ((List.pairwise_cons.mp distinct.2.1).1 other inRest)⟩
      · rintro ⟨inFront | equal | inRest, different⟩
        · exact Or.inl inFront
        · exact absurd equal different
        · exact Or.inr inRest

end Ascending

end ProtoFH
