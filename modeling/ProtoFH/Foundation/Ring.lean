import Mathlib.Tactic

/-! # Bounded rings

A ring that keeps the last few of the entries put into it. -/

namespace ProtoFH

def lastFew (cap : Nat) (entries : List α) : List α := entries.drop (entries.length - cap)

@[simp] theorem lastFew_nil (cap : Nat) : lastFew cap ([] : List α) = [] := by
  simp [lastFew]

theorem length_lastFew (cap : Nat) (entries : List α) :
    (lastFew cap entries).length = min entries.length cap := by
  rw [lastFew, List.length_drop]
  omega

theorem lastFew_push (cap : Nat) (entries : List α) (entry : α) :
    lastFew cap (lastFew cap entries ++ [entry]) = lastFew cap (entries ++ [entry]) := by
  have split : entries ++ [entry] =
      entries.take (entries.length - cap) ++ (lastFew cap entries ++ [entry]) := by
    rw [lastFew, ← List.append_assoc, List.take_append_drop]
  have taken : (entries.take (entries.length - cap)).length = entries.length - cap :=
    List.length_take_of_le (Nat.sub_le _ _)
  have length := length_lastFew cap entries
  conv_rhs => rw [lastFew, split]
  rw [List.drop_append, List.drop_eq_nil_of_le, List.nil_append, lastFew]
  · congr 1
    rw [List.length_append, List.length_append, List.length_append, taken, length,
      List.length_singleton]
    omega
  · rw [taken, List.length_append, List.length_append, taken, length, List.length_singleton]
    omega

theorem lastFew_push_inj {cap : Nat} (room : 0 < cap) {entries : List α} {left right : α} :
    lastFew cap (entries ++ [left]) = lastFew cap (entries ++ [right]) ↔ left = right := by
  have newest (entry : α) : (lastFew cap (entries ++ [entry])).getLast? = some entry := by
    rw [lastFew, List.drop_append_of_le_length
      (by rw [List.length_append, List.length_singleton]; omega)]
    simp
  constructor
  · intro same
    have last := congrArg List.getLast? same
    rw [newest, newest] at last
    exact Option.some.inj last
  · rintro rfl
    rfl

theorem eq_of_shifted {first entry : α} {rest : List α}
    (shifted : rest ++ [entry] = first :: rest) : ∀ other ∈ first :: rest, other = entry := by
  induction rest generalizing first with
  | nil =>
      cases shifted
      simp
  | cons second rest induction =>
      rw [List.cons_append, List.cons.injEq] at shifted
      obtain ⟨rfl, later⟩ := shifted
      have all := induction later
      intro other member
      rcases List.mem_cons.mp member with rfl | inRest
      · exact all _ List.mem_cons_self
      · exact all other inRest

theorem lastFew_push_eq_self_iff {cap : Nat} (room : 0 < cap) {ring : List α}
    (bounded : ring.length ≤ cap) {entry : α} :
    lastFew cap (ring ++ [entry]) = ring ↔ ring = List.replicate cap entry := by
  constructor
  · intro unseen
    have length := congrArg List.length unseen
    rw [length_lastFew, List.length_append, List.length_singleton] at length
    have full : ring.length = cap := by omega
    cases ring with
    | nil => simp at length; omega
    | cons first rest =>
        have shift : (first :: rest ++ [entry]).length - cap = 1 := by
          rw [List.length_append, full, List.length_singleton]
          omega
        rw [lastFew, shift, List.cons_append, List.drop_one, List.tail_cons] at unseen
        exact List.eq_replicate_iff.mpr ⟨full, eq_of_shifted unseen⟩
  · rintro rfl
    rw [lastFew, ← List.replicate_succ', List.length_replicate, List.drop_replicate]
    congr 1
    omega

end ProtoFH
