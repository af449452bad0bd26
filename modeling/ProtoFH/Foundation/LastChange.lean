import Mathlib.Data.List.Destutter
import Mathlib.Tactic

/-! # The last change of a sequence

Whether the last strict change in a sequence of values was upward. Values that repeat
the one before them do not count. -/

namespace ProtoFH

universe u

variable {α : Type u} [LinearOrder α]

def EndsUp (values : List α) : Prop :=
  ∃ front last new rest, values = front ++ last :: new :: rest ∧ last < new ∧
    ∀ value ∈ rest, value = new

theorem not_endsUp_nil : ¬ EndsUp ([] : List α) := by
  rintro ⟨front, last, new, rest, equal, -⟩
  simp at equal

theorem not_endsUp_singleton (value : α) : ¬ EndsUp [value] := by
  rintro ⟨front, last, new, rest, equal, -⟩
  have length := congrArg List.length equal
  simp at length
  omega

omit [LinearOrder α] in
theorem getLast?_change (front : List α) {last new : α} {rest : List α}
    (flat : ∀ value ∈ rest, value = new) :
    (front ++ last :: new :: rest).getLast? = some new := by
  rcases List.eq_nil_or_concat rest with rfl | ⟨init, final, rfl⟩
  · simp
  · have final_eq := flat final (by simp)
    subst final_eq
    have split : front ++ last :: final :: init.concat final =
        (front ++ last :: final :: init) ++ [final] := by simp
    rw [split, List.getLast?_concat]

theorem endsUp_concat {values : List α} {last : α} (here : values.getLast? = some last)
    (new : α) :
    EndsUp (values ++ [new]) ↔ last < new ∨ last = new ∧ EndsUp values := by
  constructor
  · rintro ⟨front, before, changed, rest, equal, less, flat⟩
    rcases List.eq_nil_or_concat rest with rfl | ⟨init, final, rfl⟩
    · have split : values ++ [new] = (front ++ [before]) ++ [changed] := by simpa using equal
      obtain ⟨rfl, same⟩ := List.append_inj' split rfl
      cases same
      simp only [List.getLast?_concat, Option.some.injEq] at here
      rw [← here]
      exact .inl less
    · have split : values ++ [new] = (front ++ before :: changed :: init) ++ [final] := by
        simpa using equal
      obtain ⟨rfl, same⟩ := List.append_inj' split rfl
      cases same
      have repeated : new = changed := flat new (by simp)
      have flatInit : ∀ value ∈ init, value = changed := fun value member =>
        flat value (by simp [member])
      rw [getLast?_change front flatInit, Option.some.injEq] at here
      exact .inr ⟨here.symm.trans repeated.symm, front, before, changed, init, rfl, less, flatInit⟩
  · rintro (less | ⟨rfl, front, before, changed, rest, rfl, less, flat⟩)
    · obtain ⟨front, rfl⟩ := List.getLast?_eq_some_iff.mp here
      exact ⟨front, last, new, [], by simp, less, by simp⟩
    · rw [getLast?_change front flat, Option.some.injEq] at here
      refine ⟨front, before, changed, rest ++ [last], by simp, less, ?_⟩
      intro value member
      rcases List.mem_append.mp member with inRest | final
      · exact flat value inRest
      · rw [List.mem_singleton.mp final, here]

/-! ## Repeated values -/

omit [LinearOrder α] in
theorem getLast?_repeat (front : List α) (value : α) (later : List α) :
    (front ++ value :: value :: later).getLast? = (front ++ value :: later).getLast? := by
  simp [List.getLast?_append, List.getLast?_cons_cons]

theorem endsUp_repeat (front : List α) (value : α) (later : List α) :
    EndsUp (front ++ value :: value :: later) ↔ EndsUp (front ++ value :: later) := by
  induction later using List.reverseRecOn with
  | nil =>
      have split : front ++ [value, value] = (front ++ [value]) ++ [value] := by simp
      rw [split, endsUp_concat List.getLast?_concat]
      simp
  | append_singleton later new induction =>
      obtain ⟨last, here⟩ : ∃ last, (front ++ value :: later).getLast? = some last :=
        Option.ne_none_iff_exists'.mp (by simp)
      have twice := (getLast?_repeat front value later).trans here
      rw [← List.cons_append, ← List.cons_append, ← List.append_assoc, ← List.append_assoc,
        endsUp_concat twice, endsUp_concat here, induction]

omit [LinearOrder α] in
/-- What does not see a repeated value does not see its removal either. -/
theorem observe_destutter [DecidableEq α] {observe : List α → β}
    (same : ∀ front value later,
      observe (front ++ value :: value :: later) = observe (front ++ value :: later))
    (values : List α) : observe (values.destutter (· ≠ ·)) = observe values := by
  have follows (front : List α) (value : α) (later : List α) :
      observe (front ++ later.destutter' (· ≠ ·) value) = observe (front ++ value :: later) := by
    induction later generalizing front value with
    | nil => rfl
    | cons new later induction =>
        by_cases repeated : value = new
        · subst repeated
          rw [List.destutter'_cons_neg _ (by simp), induction, same]
        · rw [List.destutter'_cons_pos _ repeated, ← List.singleton_append, ← List.append_assoc,
            induction, List.append_assoc, List.singleton_append]
  cases values with
  | nil => rfl
  | cons value later => exact follows [] value later

theorem endsUp_destutter (values : List α) :
    EndsUp (values.destutter (· ≠ ·)) ↔ EndsUp values :=
  .of_eq (observe_destutter (fun front value later => propext (endsUp_repeat front value later)) _)

theorem getLast?_destutter (values : List α) :
    (values.destutter (· ≠ ·)).getLast? = values.getLast? :=
  observe_destutter getLast?_repeat values

end ProtoFH
