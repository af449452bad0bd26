import Mathlib.Data.List.Nodup
import Mathlib.Data.List.Chain

/-! # Iterating over a list that the body changes

An iterator over a list is an index. A body that removes the item it is given moves the next
one into its place, and the iterator passes over it. -/

namespace ProtoFH

variable {α : Type u}

def reached (drops : α → Bool) : List α → List α
  | [] => []
  | [item] => [item]
  | item :: next :: rest =>
      if drops item then item :: reached drops rest else item :: reached drops (next :: rest)

theorem reached_sublist (drops : α → Bool) (items : List α) :
    (reached drops items).Sublist items := by
  fun_induction reached drops items with
  | case1 => exact List.Sublist.slnil
  | case2 item => exact List.Sublist.refl _
  | case3 item next rest removed induction => exact (induction.cons next).cons_cons item
  | case4 item next rest stays induction => exact induction.cons_cons item

theorem forall_reached_iff {drops : α → Bool} {wanted : α → Prop} {items : List α}
    (distinct : items.Nodup) (removed : ∀ item, drops item = true → wanted item) :
    (∀ item ∈ items, wanted item → item ∈ reached drops items) ↔
      items.IsChain fun item next => drops item = true → ¬ wanted next := by
  have behind {item : α} {rest : List α} (fresh : item ∉ rest) :
      (∀ other ∈ rest, wanted other → other ∈ item :: reached drops rest) ↔
        ∀ other ∈ rest, wanted other → other ∈ reached drops rest := by
    refine forall₃_congr fun other member _ => ?_
    have different : other ≠ item := fun same => fresh (same ▸ member)
    simp [different]
  fun_induction reached drops items with
  | case1 | case2 item => simp
  | case3 item next rest drop induction =>
      simp only [List.nodup_cons, List.mem_cons, not_or] at distinct
      obtain ⟨⟨different, fresh⟩, nextFresh, restDistinct⟩ := distinct
      have skipped : next ∉ item :: reached drops rest := by
        rw [List.mem_cons, not_or]
        exact ⟨Ne.symm different, fun found =>
          nextFresh ((reached_sublist drops rest).subset found)⟩
      have later : (∀ other ∈ rest, wanted other → other ∈ reached drops rest) ↔
          rest.IsChain fun item next => drops item = true → ¬ wanted next := induction restDistinct
      rw [List.forall_mem_cons, List.forall_mem_cons, behind fresh, later,
        List.isChain_cons_cons, List.isChain_cons]
      simp only [List.mem_cons_self, implies_true, skipped, imp_false, true_and, drop,
        true_implies]
      constructor
      · rintro ⟨unwanted, chain⟩
        exact ⟨unwanted, fun _ _ dropNext => absurd (removed next dropNext) unwanted, chain⟩
      · rintro ⟨unwanted, -, chain⟩
        exact ⟨unwanted, chain⟩
  | case4 item next rest stays induction =>
      rw [List.nodup_cons] at distinct
      have later : (∀ other ∈ next :: rest, wanted other → other ∈ reached drops (next :: rest)) ↔
          (next :: rest).IsChain fun item next => drops item = true → ¬ wanted next :=
        induction distinct.2
      rw [List.forall_mem_cons, List.isChain_cons_cons, ← later]
      simp only [List.mem_cons_self, implies_true, true_and, stays, false_implies,
        Bool.false_eq_true]
      exact forall₃_congr fun other member _ => by
        have different : other ≠ item := fun same => distinct.1 (same ▸ member)
        rw [List.mem_cons, or_iff_right different]

/-! ## The loop -/

/-- A loop over a list in the state. Its body touches nothing but the item it is given,
which it may remove from the list. -/
structure LocalLoop (σ : Type u) (α : Type v) (β : Type w) [DecidableEq α] where
  items : σ → List α
  view : σ → α → β
  act : σ → α → σ
  change : α → β → β
  drops : α → β → Bool
  items_act : ∀ state item, items (act state item) =
    if drops item (view state item) then (items state).erase item else items state
  view_act : ∀ state item other, view (act state item) other =
    if other = item then change item (view state item) else view state other

namespace LocalLoop

variable {σ : Type u} {α : Type v} {β : Type w} [DecidableEq α] (loop : LocalLoop σ α β)

/-- The loop from an index on, with at most `fuel` calls of its body. -/
def runFrom : (fuel index : Nat) → σ → σ
  | 0, _, state => state
  | fuel + 1, index, state =>
      match (loop.items state)[index]? with
      | none => state
      | some item => runFrom fuel (index + 1) (loop.act state item)

/-- `for item in items`. No body adds an item, so the length of the list bounds the calls. -/
def run (state : σ) : σ := loop.runFrom (loop.items state).length 0 state

theorem run_invariant (invariant : σ → Prop)
    (kept : ∀ state item, item ∈ loop.items state → invariant state →
      invariant (loop.act state item)) {state : σ} (start : invariant state) :
    invariant (loop.run state) := by
  have stepwise (fuel index : Nat) (state : σ) (start : invariant state) :
      invariant (loop.runFrom fuel index state) := by
    induction fuel generalizing index state with
    | zero => exact start
    | succ fuel induction =>
        rw [runFrom]
        split
        · exact start
        · next item found =>
            exact induction _ _ (kept state item (List.mem_of_getElem? found) start)
  exact stepwise _ _ state start

def reaches (state : σ) : List α :=
  reached (fun item => loop.drops item (loop.view state item)) (loop.items state)

theorem runFrom_item {front rest : List α} {item : α} {state : σ}
    (shape : loop.items state = front ++ item :: rest) (fuel : Nat) :
    loop.runFrom (fuel + 1) front.length state =
      loop.runFrom fuel (front.length + 1) (loop.act state item) := by
  rw [runFrom, shape, List.getElem?_append_right (Nat.le_refl _), Nat.sub_self]
  rfl

theorem runFrom_end {state : σ} {index : Nat} (short : (loop.items state).length ≤ index)
    (fuel : Nat) : loop.runFrom fuel index state = state := by
  cases fuel with
  | zero => rfl
  | succ fuel => rw [runFrom, List.getElem?_eq_none short]

theorem view_turn {state : σ} {item : α} {later : List α} (fresh : item ∉ later) {last : σ}
    (rest : ∀ other, loop.view last other =
      if other ∈ later then loop.change other (loop.view (loop.act state item) other)
      else loop.view (loop.act state item) other) (other : α) :
    loop.view last other =
      if other ∈ item :: later then loop.change other (loop.view state other)
      else loop.view state other := by
  rw [rest, loop.view_act]
  by_cases own : other = item
  · subst own
    rw [if_neg fresh, if_pos rfl, if_pos List.mem_cons_self]
  · simp only [List.mem_cons, own, false_or, if_false]

theorem view_runFrom {decides : α → Bool} {front rest : List α} {state : σ} {fuel : Nat}
    (shape : loop.items state = front ++ rest) (distinct : (front ++ rest).Nodup)
    (agrees : ∀ item ∈ rest, loop.drops item (loop.view state item) = decides item)
    (enough : rest.length ≤ fuel) (other : α) :
    loop.view (loop.runFrom fuel front.length state) other =
      if other ∈ reached decides rest then loop.change other (loop.view state other)
      else loop.view state other := by
  fun_induction reached decides rest generalizing front state fuel other with
  | case1 =>
      rw [loop.runFrom_end (by rw [shape, List.append_nil]), if_neg List.not_mem_nil]
  | case2 item =>
      obtain ⟨fuel, rfl⟩ := Nat.exists_eq_add_of_le' enough
      rw [List.length_singleton, loop.runFrom_item shape]
      have short : (loop.items (loop.act state item)).length ≤ front.length + 1 := by
        rw [loop.items_act, shape]
        split
        · exact (List.length_erase_le).trans (by simp)
        · simp
      rw [loop.runFrom_end short]
      exact loop.view_turn List.not_mem_nil (fun _ => by rw [if_neg List.not_mem_nil]) other
  | case3 item next rest drop induction =>
      obtain ⟨fuel, rfl⟩ := Nat.exists_eq_add_of_le' enough
      have apart := List.nodup_append.mp distinct
      have fresh : item ∉ next :: rest := (List.nodup_cons.mp apart.2.1).1
      have behind : item ∉ front := fun member =>
        apart.2.2 item member item List.mem_cons_self rfl
      have left : loop.items (loop.act state item) = front ++ [next] ++ rest := by
        rw [loop.items_act, agrees item List.mem_cons_self, if_pos drop, shape,
          List.erase_append_right _ behind, List.erase_cons_head, List.append_assoc]
        rfl
      rw [show (item :: next :: rest).length = rest.length + 1 + 1 from rfl, ← Nat.add_assoc,
        loop.runFrom_item shape]
      refine loop.view_turn (fun member => fresh (List.mem_cons_of_mem _
        ((reached_sublist decides rest).subset member))) (fun other => ?_) other
      rw [show front.length + 1 = (front ++ [next]).length by simp]
      refine induction left ?_ (fun other member => ?_) (by omega) other
      · rw [List.append_assoc]
        exact distinct.sublist ((List.Sublist.refl front).append (List.sublist_cons_self _ _))
      · have different : other ≠ item := fun same =>
          fresh (List.mem_cons_of_mem _ (same ▸ member))
        rw [loop.view_act, if_neg different]
        exact agrees other (List.mem_cons_of_mem _ (List.mem_cons_of_mem _ member))
  | case4 item next rest stays induction =>
      obtain ⟨fuel, rfl⟩ := Nat.exists_eq_add_of_le' enough
      have apart := List.nodup_append.mp distinct
      have fresh : item ∉ next :: rest := (List.nodup_cons.mp apart.2.1).1
      have left : loop.items (loop.act state item) = front ++ [item] ++ next :: rest := by
        rw [loop.items_act, agrees item List.mem_cons_self, if_neg stays, shape,
          List.append_assoc]
        rfl
      rw [show (item :: next :: rest).length = rest.length + 1 + 1 from rfl, ← Nat.add_assoc,
        loop.runFrom_item shape]
      refine loop.view_turn (fun member => fresh
        ((reached_sublist decides (next :: rest)).subset member)) (fun other => ?_) other
      rw [show front.length + 1 = (front ++ [item]).length by simp]
      refine induction left ?_ (fun other member => ?_) (by simp) other
      · rw [List.append_assoc]
        exact distinct
      · have different : other ≠ item := fun same => fresh (same ▸ member)
        rw [loop.view_act, if_neg different]
        exact agrees other (List.mem_cons_of_mem _ member)

theorem view_run {state : σ} (distinct : (loop.items state).Nodup) (other : α) :
    loop.view (loop.run state) other =
      if other ∈ loop.reaches state then loop.change other (loop.view state other)
      else loop.view state other :=
  loop.view_runFrom (List.nil_append _).symm distinct (fun _ _ => rfl) (Nat.le_refl _) other

end LocalLoop

end ProtoFH
