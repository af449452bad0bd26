import Mathlib.Tactic

/-! # Splicing pieces of a list in order

Pieces of one list arrive with their positions. A reader that knows which position it
expects next takes a piece that starts there and passes over every other piece. -/

namespace ProtoFH

structure Piece (whole : List α) where
  start : Nat
  content : List α
  inside : start ≤ whole.length
  agrees : content <+: whole.drop start

namespace Piece

variable {whole : List α}

def stop (piece : Piece whole) : Nat := piece.start + piece.content.length

def Covers (piece : Piece whole) (position : Nat) : Prop :=
  piece.start ≤ position ∧ position < piece.stop

theorem start_le_stop (piece : Piece whole) : piece.start ≤ piece.stop := Nat.le_add_right ..

theorem stop_le (piece : Piece whole) : piece.stop ≤ whole.length := by
  have fits := piece.agrees.length_le
  have inside := piece.inside
  rw [List.length_drop] at fits
  rw [stop]
  omega

theorem take_stop (piece : Piece whole) :
    whole.take piece.stop = whole.take piece.start ++ piece.content := by
  rw [stop, List.take_add, ← List.prefix_iff_eq_take.mp piece.agrees]

def advance (expected : Nat) (piece : Piece whole) : Nat :=
  if piece.start = expected then piece.stop else expected

def reached (expected : Nat) (pieces : List (Piece whole)) : Nat :=
  pieces.foldl advance expected

variable {expected : Nat}

theorem le_advance (expected : Nat) (piece : Piece whole) : expected ≤ advance expected piece := by
  rw [advance]
  split
  · next same => exact same ▸ piece.start_le_stop
  · exact le_rfl

theorem advance_le (piece : Piece whole) (inside : expected ≤ whole.length) :
    advance expected piece ≤ whole.length := by
  rw [advance]
  split
  · exact piece.stop_le
  · exact inside

theorem reached_append (expected : Nat) (earlier later : List (Piece whole)) :
    reached expected (earlier ++ later) = reached (reached expected earlier) later :=
  List.foldl_append

theorem le_reached (expected : Nat) (pieces : List (Piece whole)) :
    expected ≤ reached expected pieces := by
  induction pieces generalizing expected with
  | nil => exact le_rfl
  | cons piece rest induction => exact (le_advance expected piece).trans (induction _)

theorem exists_covers_of_lt_reached {pieces : List (Piece whole)} {position : Nat}
    (low : expected ≤ position) (high : position < reached expected pieces) :
    ∃ piece ∈ pieces, piece.Covers position := by
  induction pieces generalizing expected with
  | nil => exact absurd high (Nat.not_lt.mpr low)
  | cons piece rest induction =>
      by_cases later : advance expected piece ≤ position
      · rcases induction later high with ⟨other, member, covers⟩
        exact ⟨other, List.mem_cons_of_mem _ member, covers⟩
      · refine ⟨piece, List.mem_cons_self, ?_⟩
        rw [advance] at later
        split at later
        · next same => exact ⟨same ▸ low, Nat.not_le.mp later⟩
        · exact absurd low later

end Piece

end ProtoFH
