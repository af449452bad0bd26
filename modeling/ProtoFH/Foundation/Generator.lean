import ProtoFH.Foundation.Bytes

/-! # Generators over a file

A generator reads a file round by round. It yields an item for each round and ends
normally, or raises after the items yielded so far. -/

namespace ProtoFH

inductive FileRound (ε ρ : Type) where
  | ended
  | raised (error : ε)
  | yielded (item : ρ) (rest : Bytes)
deriving DecidableEq

structure FileGenerator (ε ρ : Type) where
  round : Bytes → FileRound ε ρ
  shrinks : ∀ {f rest : Bytes} {item : ρ}, round f = .yielded item rest → rest.length < f.length

namespace FileGenerator

variable (generator : FileGenerator ε ρ) {f rest : Bytes}

/-- The items of at most `fuel` rounds, and the exception behind them. -/
def runUpTo : (fuel : Nat) → Bytes → List ρ × Option ε
  | 0, _ => ([], none)
  | fuel + 1, f =>
      match generator.round f with
      | .ended => ([], none)
      | .raised error => ([], some error)
      | .yielded item rest => (item :: (runUpTo fuel rest).1, (runUpTo fuel rest).2)

/-- The items yielded and the exception behind them. Every item takes at least one byte,
so the length bounds their number. -/
def run (f : Bytes) : List ρ × Option ε := generator.runUpTo (f.length + 1) f

theorem runUpTo_eq_run {fuel : Nat} (enough : f.length < fuel) :
    generator.runUpTo fuel f = generator.run f := by
  suffices ∀ fuel other (f : Bytes), f.length < fuel → f.length < other →
      generator.runUpTo fuel f = generator.runUpTo other f from
    this fuel _ f enough (Nat.lt_succ_self _)
  intro fuel
  induction fuel with
  | zero => exact fun _ _ none => absurd none (Nat.not_lt_zero _)
  | succ fuel induction =>
      intro other f bound otherBound
      cases other with
      | zero => exact absurd otherBound (Nat.not_lt_zero _)
      | succ other =>
          cases round : generator.round f with
          | ended | raised error => simp only [runUpTo, round]
          | yielded item rest =>
              have fewer := generator.shrinks round
              simp only [runUpTo, round, induction other rest (by omega) (by omega)]

theorem run_ended (round : generator.round f = .ended) : generator.run f = ([], none) := by
  rw [run, runUpTo, round]

theorem run_raised {error : ε} (round : generator.round f = .raised error) :
    generator.run f = ([], some error) := by
  rw [run, runUpTo, round]

theorem run_yielded {item : ρ} (round : generator.round f = .yielded item rest) :
    generator.run f = (item :: (generator.run rest).1, (generator.run rest).2) := by
  rw [run, runUpTo, round]
  simp only [generator.runUpTo_eq_run (generator.shrinks round)]

end FileGenerator

/-! ## Records behind a header -/

/-- One record: a header of `headerSize` bytes that tells the size of the body behind it.
`read(n)` returns the next `n` bytes, or what there is of them. -/
def recordRound (headerSize : Nat) (bodySize : Bytes → Nat) (headerCut : ε)
    (bodyCut : Nat → Nat → ε) (f : Bytes) : FileRound ε Bytes :=
  let header := f.take headerSize
  if header = [] then .ended
  else if header.length ≠ headerSize then .raised headerCut
  else
    let size := bodySize header
    let body := (f.drop headerSize).take size
    if body.length ≠ size then .raised (bodyCut size body.length)
    else .yielded body ((f.drop headerSize).drop size)

theorem recordRound_shrinks {headerSize : Nat} {bodySize : Bytes → Nat} {headerCut : ε}
    {bodyCut : Nat → Nat → ε} {f body rest : Bytes}
    (found : recordRound headerSize bodySize headerCut bodyCut f = .yielded body rest) :
    rest.length < f.length := by
  unfold recordRound at found
  dsimp only at found
  split at found
  · cases found
  · next some =>
      split at found
      · cases found
      · split at found
        · cases found
        · cases found
          have front := List.length_pos_of_ne_nil some
          rw [List.length_take] at front
          rw [List.length_drop, List.length_drop]
          omega

def recordGenerator (headerSize : Nat) (bodySize : Bytes → Nat) (headerCut : ε)
    (bodyCut : Nat → Nat → ε) : FileGenerator ε Bytes where
  round := recordRound headerSize bodySize headerCut bodyCut
  shrinks := recordRound_shrinks

end ProtoFH
