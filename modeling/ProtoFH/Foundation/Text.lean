import ProtoFH.Foundation.Bytes

/-! # Text and packed fields

Strings of single-byte characters as lists of their codes, and reading packed fields
in sequence: unsigned big-endian integers of any width, raw byte strings, and text
that must be ASCII. -/

namespace ProtoFH

abbrev Text := Bytes

def label (text : String) : Text := text.toList.map ascii

def IsAscii (raw : Bytes) : Prop := ∀ byte ∈ raw, byte < 128

instance (raw : Bytes) : Decidable (IsAscii raw) :=
  inferInstanceAs (Decidable (∀ byte ∈ raw, byte < 128))

def PlainBytes (raw : Bytes) : Prop := ∀ byte ∈ raw, byte ≠ 0 ∧ byte < 128

instance (raw : Bytes) : Decidable (PlainBytes raw) :=
  inferInstanceAs (Decidable (∀ byte ∈ raw, byte ≠ 0 ∧ byte < 128))

theorem PlainBytes.isAscii {raw : Bytes} (plain : PlainBytes raw) : IsAscii raw :=
  fun byte member => (plain byte member).2

theorem PlainBytes.nulFree {raw : Bytes} (plain : PlainBytes raw) : (0 : UInt8) ∉ raw :=
  fun member => (plain 0 member).1 rfl

/-- A reader that may fail with an error of type `ε`. -/
abbrev FieldReader (ε : Type) := StateT Bytes (Except ε)

namespace FieldReader

variable {ε : Type}

def num (width : Nat) : FieldReader ε Nat := fun p => .ok (beNat (p.take width), p.drop width)

/-- `decode("ascii").rstrip(" ")` of `width` bytes; `error` is raised for other bytes. -/
def alpha (error : Bytes → ε) (width : Nat) : FieldReader ε Text := fun p =>
  if IsAscii (p.take width) then .ok (stripRight (p.take width), p.drop width)
  else .error (error (p.take width))

@[simp] theorem num_apply (width : Nat) (p : Bytes) :
    (num width : FieldReader ε Nat) p = .ok (beNat (p.take width), p.drop width) := rfl

variable {p : Bytes}

theorem alpha_of_ascii {error : Bytes → ε} {width : Nat} (isAscii : IsAscii (p.take width)) :
    alpha error width p = .ok (stripRight (p.take width), p.drop width) := if_pos isAscii

@[simp] theorem pure_apply (value : α) (p : Bytes) :
    (pure value : FieldReader ε α) p = .ok (value, p) := rfl

@[simp] theorem bind_apply (first : FieldReader ε α) (next : α → FieldReader ε β) (p : Bytes) :
    (first >>= next) p =
      match first p with
      | .ok (value, rest) => next value rest
      | .error reason => .error reason := by
  change (first p >>= fun result => next result.1 result.2) = _
  cases first p <;> rfl

/-! ## Readers that succeed -/

variable {result : β × Bytes}

theorem bind_eq_ok {first : FieldReader ε α} {next : α → FieldReader ε β} :
    (first >>= next) p = .ok result ↔
      ∃ value rest, first p = .ok (value, rest) ∧ next value rest = .ok result := by
  rw [bind_apply]
  rcases read : first p with reason | ⟨value, rest⟩
  · simp
  · simp

theorem num_bind_eq_ok {width : Nat} {next : Nat → FieldReader ε β} :
    (num width >>= next) p = .ok result ↔
      next (beNat (p.take width)) (p.drop width) = .ok result := by
  rw [bind_apply, num_apply]

theorem alpha_bind_eq_ok {error : Bytes → ε} {width : Nat} {next : Text → FieldReader ε β} :
    (alpha error width >>= next) p = .ok result ↔
      IsAscii (p.take width) ∧ next (stripRight (p.take width)) (p.drop width) = .ok result := by
  rw [bind_apply, alpha]
  by_cases isAscii : IsAscii (p.take width)
  · simp [isAscii]
  · simp [isAscii]

theorem pure_eq_ok {value read : α} {p rest : Bytes} :
    (pure value : FieldReader ε α) p = .ok (read, rest) ↔ read = value ∧ rest = p := by
  rw [pure_apply, Except.ok.injEq, Prod.mk.injEq, eq_comm, @eq_comm _ p]

end FieldReader

end ProtoFH
