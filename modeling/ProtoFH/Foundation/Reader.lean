import ProtoFH.Foundation.Bytes

/-! # Reading fields in sequence

A decoder walks over its buffer and may give up with a reason. Each primitive
takes back what the corresponding writer put in front of the rest. -/

namespace ProtoFH

abbrev Reader := StateT Bytes (Except String)

namespace Reader

def u8 : Reader UInt8 := fun p => .ok (beGetU8 p, p.drop 1)
def u32 : Reader UInt32 := fun p => .ok (beGetU32 p, p.drop 4)
def u64 : Reader UInt64 := fun p => .ok (beGetU64 p, p.drop 8)
def alpha (width : Nat) : Reader (CStr width) := fun p => .ok (getAlpha width p, p.drop width)

@[simp] theorem u8_put (value : UInt8) (rest : Bytes) :
    u8 (bePutU8 value ++ rest) = .ok (value, rest) := rfl

@[simp] theorem u32_put (value : UInt32) (rest : Bytes) :
    u32 (bePutU32 value ++ rest) = .ok (value, rest) := by
  rw [u32, beGetU32_put, drop_append_of_length rest 4 (bePutU32_length value)]

@[simp] theorem u64_put (value : UInt64) (rest : Bytes) :
    u64 (bePutU64 value ++ rest) = .ok (value, rest) := by
  rw [u64, beGetU64_put, drop_append_of_length rest 8 (bePutU64_length value)]

@[simp] theorem alpha_put (s : CStr width) (rest : Bytes) :
    alpha width (putAlpha width s.bytes ++ rest) = .ok (s.trimmed, rest) := by
  rw [alpha, getAlpha_put, drop_append_of_length rest width (putAlpha_length width s.bytes)]

@[simp] theorem pure_apply (value : α) (p : Bytes) :
    (pure value : Reader α) p = .ok (value, p) := rfl

@[simp] theorem bind_apply (first : Reader α) (next : α → Reader β) (p : Bytes) :
    (first >>= next) p =
      match first p with
      | .ok (value, rest) => next value rest
      | .error reason => .error reason := by
  change (first p >>= fun result => next result.1 result.2) = _
  cases first p <;> rfl

theorem bind_eq_ok {first : Reader α} {next : α → Reader β} {p : Bytes} {result : β × Bytes}
    (read : (first >>= next) p = .ok result) :
    ∃ value rest, first p = .ok (value, rest) ∧ next value rest = .ok result := by
  rw [bind_apply] at read
  split at read
  · next value rest front => exact ⟨value, rest, front, read⟩
  · cases read

@[simp] theorem map_apply (convert : α → β) (reader : Reader α) (p : Bytes) :
    (convert <$> reader) p =
      match reader p with
      | .ok (value, rest) => .ok (convert value, rest)
      | .error reason => .error reason := by
  change (reader p >>= fun result => pure (convert result.1, result.2)) = _
  cases reader p <;> rfl

end Reader

end ProtoFH
