import Mathlib.Tactic
import Mathlib.Data.List.DropRight

/-! # Bytes on the wire

Fixed-width big-endian integers, NUL-terminated strings held in fixed-size
character arrays, and space-padded alpha fields. Nothing here knows about a
particular record format. -/

namespace ProtoFH

abbrev Bytes := List UInt8

abbrev ascii (c : Char) : UInt8 := c.toUInt8

/-! ## Big-endian integers -/

def beNat (bytes : Bytes) : Nat :=
  bytes.foldl (fun value byte => value * 256 + byte.toNat) 0

/-- The `width` low-order bytes of `value`, most significant first. -/
def bePut : (width : Nat) → (value : Nat) → Bytes
  | 0, _ => []
  | width + 1, value => bePut width (value / 256) ++ [UInt8.ofNat value]

@[simp] theorem bePut_length (width value : Nat) :
    (bePut width value).length = width := by
  induction width generalizing value with
  | zero => rfl
  | succ width induction => simp [bePut, induction]

@[simp] theorem beNat_nil : beNat [] = 0 := rfl

theorem beNat_concat (bytes : Bytes) (last : UInt8) :
    beNat (bytes ++ [last]) = beNat bytes * 256 + last.toNat := by
  simp [beNat, List.foldl_append]

theorem beNat_bePut (width value : Nat) :
    beNat (bePut width value) = value % 256 ^ width := by
  induction width generalizing value with
  | zero => simp [bePut, Nat.mod_one]
  | succ width induction =>
      rw [bePut, beNat_concat, induction]
      have low : (UInt8.ofNat value).toNat = value % 256 := by simp
      rw [low, Nat.pow_succ, Nat.mul_comm (256 ^ width) 256,
        Nat.mod_mul, Nat.mul_comm, Nat.add_comm]

theorem beNat_lt (bytes : Bytes) : beNat bytes < 256 ^ bytes.length := by
  induction bytes using List.reverseRecOn with
  | nil => simp
  | append_singleton bytes last induction =>
      rw [beNat_concat, List.length_append, List.length_singleton, Nat.pow_succ]
      have := last.toNat_lt
      omega

theorem bePut_beNat (bytes : Bytes) :
    bePut bytes.length (beNat bytes) = bytes := by
  induction bytes using List.reverseRecOn with
  | nil => rfl
  | append_singleton bytes last induction =>
      have small := last.toNat_lt
      rw [List.length_append, List.length_singleton, bePut, beNat_concat]
      have high : (beNat bytes * 256 + last.toNat) / 256 = beNat bytes := by omega
      have low : UInt8.ofNat (beNat bytes * 256 + last.toNat) = last := by
        apply UInt8.toNat_inj.mp
        simp
      rw [high, induction, low]

def bePutU8 (value : UInt8) : Bytes := [value]
def bePutU16 (value : UInt16) : Bytes := bePut 2 value.toNat
def bePutU32 (value : UInt32) : Bytes := bePut 4 value.toNat
def bePutU64 (value : UInt64) : Bytes := bePut 8 value.toNat

def beGetU8 (p : Bytes) : UInt8 := p.headD 0
def beGetU16 (p : Bytes) : UInt16 := UInt16.ofNat (beNat (p.take 2))
def beGetU32 (p : Bytes) : UInt32 := UInt32.ofNat (beNat (p.take 4))
def beGetU64 (p : Bytes) : UInt64 := UInt64.ofNat (beNat (p.take 8))

@[simp] theorem bePutU8_length (value : UInt8) : (bePutU8 value).length = 1 := rfl

@[simp] theorem bePutU16_length (value : UInt16) : (bePutU16 value).length = 2 :=
  bePut_length _ _

@[simp] theorem bePutU32_length (value : UInt32) : (bePutU32 value).length = 4 :=
  bePut_length _ _

@[simp] theorem bePutU64_length (value : UInt64) : (bePutU64 value).length = 8 :=
  bePut_length _ _

theorem take_append_of_length {field : Bytes} (rest : Bytes) (width : Nat)
    (length : field.length = width) : (field ++ rest).take width = field := by
  simp [← length]

theorem drop_append_of_length {field : Bytes} (rest : Bytes) (width : Nat)
    (length : field.length = width) : (field ++ rest).drop width = rest := by
  simp [← length]

@[simp] theorem beGetU8_put (value : UInt8) (rest : Bytes) :
    beGetU8 (bePutU8 value ++ rest) = value := rfl

@[simp] theorem beGetU16_put (value : UInt16) (rest : Bytes) :
    beGetU16 (bePutU16 value ++ rest) = value := by
  have small : value.toNat < 256 ^ 2 := value.toNat_lt
  rw [beGetU16, take_append_of_length rest 2 (bePutU16_length value), bePutU16,
    beNat_bePut, Nat.mod_eq_of_lt small, UInt16.ofNat_toNat]

@[simp] theorem beGetU32_put (value : UInt32) (rest : Bytes) :
    beGetU32 (bePutU32 value ++ rest) = value := by
  have small : value.toNat < 256 ^ 4 := value.toNat_lt
  rw [beGetU32, take_append_of_length rest 4 (bePutU32_length value), bePutU32,
    beNat_bePut, Nat.mod_eq_of_lt small, UInt32.ofNat_toNat]

@[simp] theorem beGetU64_put (value : UInt64) (rest : Bytes) :
    beGetU64 (bePutU64 value ++ rest) = value := by
  have small : value.toNat < 256 ^ 8 := value.toNat_lt
  rw [beGetU64, take_append_of_length rest 8 (bePutU64_length value), bePutU64,
    beNat_bePut, Nat.mod_eq_of_lt small, UInt64.ofNat_toNat]

theorem beGetU16_toNat (p : Bytes) : (beGetU16 p).toNat = beNat (p.take 2) := by
  apply UInt16.toNat_ofNat_of_lt'
  have small := beNat_lt (p.take 2)
  exact Nat.lt_of_lt_of_le small (Nat.pow_le_pow_right (by decide) (List.length_take_le 2 p))

theorem beGetU32_toNat (p : Bytes) : (beGetU32 p).toNat = beNat (p.take 4) := by
  apply UInt32.toNat_ofNat_of_lt'
  have small := beNat_lt (p.take 4)
  exact Nat.lt_of_lt_of_le small (Nat.pow_le_pow_right (by decide) (List.length_take_le 4 p))

theorem beGetU64_toNat (p : Bytes) : (beGetU64 p).toNat = beNat (p.take 8) := by
  apply UInt64.toNat_ofNat_of_lt'
  have small := beNat_lt (p.take 8)
  exact Nat.lt_of_lt_of_le small (Nat.pow_le_pow_right (by decide) (List.length_take_le 8 p))

example : bePutU16 0x4A58 = [0x4A, 0x58] := by decide

/-! ### Fields in front of more bytes -/

theorem beGetU8_drop_append {buf : Bytes} (later : Bytes) {offset : Nat}
    (long : offset < buf.length) :
    beGetU8 ((buf ++ later).drop offset) = beGetU8 (buf.drop offset) := by
  rw [List.drop_append_of_le_length (Nat.le_of_lt long)]
  cases rest : buf.drop offset with
  | nil =>
      have := congrArg List.length rest
      simp only [List.length_drop, List.length_nil] at this
      omega
  | cons byte rest => rfl

theorem beGetU16_drop_append {buf : Bytes} (later : Bytes) {offset : Nat}
    (long : offset + 2 ≤ buf.length) :
    beGetU16 ((buf ++ later).drop offset) = beGetU16 (buf.drop offset) := by
  rw [beGetU16, beGetU16, List.drop_append_of_le_length (by omega),
    List.take_append_of_le_length (by rw [List.length_drop]; omega)]

theorem beGetU16_append {buf : Bytes} (later : Bytes) (long : 2 ≤ buf.length) :
    beGetU16 (buf ++ later) = beGetU16 buf := by
  simpa using beGetU16_drop_append later (show 0 + 2 ≤ buf.length by omega)

/-! ## C strings -/

def cstr (s : Bytes) : Bytes := s.takeWhile (· ≠ 0)

theorem zero_notMem_cstr (s : Bytes) : (0 : UInt8) ∉ cstr s := by
  intro member
  simpa using List.mem_takeWhile_imp member

theorem cstr_eq_self {s : Bytes} (terminated : (0 : UInt8) ∉ s) : cstr s = s := by
  rw [cstr, List.takeWhile_eq_self_iff]
  intro byte member
  have different : byte ≠ 0 := fun equal => terminated (equal ▸ member)
  simpa using different

/-- The value of a `char[capacity + 1]` array: at most `capacity` characters,
none of them the terminating NUL. -/
structure CStr (capacity : Nat) where
  bytes : Bytes
  fits : bytes.length ≤ capacity
  terminated : (0 : UInt8) ∉ bytes
deriving DecidableEq

namespace CStr

theorem ext_bytes {left right : CStr capacity} (equal : left.bytes = right.bytes) :
    left = right := by
  cases left
  cases right
  cases equal
  rfl

def empty : CStr capacity := ⟨[], Nat.zero_le _, by simp⟩

/-- `snprintf(out, sizeof(out), "%s", s)`, and equally `strncpy` followed by
writing the terminator: copy up to the first NUL, cut at the capacity. -/
def copy (capacity : Nat) (s : Bytes) : CStr capacity where
  bytes := (cstr s).take capacity
  fits := List.length_take_le _ _
  terminated := fun member => zero_notMem_cstr s (List.mem_of_mem_take member)

theorem copy_bytes_of_fits {s : Bytes} (fits : s.length ≤ capacity)
    (terminated : (0 : UInt8) ∉ s) : (copy capacity s).bytes = s := by
  change (cstr s).take capacity = s
  rw [cstr_eq_self terminated, List.take_of_length_le fits]

instance : Ord (CStr capacity) where
  compare left right := compare left.bytes right.bytes

instance : Std.TransOrd (CStr capacity) where
  eq_swap {left right} :=
    @Std.OrientedCmp.eq_swap Bytes compare _ left.bytes right.bytes
  isLE_trans {left middle right} :=
    @Std.TransCmp.isLE_trans Bytes compare _ left.bytes middle.bytes right.bytes

instance : Std.LawfulEqOrd (CStr capacity) where
  eq_of_compare equal := ext_bytes (Std.LawfulEqOrd.eq_of_compare equal)

instance instTransOrdKey : Std.TransOrd (CStr 4) := instTransOrd

end CStr

/-! ## Alpha fields -/

def space : UInt8 := 32

def stripRight (s : Bytes) : Bytes := s.rdropWhile (· = space)

@[simp] theorem stripRight_nil : stripRight [] = [] := rfl

theorem stripRight_append_spaces (s : Bytes) (count : Nat) :
    stripRight (s ++ List.replicate count space) = stripRight s := by
  induction count with
  | zero => simp
  | succ count induction =>
      rw [List.replicate_succ', ← List.append_assoc, stripRight,
        List.rdropWhile_concat_pos _ _ _ (by simp)]
      exact induction

theorem stripRight_isPrefix (s : Bytes) : (stripRight s).IsPrefix s :=
  List.rdropWhile_prefix _ _

theorem stripRight_length_le (s : Bytes) : (stripRight s).length ≤ s.length :=
  (stripRight_isPrefix s).length_le

@[simp] theorem stripRight_stripRight (s : Bytes) :
    stripRight (stripRight s) = stripRight s :=
  List.rdropWhile_idempotent _ _

/-- `get_alpha`: the field's bytes without their trailing spaces, as the C
string the copy leaves behind. -/
def getAlpha (width : Nat) (p : Bytes) : CStr width where
  bytes := cstr (stripRight (p.take width))
  fits := by
    apply Nat.le_trans ((List.takeWhile_prefix _).length_le)
    exact Nat.le_trans (stripRight_length_le _) (List.length_take_le _ _)
  terminated := zero_notMem_cstr _

/-- `put_alpha`: left-justified, cut at the width, padded with spaces. -/
def putAlpha (width : Nat) (s : Bytes) : Bytes :=
  s.take width ++ List.replicate (width - s.length) space

@[simp] theorem putAlpha_length (width : Nat) (s : Bytes) :
    (putAlpha width s).length = width := by
  simp [putAlpha]
  omega

theorem putAlpha_stripRight {raw : Bytes} (length : raw.length = width) :
    putAlpha width (stripRight raw) = raw := by
  have split : stripRight raw ++ raw.rtakeWhile (· = space) = raw :=
    List.rdropWhile_append_rtakeWhile
  have spaces : raw.rtakeWhile (· = space) =
      List.replicate (raw.rtakeWhile (· = space)).length space := by
    rw [List.eq_replicate_iff]
    exact ⟨rfl, fun byte member => by simpa using List.mem_rtakeWhile_imp member⟩
  have lengths := congrArg List.length split
  rw [List.length_append, length] at lengths
  rw [putAlpha, List.take_of_length_le (length ▸ stripRight_length_le raw)]
  conv_rhs => rw [← split, spaces]
  congr 2
  omega

def CStr.trimmed (s : CStr capacity) : CStr capacity where
  bytes := stripRight s.bytes
  fits := Nat.le_trans (stripRight_length_le _) s.fits
  terminated := fun member => s.terminated ((stripRight_isPrefix _).subset member)

@[simp] theorem getAlpha_put (s : CStr width) (rest : Bytes) :
    getAlpha width (putAlpha width s.bytes ++ rest) = s.trimmed := by
  apply CStr.ext_bytes
  change cstr (stripRight ((putAlpha width s.bytes ++ rest).take width)) = stripRight s.bytes
  rw [take_append_of_length rest width (putAlpha_length width s.bytes), putAlpha,
    stripRight_append_spaces, List.take_of_length_le s.fits]
  exact cstr_eq_self s.trimmed.terminated

theorem getAlpha_trimmed {width : Nat} {p : Bytes} (nulFree : (0 : UInt8) ∉ p.take width) :
    (getAlpha width p).trimmed = getAlpha width p := by
  apply CStr.ext_bytes
  change stripRight (cstr (stripRight (p.take width))) = cstr (stripRight (p.take width))
  rw [cstr_eq_self (fun member => nulFree ((stripRight_isPrefix _).subset member)),
    stripRight_stripRight]

def Alpha (width : Nat) (s : Bytes) : Prop :=
  s.length ≤ width ∧ (0 : UInt8) ∉ s ∧ stripRight s = s

instance (width : Nat) (s : Bytes) : Decidable (Alpha width s) :=
  inferInstanceAs (Decidable (_ ∧ _ ∧ _))

@[simp] theorem CStr.trimmed_trimmed (s : CStr capacity) :
    s.trimmed.trimmed = s.trimmed :=
  CStr.ext_bytes (stripRight_stripRight _)

theorem CStr.trimmed_copy_bytes {s : Bytes} (alpha : Alpha width s) :
    (CStr.copy width s).trimmed.bytes = s := by
  change stripRight (copy width s).bytes = s
  rw [copy_bytes_of_fits alpha.1 alpha.2.1, alpha.2.2]

end ProtoFH
