import ProtoFH.Foundation.Bytes

/-! # Packed binary formats

What a format string of Python's `struct` says, big-endian and without alignment: how
many bytes a tuple of values takes, how it is written and how it is read back. A
format carries the proof that writing and reading are inverse to each other, so that
every format built with the combinators below has it. -/

namespace ProtoFH

structure FixedBytes (width : Nat) where
  bytes : Bytes
  length_eq : bytes.length = width
deriving DecidableEq

namespace FixedBytes

theorem ext_fixed {left right : FixedBytes width} (equal : left.bytes = right.bytes) :
    left = right := by
  cases left
  cases right
  cases equal
  rfl

/-- The first `width` bytes, filled up with zeros should there be fewer. -/
def ofFront (width : Nat) (bytes : Bytes) : FixedBytes width where
  bytes := (bytes ++ List.replicate width 0).take width
  length_eq := by
    rw [List.length_take, List.length_append, List.length_replicate]
    omega

theorem ofFront_bytes {bytes : Bytes} (length : bytes.length = width) :
    (ofFront width bytes).bytes = bytes := take_append_of_length _ width length

end FixedBytes

structure Format (α : Type) where
  size : Nat
  /-- The values that can be written; `struct.error` is raised for others. -/
  fits : α → Bool
  write : α → Bytes
  read : Bytes → α
  length_write : ∀ value, (write value).length = size
  read_write : ∀ {value}, fits value = true → read (write value) = value
  fits_read : ∀ {bytes : Bytes}, bytes.length = size → fits (read bytes) = true
  write_read : ∀ {bytes : Bytes}, bytes.length = size → write (read bytes) = bytes

inductive StructError where
  | outOfRange
  | wrongLength (want got : Nat)
deriving DecidableEq

namespace Format

def pack (format : Format α) (value : α) : Except StructError Bytes :=
  if format.fits value then .ok (format.write value) else .error .outOfRange

def unpack (format : Format α) (bytes : Bytes) : Except StructError α :=
  if bytes.length = format.size then .ok (format.read bytes)
  else .error (.wrongLength format.size bytes.length)

variable {format : Format α}

variable {value : α}

theorem pack_of_fits (fits : format.fits value = true) :
    format.pack value = .ok (format.write value) := if_pos fits

variable {bytes : Bytes}

theorem unpack_of_length (length : bytes.length = format.size) :
    format.unpack bytes = .ok (format.read bytes) :=
  if_pos length

theorem unpack_write (fits : format.fits value = true) :
    format.unpack (format.write value) = .ok value := by
  rw [unpack_of_length (format.length_write value), format.read_write fits]

structure Packs (format : Format α) (value : α) (bytes : Bytes) : Prop where
  fits : format.fits value = true
  write : format.write value = bytes

theorem Packs.bytes_eq {value other : α} {bytes otherBytes : Bytes}
    (packs : format.Packs value bytes) (otherPacks : format.Packs other otherBytes)
    (same : value = other) : bytes = otherBytes := by
  rw [← packs.write, ← otherPacks.write, same]

theorem Packs.pack (packs : format.Packs value bytes) : format.pack value = .ok bytes := by
  rw [pack_of_fits packs.fits, packs.write]

theorem Packs.unpack (packs : format.Packs value bytes) : format.unpack bytes = .ok value := by
  rw [← packs.write, unpack_write packs.fits]

theorem packs_read (length : bytes.length = format.size) : format.Packs (format.read bytes) bytes :=
  ⟨format.fits_read length, format.write_read length⟩

/-! ## Single fields -/

def uint (width : Nat) : Format Nat where
  size := width
  fits value := value < 256 ^ width
  write value := bePut width value
  read bytes := beNat bytes
  length_write value := bePut_length width value
  read_write {value} fits := by
    rw [beNat_bePut, Nat.mod_eq_of_lt (of_decide_eq_true fits)]
  fits_read {bytes} length := by
    have small := beNat_lt bytes
    rw [length] at small
    exact decide_eq_true small
  write_read {bytes} length := by
    rw [← length]
    exact bePut_beNat bytes

def string (width : Nat) : Format (FixedBytes width) where
  size := width
  fits _ := true
  write value := value.bytes
  read bytes := .ofFront width bytes
  length_write value := value.length_eq
  read_write {value} _ := FixedBytes.ext_fixed (FixedBytes.ofFront_bytes value.length_eq)
  fits_read _ := rfl
  write_read length := FixedBytes.ofFront_bytes length

def char : Format UInt8 where
  size := 1
  fits _ := true
  write value := [value]
  read bytes := bytes.headD 0
  length_write _ := rfl
  read_write _ := rfl
  fits_read _ := rfl
  write_read {bytes} length := by
    obtain ⟨byte, rfl⟩ := List.length_eq_one_iff.mp length
    rfl

/-! ## Fields in sequence -/

theorem lengths_split {bytes : Bytes} {m n : Nat} (length : bytes.length = m + n) :
    (bytes.take m).length = m ∧ (bytes.drop m).length = n := by
  rw [List.length_take, List.length_drop]
  omega

def seq (first : Format α) (second : Format β) : Format (α × β) where
  size := first.size + second.size
  fits value := first.fits value.1 && second.fits value.2
  write value := first.write value.1 ++ second.write value.2
  read bytes := (first.read (bytes.take first.size), second.read (bytes.drop first.size))
  length_write value := by
    rw [List.length_append, first.length_write, second.length_write]
  read_write {value} fits := by
    have both := Bool.and_eq_true_iff.mp fits
    rw [take_append_of_length _ _ (first.length_write _),
      drop_append_of_length _ _ (first.length_write _), first.read_write both.1,
      second.read_write both.2]
  fits_read {bytes} length := by
    obtain ⟨front, back⟩ := lengths_split length
    exact Bool.and_eq_true_iff.mpr ⟨first.fits_read front, second.fits_read back⟩
  write_read {bytes} length := by
    obtain ⟨front, back⟩ := lengths_split length
    rw [first.write_read front, second.write_read back, List.take_append_drop]

@[simp] theorem seq_fits (first : Format α) (second : Format β) (value : α × β) :
    (first.seq second).fits value = (first.fits value.1 && second.fits value.2) := rfl

@[simp] theorem seq_write (first : Format α) (second : Format β) (value : α × β) :
    (first.seq second).write value = first.write value.1 ++ second.write value.2 := rfl

theorem Packs.seq {first : Format α} {second : Format β} {other : β} {front back : Bytes}
    (packsFront : first.Packs value front) (packsBack : second.Packs other back) :
    (first.seq second).Packs (value, other) (front ++ back) where
  fits := Bool.and_eq_true_iff.mpr ⟨packsFront.fits, packsBack.fits⟩
  write := by rw [seq_write, packsFront.write, packsBack.write]

def unit : Format Unit where
  size := 0
  fits _ := true
  write _ := []
  read _ := ()
  length_write _ := rfl
  read_write _ := rfl
  fits_read _ := rfl
  write_read length := (List.eq_nil_of_length_eq_zero length).symm

def convert (format : Format α) (into : α → β) (back : β → α)
    (back_into : ∀ value, back (into value) = value)
    (into_back : ∀ value, into (back value) = value) : Format β where
  size := format.size
  fits value := format.fits (back value)
  write value := format.write (back value)
  read bytes := into (format.read bytes)
  length_write value := format.length_write _
  read_write fits := by rw [format.read_write fits, into_back]
  fits_read length := by rw [back_into, format.fits_read length]
  write_read length := by rw [back_into, format.write_read length]

def times (format : Format α) : (count : Nat) → Format (Vector α count)
  | 0 => unit.convert (fun _ => #v[]) (fun _ => ()) (fun _ => rfl) (fun _ => by simp)
  | count + 1 =>
      ((format.times count).seq format).convert (fun value => value.1.push value.2)
        (fun values => (values.pop, @Vector.back _ _ Nat.instNeZeroSucc values))
        (fun value => by simp [Vector.back])
        (fun values => Vector.push_pop_back values)

theorem Packs.push {values : Vector α count} {front back : Bytes}
    (packsFront : (format.times count).Packs values front) (packsBack : format.Packs value back) :
    (format.times (count + 1)).Packs (values.push value) (front ++ back) := by
  have last : ((values.push value).pop, (values.push value).back) = (values, value) := by
    simp [Vector.back]
  have both := packsFront.seq packsBack
  rw [← last] at both
  exact ⟨both.fits, both.write⟩

end Format

end ProtoFH
