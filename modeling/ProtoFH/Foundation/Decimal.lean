import ProtoFH.Foundation.Bytes

/-! # Decimal numbers in padded fields

A number as the text of its decimal digits, most significant first, and the field that
holds a text behind spaces. -/

namespace ProtoFH

def digit (value : Nat) : UInt8 := UInt8.ofNat (48 + value)

def IsDigit (char : UInt8) : Prop := 48 ≤ char ∧ char ≤ 57

instance (char : UInt8) : Decidable (IsDigit char) := inferInstanceAs (Decidable (_ ∧ _))

/-- The last `fuel` decimal digits of `value`, without leading zeros. -/
def decimalUpTo : (fuel : Nat) → (value : Nat) → Bytes
  | 0, _ => []
  | fuel + 1, value =>
      if value < 10 then [digit value] else decimalUpTo fuel (value / 10) ++ [digit (value % 10)]

def decimal (value : Nat) : Bytes := decimalUpTo (value + 1) value

theorem digit_toNat {value : Nat} (small : value < 10) : (digit value).toNat = 48 + value := by
  rw [digit, UInt8.toNat_ofNat']
  omega

theorem isDigit_digit {value : Nat} (small : value < 10) : IsDigit (digit value) := by
  rw [IsDigit, UInt8.le_iff_toNat_le, UInt8.le_iff_toNat_le, digit_toNat small]
  exact ⟨Nat.le_add_right _ _, show 48 + value ≤ 57 by omega⟩

theorem isDigit_of_mem_decimal {value : Nat} {char : UInt8} (member : char ∈ decimal value) :
    IsDigit char := by
  suffices ∀ fuel value, char ∈ decimalUpTo fuel value → IsDigit char from this _ _ member
  intro fuel
  induction fuel with
  | zero =>
      intro value member
      cases member
  | succ fuel induction =>
      intro value member
      rw [decimalUpTo] at member
      split at member
      · next small =>
          rw [List.mem_singleton.mp member]
          exact isDigit_digit small
      · rcases List.mem_append.mp member with member | member
        · exact induction _ member
        · rw [List.mem_singleton.mp member]
          exact isDigit_digit (Nat.mod_lt _ (by decide))

theorem decimal_ne_nil (value : Nat) : decimal value ≠ [] := by
  rw [decimal, decimalUpTo]
  split
  · exact List.cons_ne_nil _ _
  · exact List.append_ne_nil_of_right_ne_nil _ (List.cons_ne_nil _ _)

theorem decimal_length_le {value width : Nat} (positive : 0 < width) (bound : value < 10 ^ width) :
    (decimal value).length ≤ width := by
  suffices ∀ fuel width value, 0 < width → value < 10 ^ width →
      (decimalUpTo fuel value).length ≤ width from this _ _ _ positive bound
  intro fuel
  induction fuel with
  | zero => exact fun _ _ _ _ => Nat.zero_le _
  | succ fuel induction =>
      intro width value positive bound
      rw [decimalUpTo]
      split
      · exact positive
      · next large =>
          -- A second digit shows that the field has room for one.
          match width with
          | 1 => omega
          | width + 2 =>
              have shorter := induction (width + 1) (value / 10) (Nat.succ_pos _)
                (Nat.div_lt_of_lt_mul (by rwa [← Nat.pow_succ']))
              rw [List.length_append, List.length_singleton]
              omega

theorem foldlM_decimal {m : Type → Type v} [Monad m] [LawfulMonad m] {α : Type}
    {read : α → UInt8 → m α} (ofNat : Nat → α)
    (next : ∀ value last, last < 10 →
      read (ofNat value) (digit last) = pure (ofNat (10 * value + last))) (value : Nat) :
    (decimal value).foldlM read (ofNat 0) = pure (ofNat value) := by
  suffices ∀ fuel value, value < fuel →
      (decimalUpTo fuel value).foldlM read (ofNat 0) = pure (ofNat value) from
    this _ _ (Nat.lt_succ_self _)
  intro fuel
  induction fuel with
  | zero => exact fun _ none => absurd none (Nat.not_lt_zero _)
  | succ fuel induction =>
      intro value enough
      rw [decimalUpTo]
      split
      · next small =>
          rw [List.foldlM_cons, next 0 value small, pure_bind, Nat.mul_zero, Nat.zero_add]
          rfl
      · rw [List.foldlM_append, induction (value / 10) (by omega), pure_bind, List.foldlM_cons,
          next _ _ (Nat.mod_lt _ (by decide)), pure_bind, Nat.div_add_mod]
        rfl

/-! ## Padding on the left -/

/-- A text at the right end of a field that is as wide as given, or wider if the text is. -/
def padLeft (width : Nat) (text : Bytes) : Bytes :=
  List.replicate (width - text.length) space ++ text

theorem padLeft_length {width : Nat} {text : Bytes} (fits : text.length ≤ width) :
    (padLeft width text).length = width := by
  rw [padLeft, List.length_append, List.length_replicate]
  omega

theorem dropWhile_padLeft_of_pos {drop : UInt8 → Bool} (padding : drop space = true)
    (width : Nat) (text : Bytes) : (padLeft width text).dropWhile drop = text.dropWhile drop := by
  rw [padLeft, List.dropWhile_append_of_pos]
  intro char member
  rw [List.eq_of_mem_replicate member]
  exact padding

theorem dropWhile_padLeft {drop : UInt8 → Bool} {text : Bytes} (width : Nat)
    (padding : drop space = true) (kept : ∀ char ∈ text, drop char = false) :
    (padLeft width text).dropWhile drop = text := by
  rw [dropWhile_padLeft_of_pos padding]
  cases text with
  | nil => rfl
  | cons first text => exact List.dropWhile_cons_of_neg (by simp [kept first List.mem_cons_self])

end ProtoFH
