import ProtoFH.Foundation.Bytes

/-! # Base64

The encoding of RFC 4648 with padding: three bytes become four characters of the
alphabet, and a last group of one or two bytes is filled up with `=`. The decoder takes
complete groups only and does not look at the bits that the padding leaves over. -/

namespace ProtoFH.Base64

def alphabet : Bytes :=
  "ABCDEFGHIJKLMNOPQRSTUVWXYZabcdefghijklmnopqrstuvwxyz0123456789+/".toList.map ascii

def symbol (sextet : Nat) : UInt8 := alphabet.getD sextet 0

def pad : UInt8 := ascii '='

def group (first second third : UInt8) : Nat :=
  first.toNat * 2 ^ 16 + second.toNat * 2 ^ 8 + third.toNat

def encode : Bytes → Bytes
  | first :: second :: third :: rest =>
      let n := group first second third
      symbol (n / 2 ^ 18 % 64) :: symbol (n / 2 ^ 12 % 64) :: symbol (n / 2 ^ 6 % 64) ::
        symbol (n % 64) :: encode rest
  | [first, second] =>
      let n := group first second 0
      [symbol (n / 2 ^ 18 % 64), symbol (n / 2 ^ 12 % 64), symbol (n / 2 ^ 6 % 64), pad]
  | [first] =>
      let n := group first 0 0
      [symbol (n / 2 ^ 18 % 64), symbol (n / 2 ^ 12 % 64), pad, pad]
  | [] => []

def value (char : UInt8) : Option Nat :=
  if ascii 'A' ≤ char ∧ char ≤ ascii 'Z' then some (char.toNat - 65)
  else if ascii 'a' ≤ char ∧ char ≤ ascii 'z' then some (char.toNat - 97 + 26)
  else if ascii '0' ≤ char ∧ char ≤ ascii '9' then some (char.toNat - 48 + 52)
  else if char = ascii '+' then some 62
  else if char = ascii '/' then some 63
  else none

def ungroup (a b c d : Nat) : Bytes :=
  let n := a * 2 ^ 18 + b * 2 ^ 12 + c * 2 ^ 6 + d
  [UInt8.ofNat (n / 2 ^ 16), UInt8.ofNat (n / 2 ^ 8), UInt8.ofNat n]

def decode : Bytes → Option Bytes
  | [] => some []
  | first :: second :: third :: fourth :: rest =>
      if fourth = pad then
        if rest ≠ [] then none
        else if third = pad then do
          return (ungroup (← value first) (← value second) 0 0).take 1
        else do
          return (ungroup (← value first) (← value second) (← value third) 0).take 2
      else do
        let bytes := ungroup (← value first) (← value second) (← value third) (← value fourth)
        return bytes ++ (← decode rest)
  | _ => none

/-! ## Round trip -/

theorem value_symbol {sextet : Nat} (small : sextet < 64) :
    value (symbol sextet) = some sextet := by
  revert sextet
  decide +kernel

theorem symbol_ne_pad {sextet : Nat} (small : sextet < 64) : symbol sextet ≠ pad := by
  revert sextet
  decide +kernel

theorem group_lt (first second third : UInt8) : group first second third < 2 ^ 24 := by
  have := first.toNat_lt
  have := second.toNat_lt
  have := third.toNat_lt
  unfold group
  omega

theorem ungroup_sextets {n : Nat} (small : n < 2 ^ 24) :
    ungroup (n / 2 ^ 18 % 64) (n / 2 ^ 12 % 64) (n / 2 ^ 6 % 64) (n % 64) =
      [UInt8.ofNat (n / 2 ^ 16), UInt8.ofNat (n / 2 ^ 8), UInt8.ofNat n] := by
  have whole : n / 2 ^ 18 % 64 * 2 ^ 18 + n / 2 ^ 12 % 64 * 2 ^ 12 + n / 2 ^ 6 % 64 * 2 ^ 6 +
      n % 64 = n := by omega
  rw [ungroup, whole]

theorem ofNat_eq {n : Nat} {byte : UInt8} (low : n % 256 = byte.toNat) : UInt8.ofNat n = byte := by
  apply UInt8.toNat_inj.mp
  rw [UInt8.toNat_ofNat', ← low]

theorem bytes_group (first second third : UInt8) :
    [UInt8.ofNat (group first second third / 2 ^ 16),
      UInt8.ofNat (group first second third / 2 ^ 8), UInt8.ofNat (group first second third)] =
      [first, second, third] := by
  have small := first.toNat_lt
  have next := second.toNat_lt
  have last := third.toNat_lt
  rw [ofNat_eq (show group first second third / 2 ^ 16 % 256 = first.toNat by unfold group; omega),
    ofNat_eq (show group first second third / 2 ^ 8 % 256 = second.toNat by unfold group; omega),
    ofNat_eq (show group first second third % 256 = third.toNat by unfold group; omega)]

theorem decode_encode (bytes : Bytes) : decode (encode bytes) = some bytes := by
  have sextet (n : Nat) : n % 64 < 64 := Nat.mod_lt n (by decide)
  fun_induction encode bytes with
  | case1 first second third rest n induction =>
      rw [decode, if_neg (symbol_ne_pad (sextet _))]
      simp only [value_symbol (sextet _), induction, ungroup_sextets (group_lt _ _ _),
        bytes_group, Option.bind_eq_bind, Option.bind_some, n]
      rfl
  | case2 first second n =>
      -- The missing byte leaves the fourth sextet zero.
      have filled : n % 64 = 0 := by
        change (first.toNat * 2 ^ 16 + second.toNat * 2 ^ 8 + 0) % 64 = 0
        omega
      have back := ungroup_sextets (group_lt first second 0)
      rw [bytes_group, show group first second 0 % 64 = 0 from filled] at back
      rw [decode, if_pos rfl, if_neg (by simp), if_neg (symbol_ne_pad (sextet _))]
      simp only [value_symbol (sextet _), Option.bind_eq_bind, Option.bind_some, back, n]
      rfl
  | case3 first n =>
      have filled : n / 2 ^ 6 % 64 = 0 ∧ n % 64 = 0 := by
        change (first.toNat * 2 ^ 16 + 0 * 2 ^ 8 + 0) / 2 ^ 6 % 64 = 0 ∧
          (first.toNat * 2 ^ 16 + 0 * 2 ^ 8 + 0) % 64 = 0
        omega
      have back := ungroup_sextets (group_lt first 0 0)
      rw [bytes_group, show group first 0 0 / 2 ^ 6 % 64 = 0 from filled.1,
        show group first 0 0 % 64 = 0 from filled.2] at back
      rw [decode, if_pos rfl, if_neg (by simp), if_pos rfl]
      simp only [value_symbol (sextet _), Option.bind_eq_bind, Option.bind_some, back, n]
      rfl
  | case4 => rfl

/-! ## The text -/

def IsText (char : UInt8) : Prop := char = pad ∨ ∃ sextet < 64, char = symbol sextet

theorem isText_encode (bytes : Bytes) : ∀ char ∈ encode bytes, IsText char := by
  have text (n : Nat) : IsText (symbol (n % 64)) := .inr ⟨_, Nat.mod_lt n (by decide), rfl⟩
  fun_induction encode bytes with
  | case1 first second third rest n induction =>
      simp only [List.forall_mem_cons]
      exact ⟨text _, text _, text _, text _, induction⟩
  | case2 first second n =>
      simp only [List.forall_mem_cons, List.not_mem_nil, false_imp_iff, implies_true, and_true]
      exact ⟨text _, text _, text _, .inl rfl⟩
  | case3 first n =>
      simp only [List.forall_mem_cons, List.not_mem_nil, false_imp_iff, implies_true, and_true]
      exact ⟨text _, text _, .inl rfl, .inl rfl⟩
  | case4 => exact fun char member => absurd member List.not_mem_nil

theorem IsText.forall {good : UInt8 → Prop} {char : UInt8}
    (text : IsText char) (padding : good pad) (symbols : ∀ sextet < 64, good (symbol sextet)) :
    good char := by
  rcases text with rfl | ⟨sextet, small, rfl⟩
  · exact padding
  · exact symbols sextet small

theorem encode_length (bytes : Bytes) : (encode bytes).length = (bytes.length + 2) / 3 * 4 := by
  fun_induction encode bytes with
  | case1 first second third rest n induction =>
      simp only [List.length_cons, induction]
      omega
  | case2 first second n | case3 first n => simp
  | case4 => rfl

end ProtoFH.Base64
