import Mathlib.Data.Nat.Digits.Lemmas

/-!
Numerals as bytes, in any base up to 16, and integer literals as C writes them: the base is told by what
a literal starts with. What is written without leading zeros is read back.
-/

namespace Numeral

def value? (b : UInt8) : Option Nat :=
  if 48 ≤ b ∧ b ≤ 57 then
    some (b.toNat - 48)
  else if 65 ≤ b ∧ b ≤ 70 then
    some (b.toNat - 55)
  else if 97 ≤ b ∧ b ≤ 102 then
    some (b.toNat - 87)
  else
    none

def digit (d : Nat) : UInt8 :=
  if d < 10 then 48 + .ofNat d else 87 + .ofNat d

def encode (base n : Nat) : List UInt8 :=
  if n = 0 then [48] else (Nat.digits base n).reverse.map digit

/--
What is read where `acc` was read before, `none` if one of the bytes is no digit of the base.
-/
def decodeFrom (base acc : Nat) : List UInt8 → Option Nat
  | [] => some acc
  | b :: bs =>
    match value? b with
    | none => none
    | some d => if d < base then decodeFrom base (base * acc + d) bs else none

def decode (base : Nat) : List UInt8 → Option Nat
  | [] => none
  | bs => decodeFrom base 0 bs

/--
A literal without its sign: `0x` and `0b` stand before digits of base 16 and 2, `0` before those of
base 8.
-/
def unsignedLiteral? : List UInt8 → Option Nat
  | 48 :: 120 :: bs => decode 16 bs
  | 48 :: 98 :: bs => decode 2 bs
  | 48 :: bs => decode 8 (48 :: bs)
  | bs => decode 10 bs

def encodeSigned (i : Int) : List UInt8 :=
  if i < 0 then 45 :: encode 10 i.natAbs else encode 10 i.natAbs

def literal? : List UInt8 → Option Int
  | 45 :: bs => (unsignedLiteral? bs).map fun n : Nat => -(n : Int)
  | bs => (unsignedLiteral? bs).map fun n : Nat => (n : Int)

section Digits

theorem value?_digit {d : Nat} (h : d < 16) : value? (digit d) = some d := by
  revert d
  decide

theorem value?_lt {b : UInt8} {d : Nat} (h : value? b = some d) : d < 16 := by
  unfold value? at h
  simp only [UInt8.le_iff_toNat_le] at h
  split at h
  . next hrange =>
    injection h
    have : b.toNat ≤ 57 := hrange.right
    omega
  . split at h
    . next hrange =>
      injection h
      have : b.toNat ≤ 70 := hrange.right
      omega
    . split at h
      . next hrange =>
        injection h
        have : b.toNat ≤ 102 := hrange.right
        omega
      . cases h

theorem decodeFrom_map {base : Nat} (hle : base ≤ 16) {write : Nat → UInt8}
    (hwrite : ∀ {d}, d < 16 → value? (write d) = some d) (acc : Nat) {ds : List Nat}
    (h : ∀ d ∈ ds, d < base)
    : decodeFrom base acc (ds.map write)
        = some (acc * base ^ ds.length + Nat.ofDigits base ds.reverse) := by
  induction ds generalizing acc with
  | nil => simp [decodeFrom]
  | cons d ds ih =>
    rw [List.forall_mem_cons] at h
    have hd : d < 16 := Nat.lt_of_lt_of_le h.left hle
    rw [List.map_cons, decodeFrom, hwrite hd]
    dsimp only
    rw [if_pos h.left, ih _ h.right]
    rw [List.reverse_cons, Nat.ofDigits_append, Nat.ofDigits_singleton, List.length_reverse]
    rw [List.length_cons, Nat.pow_succ]
    congr 1
    ring

theorem decodeFrom_lt {base acc n : Nat} {bs : List UInt8} (h : decodeFrom base acc bs = some n)
    : n < (acc + 1) * base ^ bs.length := by
  induction bs generalizing acc with
  | nil =>
    cases h
    simp
  | cons b bs ih =>
    rw [decodeFrom] at h
    split at h
    . cases h
    . next d _ =>
      split at h
      . next hd =>
        have hnext := ih h
        rw [List.length_cons, Nat.pow_succ, Nat.mul_comm (base ^ _), ← Nat.mul_assoc]
        apply Nat.lt_of_lt_of_le hnext
        apply Nat.mul_le_mul_right
        rw [Nat.add_mul, Nat.one_mul, Nat.mul_comm acc]
        omega
      . cases h

theorem encode_of_lt {base n : Nat} (h : n < base) : encode base n = [digit n] := by
  unfold encode
  split
  . next hzero =>
    rw [hzero]
    rfl
  . next hne =>
    rw [Nat.digits_of_lt base n hne h]
    rfl

theorem encode_of_le {base n : Nat} (hbase : 2 ≤ base) (h : base ≤ n)
    : encode base n = encode base (n / base) ++ [digit (n % base)] := by
  have hdiv : n / base ≠ 0 := by
    have := Nat.div_pos h (by omega)
    omega
  unfold encode
  rw [if_neg (by omega), if_neg hdiv, Nat.digits_def' (by omega) (by omega)]
  simp

theorem decodeFrom_encode {base : Nat} (hbase : 2 ≤ base) (hle : base ≤ 16) (n : Nat)
    : decodeFrom base 0 (encode base n) = some n := by
  unfold encode
  split
  . next hzero =>
    rw [hzero]
    show decodeFrom base 0 (List.map digit [0]) = some 0
    rw [decodeFrom_map hle value?_digit 0 (by simp; omega)]
    simp
  . have hdigits : ∀ d ∈ (Nat.digits base n).reverse, d < base := by
      intro d hd
      exact Nat.digits_lt_base (by omega) (List.mem_reverse.mp hd)
    rw [decodeFrom_map hle value?_digit 0 hdigits, List.reverse_reverse, Nat.ofDigits_digits]
    simp

theorem encode_ne_nil (base n : Nat) : encode base n ≠ [] := by
  unfold encode
  split
  . simp
  . next h => simpa [Nat.digits_ne_nil_iff_ne_zero] using h

theorem decode_encode {base : Nat} (hbase : 2 ≤ base) (hle : base ≤ 16) (n : Nat)
    : decode base (encode base n) = some n := by
  rw [← decodeFrom_encode hbase hle n]
  cases hencode : encode base n with
  | nil => exact absurd hencode (encode_ne_nil base n)
  | cons b bs => rfl

theorem head_encode {base n : Nat} (hbase : 2 ≤ base) (hne : n ≠ 0)
    : ∃ d bs, encode base n = digit d :: bs ∧ d ≠ 0 ∧ d < base := by
  induction n using Nat.strong_induction_on with
  | _ n ih =>
    by_cases h : n < base
    . exact ⟨n, [], encode_of_lt h, hne, h⟩
    . have hdiv : n / base < n := Nat.div_lt_self (by omega) (by omega)
      have hpos := Nat.div_pos (show base ≤ n by omega) (by omega)
      rcases ih _ hdiv (by omega) with ⟨d, bs, hencode, hd, hlt⟩
      exact ⟨d, bs ++ [digit (n % base)], by rw [encode_of_le hbase (by omega), hencode]; rfl, hd, hlt⟩

theorem length_encode_le {base n k : Nat} (hbase : 2 ≤ base) (hk : 0 < k) (h : n < base ^ k)
    : (encode base n).length ≤ k := by
  unfold encode
  split
  . exact hk
  . rw [List.length_map, List.length_reverse, Nat.digits_length_le_iff (by omega)]
    exact h

end Digits

section Literals

theorem unsignedLiteral?_hex (n : Nat) : unsignedLiteral? (48 :: 120 :: encode 16 n) = some n :=
  decode_encode (by decide) (by decide) n

theorem unsignedLiteral?_binary (n : Nat) : unsignedLiteral? (48 :: 98 :: encode 2 n) = some n :=
  decode_encode (by decide) (by decide) n

theorem unsignedLiteral?_octal_digits {b : UInt8} (hx : b ≠ 120) (hb : b ≠ 98) (bs : List UInt8)
    : unsignedLiteral? (48 :: b :: bs) = decode 8 (48 :: b :: bs) := by
  unfold unsignedLiteral?
  split
  . next heq =>
    injection heq with _ heq
    injection heq with heq _
    exact absurd heq hx
  . next heq =>
    injection heq with _ heq
    injection heq with heq _
    exact absurd heq hb
  . next heq =>
    injection heq with _ heq
    rw [heq]
  . next hnot => exact absurd rfl (hnot _)

theorem digit_ne {d : Nat} (hd : d < 10) : digit d ≠ 120 ∧ digit d ≠ 98 ∧ digit d ≠ 45 := by
  revert d
  decide

theorem digit_eq_zero {d : Nat} (hd : d < 10) : digit d = 48 ↔ d = 0 := by
  revert d
  decide

theorem exists_encode {base : Nat} (hbase : 2 ≤ base) (n : Nat)
    : ∃ d bs, encode base n = digit d :: bs ∧ d < base := by
  by_cases hzero : n = 0
  . exact ⟨0, [], by rw [hzero]; rfl, by omega⟩
  . rcases head_encode hbase hzero with ⟨d, bs, heq, _, hlt⟩
    exact ⟨d, bs, heq, hlt⟩

theorem unsignedLiteral?_octal (n : Nat) : unsignedLiteral? (48 :: encode 8 n) = some n := by
  rcases exists_encode (by decide : 2 ≤ 8) n with ⟨d, bs, heq, hlt⟩
  have hne := digit_ne (d := d) (by omega)
  rw [heq, unsignedLiteral?_octal_digits hne.left hne.right.left, ← heq]
  exact decodeFrom_encode (by decide) (by decide) n

theorem unsignedLiteral?_decimal (n : Nat) : unsignedLiteral? (encode 10 n) = some n := by
  by_cases hzero : n = 0
  . rw [hzero]
    rfl
  . rcases head_encode (by decide : 2 ≤ 10) hzero with ⟨d, bs, heq, hne, hlt⟩
    have hfirst : digit d ≠ 48 := by
      rw [Ne, digit_eq_zero hlt]
      exact hne
    rw [← decode_encode (by decide : 2 ≤ 10) (by decide) n, heq]
    unfold unsignedLiteral?
    split
    . next h =>
      injection h with h _
      exact absurd h hfirst
    . next h =>
      injection h with h _
      exact absurd h hfirst
    . next h =>
      injection h with h _
      exact absurd h hfirst
    . rfl

theorem literal?_of_ne {b : UInt8} (hb : b ≠ 45) (bs : List UInt8)
    : literal? (b :: bs) = (unsignedLiteral? (b :: bs)).map fun n : Nat => (n : Int) := by
  unfold literal?
  split
  . next h =>
    injection h with h _
    exact absurd h hb
  . rfl

theorem literal?_encodeSigned (i : Int) : literal? (encodeSigned i) = some i := by
  unfold encodeSigned
  split
  . next hneg =>
    rw [literal?, unsignedLiteral?_decimal, Option.map_some]
    congr 1
    omega
  . next hneg =>
    rcases exists_encode (by decide : 2 ≤ 10) i.natAbs with ⟨d, bs, heq, hlt⟩
    rw [heq, literal?_of_ne (digit_ne hlt).right.right, ← heq, unsignedLiteral?_decimal, Option.map_some]
    congr 1
    omega

end Literals

end Numeral
