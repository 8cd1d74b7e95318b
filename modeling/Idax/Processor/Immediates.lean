import Idax.Processor.OutputContext

/-!
This module contains the numbers that the output builder writes: its loop over bits writes the numeral of
base 2, no buffer is too small, and each literal reads as the value it was written for.
-/

namespace Idax
namespace Processor
namespace OutputContext

section Binary

variable (bits : UInt64)

theorem bit_eq {i : Nat} (hi : i < 64)
    : ((bits >>> .ofNat i) &&& 1 != 0) = decide (bits.toNat / 2 ^ i % 2 = 1) := by
  have hamount : (UInt64.ofNat i).toNat % 64 = i := by
    rw [UInt64.toNat_ofNat']
    omega
  have hbit : ((bits >>> .ofNat i) &&& 1).toNat = bits.toNat / 2 ^ i % 2 := by
    rw [UInt64.toNat_and, UInt64.toNat_shiftRight, hamount, Nat.shiftRight_eq_div_pow]
    exact Nat.and_one_is_mod _
  have hzero : (bits >>> .ofNat i) &&& 1 = 0 ↔ ¬ bits.toNat / 2 ^ i % 2 = 1 := by
    rw [← UInt64.toNat_inj, hbit, UInt64.toNat_zero]
    omega
  rw [Bool.eq_iff_iff, bne_iff_ne, Ne, hzero, not_not, decide_eq_true_eq]

theorem mod_succ (n i : Nat) : n % 2 ^ (i + 1) = n / 2 ^ i % 2 * 2 ^ i + n % 2 ^ i := by
  rw [Nat.pow_succ, Nat.mod_mul, Nat.mul_comm, Nat.add_comm]

theorem encode_two_mul {m b : Nat} (hm : m ≠ 0) (hb : b < 2)
    : Numeral.encode 2 (2 * m + b) = Numeral.encode 2 m ++ [Numeral.digit b] := by
  rw [Numeral.encode_of_le (by omega) (by omega)]
  congr 2
  . omega
  . congr 1
    omega

theorem encode_append_binaryDigits {m i : Nat} (hm : m ≠ 0) (hi : i ≤ 64)
    : Numeral.encode 2 (m * 2 ^ i + bits.toNat % 2 ^ i)
        = Numeral.encode 2 m ++ binaryDigits bits i true := by
  induction i generalizing m with
  | zero => simp [binaryDigits, Nat.mod_one]
  | succ i ih =>
    have hb : bits.toNat / 2 ^ i % 2 < 2 := Nat.mod_lt _ (by omega)
    have hsplit : m * 2 ^ (i + 1) + bits.toNat % 2 ^ (i + 1)
        = (2 * m + bits.toNat / 2 ^ i % 2) * 2 ^ i + bits.toNat % 2 ^ i := by
      rw [mod_succ, Nat.pow_succ]
      ring
    have hdigit : Numeral.digit (bits.toNat / 2 ^ i % 2)
        = if decide (bits.toNat / 2 ^ i % 2 = 1) then 49 else 48 := by
      rcases Nat.lt_or_ge (bits.toNat / 2 ^ i % 2) 1 with hlt | hge
      . rw [Nat.lt_one_iff.mp hlt]
        rfl
      . rw [show bits.toNat / 2 ^ i % 2 = 1 by omega]
        rfl
    rw [hsplit, ih (by omega) (by omega), encode_two_mul hm hb, binaryDigits, bit_eq bits (by omega),
      List.append_assoc, hdigit]
    rfl

theorem binaryDigits_eq {i : Nat} (hpos : 0 < i) (hi : i ≤ 64)
    : binaryDigits bits i false = Numeral.encode 2 (bits.toNat % 2 ^ i) := by
  induction i with
  | zero => omega
  | succ i ih =>
    rw [binaryDigits, bit_eq bits (by omega), mod_succ]
    by_cases hbit : bits.toNat / 2 ^ i % 2 = 1
    . have hone := encode_append_binaryDigits bits Nat.one_ne_zero (show i ≤ 64 by omega)
      rw [hbit, hone]
      rfl
    . have hzero : bits.toNat / 2 ^ i % 2 = 0 := by omega
      rw [decide_eq_false hbit, hzero, Nat.zero_mul, Nat.zero_add]
      cases i with
      | zero => simp [binaryDigits, Nat.mod_one, Numeral.encode]
      | succ i =>
        rw [← ih (by omega) (by omega)]
        rfl

end Binary

section Rendered

theorem snprintf64_of_length_le {text : List UInt8} (h : text.length ≤ 63) : snprintf64 text = text :=
  List.take_of_length_le h

theorem snprintf64_prefixed {base width : Nat} (hbase : 2 ≤ base) (hwidth : 0 < width)
    (hlt : 2 ^ 64 ≤ base ^ width) (n : UInt64) {start : List UInt8} (hlength : start.length + width ≤ 63)
    : snprintf64 (start ++ Numeral.encode base n.toNat) = start ++ Numeral.encode base n.toNat := by
  apply snprintf64_of_length_le
  have := Numeral.length_encode_le hbase hwidth (Nat.lt_of_lt_of_le n.toNat_lt hlt)
  rw [List.length_append]
  omega

theorem snprintf64_signed (value : Int64)
    : snprintf64 (Numeral.encodeSigned value.toInt) = Numeral.encodeSigned value.toInt := by
  apply snprintf64_of_length_le
  have hlt : value.toInt.natAbs < 10 ^ 20 := by
    have := value.toInt_lt
    have := value.le_toInt
    omega
  have := Numeral.length_encode_le (by decide : 2 ≤ 10) (by decide) hlt
  unfold Numeral.encodeSigned
  split
  . rw [List.length_cons]
    omega
  . omega

theorem literal?_rendered (value : Int64) (radix : Int)
    : ∃ n, Numeral.literal? (rendered value radix) = some n ∧ Int64.ofInt n = value := by
  have hvalue : Int64.ofInt (value.toUInt64.toNat : Int) = value := by
    rw [← Int64.toBitVec_inj, Int64.toBitVec_ofInt, BitVec.ofInt_natCast]
    show BitVec.ofNat 64 value.toBitVec.toNat = value.toBitVec
    rw [BitVec.ofNat_toNat, BitVec.setWidth_eq]
  have hunsigned : ∀ bs, Numeral.unsignedLiteral? (48 :: bs) = some value.toUInt64.toNat →
      ∃ n, Numeral.literal? (48 :: bs) = some n ∧ Int64.ofInt n = value := by
    intro bs h
    refine ⟨value.toUInt64.toNat, ?_, hvalue⟩
    rw [Numeral.literal?_of_ne (by decide), h]
    rfl
  unfold rendered
  split
  . rw [snprintf64_signed]
    exact ⟨value.toInt, Numeral.literal?_encodeSigned value.toInt, Int64.ofInt_toInt value⟩
  . split
    . have hfits := snprintf64_prefixed (by decide : 2 ≤ 8) (by decide : 0 < 22) (by decide)
        value.toUInt64 (show [(48 : UInt8)].length + 22 ≤ 63 by decide)
      rw [List.singleton_append] at hfits
      rw [hfits]
      exact hunsigned _ (Numeral.unsignedLiteral?_octal _)
    . split
      . rw [binaryDigits_eq _ (by decide) (by decide), Nat.mod_eq_of_lt (UInt64.toNat_lt _)]
        exact hunsigned _ (Numeral.unsignedLiteral?_binary _)
      . have hfits := snprintf64_prefixed (by decide : 2 ≤ 16) (by decide : 0 < 16) (by decide)
          value.toUInt64 (show [(48 : UInt8), 120].length + 16 ≤ 63 by decide)
        rw [List.cons_append, List.singleton_append] at hfits
        rw [hfits]
        exact hunsigned _ (Numeral.unsignedLiteral?_hex _)

end Rendered

end OutputContext
end Processor
end Idax
