import Idax.Library.Numeral

/-!
Hexadecimal numerals of a fixed width: written with upper-case digits and leading zeros, and read with
digits of either case.
-/

namespace Hex

open Numeral

def digit (d : Nat) : UInt8 :=
  if d < 10 then 48 + .ofNat d else 55 + .ofNat d

def encode (width n : Nat) : List UInt8 :=
  (Nat.digitsAppend 16 width n).reverse.map digit

def decode (bs : List UInt8) : Option Nat :=
  decodeFrom 16 0 bs

theorem value?_digit {d : Nat} (h : d < 16) : value? (digit d) = some d := by
  revert d
  decide

theorem length_encode {width n : Nat} (h : n < 16 ^ width) : (encode width n).length = width := by
  rw [encode, List.length_map, List.length_reverse, Nat.length_digitsAppend (by decide) width h]

theorem decode_encode (width n : Nat) : decode (encode width n) = some n := by
  have hdigits : ∀ d ∈ (Nat.digitsAppend 16 width n).reverse, d < 16 := by
    intro d hd
    rw [List.mem_reverse] at hd
    exact Nat.lt_of_mem_digitsAppend (by decide) width d hd
  rw [decode, encode, decodeFrom_map (by decide) value?_digit 0 hdigits, List.reverse_reverse,
    Nat.zero_mul, Nat.zero_add]
  rw [Nat.digitsAppend, Nat.ofDigits_append_replicate_zero, Nat.ofDigits_digits]

theorem decode_lt {n : Nat} {bs : List UInt8} (h : decode bs = some n) : n < 16 ^ bs.length := by
  have hlt := decodeFrom_lt h
  rwa [Nat.zero_add, Nat.one_mul] at hlt

end Hex
