import Mathlib.Data.List.Basic
import Mathlib.Tactic.Ring

/-!
This module contains a memory of bytes with unbounded addresses, reading and writing of runs of
bytes, and words of a fixed number of bytes in either byte order.
-/

abbrev ByteMap : Type := Nat → UInt8

namespace ByteMap

def get (m : ByteMap) (a : Nat) : (n : Nat) → List UInt8
  | 0 => []
  | n + 1 => m a :: get m (a + 1) n

def set (m : ByteMap) (a : Nat) (b : UInt8) : ByteMap :=
  fun x => if x = a then b else m x

def put (m : ByteMap) (a : Nat) : List UInt8 → ByteMap
  | [] => m
  | b :: bs => put (m.set a b) (a + 1) bs

theorem set_self (m : ByteMap) (a : Nat) (b : UInt8) : m.set a b a = b := by
  simp [set]

theorem set_ne (m : ByteMap) {a x : Nat} (b : UInt8) (h : x ≠ a) : m.set a b x = m x := by
  simp [set, h]

theorem set_eq (m : ByteMap) (a : Nat) : m.set a (m a) = m := by
  funext x
  unfold set
  split
  . next heq => rw [heq]
  . rfl

@[simp]
theorem length_get (m : ByteMap) (a n : Nat) : (m.get a n).length = n := by
  induction n generalizing a with
  | zero => rfl
  | succ n ih => simp [get, ih]

theorem get_add (m : ByteMap) (a n k : Nat) : m.get a (n + k) = m.get a n ++ m.get (a + n) k := by
  induction n generalizing a with
  | zero => simp [get]
  | succ n ih =>
    rw [show n + 1 + k = (n + k) + 1 by omega]
    rw [get, get, ih]
    rw [show a + 1 + n = a + (n + 1) by omega]
    rfl

theorem get_eq_get_iff {m m' : ByteMap} {a n : Nat}
    : m.get a n = m'.get a n ↔ ∀ i < n, m (a + i) = m' (a + i) := by
  induction n generalizing a with
  | zero => simp [get]
  | succ n ih =>
    rw [get, get, List.cons.injEq, ih]
    constructor
    . rintro ⟨hfirst, hrest⟩ i hi
      cases i with
      | zero => exact hfirst
      | succ i =>
        have := hrest i (by omega)
        rwa [show a + (i + 1) = a + 1 + i by omega]
    . intro h
      refine ⟨h 0 (by omega), ?_⟩
      intro i hi
      have := h (i + 1) (by omega)
      rwa [show a + 1 + i = a + (i + 1) by omega]

theorem put_append (m : ByteMap) (a : Nat) (bs cs : List UInt8)
    : m.put a (bs ++ cs) = (m.put a bs).put (a + bs.length) cs := by
  induction bs generalizing m a with
  | nil => rfl
  | cons b bs ih =>
    rw [List.cons_append, put, put, ih, List.length_cons]
    rw [show a + 1 + bs.length = a + (bs.length + 1) by omega]

theorem put_outside {m : ByteMap} {a x : Nat} {bs : List UInt8} (h : x < a ∨ a + bs.length ≤ x)
    : m.put a bs x = m x := by
  induction bs generalizing m a with
  | nil => rfl
  | cons b bs ih =>
    rw [List.length_cons] at h
    rw [put, ih (by omega)]
    apply set_ne
    omega

theorem get_put (m : ByteMap) (a : Nat) (bs : List UInt8) : (m.put a bs).get a bs.length = bs := by
  induction bs generalizing m a with
  | nil => rfl
  | cons b bs ih =>
    rw [put, List.length_cons, get, ih]
    rw [put_outside (by omega)]
    rw [set_self]

theorem put_get (m : ByteMap) (a n : Nat) : m.put a (m.get a n) = m := by
  induction n generalizing a with
  | zero => rfl
  | succ n ih =>
    rw [get, put, set_eq]
    apply ih

theorem put_eq_self_iff {m : ByteMap} {a : Nat} {bs : List UInt8}
    : m.put a bs = m ↔ m.get a bs.length = bs := by
  constructor
  . intro h
    have := get_put m a bs
    rw [h] at this
    apply this
  . intro h
    have := put_get m a bs.length
    rw [h] at this
    apply this

end ByteMap

/-!
Words. The byte order is given by whether the most significant byte comes first.
-/

namespace Word

def encodeLE : (width : Nat) → Nat → List UInt8
  | 0, _ => []
  | width + 1, value => UInt8.ofNat value :: encodeLE width (value / 256)

def decodeLE : List UInt8 → Nat
  | [] => 0
  | b :: bs => b.toNat + 256 * decodeLE bs

def encode (bigEndian : Bool) (width value : Nat) : List UInt8 :=
  if bigEndian then (encodeLE width value).reverse else encodeLE width value

def decode (bigEndian : Bool) (bs : List UInt8) : Nat :=
  if bigEndian then decodeLE bs.reverse else decodeLE bs

theorem length_encodeLE (width value : Nat) : (encodeLE width value).length = width := by
  induction width generalizing value with
  | zero => rfl
  | succ width ih => simp [encodeLE, ih]

theorem decodeLE_encodeLE {width value : Nat} (h : value < 256 ^ width)
    : decodeLE (encodeLE width value) = value := by
  induction width generalizing value with
  | zero =>
    rw [Nat.pow_zero] at h
    rw [encodeLE, decodeLE]
    omega
  | succ width ih =>
    rw [encodeLE, decodeLE, UInt8.toNat_ofNat', ih]
    . omega
    . rw [Nat.pow_succ] at h
      omega

theorem encodeLE_decodeLE (bs : List UInt8) : encodeLE bs.length (decodeLE bs) = bs := by
  induction bs with
  | nil => rfl
  | cons b bs ih =>
    have hb := b.toNat_lt
    rw [List.length_cons, encodeLE, decodeLE]
    rw [show (b.toNat + 256 * decodeLE bs) / 256 = decodeLE bs by omega]
    rw [ih]
    congr
    apply UInt8.toNat_inj.mp
    rw [UInt8.toNat_ofNat']
    omega

theorem decodeLE_lt (bs : List UInt8) : decodeLE bs < 256 ^ bs.length := by
  induction bs with
  | nil => simp [decodeLE]
  | cons b bs ih =>
    have hb := b.toNat_lt
    rw [decodeLE, List.length_cons, Nat.pow_succ]
    omega

variable (bigEndian : Bool)

@[simp]
theorem length_encode (width value : Nat) : (encode bigEndian width value).length = width := by
  unfold encode
  split <;> simp [length_encodeLE]

theorem decode_encode {width value : Nat} (h : value < 256 ^ width)
    : decode bigEndian (encode bigEndian width value) = value := by
  cases bigEndian with
  | false => apply decodeLE_encodeLE h
  | true =>
    simp only [decode, encode, ↓reduceIte, List.reverse_reverse]
    apply decodeLE_encodeLE h

theorem encode_decode (bs : List UInt8) : encode bigEndian bs.length (decode bigEndian bs) = bs := by
  cases bigEndian with
  | false => apply encodeLE_decodeLE
  | true =>
    simp only [decode, encode, ↓reduceIte]
    have := encodeLE_decodeLE bs.reverse
    rw [List.length_reverse] at this
    rw [this, List.reverse_reverse]

theorem decode_lt (bs : List UInt8) : decode bigEndian bs < 256 ^ bs.length := by
  cases bigEndian with
  | false => apply decodeLE_lt
  | true =>
    have := decodeLE_lt bs.reverse
    rw [List.length_reverse] at this
    apply this

end Word
