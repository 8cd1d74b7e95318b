import Idax.Lines.AddrTag

/-!
Which item an address tag refers to when it is read back, and where the decoder reads. Its test of the
position is made with a sum of machine words.
-/

namespace Idax
namespace Lines

def TagAt (text : Text) (pos n : Nat) : Prop :=
  ∃ ds, kColorOn :: kColorAddr :: ds <+: text.drop pos
    ∧ ds.length = kColorAddrSize ∧ Hex.decode ds = some n

def DecodesSafely (taggedText : StringView) (pos : UInt64) : Prop :=
  ∃ r, decodeAddrTag taggedText pos = some r
    ∧ (r = -1 ∨ 0 ≤ r.toInt ∧ r.toInt < 2 ^ 29)
    ∧ ((¬∃ n, TagAt taggedText.text pos.toNat n) → r = -1)

section Digits

theorem some_eq_map_ofNat {w : UInt64} {n : Nat} (h : w.toNat = n)
    : some w = (some n).map UInt64.ofNat := by
  rw [← h, Option.map_some, UInt64.ofNat_toNat]

theorem hexDigit?_eq (ch : UInt8) : hexDigit? ch = (Numeral.value? ch).map .ofNat := by
  have hlt := ch.toNat_lt
  unfold hexDigit? Numeral.value?
  simp only [UInt8.le_iff_toNat_le]
  split
  . next hrange =>
    have : 48 ≤ ch.toNat := hrange.left
    apply some_eq_map_ofNat
    simp [UInt64.toNat_sub]
    omega
  . split
    . next hrange =>
      have : 65 ≤ ch.toNat := hrange.left
      apply some_eq_map_ofNat
      simp [UInt64.toNat_sub]
      omega
    . split
      . next hrange =>
        have : 97 ≤ ch.toNat := hrange.left
        apply some_eq_map_ofNat
        simp [UInt64.toNat_sub]
        omega
      . rfl

theorem toNat_shiftLeft_or {val : UInt64} {d : Nat} (hval : val.toNat < 2 ^ 60) (hd : d < 16)
    : (val <<< 4 ||| .ofNat d).toNat = 16 * val.toNat + d := by
  have hdigit : (UInt64.ofNat d).toNat = d := by
    apply UInt64.toNat_ofNat_of_lt'
    simp [UInt64.size]
    omega
  have hshift : (val <<< 4).toNat = val.toNat <<< 4 := by
    rw [UInt64.toNat_shiftLeft]
    apply Nat.mod_eq_of_lt
    simp [Nat.shiftLeft_eq]
    omega
  rw [UInt64.toNat_or, hshift, hdigit, ← Nat.shiftLeft_add_eq_or_of_lt hd, Nat.shiftLeft_eq]
  omega

theorem hexValue_eq (v : StringView) {pos n : Nat} {val : UInt64} (hpos : pos + n ≤ v.text.length)
    (hval : (val.toNat + 1) * 16 ^ n ≤ 2 ^ 64)
    : hexValue v pos n val
        = some ((Numeral.decodeFrom 16 val.toNat ((v.text.drop pos).take n)).map .ofNat) := by
  induction n generalizing pos val with
  | zero => simp [hexValue, Numeral.decodeFrom]
  | succ n ih =>
    have hlt : pos < v.text.length := by
      omega
    rw [List.drop_eq_getElem_cons hlt, List.take_succ_cons, Numeral.decodeFrom, hexValue]
    rw [StringView.read?, List.getElem?_eq_getElem hlt, Option.bind_eq_bind, Option.bind_some]
    rw [hexDigit?_eq]
    cases hvalue : Numeral.value? v.text[pos] with
    | none => rfl
    | some d =>
      have hd := Numeral.value?_lt hvalue
      rw [Nat.pow_succ, Nat.mul_comm (16 ^ n), ← Nat.mul_assoc] at hval
      have hroom : (val.toNat + 1) * 16 ≤ 2 ^ 64 :=
        Nat.le_trans (Nat.le_mul_of_pos_right _ (Nat.pow_pos (by decide))) hval
      have hnext := @toNat_shiftLeft_or val d (by omega) hd
      have hfits : ((val <<< 4 ||| .ofNat d).toNat + 1) * 16 ^ n ≤ 2 ^ 64 := by
        rw [hnext]
        apply Nat.le_trans _ hval
        apply Nat.mul_le_mul_right
        omega
      have hrest := @ih (pos + 1) _ (by omega) hfits
      rw [hnext] at hrest
      dsimp only
      rw [if_pos hd]
      exact hrest

end Digits

section Decoder

variable (v : StringView) (pos : UInt64)

theorem size_lt_iff
    : v.size < pos + 2 + .ofNat kColorAddrSize
        ↔ v.text.length < (pos.toNat + 18) % 2 ^ 64 := by
  have hlength := v.length_lt
  rw [UInt64.lt_iff_toNat_lt, StringView.size, UInt64.toNat_ofNat_of_lt' (by simp [UInt64.size]; omega)]
  simp [kColorAddrSize]

theorem length_of_tagAt {text : Text} {pos n : Nat} (h : TagAt text pos n) : pos + 18 ≤ text.length := by
  rcases h with ⟨ds, hprefix, hlength, _⟩
  have hle := hprefix.length_le
  rw [List.length_cons, List.length_cons, hlength, List.length_drop, kColorAddrSize] at hle
  omega

theorem tagAt_iff {text : Text} {pos n : Nat} (h : pos + 18 ≤ text.length)
    : TagAt text pos n
        ↔ text[pos]? = some kColorOn ∧ text[pos + 1]? = some kColorAddr
          ∧ Hex.decode ((text.drop (pos + 2)).take kColorAddrSize) = some n := by
  have hfirst : pos < text.length := by
    omega
  have hsecond : pos + 1 < text.length := by
    omega
  unfold TagAt
  rw [List.drop_eq_getElem_cons hfirst, List.drop_eq_getElem_cons hsecond]
  rw [List.getElem?_eq_getElem hfirst, List.getElem?_eq_getElem hsecond]
  simp only [List.cons_prefix_cons, Option.some.injEq]
  constructor
  . intro ⟨ds, ⟨hon, haddr, hds⟩, hlength, hvalue⟩
    rw [List.prefix_iff_eq_take, hlength] at hds
    rw [hds] at hvalue
    exact ⟨hon.symm, haddr.symm, hvalue⟩
  . intro ⟨hon, haddr, hvalue⟩
    refine ⟨_, ⟨hon.symm, haddr.symm, List.take_prefix _ _⟩, ?_, hvalue⟩
    rw [List.length_take, List.length_drop, kColorAddrSize]
    omega

theorem tagAt_unique {text : Text} {pos m n : Nat} (hm : TagAt text pos m) (hn : TagAt text pos n)
    : m = n := by
  have hlong := length_of_tagAt hm
  rw [tagAt_iff hlong] at hm hn
  have hsame := hm.right.right
  rw [hn.right.right] at hsame
  injection hsame with hsame
  exact hsame.symm

theorem and_anchorIndex {n : Nat} (h : n < 2 ^ 64)
    : (UInt64.ofNat n &&& anchorIndex).toUInt32.toInt32 = Int32.ofNat (n % 2 ^ 29) := by
  have hmask : UInt64.ofNat n &&& anchorIndex = .ofNat (n % 2 ^ 29) := by
    apply UInt64.toNat.inj
    rw [UInt64.toNat_and, UInt64.toNat_ofNat_of_lt' h]
    have hmod := Nat.and_two_pow_sub_one_eq_mod n 29
    have hlt : n % 2 ^ 29 < UInt64.size := by
      simp [UInt64.size]
      omega
    rw [UInt64.toNat_ofNat_of_lt' hlt, ← hmod]
    rfl
  rw [hmask]
  simp

theorem decodeAddrTag_of_lt (hpos : pos.toNat + 18 < 2 ^ 64)
    : (∃ n, TagAt v.text pos.toNat n ∧ decodeAddrTag v pos = some (.ofNat (n % 2 ^ 29)))
      ∨ (¬∃ n, TagAt v.text pos.toNat n) ∧ decodeAddrTag v pos = some (-1) := by
  unfold decodeAddrTag
  have hsize := size_lt_iff v pos
  rw [Nat.mod_eq_of_lt hpos] at hsize
  by_cases hshort : v.text.length < pos.toNat + 18
  . right
    rw [if_pos (hsize.mpr hshort)]
    refine ⟨?_, rfl⟩
    intro ⟨n, htag⟩
    have := length_of_tagAt htag
    omega
  . have hlong : pos.toNat + 18 ≤ v.text.length := by
      omega
    have hnext : (pos + 1).toNat = pos.toNat + 1 := by
      rw [UInt64.toNat_add]
      apply Nat.mod_eq_of_lt
      simp
      omega
    have hvalue : hexValue v (pos.toNat + 2) kColorAddrSize 0
        = some ((Hex.decode ((v.text.drop (pos.toNat + 2)).take kColorAddrSize)).map .ofNat) :=
      hexValue_eq v hlong (by decide)
    rw [if_neg (fun h => hshort (hsize.mp h)), hnext, hvalue]
    simp only [tagAt_iff hlong, StringView.read?, Option.bind_eq_bind]
    rw [List.getElem?_eq_getElem (by omega), List.getElem?_eq_getElem (by omega)]
    simp only [Option.bind_some, Option.some.injEq]
    by_cases hon : v.text[pos.toNat] = kColorOn
    . rw [if_neg (not_not.mpr hon)]
      by_cases haddr : v.text[pos.toNat + 1] = kColorAddr
      . rw [if_neg (not_not.mpr haddr)]
        cases hdecode : Hex.decode ((v.text.drop (pos.toNat + 2)).take kColorAddrSize) with
        | none =>
          right
          refine ⟨?_, rfl⟩
          rintro ⟨_, _, _, h⟩
          cases h
        | some n =>
          left
          have hlt : n < 2 ^ 64 := by
            apply Nat.lt_of_lt_of_le (Hex.decode_lt hdecode)
            apply Nat.pow_le_pow_right (by decide) (List.length_take_le _ _)
          refine ⟨n, ⟨hon, haddr, rfl⟩, ?_⟩
          rw [← and_anchorIndex hlt]
          rfl
      . right
        rw [if_pos haddr]
        refine ⟨?_, rfl⟩
        rintro ⟨_, _, h, _⟩
        exact haddr h
    . right
      rw [if_pos hon]
      refine ⟨?_, rfl⟩
      rintro ⟨_, h, _⟩
      exact hon h

theorem toInt_ofNat_mod (n : Nat)
    : 0 ≤ (Int32.ofNat (n % 2 ^ 29)).toInt ∧ (Int32.ofNat (n % 2 ^ 29)).toInt < 2 ^ 29 := by
  have hlt : n % 2 ^ 29 < 2 ^ 29 := Nat.mod_lt n (by decide)
  rw [Int32.toInt_ofNat_of_lt (by omega)]
  omega

theorem decodesSafely_of_lt (hpos : pos.toNat + 18 < 2 ^ 64) : DecodesSafely v pos := by
  rcases decodeAddrTag_of_lt v pos hpos with ⟨n, htag, hdecode⟩ | ⟨hnone, hdecode⟩
  . refine ⟨_, hdecode, .inr (toInt_ofNat_mod n), ?_⟩
    intro hnone
    exact absurd ⟨n, htag⟩ hnone
  . exact ⟨-1, hdecode, .inl rfl, fun _ => rfl⟩

theorem decodesSafely_iff
    : DecodesSafely v pos
        ↔ pos.toNat + 18 < 2 ^ 64 ∨ v.text.length < pos.toNat + 18 - 2 ^ 64 := by
  have hlength := v.length_lt
  have hpos := pos.toNat_lt
  constructor
  . intro ⟨r, hr, _⟩
    by_contra hwraps
    rw [not_or] at hwraps
    have hmod : (pos.toNat + 18) % 2 ^ 64 = pos.toNat + 18 - 2 ^ 64 := by
      omega
    unfold decodeAddrTag at hr
    rw [if_neg (by rw [size_lt_iff, hmod]; exact hwraps.right)] at hr
    rw [StringView.read?, List.getElem?_eq_none (by omega)] at hr
    cases hr
  . rintro (hlt | hshort)
    . apply decodesSafely_of_lt v pos hlt
    . have hmod : (pos.toNat + 18) % 2 ^ 64 = pos.toNat + 18 - 2 ^ 64 := by
        omega
      refine ⟨-1, ?_, .inl rfl, fun _ => rfl⟩
      unfold decodeAddrTag
      rw [if_pos]
      rw [size_lt_iff, hmod]
      exact hshort

theorem tagAt_makeAddrTag {i : Int32} (p s : Text)
    : TagAt (p ++ makeAddrTag i ++ s) p.length i.toUInt32.toNat := by
  have hlt : i.toUInt32.toNat < 16 ^ kColorAddrSize :=
    Nat.lt_of_lt_of_le i.toUInt32.toNat_lt (by decide)
  have hlength := Hex.length_encode hlt
  refine ⟨Hex.encode kColorAddrSize i.toUInt32.toNat, ?_, hlength, Hex.decode_encode _ _⟩
  rw [List.append_assoc, List.drop_left, makeAddrTag, List.take_of_length_le (Nat.le_of_eq hlength)]
  exact List.prefix_append _ _

theorem ofNat_toUInt32_mod {i : Int32} (hnonneg : 0 ≤ i.toInt) (hlt : i.toInt < 2 ^ 29)
    : Int32.ofNat (i.toUInt32.toNat % 2 ^ 29) = i := by
  have hsmall : i.toUInt32.toNat < 2 ^ 29 := by
    have hbits : i.toInt = if 2 * i.toUInt32.toNat < 2 ^ 32 then (i.toUInt32.toNat : Int)
        else i.toUInt32.toNat - 2 ^ 32 := BitVec.toInt_eq_toNat_cond _
    have := i.toUInt32.toNat_lt
    split at hbits <;> omega
  rw [Nat.mod_eq_of_lt hsmall]
  apply Int32.toBitVec.inj
  simp

end Decoder

/--
The decoder is safe at exactly those positions where the sum in its test does not wrap, or wraps to more
than the length of the text. An index is read back from its tag, whatever is around it.
-/
theorem addrTag_codec (v : StringView) (pos : UInt64)
    : (DecodesSafely v pos
          ↔ pos.toNat + 18 < 2 ^ 64 ∨ v.text.length < pos.toNat + 18 - 2 ^ 64)
        ∧ ∀ (i : Int32) (p s : Text) (h : (p ++ makeAddrTag i ++ s).length < 2 ^ 63),
          0 ≤ i.toInt → i.toInt < 2 ^ 29
            → decodeAddrTag ⟨p ++ makeAddrTag i ++ s, h⟩ (.ofNat p.length) = some i := by
  refine ⟨decodesSafely_iff v pos, ?_⟩
  intro i p s h hnonneg hlt
  have htag := @tagAt_makeAddrTag i p s
  have hlength := length_of_tagAt htag
  have hpos : (UInt64.ofNat p.length).toNat = p.length := by
    apply UInt64.toNat_ofNat_of_lt'
    simp only [UInt64.size]
    omega
  rcases decodeAddrTag_of_lt ⟨_, h⟩ (.ofNat p.length) (by omega) with ⟨n, hn, hdecode⟩ | ⟨hnone, _⟩
  . rw [hpos] at hn
    rw [hdecode, tagAt_unique hn htag, ofNat_toUInt32_mod hnonneg hlt]
  . rw [hpos] at hnone
    exact absurd ⟨_, htag⟩ hnone

def emptyView : StringView :=
  ⟨[], by decide⟩

theorem addrTag_codec_seven
    : decodeAddrTag ⟨[0x41] ++ makeAddrTag 7 ++ [0x42], by decide⟩ 1 = some 7 :=
  (addrTag_codec emptyView 0).right 7 [0x41] [0x42] (by decide) (by decide) (by decide)

theorem not_decodesSafely_emptyView
    : decodeAddrTag emptyView 0xFFFFFFFFFFFFFFEE = none
        ∧ ¬DecodesSafely emptyView 0xFFFFFFFFFFFFFFEE := by
  have hnone : decodeAddrTag emptyView 0xFFFFFFFFFFFFFFEE = none := by
    decide
  refine ⟨hnone, ?_⟩
  rintro ⟨r, hr, _⟩
  rw [hnone] at hr
  cases hr

end Lines
end Idax
