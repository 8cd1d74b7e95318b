import Idax.Microcode.Lemmas.AutoStack

/-!
This module shows when the stack locations that the code chooses for arguments do not collide.
-/

namespace Idax
namespace Microcode

variable {μ τ : Type}

section Layout

def Covers (range : Int × Nat) (byte : Int) : Prop :=
  range.fst ≤ byte ∧ byte < range.fst + range.snd

structure LaidOut (options : MicrocodeCallOptions) (start : Int) (ranges : List (Int × Nat)) : Prop where
  apart : ranges.Pairwise fun r s => r.fst < s.fst ∧ ∀ byte, ¬(Covers r byte ∧ Covers s byte)
  aligned : ∀ r ∈ ranges, (alignmentFor options r.snd : Int) ∣ r.fst
  start_le : ∀ r ∈ ranges, start ≤ r.fst

/--
Every argument but the last is smaller than 2 GiB. The last is too, or the offset that it gets happens
to be a multiple of its alignment.
-/
def Room (options : MicrocodeCallOptions) : (free : Nat) → List Nat → Prop
  | _, [] => True
  | free, [size] =>
    size < 2 ^ 31
      ∨ alignmentFor options size ∣ roundUp free (alignmentFor options (size % 2 ^ 32))
  | free, size :: size' :: sizes =>
    size < 2 ^ 31 ∧ Room options (roundUp free (alignmentFor options size) + size) (size' :: sizes)

def packedRanges (options : MicrocodeCallOptions) (free : Nat) (sizes : List Nat)
    : List (Int × Nat) :=
  ((pack free (sizes.map (blockFor options))).map Nat.cast).zip sizes

variable {options : MicrocodeCallOptions}

theorem packedRanges_cons (free size : Nat) (sizes : List Nat)
    : packedRanges options free (size :: sizes)
        = (((roundUp free (alignmentFor options (size % 2 ^ 32)) : Nat) : Int), size)
          :: packedRanges options
              (roundUp free (alignmentFor options (size % 2 ^ 32)) + size % 2 ^ 32) sizes := by
  rfl

theorem le_of_mem_packedRanges {free : Nat} {sizes : List Nat} {r : Int × Nat}
    (h : r ∈ packedRanges options free sizes) : (free : Int) ≤ r.fst := by
  rcases r with ⟨offset, size⟩
  rcases List.mem_map.mp (List.of_mem_zip h).left with ⟨offset', hmem, rfl⟩
  have hle := le_of_mem_pack hmem
  dsimp only
  omega

theorem LaidOut.tail {start start' : Int} {r : Int × Nat} {ranges : List (Int × Nat)}
    (h : LaidOut options start (r :: ranges)) (hstart : ∀ s ∈ ranges, start' ≤ s.fst)
    : LaidOut options start' ranges where
  apart := (List.pairwise_cons.mp h.apart).right
  aligned := fun s hs => h.aligned s (List.mem_cons_of_mem r hs)
  start_le := hstart

variable (hpositive : ∀ alignment, options.autoStackAlignment = some alignment → 0 < alignment)

include hpositive

theorem not_apart_of_large {free size size' : Nat} (hsize : 0 < size' % 2 ^ 32)
    (hlarge : 2 ^ 31 ≤ size) (hsmall : size % 2 ^ 32 < 2 ^ 31)
    : Covers (free, size) (roundUp (free + size % 2 ^ 32) (alignmentFor options (size' % 2 ^ 32)) : Nat)
      ∧ Covers
          ((roundUp (free + size % 2 ^ 32) (alignmentFor options (size' % 2 ^ 32)) : Nat), size')
          (roundUp (free + size % 2 ^ 32) (alignmentFor options (size' % 2 ^ 32)) : Nat) := by
  rcases alignmentFor_pos hpositive (size' % 2 ^ 32) with ⟨hpos, hlt⟩
  have hle := le_roundUp (free + size % 2 ^ 32) (alignmentFor options (size' % 2 ^ 32))
  have hround := roundUp_lt (free + size % 2 ^ 32) hpos
  unfold Covers
  dsimp only
  omega

theorem laidOut_cons {free size : Nat} {sizes : List Nat} (hsmall : size < 2 ^ 31)
    (h : LaidOut options (roundUp free (alignmentFor options size) + size : Nat)
      (packedRanges options (roundUp free (alignmentFor options size) + size) sizes))
    (hpos : 0 < size) : LaidOut options free (packedRanges options free (size :: sizes)) := by
  have hle := le_roundUp free (alignmentFor options size)
  rw [packedRanges_cons, Nat.mod_eq_of_lt (by omega)]
  constructor
  . apply List.pairwise_cons.mpr ⟨?_, h.apart⟩
    intro s hs
    have hstart := h.start_le s hs
    refine ⟨?_, ?_⟩
    . omega
    . rintro byte ⟨hcovers, hcovers'⟩
      unfold Covers at hcovers hcovers'
      omega
  . intro r hr
    rcases List.mem_cons.mp hr with rfl | hmem
    . apply Int.natCast_dvd_natCast.mpr
      apply dvd_roundUp free (alignmentFor_pos hpositive size).left
    . apply h.aligned r hmem
  . intro r hr
    rcases List.mem_cons.mp hr with rfl | hmem
    . dsimp only
      omega
    . have hstart := h.start_le r hmem
      omega

theorem laidOut_iff {free : Nat} {sizes : List Nat}
    (hsizes : ∀ size ∈ sizes, 0 < size % 2 ^ 32 ∧ size % 2 ^ 32 < 2 ^ 31)
    : LaidOut options free (packedRanges options free sizes) ↔ Room options free sizes := by
  induction sizes generalizing free with
  | nil =>
    refine iff_of_true ⟨List.Pairwise.nil, ?_, ?_⟩ trivial
    . intro r hr
      cases hr
    . intro r hr
      cases hr
  | cons size sizes ih =>
    have htail : ∀ s ∈ sizes, 0 < s % 2 ^ 32 ∧ s % 2 ^ 32 < 2 ^ 31 :=
      fun s hs => hsizes s (List.mem_cons_of_mem size hs)
    have hsize := hsizes size List.mem_cons_self
    cases sizes with
    | nil =>
      rw [packedRanges_cons]
      constructor
      . intro h
        exact .inr (Int.natCast_dvd_natCast.mp (h.aligned _ List.mem_cons_self))
      . rintro (hsmall | hdvd)
        . rw [← packedRanges_cons]
          apply laidOut_cons hpositive hsmall ((ih htail).mpr trivial)
          omega
        . have hle := le_roundUp free (alignmentFor options (size % 2 ^ 32))
          refine ⟨List.pairwise_singleton .., ?_, ?_⟩
          . intro r hr
            rw [List.mem_singleton.mp hr]
            apply Int.natCast_dvd_natCast.mpr hdvd
          . intro r hr
            rw [List.mem_singleton.mp hr]
            dsimp only
            omega
    | cons size' sizes =>
      have hsize' := htail size' List.mem_cons_self
      constructor
      . intro h
        rw [packedRanges_cons] at h
        have hsmall : size < 2 ^ 31 := by
          by_contra hlarge
          rw [packedRanges_cons] at h
          have hapart := (List.pairwise_cons.mp h.apart).left _ List.mem_cons_self
          apply hapart.right _ (not_apart_of_large hpositive hsize'.left (not_lt.mp hlarge)
            hsize.right)
        refine ⟨hsmall, (ih htail).mp ?_⟩
        have hrest := h.tail fun s hs => le_of_mem_packedRanges hs
        rw [Nat.mod_eq_of_lt (by omega)] at hrest
        apply hrest
      . rintro ⟨hsmall, hroom⟩
        apply laidOut_cons hpositive hsmall ((ih htail).mpr hroom)
        omega

end Layout

section Result

variable (sdk : Sdk μ τ) (mba : Option μ) (ea : Address) (options : MicrocodeCallOptions)
variable (arguments : List MicrocodeValue)

def automaticSizes : List Nat :=
  (automaticArguments sdk mba ea options 0 arguments).map (typeSize sdk)

def StackLayout (result : CallArgumentsBuildResult μ τ) : Prop :=
  ∃ offsets : List Int64,
    automaticLocations options arguments result.arguments = offsets.map stackLocation
      ∧ offsets.length = (automaticSizes sdk mba ea options arguments).length
      ∧ LaidOut options (options.autoStackStartOffset.getD 0).toInt
        ((offsets.map Int64.toInt).zip (automaticSizes sdk mba ea options arguments))
      ∧ NoOverflow sdk options (options.autoStackStartOffset.getD 0)
        (automaticArguments sdk mba ea options 0 arguments)

def RoomFrom (start : Nat) (sizes : List Nat) : Prop :=
  Room options start sizes ∧ packEnd start (sizes.map (blockFor options)) < 2 ^ 63

variable {sdk mba ea options arguments}

theorem checkAutoStackOptions_eq_ok (h : checkAutoStackOptions options = ok)
    : 0 ≤ (options.autoStackStartOffset.getD 0).toInt
        ∧ ∀ alignment, options.autoStackAlignment = some alignment → 0 < alignment := by
  unfold checkAutoStackOptions at h
  dsimp only at h
  split at h
  . cases h
  . next hstart =>
    split at h
    . cases h
    . next halignment =>
      refine ⟨?_, ?_⟩
      . rw [Int64.lt_iff_toInt_lt] at hstart
        apply not_lt.mp hstart
      . intro alignment heq
        rw [heq] at halignment
        apply Int32.not_le.mp halignment

theorem sizes_of_sized {callargs : List (Mcallarg μ τ)} (h : Sized sdk callargs)
    : ∀ size ∈ callargs.map (typeSize sdk), 0 < size % 2 ^ 32 ∧ size % 2 ^ 32 < 2 ^ 31 := by
  intro size hmem
  rcases List.mem_map.mp hmem with ⟨callarg, hcallarg, rfl⟩
  rcases h callarg hcallarg with ⟨hmatches, hsize⟩
  apply (toInt_argumentSize hmatches hsize).right

theorem stackLocation_injective : Function.Injective stackLocation := by
  intro offset offset' h
  cases h
  rfl

theorem stackLayout_iff {result : CallArgumentsBuildResult μ τ}
    (h : buildCallArguments sdk mba ea options arguments = .ok result)
    : StackLayout sdk mba ea options arguments result
        ↔ RoomFrom options (options.autoStackStartOffset.getD 0).toInt.toNat
            (automaticSizes sdk mba ea options arguments) := by
  rcases bind_eq_ok_iff.mp h with ⟨_, hcheck, hbuild⟩
  rcases checkAutoStackOptions_eq_ok hcheck with ⟨hstart, hpositive⟩
  rcases buildArgumentsFrom_eq_ok hbuild with ⟨hlocations, hsized⟩
  unfold StackLayout RoomFrom automaticSizes
  generalize automaticArguments sdk mba ea options 0 arguments = callargs at *
  generalize options.autoStackStartOffset.getD 0 = start at *
  have hoffset : start.toInt = start.toInt.toNat := (Int.toNat_of_nonneg hstart).symm
  have hlaidOut := @laidOut_iff options hpositive start.toInt.toNat _ (sizes_of_sized hsized)
  rw [← noOverflow_iff hpositive hsized hoffset, ← hlaidOut]
  constructor
  . rintro ⟨offsets, hoffsets, _, hlaid, hfits⟩
    have heq : offsets = offsetsFrom sdk options start callargs := by
      apply stackLocation_injective.list_map
      rw [← hoffsets, hlocations]
    refine ⟨?_, hfits⟩
    have hend := (noOverflow_iff hpositive hsized hoffset).mp hfits
    rw [heq, offsetsFrom_eq_pack hpositive hsized hoffset hend, hoffset] at hlaid
    apply hlaid
  . rintro ⟨hlaid, hfits⟩
    have hend := (noOverflow_iff hpositive hsized hoffset).mp hfits
    have hpack := offsetsFrom_eq_pack hpositive hsized hoffset hend
    refine ⟨offsetsFrom sdk options start callargs, hlocations, ?_, ?_, hfits⟩
    . have hlength := congrArg List.length hpack
      simpa [length_pack] using hlength
    . rw [hpack, hoffset]
      apply hlaid

end Result

section Example

def registerOfFour : MicrocodeValue :=
  { kind := .register, registerId := 8, byteWidth := 4 }

def twelveBytes : MicrocodeValue :=
  { kind := .byteArray, byteWidth := 12 }

def automaticFrom (start : Int64) : MicrocodeCallOptions :=
  { autoStackArgumentLocations := true, autoStackStartOffset := some start }

theorem stackLayout_fourAndTwelve
    : ∃ result, buildCallArguments (Sdk.ofSizes fun _ => none) none 0x401000 (automaticFrom 0x21)
          [registerOfFour, twelveBytes] = .ok result
        ∧ StackLayout (Sdk.ofSizes fun _ => none) none 0x401000 (automaticFrom 0x21)
          [registerOfFour, twelveBytes] result := by
  refine ⟨_, rfl, ?_⟩
  rw [stackLayout_iff rfl]
  have hsizes : automaticSizes (Sdk.ofSizes fun _ => none) none 0x401000 (automaticFrom 0x21)
      [registerOfFour, twelveBytes] = [4, 12] := rfl
  rw [hsizes]
  exact ⟨⟨by decide, .inl (by decide)⟩, by decide⟩

theorem not_stackLayout_maxValue
    : ∃ result, buildCallArguments (Sdk.ofSizes fun _ => none) none 0x401000
          (automaticFrom Int64.maxValue) [registerOfFour] = .ok result
        ∧ ¬StackLayout (Sdk.ofSizes fun _ => none) none 0x401000 (automaticFrom Int64.maxValue)
          [registerOfFour] result := by
  refine ⟨_, rfl, ?_⟩
  rintro ⟨_, _, _, _, ⟨hpad, _⟩, _⟩
  have hsum := (hpad (by decide)).right.right
  revert hsum
  decide

end Example

end Microcode
end Idax
