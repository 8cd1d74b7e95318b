import Idax.Library.Packing
import Idax.Microcode.Lemmas.Argument

/-!
The offsets that arguments get on the stack, as the code computes them and without bounds.
-/

namespace Idax
namespace Microcode

variable {μ τ : Type}

section Size

theorem pos_iff_toInt_pos {a : Int32} : 0 < a ↔ 0 < a.toInt :=
  Int32.lt_iff_toInt_lt

theorem bmod_eq_mod {size : Nat} (h : 0 < (size : Int).bmod (2 ^ 32))
    : (size : Int).bmod (2 ^ 32) = (size % 2 ^ 32 : Nat)
        ∧ 0 < size % 2 ^ 32 ∧ size % 2 ^ 32 < 2 ^ 31 := by
  revert h
  rw [Int.bmod_eq_emod]
  split <;> omega

variable (sdk : Sdk μ τ) (callarg : Mcallarg μ τ)

def typeSize : Nat :=
  if sdk.getSize callarg.type = 0 then (Int32.ofInt callarg.mop.size).toInt.toNat
  else (sdk.getSize callarg.type).toNat

variable {sdk callarg}

theorem toInt_argumentSize (hmatches : WidthMatches sdk callarg)
    (hpos : ¬argumentSize sdk callarg ≤ 0)
    : (argumentSize sdk callarg).toInt = (typeSize sdk callarg % 2 ^ 32 : Nat)
        ∧ 0 < typeSize sdk callarg % 2 ^ 32 ∧ typeSize sdk callarg % 2 ^ 32 < 2 ^ 31 := by
  rw [Int32.not_le, pos_iff_toInt_pos] at hpos
  have hlt := (argumentSize sdk callarg).toInt_lt
  revert hpos hlt
  unfold argumentSize typeSize
  dsimp only
  split
  . next hnarrow =>
    intro hpos hlt
    have hwidth := hmatches (pos_iff_toInt_pos.mpr hpos)
    split
    . omega
    . next hsize =>
      rw [hwidth.resolve_left hsize] at hnarrow
      exact absurd (pos_iff_toInt_pos.mpr hpos) (Int32.not_lt.mpr hnarrow)
  . next hnarrow =>
    intro hpos hlt
    rw [toInt_narrow] at hpos ⊢
    split
    . next hsize =>
      rw [hsize] at hpos
      exact absurd hpos (by decide)
    . apply bmod_eq_mod hpos

end Size

section Alignment

def defaultAlignment (size : Nat) : Nat :=
  if size ≤ 8 then 8 else if size ≤ 16 then 16 else if size ≤ 32 then 32 else 64

theorem toInt_stackAlignmentForSize {size : Int32} {n : Nat} (hsize : size.toInt = n)
    : (stackAlignmentForSize size).toInt = defaultAlignment n := by
  have h8 : (8 : Int32) <<< 1 = 16 := rfl
  have h16 : (16 : Int32) <<< 1 = 32 := rfl
  have h32 : (32 : Int32) <<< 1 = 64 := rfl
  unfold stackAlignmentForSize defaultAlignment
  simp only [growAlignment, h8, h16, h32, Int32.lt_iff_toInt_lt, hsize]
  change (if (8 : Int) < n ∧ (8 : Int) < 64 then
      if (16 : Int) < n ∧ (16 : Int) < 64 then
        if (32 : Int) < n ∧ (32 : Int) < 64 then 64 else 32
      else 16
    else (8 : Int32)).toInt = _
  by_cases hle8 : n ≤ 8
  . rw [if_neg (by omega), if_pos hle8]
    rfl
  . rw [if_pos (by omega), if_neg hle8]
    by_cases hle16 : n ≤ 16
    . rw [if_neg (by omega), if_pos hle16]
      rfl
    . rw [if_pos (by omega), if_neg hle16]
      by_cases hle32 : n ≤ 32
      . rw [if_neg (by omega), if_pos hle32]
        rfl
      . rw [if_pos (by omega), if_neg hle32]
        rfl

variable (options : MicrocodeCallOptions)

def alignmentFor (size : Nat) : Nat :=
  match options.autoStackAlignment with
  | some alignment => alignment.toInt.toNat
  | none => defaultAlignment size

variable {options}

theorem toInt_argumentAlignment
    (hpositive : ∀ alignment, options.autoStackAlignment = some alignment → 0 < alignment)
    {size : Int32} {n : Nat} (hsize : size.toInt = n)
    : (argumentAlignment options size).toInt = alignmentFor options n := by
  unfold argumentAlignment alignmentFor
  cases halignment : options.autoStackAlignment with
  | none => apply toInt_stackAlignmentForSize hsize
  | some alignment =>
    have hpos := pos_iff_toInt_pos.mp (hpositive alignment halignment)
    dsimp only [Option.getD]
    omega

theorem alignmentFor_pos
    (hpositive : ∀ alignment, options.autoStackAlignment = some alignment → 0 < alignment)
    (size : Nat) : 0 < alignmentFor options size ∧ alignmentFor options size < 2 ^ 31 := by
  unfold alignmentFor
  cases halignment : options.autoStackAlignment with
  | none =>
    dsimp only
    unfold defaultAlignment
    split
    . omega
    . split
      . omega
      . split <;> omega
  | some alignment =>
    have hpos := pos_iff_toInt_pos.mp (hpositive alignment halignment)
    have hlt := alignment.toInt_lt
    dsimp only
    omega

end Alignment

section Offset

theorem toInt_alignOffset {offset : Int64} {alignment : Int32} {m k : Nat}
    (hoffset : offset.toInt = m) (halignment : alignment.toInt = k) (hpos : 0 < k)
    (hfits : roundUp m k < 2 ^ 63) : (alignOffset offset alignment).toInt = roundUp m k := by
  have hk : k < 2 ^ 31 := by
    have := alignment.toInt_lt
    omega
  have hmod : (offset % alignment.toInt64).toInt = (m % k : Nat) := by
    rw [Int64.toInt_mod, Int32.toInt_toInt64, hoffset, halignment]
    rfl
  have hzero : offset % alignment.toInt64 ≠ 0 ↔ m % k ≠ 0 := by
    rw [ne_eq, ← Int64.toInt_inj, hmod]
    change ¬((m % k : Nat) : Int) = 0 ↔ _
    omega
  have hlt := Nat.mod_lt m hpos
  unfold roundUp at hfits ⊢
  unfold alignOffset
  dsimp only
  simp only [hzero]
  by_cases hr : m % k = 0
  . rw [if_neg (not_not.mpr hr), if_pos hr]
    apply hoffset
  . rw [if_neg hr] at hfits
    have hpad : (alignment.toInt64 - offset % alignment.toInt64).toInt = (k - m % k : Nat) := by
      rw [Int64.toInt_sub, Int32.toInt_toInt64, halignment, hmod, Int.bmod_eq_of_le] <;> omega
    rw [if_pos hr, if_neg hr, Int64.toInt_add, hoffset, hpad, Int.bmod_eq_of_le] <;> omega

def FitsInt64 (x : Int) : Prop :=
  -2 ^ 63 ≤ x ∧ x < 2 ^ 63

def StepFits (offset : Int64) (alignment size : Int32) : Prop :=
  let remainder := offset.toInt.tmod alignment.toInt
  (remainder ≠ 0 → FitsInt64 (alignment.toInt - remainder)
      ∧ FitsInt64 (offset.toInt + (alignment.toInt - remainder)))
    ∧ FitsInt64 ((alignOffset offset alignment).toInt + size.toInt)

section Step

variable {offset : Int64} {alignment size : Int32} {m k n : Nat}
variable (hoffset : offset.toInt = m) (halignment : alignment.toInt = k) (hpos : 0 < k)
variable (hsize : size.toInt = n)

include hoffset halignment hpos hsize

theorem stepFits_iff : StepFits offset alignment size ↔ roundUp m k + n < 2 ^ 63 := by
  have hremainder : offset.toInt.tmod alignment.toInt = (m % k : Nat) := by
    rw [hoffset, halignment]
    rfl
  have hlt := Nat.mod_lt m hpos
  have hm := offset.toInt_lt
  have hk := alignment.toInt_lt
  unfold StepFits FitsInt64
  dsimp only
  rw [hremainder, hoffset, halignment, hsize]
  constructor
  . rintro ⟨hpad, hend⟩
    have hfits : roundUp m k < 2 ^ 63 := by
      unfold roundUp
      split <;> omega
    rw [toInt_alignOffset hoffset halignment hpos hfits] at hend
    omega
  . intro hend
    rw [toInt_alignOffset hoffset halignment hpos (by omega)]
    constructor
    . intro hr
      have hround : roundUp m k = m + (k - m % k) := if_neg (by omega)
      rw [hround] at hend
      omega
    . omega

theorem toInt_nextOffset (hend : roundUp m k + n < 2 ^ 63)
    : (alignOffset offset alignment + size.toInt64).toInt = (roundUp m k + n : Nat) := by
  rw [Int64.toInt_add, toInt_alignOffset hoffset halignment hpos (by omega), Int32.toInt_toInt64,
    hsize, Int.bmod_eq_of_le] <;> omega

end Step

end Offset

section Run

variable (sdk : Sdk μ τ) (options : MicrocodeCallOptions)

def offsetsFrom : Int64 → List (Mcallarg μ τ) → List Int64
  | _, [] => []
  | autoStackOffset, callarg :: callargs =>
    let size := argumentSize sdk callarg
    let offset := alignOffset autoStackOffset (argumentAlignment options size)
    offset :: offsetsFrom (offset + size.toInt64) callargs

def NoOverflow : Int64 → List (Mcallarg μ τ) → Prop
  | _, [] => True
  | autoStackOffset, callarg :: callargs =>
    let size := argumentSize sdk callarg
    let alignment := argumentAlignment options size
    StepFits autoStackOffset alignment size
      ∧ NoOverflow (alignOffset autoStackOffset alignment + size.toInt64) callargs

def blockFor (size : Nat) : Block where
  alignment := alignmentFor options (size % 2 ^ 32)
  size := size % 2 ^ 32

variable {sdk options}

def Sized (sdk : Sdk μ τ) (callargs : List (Mcallarg μ τ)) : Prop :=
  ∀ callarg ∈ callargs, WidthMatches sdk callarg ∧ ¬argumentSize sdk callarg ≤ 0

variable (hpositive : ∀ alignment, options.autoStackAlignment = some alignment → 0 < alignment)

include hpositive

theorem placed_iff {callarg : Mcallarg μ τ} {offset : Int64} {m : Nat}
    (hmatches : WidthMatches sdk callarg) (hsize : ¬argumentSize sdk callarg ≤ 0)
    (hoffset : offset.toInt = m)
    : let size := argumentSize sdk callarg
      let alignment := argumentAlignment options size
      let block := blockFor options (typeSize sdk callarg)
      let placed := roundUp m block.alignment
      (StepFits offset alignment size ↔ placed + block.size < 2 ^ 63)
        ∧ (placed + block.size < 2 ^ 63
          → (alignOffset offset alignment).toInt = placed
            ∧ (alignOffset offset alignment + size.toInt64).toInt = (placed + block.size : Nat)) := by
  have htoInt := (toInt_argumentSize hmatches hsize).left
  have halignment := toInt_argumentAlignment hpositive htoInt
  have hpos := (alignmentFor_pos hpositive (typeSize sdk callarg % 2 ^ 32)).left
  refine ⟨stepFits_iff hoffset halignment hpos htoInt, ?_⟩
  intro hend
  refine ⟨?_, toInt_nextOffset hoffset halignment hpos htoInt hend⟩
  apply toInt_alignOffset hoffset halignment hpos
  apply lt_of_le_of_lt (Nat.le_add_right _ _) hend

theorem noOverflow_iff {callargs : List (Mcallarg μ τ)} (hsized : Sized sdk callargs)
    {offset : Int64} {m : Nat} (hoffset : offset.toInt = m)
    : NoOverflow sdk options offset callargs
        ↔ packEnd m ((callargs.map (typeSize sdk)).map (blockFor options)) < 2 ^ 63 := by
  induction callargs generalizing offset m with
  | nil =>
    have hlt := offset.toInt_lt
    simp only [NoOverflow, List.map_nil, packEnd, true_iff]
    omega
  | cons callarg callargs ih =>
    rcases hsized callarg List.mem_cons_self with ⟨hmatches, hsize⟩
    have htail : Sized sdk callargs := fun c hc => hsized c (List.mem_cons_of_mem callarg hc)
    rcases placed_iff hpositive hmatches hsize hoffset with ⟨hfits, hplaced⟩
    simp only [NoOverflow, List.map_cons, packEnd]
    rw [hfits]
    constructor
    . rintro ⟨hend, hrest⟩
      apply (ih htail (hplaced hend).right).mp hrest
    . intro hrest
      have hend := lt_of_le_of_lt (le_packEnd _ _) hrest
      exact ⟨hend, (ih htail (hplaced hend).right).mpr hrest⟩

theorem offsetsFrom_eq_pack {callargs : List (Mcallarg μ τ)} (hsized : Sized sdk callargs)
    {offset : Int64} {m : Nat} (hoffset : offset.toInt = m)
    (hend : packEnd m ((callargs.map (typeSize sdk)).map (blockFor options)) < 2 ^ 63)
    : (offsetsFrom sdk options offset callargs).map Int64.toInt
        = (pack m ((callargs.map (typeSize sdk)).map (blockFor options))).map Nat.cast := by
  induction callargs generalizing offset m with
  | nil => rfl
  | cons callarg callargs ih =>
    rcases hsized callarg List.mem_cons_self with ⟨hmatches, hsize⟩
    have htail : Sized sdk callargs := fun c hc => hsized c (List.mem_cons_of_mem callarg hc)
    simp only [List.map_cons, packEnd] at hend
    have hplaced := (placed_iff hpositive hmatches hsize hoffset).right
      (lt_of_le_of_lt (le_packEnd _ _) hend)
    simp only [offsetsFrom, List.map_cons, pack]
    rw [hplaced.left, ih htail hplaced.right hend]

end Run

section Build

variable (sdk : Sdk μ τ) (mba : Option μ) (ea : Address) (options : MicrocodeCallOptions)

def automaticArguments : (index : Nat) → List MicrocodeValue → List (Mcallarg μ τ)
  | _, [] => []
  | index, argument :: arguments =>
    if placedAutomatically options argument then
      match buildArgument sdk mba ea index options argument with
      | .ok callarg => callarg :: automaticArguments (index + 1) arguments
      | .error _ => automaticArguments (index + 1) arguments
    else
      automaticArguments (index + 1) arguments

def automaticLocations (arguments : List MicrocodeValue) (callargs : List (Mcallarg μ τ))
    : List Argloc :=
  ((arguments.zip callargs).filter fun p => placedAutomatically options p.fst).map
    fun p => p.snd.argloc

def stackLocation (offset : Int64) : Argloc :=
  .single (.stkoff offset)

variable {sdk mba ea options}

theorem effectiveLocation_of_automatic {index : Nat} {argument : MicrocodeValue}
    {callarg : Mcallarg μ τ} {offset offset' : Int64} {location : MicrocodeValueLocation}
    (hplaced : placedAutomatically options argument = true)
    (h : effectiveLocation sdk options index argument callarg offset = .ok (location, offset'))
    : ¬argumentSize sdk callarg ≤ 0
      ∧ location = {
          argument.location with
          kind := .stackOffset
          stackOffset :=
            alignOffset offset (argumentAlignment options (argumentSize sdk callarg)) }
      ∧ offset' = alignOffset offset (argumentAlignment options (argumentSize sdk callarg))
          + (argumentSize sdk callarg).toInt64 := by
  unfold effectiveLocation at h
  rw [if_pos hplaced] at h
  dsimp only at h
  split at h
  . cases h
  . next hsize =>
    cases h
    exact ⟨hsize, rfl, rfl⟩

theorem effectiveLocation_of_explicit {index : Nat} {argument : MicrocodeValue}
    {callarg : Mcallarg μ τ} {offset offset' : Int64} {location : MicrocodeValueLocation}
    (hplaced : ¬placedAutomatically options argument = true)
    (h : effectiveLocation sdk options index argument callarg offset = .ok (location, offset'))
    : offset' = offset := by
  unfold effectiveLocation at h
  rw [if_neg hplaced] at h
  cases h
  rfl

theorem buildArgumentsFrom_eq_ok {index : Nat} {offset : Int64} {arguments : List MicrocodeValue}
    {result : CallArgumentsBuildResult μ τ}
    (h : buildArgumentsFrom sdk mba ea options index offset arguments = .ok result)
    : automaticLocations options arguments result.arguments
          = (offsetsFrom sdk options offset
              (automaticArguments sdk mba ea options index arguments)).map stackLocation
        ∧ Sized sdk (automaticArguments sdk mba ea options index arguments) := by
  induction arguments generalizing index offset result with
  | nil =>
    cases h
    refine ⟨rfl, ?_⟩
    intro callarg hmem
    cases hmem
  | cons argument arguments ih =>
    unfold buildArgumentsFrom at h
    rcases bind_eq_ok_iff.mp h with ⟨callarg, hcallarg, h⟩
    rcases bind_eq_ok_iff.mp h with ⟨⟨location, offset'⟩, hlocation, h⟩
    rcases bind_eq_ok_iff.mp h with ⟨⟨argloc, hasExplicit⟩, hargloc, h⟩
    rcases bind_eq_ok_iff.mp h with ⟨rest, hrest, h⟩
    cases h
    rcases ih hrest with ⟨hlocations, hsized⟩
    unfold automaticLocations at hlocations ⊢
    unfold automaticArguments
    by_cases hplaced : placedAutomatically options argument = true
    . rcases effectiveLocation_of_automatic hplaced hlocation with ⟨hsize, rfl, rfl⟩
      cases hargloc
      rw [if_pos hplaced, hcallarg]
      simp only [List.zip_cons_cons, List.filter_cons, hplaced, if_true, List.map_cons, offsetsFrom]
      refine ⟨?_, ?_⟩
      . rw [hlocations]
        rfl
      . intro c hc
        rcases List.mem_cons.mp hc with rfl | hmem
        . exact ⟨widthMatches_buildArgument hcallarg, hsize⟩
        . apply hsized c hmem
    . cases effectiveLocation_of_explicit hplaced hlocation
      rw [if_neg hplaced]
      simp only [List.zip_cons_cons, List.filter_cons, hplaced]
      exact ⟨hlocations, hsized⟩

end Build

end Microcode
end Idax
