import Mathlib.Algebra.Group.Int.Defs
import Mathlib.Algebra.Group.Nat.Defs
import Idax.Types.Trim

/-!
This module contains the question which members of a trimmed struct are kept: those at whose bytes
there is a used offset. Offsets and sizes are in bits, and both `walk` and `emit_udt` round them down
to bytes, so the last byte of a member that does not end where a byte ends is not looked at.
-/

namespace Idax
namespace Types

namespace Udm

def HasByte (m : Udm) (byte : Int) : Prop :=
  if m.size = 0 then
    byte = (m.offset / 8 : Nat)
  else
    ∃ bit : Nat, m.offset ≤ bit ∧ bit < m.offset + m.size ∧ byte = (bit / 8 : Nat)

def Used (used : List Int) (m : Udm) : Prop :=
  ∃ offset ∈ used, m.HasByte offset

def testedStart (m : Udm) : Int :=
  castInt (m.offset / 8)

def testedSize (m : Udm) : Int :=
  if castInt (m.size / 8) = 0 then 1 else castInt (m.size / 8)

def SumDefined (used : List Int) (m : Udm) : Prop :=
  (∃ offset ∈ used, m.testedStart ≤ offset)
    → -2 ^ 31 ≤ m.testedStart + m.testedSize ∧ m.testedStart + m.testedSize < 2 ^ 31

def testedEnd (m : Udm) : Nat :=
  m.offset / 8 + max 1 (m.size / 8)

/--
The condition under which the rounded and narrowed bounds do not change whether the member is kept.
-/
def RoundingHarmless (used : List Int) (m : Udm) : Prop :=
  if m.testedEnd < 2 ^ 31 then
    ∀ offset ∈ used, m.testedEnd ≤ offset → m.HasByte offset →
      ∃ offset' ∈ used, (m.offset / 8 : Nat) ≤ offset' ∧ offset' < m.testedEnd
  else if m.offset / 8 < 2 ^ 31 then
    (∀ offset ∈ used, offset < (m.offset / 8 : Nat))
      ∨ ((m.offset / 8 : Nat) + m.testedSize < 2 ^ 31
          ∧ ∃ offset ∈ used,
              (m.offset / 8 : Nat) ≤ offset ∧ offset < (m.offset / 8 : Nat) + m.testedSize)
  else
    (∀ offset ∈ used, offset < m.testedStart)
      ∨ ((-2 ^ 31 ≤ m.testedStart + m.testedSize ∧ m.testedStart + m.testedSize < 2 ^ 31)
          ∧ ∀ offset ∈ used, m.testedStart ≤ offset → m.testedStart + m.testedSize ≤ offset)

theorem hasByte_iff (m : Udm) (byte : Int)
    : m.HasByte byte
        ↔ (m.offset / 8 : Nat) ≤ byte
            ∧ byte < (if m.size = 0 then m.offset / 8 + 1 else (m.offset + m.size + 7) / 8 : Nat) := by
  unfold HasByte
  split
  . omega
  . next hsize =>
    constructor
    . intro ⟨bit, hstart, hend, hbyte⟩
      omega
    . intro ⟨hstart, hend⟩
      -- The first bit of the byte, unless the member begins behind it.
      refine ⟨max m.offset (8 * byte.toNat), ?_, ?_, ?_⟩
      . omega
      . omega
      . omega

end Udm

theorem castInt_of_lt {value : Nat} (h : value < 2 ^ 31) : castInt value = value := by
  unfold castInt
  apply Int.bmod_eq_of_le
  . omega
  . omega

theorem castInt_range (value : Nat) : -2 ^ 31 ≤ castInt value ∧ castInt value < 2 ^ 31 := by
  unfold castInt
  have hle := @Int.le_bmod value (2 ^ 32) (by decide)
  have hlt := @Int.bmod_lt value (2 ^ 32) (by decide)
  omega

theorem lowerBound_lt_iff (offsets : List Int) (start stop : Int)
    : (∃ lower, lowerBound offsets start = some lower ∧ lower < stop)
        ↔ ∃ offset ∈ offsets, start ≤ offset ∧ offset < stop := by
  unfold lowerBound
  constructor
  . intro ⟨lower, hlower, hlt⟩
    have hmem := List.min?_mem hlower
    rw [List.mem_filter, decide_eq_true_iff] at hmem
    exact ⟨lower, hmem.left, hmem.right, hlt⟩
  . intro ⟨offset, hmem, hstart, hstop⟩
    have hfilter : offset ∈ offsets.filter (start ≤ ·) := by
      rw [List.mem_filter, decide_eq_true_iff]
      exact ⟨hmem, hstart⟩
    cases hmin : (offsets.filter (start ≤ ·)).min? with
    | none =>
      rw [List.min?_eq_none_iff] at hmin
      rw [hmin] at hfilter
      simp at hfilter
    | some lower =>
      refine ⟨lower, rfl, ?_⟩
      have hle := (List.min?_eq_some_iff.mp hmin).right offset hfilter
      omega

namespace TypeDeclarationFormatter

theorem keeps_iff (used : List Int) (m : Udm)
    : keeps used m = true
        ↔ ∃ offset ∈ used, m.testedStart ≤ offset ∧ offset < m.testedStart + m.testedSize := by
  rw [← lowerBound_lt_iff]
  unfold keeps Udm.testedStart Udm.testedSize
  dsimp only
  split
  . next hlower => simp [hlower]
  . next lower hlower => simp [hlower]

theorem keeps_exact_of_testedEnd_lt {m : Udm} (hend : m.testedEnd < 2 ^ 31) (used : List Int)
    : m.SumDefined used ∧ (keeps used m = true ↔ m.Used used)
        ↔ ∀ offset ∈ used, m.testedEnd ≤ offset → m.HasByte offset →
            ∃ offset' ∈ used, (m.offset / 8 : Nat) ≤ offset' ∧ offset' < m.testedEnd := by
  have hend' := hend
  unfold Udm.testedEnd at hend'
  have htested : m.testedStart + m.testedSize = m.testedEnd := by
    unfold Udm.testedStart Udm.testedSize Udm.testedEnd
    rw [castInt_of_lt (by omega), castInt_of_lt (by omega)]
    split <;> omega
  have hoffset : m.testedStart = (m.offset / 8 : Nat) := castInt_of_lt (by omega)
  have hdefined : m.SumDefined used := by
    intro _
    rw [htested]
    omega
  rw [keeps_iff, htested, hoffset]
  constructor
  . intro ⟨_, hexact⟩ offset hmem _ hbyte
    exact hexact.mpr ⟨offset, hmem, hbyte⟩
  . intro hharmless
    refine ⟨hdefined, ?_, ?_⟩
    . intro ⟨offset, hmem, hle, hlt⟩
      refine ⟨offset, hmem, ?_⟩
      rw [Udm.hasByte_iff]
      unfold Udm.testedEnd at hlt
      split <;> omega
    . intro ⟨offset, hmem, hbyte⟩
      by_cases hlt : offset < m.testedEnd
      . rw [Udm.hasByte_iff] at hbyte
        exact ⟨offset, hmem, hbyte.left, hlt⟩
      . exact hharmless offset hmem (by omega) hbyte

theorem keeps_exact_of_offset_lt {used : List Int}
    (hint : ∀ offset ∈ used, -2 ^ 31 ≤ offset ∧ offset < 2 ^ 31) {m : Udm}
    (hend : ¬m.testedEnd < 2 ^ 31) (hoffset : m.offset / 8 < 2 ^ 31)
    : m.SumDefined used ∧ (keeps used m = true ↔ m.Used used)
        ↔ (∀ offset ∈ used, offset < (m.offset / 8 : Nat))
            ∨ ((m.offset / 8 : Nat) + m.testedSize < 2 ^ 31
                ∧ ∃ offset ∈ used,
                    (m.offset / 8 : Nat) ≤ offset ∧ offset < (m.offset / 8 : Nat) + m.testedSize) := by
  unfold Udm.testedEnd at hend
  -- All used offsets from the start of the member on are in it.
  have hused : m.Used used ↔ ∃ offset ∈ used, (m.offset / 8 : Nat) ≤ offset := by
    constructor
    . intro ⟨offset, hmem, hbyte⟩
      rw [Udm.hasByte_iff] at hbyte
      exact ⟨offset, hmem, hbyte.left⟩
    . intro ⟨offset, hmem, hle⟩
      refine ⟨offset, hmem, ?_⟩
      rw [Udm.hasByte_iff]
      have := hint offset hmem
      split <;> omega
  have hstart : m.testedStart = (m.offset / 8 : Nat) := castInt_of_lt hoffset
  have hsize : -2 ^ 31 ≤ m.testedSize := by
    have := castInt_range (m.size / 8)
    unfold Udm.testedSize
    split <;> omega
  unfold Udm.SumDefined
  rw [keeps_iff, hused, hstart]
  by_cases hany : ∃ offset ∈ used, ((m.offset / 8 : Nat) : Int) ≤ offset
  . have hnot : ¬(∀ offset ∈ used, offset < ((m.offset / 8 : Nat) : Int)) := by
      intro hall
      rcases hany with ⟨offset, hmem, hle⟩
      have := hall offset hmem
      omega
    simp only [hany, hnot, false_or, forall_const, iff_true]
    constructor
    . intro ⟨hdefined, hkept⟩
      exact ⟨hdefined.right, hkept⟩
    . intro ⟨hdefined, hkept⟩
      exact ⟨⟨by omega, hdefined⟩, hkept⟩
  . have hall : ∀ offset ∈ used, offset < ((m.offset / 8 : Nat) : Int) := by
      intro offset hmem
      by_contra hle
      apply hany
      exact ⟨offset, hmem, by omega⟩
    have hnone : ¬(∃ offset ∈ used, ((m.offset / 8 : Nat) : Int) ≤ offset
        ∧ offset < (m.offset / 8 : Nat) + m.testedSize) := by
      intro ⟨offset, hmem, hle, _⟩
      exact hany ⟨offset, hmem, hle⟩
    constructor
    . intro _
      exact .inl hall
    . intro _
      refine ⟨fun h => absurd h hany, ?_⟩
      simp only [hnone, hany]

theorem keeps_exact_of_le_offset {used : List Int}
    (hint : ∀ offset ∈ used, -2 ^ 31 ≤ offset ∧ offset < 2 ^ 31) {m : Udm}
    (hoffset : ¬m.offset / 8 < 2 ^ 31)
    : m.SumDefined used ∧ (keeps used m = true ↔ m.Used used)
        ↔ (∀ offset ∈ used, offset < m.testedStart)
            ∨ ((-2 ^ 31 ≤ m.testedStart + m.testedSize ∧ m.testedStart + m.testedSize < 2 ^ 31)
                ∧ ∀ offset ∈ used,
                    m.testedStart ≤ offset → m.testedStart + m.testedSize ≤ offset) := by
  have hunused : ¬m.Used used := by
    intro ⟨offset, hmem, hbyte⟩
    rw [Udm.hasByte_iff] at hbyte
    have := hint offset hmem
    omega
  unfold Udm.SumDefined
  rw [keeps_iff]
  simp only [hunused, iff_false]
  constructor
  . intro ⟨hdefined, hkept⟩
    by_cases hall : ∀ offset ∈ used, offset < m.testedStart
    . exact .inl hall
    . right
      constructor
      . apply hdefined
        by_contra hnone
        apply hall
        intro offset hmem
        by_contra hle
        exact hnone ⟨offset, hmem, by omega⟩
      . intro offset hmem hle
        by_contra hlt
        exact hkept ⟨offset, hmem, hle, by omega⟩
  . intro h
    cases h with
    | inl hall =>
      constructor
      . intro ⟨offset, hmem, hle⟩
        have := hall offset hmem
        omega
      . intro ⟨offset, hmem, hle, _⟩
        have := hall offset hmem
        omega
    | inr h =>
      constructor
      . intro _
        exact h.left
      . intro ⟨offset, hmem, hle, hlt⟩
        have := h.right offset hmem hle
        omega

theorem keeps_exact_iff {used : List Int} (hint : ∀ offset ∈ used, -2 ^ 31 ≤ offset ∧ offset < 2 ^ 31)
    (m : Udm)
    : m.SumDefined used ∧ (keeps used m = true ↔ m.Used used) ↔ m.RoundingHarmless used := by
  unfold Udm.RoundingHarmless
  split
  . next hend => apply keeps_exact_of_testedEnd_lt hend
  . next hend =>
    split
    . next hoffset => apply keeps_exact_of_offset_lt hint hend hoffset
    . next hoffset => apply keeps_exact_of_le_offset hint hoffset

variable (fmt : TypeDeclarationFormatter)

def usedOffsets (name : String) : List Int :=
  (usedOffsetsMap fmt.options name).getD []

def walkedIndices (name : String) : List Nat :=
  match fmt.til.udtDetails? (.named name) with
  | none => []
  | some udt => if fmt.dropped name then [] else followedIndices (fmt.accessed udt name) udt

structure RetentionExact (name : String) (udt : UdtTypeData) : Prop where
  sum_defined : ∀ m ∈ udt.members, m.SumDefined (fmt.usedOffsets name)
  walked : ∀ i m, udt.members[i]? = some m →
    (i ∈ fmt.walkedIndices name ↔ m.Used (fmt.usedOffsets name))
  emitted : ∀ i m, udt.members[i]? = some m →
    (i ∈ (fmt.emitUdt (.named name) name).members ↔ m.Used (fmt.usedOffsets name))

variable {fmt}

theorem mem_followedIndices {accessed : Option (List Int)} {udt : UdtTypeData} {i : Nat} {m : Udm}
    (hm : udt.members[i]? = some m)
    : i ∈ followedIndices accessed udt ↔ follows accessed m = true := by
  simp only [followedIndices, List.mem_map, List.mem_filter, Prod.exists,
    List.mem_zipIdx_iff_getElem?, exists_eq_right, hm]
  simp

theorem followed_eq {name : String} {udt : UdtTypeData}
    (hudt : fmt.til.udtDetails? (.named name) = some udt) (hkept : fmt.dropped name = false)
    : fmt.followed name = (fmt.walkedIndices name).filterMap fun i => (udt.members[i]?).map (·.type) := by
  simp only [followed, walkedIndices, hudt, hkept, followedIndices, Bool.false_eq_true, ↓reduceIte,
    List.filterMap_map]
  generalize fmt.accessed udt name = accessed
  have hmembers : (udt.members.filter fun m => follows accessed m)
      = ((udt.members.zipIdx.filter fun p => follows accessed p.fst).map (·.fst)) := by
    conv_lhs => rw [← List.zipIdx_map_fst 0 udt.members, List.filter_map]
    rfl
  rw [hmembers, List.map_map, ← List.filterMap_eq_map]
  apply List.filterMap_congr
  rintro ⟨m, i⟩ hmem
  have hi := List.mem_zipIdx_iff_getElem?.mp (List.mem_filter.mp hmem).left
  simp [hi]

theorem accessed_eq {name : String} {udt : UdtTypeData} (hunion : udt.isUnion = false)
    (htrim : fmt.options.trimUnreferenced = true)
    : fmt.accessed udt name
        = if (fmt.usedOffsets name).isEmpty then none else some (fmt.usedOffsets name) := by
  unfold accessed usedOffsets
  rw [htrim, hunion]
  cases usedOffsetsMap fmt.options name with
  | none => rfl
  | some offsets => rfl

theorem dropped_eq {name : String} {udt : UdtTypeData}
    (hudt : fmt.til.udtDetails? (.named name) = some udt) (hunion : udt.isUnion = false)
    (htrim : fmt.options.trimUnreferenced = true)
    : fmt.dropped name = (fmt.usedOffsets name).isEmpty := by
  simp only [dropped, hudt, htrim, hunion, accessed_eq hunion htrim]
  cases (fmt.usedOffsets name).isEmpty <;> rfl

theorem retentionExact_of_unused {name : String} {udt : UdtTypeData}
    (hudt : fmt.til.udtDetails? (.named name) = some udt) (hunion : udt.isUnion = false)
    (htrim : fmt.options.trimUnreferenced = true) (hused : fmt.usedOffsets name = [])
    : fmt.RetentionExact name udt := by
  have hdropped := dropped_eq hudt hunion htrim
  have haccessed := @accessed_eq fmt name udt hunion htrim
  rw [hused] at hdropped haccessed
  have hemit : fmt.emitUdt (.named name) name = .empty := by
    simp [emitUdt, hudt, htrim, hunion, haccessed]
  constructor
  case sum_defined =>
    intro m _ ⟨offset, hmem, _⟩
    rw [hused] at hmem
    simp at hmem
  case walked =>
    intro i m _
    simp [walkedIndices, hudt, hdropped, Udm.Used, hused]
  case emitted =>
    intro i m _
    simp [hemit, Emission.members, Udm.Used, hused]

/--
Exactly the members with a used byte are followed and kept if and only if rounding does no harm to a
member.
-/
theorem retentionExact_iff (fmt : TypeDeclarationFormatter) {name : String} {udt : UdtTypeData}
    (hudt : fmt.til.udtDetails? (.named name) = some udt) (hunion : udt.isUnion = false)
    (htrim : fmt.options.trimUnreferenced = true)
    (hint : ∀ offset ∈ fmt.usedOffsets name, -2 ^ 31 ≤ offset ∧ offset < 2 ^ 31)
    : fmt.RetentionExact name udt ↔ ∀ m ∈ udt.members, m.RoundingHarmless (fmt.usedOffsets name) := by
  by_cases hused : fmt.usedOffsets name = []
  . constructor
    . intro _ m _
      rw [← keeps_exact_iff hint]
      simp [Udm.SumDefined, Udm.Used, keeps_iff, hused]
    . intro _
      apply retentionExact_of_unused hudt hunion htrim hused
  . have haccessed := @accessed_eq fmt name udt hunion htrim
    rw [List.isEmpty_eq_false_iff.mpr hused, if_neg (by decide)] at haccessed
    have hkept : fmt.dropped name = false := by
      rw [dropped_eq hudt hunion htrim, List.isEmpty_eq_false_iff]
      exact hused
    have hwalked : fmt.walkedIndices name = followedIndices (fmt.accessed udt name) udt := by
      simp [walkedIndices, hudt, hkept]
    have hmembers := (emitUdt_members hudt hkept).left
    have hkeeps {i : Nat} {m : Udm} (hm : udt.members[i]? = some m)
        : i ∈ followedIndices (fmt.accessed udt name) udt
            ↔ keeps (fmt.usedOffsets name) m = true := by
      rw [mem_followedIndices hm, haccessed, follows_some]
    constructor
    . intro h m hm
      rw [← keeps_exact_iff hint]
      rcases List.mem_iff_getElem?.mp hm with ⟨i, hi⟩
      refine ⟨h.sum_defined m hm, ?_⟩
      rw [← hkeeps hi, ← hwalked]
      apply h.walked i m hi
    . intro h
      constructor
      case sum_defined =>
        intro m hm
        exact ((keeps_exact_iff hint m).mpr (h m hm)).left
      case walked =>
        intro i m hi
        rw [hwalked, hkeeps hi]
        exact ((keeps_exact_iff hint m).mpr (h m (List.mem_of_getElem? hi))).right
      case emitted =>
        intro i m hi
        rw [hmembers, hkeeps hi]
        exact ((keeps_exact_iff hint m).mpr (h m (List.mem_of_getElem? hi))).right

/--
`struct Flags { int kind : 4; int level : 8; }`, where the byte at offset 1 is used.
-/
def halfBytes : UdtTypeData :=
  { members := [⟨"kind", .unnamed, 0, 4, true⟩, ⟨"level", .unnamed, 4, 8, true⟩], totalSize := 2 }

def straddling (used : List Int) : TypeDeclarationFormatter :=
  { til :=
      { types := [("Flags", .udt halfBytes)]
        numbered := fun ordinal => if ordinal = 1 then some (.named "Flags") else none
        ordinalOf := fun _ => 1
        print := fun _ name => "struct " ++ name ++ ";" }
    options := { trimUnreferenced := true, usedOffsets := [⟨"Flags", used⟩] } }

theorem retentionExact_iff_straddling
    : (straddling [0]).RetentionExact "Flags" halfBytes
        ↔ ∀ m ∈ halfBytes.members, m.RoundingHarmless ((straddling [0]).usedOffsets "Flags") := by
  apply retentionExact_iff (straddling [0]) rfl rfl rfl
  decide

theorem not_retentionExact_straddling
    : (straddling [1]).til.udtDetails? (.named "Flags") = some halfBytes
        ∧ halfBytes.isUnion = false
        ∧ (straddling [1]).walkedIndices "Flags" = []
        ∧ ((straddling [1]).emitUdt (.named "Flags") "Flags").members = []
        ∧ ¬(straddling [1]).RetentionExact "Flags" halfBytes := by
  refine ⟨rfl, rfl, by rfl, by rfl, ?_⟩
  intro h
  have hused : (Udm.mk "level" .unnamed 4 8 true).Used ((straddling [1]).usedOffsets "Flags") := by
    refine ⟨1, by decide, ?_⟩
    rw [Udm.hasByte_iff]
    decide
  have hwalked := (h.walked 1 _ rfl).mpr hused
  simp [show (straddling [1]).walkedIndices "Flags" = [] by rfl] at hwalked

end TypeDeclarationFormatter
end Types
end Idax
