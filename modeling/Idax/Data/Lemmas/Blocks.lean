import Idax.Data.Lemmas.Scalars

/-!
A type is read and written in blocks of one size, the scalars or byte arrays inside of all arrays.
Where all blocks are stored next to each other, the start of the last one decides whether there is an
address overflow.
-/

namespace Idax
namespace Data

namespace TypeInfo

def extent (ti : TypeInfo) : Nat :=
  match ti.realtype with
  | .array element length => element.getSize.getD 0 * length.toNat
  | t => t.getSize.getD 0

def Reads : (levels : Nat) → TypeInfo → (block : Nat) → Prop
  | 0, _, _ => False
  | levels + 1, ti, block =>
    match ti.realtype with
    | .array element length =>
      Counted length ∧ if isByteInteger element then
        block = length.toNat
      else
        (∃ size, checkedTypeSize element = .ok size) ∧ Reads levels element block
    | .typedef _ => False
    | .unresolved _ => False
    | t => checkedTypeSize t = .ok block ∧ t.Readable block

def Writable : (levels : Nat) → TypeInfo → Prop
  | 0, _ => False
  | levels + 1, ti =>
    match ti.realtype with
    | .array element length =>
      Counted length ∧ (isByteInteger element = true
        ∨ (∃ size, checkedTypeSize element = .ok size) ∧ Writable levels element)
    | .typedef _ => False
    | .unresolved _ => False
    | t => ∃ size, checkedTypeSize t = .ok size ∧ t.Storable size

theorem realtype_realtype (ti : TypeInfo) : ti.realtype.realtype = ti.realtype := by
  induction ti with
  | typedef target ih => apply ih
  | _ => rfl

theorem extent_realtype (ti : TypeInfo) : ti.realtype.extent = ti.extent := by
  unfold extent
  rw [realtype_realtype]

theorem reads_realtype (levels : Nat) (ti : TypeInfo) (block : Nat)
    : Reads levels ti.realtype block ↔ Reads levels ti block := by
  cases levels with
  | zero => rfl
  | succ levels => rw [Reads, Reads, realtype_realtype]

theorem writable_realtype (levels : Nat) (ti : TypeInfo)
    : Writable levels ti.realtype ↔ Writable levels ti := by
  cases levels with
  | zero => rfl
  | succ levels => rw [Writable, Writable, realtype_realtype]

theorem extent_eq {ti : TypeInfo} {size : Nat} (h : ti.getSize = some size) : ti.extent = size := by
  rw [← getSize_realtype] at h
  unfold extent
  cases hti : ti.realtype with
  | array element length =>
    rw [hti] at h
    rcases getSize_array h with ⟨elementSize, helement, hsize⟩
    simp [helement, hsize]
  | _ =>
    rw [hti] at h
    simp only [h, Option.getD_some]

theorem extent_checked {ti : TypeInfo} {size : Nat} (h : checkedTypeSize ti = .ok size)
    : ti.extent = size ∧ 0 < size := by
  rw [checkedTypeSize_eq_ok_iff] at h
  exact ⟨extent_eq h.left, by omega⟩

theorem extent_bytes {element : TypeInfo} (hbyte : isByteInteger element = true) (length : UInt32)
    : (array element length).extent = length.toNat := by
  simp [extent, realtype, (isByteInteger_iff.mp hbyte).right]

theorem extent_array {element : TypeInfo} {size : Nat} (hsize : checkedTypeSize element = .ok size)
    (length : UInt32) : (array element length).extent = size * length.toNat := by
  rw [checkedTypeSize_eq_ok_iff] at hsize
  simp [extent, realtype, hsize.left]

section Cases

variable {levels block : Nat}

theorem reads_scalar {ti : TypeInfo} (h : ti.IsScalar)
    : Reads (levels + 1) ti block ↔ checkedTypeSize ti = .ok block ∧ ti.Readable block := by
  cases ti with
  | array element length => cases h
  | typedef target => cases h
  | unresolved name => cases h
  | _ => rfl

theorem reads_bytes {element : TypeInfo} (hbyte : isByteInteger element = true) (length : UInt32)
    : Reads (levels + 1) (.array element length) block ↔ Counted length ∧ block = length.toNat := by
  simp [Reads, realtype, hbyte]

theorem reads_array {element : TypeInfo} (hbyte : isByteInteger element = false) (length : UInt32)
    : Reads (levels + 1) (.array element length) block
        ↔ Counted length ∧ (∃ size, checkedTypeSize element = .ok size) ∧ Reads levels element block := by
  simp [Reads, realtype, hbyte]

theorem writable_scalar {ti : TypeInfo} (h : ti.IsScalar)
    : Writable (levels + 1) ti ↔ ∃ size, checkedTypeSize ti = .ok size ∧ ti.Storable size := by
  cases ti with
  | array element length => cases h
  | typedef target => cases h
  | unresolved name => cases h
  | _ => rfl

theorem writable_array (element : TypeInfo) (length : UInt32)
    : Writable (levels + 1) (.array element length)
        ↔ Counted length ∧ (isByteInteger element = true
            ∨ (∃ size, checkedTypeSize element = .ok size) ∧ Writable levels element) := by
  simp [Writable, realtype]

end Cases

theorem induction_realtype {P : Nat → TypeInfo → Prop} (hzero : ∀ ti, P 0 ti)
    (hreal : ∀ levels (ti : TypeInfo), P levels ti.realtype → P levels ti)
    (hscalar : ∀ levels (ti : TypeInfo), ti.IsScalar → P (levels + 1) ti)
    (hunresolved : ∀ levels name, P (levels + 1) (.unresolved name))
    (huncounted : ∀ levels element length, ¬Counted length → P (levels + 1) (.array element length))
    (hbytes : ∀ levels element length, Counted length → isByteInteger element = true →
      (∀ ti, P levels ti) → P (levels + 1) (.array element length))
    (harray : ∀ levels element length, Counted length → isByteInteger element = false →
      (∀ ti, P levels ti) → P (levels + 1) (.array element length))
    (levels : Nat) (ti : TypeInfo) : P levels ti := by
  induction levels generalizing ti with
  | zero => apply hzero
  | succ levels ih =>
    apply hreal
    have htypedef := ti.realtype_ne_typedef
    generalize ti.realtype = t at htypedef
    cases t with
    | typedef target => exact absurd rfl (htypedef target)
    | unresolved name => apply hunresolved
    | array element length =>
      by_cases hcounted : Counted length
      . cases hbyte : isByteInteger element with
        | true => apply hbytes levels element length hcounted hbyte ih
        | false => apply harray levels element length hcounted hbyte ih
      . apply huncounted levels element length hcounted
    | _ =>
      apply hscalar
      trivial

theorem Reads.block_le {levels : Nat} {ti : TypeInfo} {block : Nat} (h : Reads levels ti block)
    (hpos : 0 < ti.extent) : block ≤ ti.extent := by
  induction levels, ti using induction_realtype generalizing block with
  | hzero ti => cases h
  | hreal levels ti ih =>
    rw [← extent_realtype] at hpos ⊢
    apply ih _ hpos
    rw [reads_realtype]
    exact h
  | hscalar levels ti hti =>
    rw [reads_scalar hti] at h
    rw [(extent_checked h.left).left]
  | hunresolved levels name => cases h
  | huncounted levels element length hcounted => exact absurd h.left hcounted
  | hbytes levels element length hcounted hbyte ih =>
    rw [reads_bytes hbyte] at h
    rw [extent_bytes hbyte, h.right]
  | harray levels element length hcounted hbyte ih =>
    rw [reads_array hbyte] at h
    rcases h with ⟨_, ⟨size, hsize⟩, h⟩
    rcases extent_checked hsize with ⟨hextent, hsizepos⟩
    have hle := ih element h (by omega)
    rw [extent_array hsize] at hpos ⊢
    rw [hextent] at hle
    calc
      block ≤ size := hle
      _ ≤ size * length.toNat := Nat.le_mul_of_pos_right size (Nat.pos_of_mul_pos_left hpos)

theorem Writable.reads {levels : Nat} {ti : TypeInfo} (h : Writable levels ti)
    : ∃ block, Reads levels ti block := by
  induction levels, ti using induction_realtype with
  | hzero ti => cases h
  | hreal levels ti ih =>
    simp only [← reads_realtype levels ti]
    apply ih
    rw [writable_realtype]
    exact h
  | hscalar levels ti hti =>
    rcases (writable_scalar hti).mp h with ⟨size, hsize, hstorable⟩
    exact ⟨size, (reads_scalar hti).mpr ⟨hsize, hstorable.readable⟩⟩
  | hunresolved levels name => cases h
  | huncounted levels element length hcounted => exact absurd h.left hcounted
  | hbytes levels element length hcounted hbyte ih =>
    exact ⟨length.toNat, (reads_bytes hbyte length).mpr ⟨hcounted, rfl⟩⟩
  | harray levels element length hcounted hbyte ih =>
    rcases (writable_array element length).mp h with ⟨_, hbyte' | ⟨hsize, helement⟩⟩
    . rw [hbyte] at hbyte'
      cases hbyte'
    . rcases ih element helement with ⟨block, hreads⟩
      exact ⟨block, (reads_array hbyte length).mpr ⟨hcounted, hsize, hreads⟩⟩

end TypeInfo

end Data
end Idax
