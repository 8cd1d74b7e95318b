import Idax.Data.TypeInfo

/-!
Reading and writing look at a type behind its typedefs only.
-/

namespace Idax
namespace Data

namespace TypeInfo

theorem realtype_ne_typedef (ti target : TypeInfo) : ti.realtype ≠ .typedef target := by
  induction ti with
  | typedef target' ih => apply ih
  | _ => simp [realtype]

theorem resolveTypedef_realtype (ti : TypeInfo) : ti.realtype.resolveTypedef = ti.resolveTypedef := by
  induction ti with
  | typedef target ih => apply ih
  | _ => rfl

theorem realtype_of_resolveTypedef {ti t : TypeInfo} (h : ti.resolveTypedef = .ok t)
    : ti.realtype = t := by
  induction ti with
  | typedef target ih => apply ih h
  | unresolved name => cases h
  | _ =>
    cases h
    rfl

theorem getSize_realtype (ti : TypeInfo) : ti.realtype.getSize = ti.getSize := by
  induction ti with
  | typedef target ih => apply ih
  | _ => rfl

theorem getSize_array {element : TypeInfo} {length : UInt32} {size : Nat}
    (h : (array element length).getSize = some size)
    : ∃ elementSize, element.getSize = some elementSize ∧ size = elementSize * length.toNat := by
  rw [getSize, Option.bind_eq_bind, Option.bind_eq_some_iff] at h
  rcases h with ⟨elementSize, helement, h⟩
  split at h
  . cases h
    exact ⟨elementSize, helement, rfl⟩
  . cases h

@[simp]
theorem isArray_array (element : TypeInfo) (length : UInt32) : (array element length).isArray = true :=
  rfl

@[simp]
theorem arrayElementType_array (element : TypeInfo) (length : UInt32)
    : (array element length).arrayElementType = .ok element :=
  rfl

def Counted (length : UInt32) : Prop :=
  length.toNat < 2 ^ 31

def uncounted : Error :=
  .sdk "Failed to get array element count"

variable {length : UInt32}

theorem toInt_toInt32 (length : UInt32) : length.toInt32.toInt = Int.bmod length.toNat (2 ^ 32) := by
  show length.toBitVec.toInt = _
  rw [BitVec.toInt_eq_toNat_bmod]
  rfl

theorem arrayLength_of_counted (h : Counted length) (element : TypeInfo)
    : (array element length).arrayLength = .ok length.toNat := by
  have hcount : (array element length).getArrayNelems = length.toNat := by
    show length.toInt32.toInt = _
    unfold Counted at h
    rw [toInt_toInt32, Int.bmod_def]
    split <;> omega
  unfold arrayLength
  rw [isArray_array, hcount]
  simp

theorem arrayLength_of_not_counted (h : ¬Counted length) (element : TypeInfo)
    : (array element length).arrayLength = .error uncounted := by
  have hnegative : (array element length).getArrayNelems < 0 := by
    show length.toInt32.toInt < 0
    have hlt := length.toNat_lt
    unfold Counted at h
    rw [toInt_toInt32, Int.bmod_def]
    split <;> omega
  unfold arrayLength
  rw [isArray_array]
  simp [hnegative, uncounted]

end TypeInfo

@[simp]
theorem resolveIfTypedef_array (element : TypeInfo) (length : UInt32)
    : resolveIfTypedef (.array element length) = .ok (.array element length) :=
  rfl

theorem resolveIfTypedef_eq (ti : TypeInfo) : resolveIfTypedef ti = ti.resolveTypedef := by
  cases ti <;> rfl

theorem resolveIfTypedef_realtype (ti : TypeInfo)
    : resolveIfTypedef ti.realtype = resolveIfTypedef ti := by
  rw [resolveIfTypedef_eq, resolveIfTypedef_eq, TypeInfo.resolveTypedef_realtype]

theorem checkedTypeSize_eq_ok_iff {ti : TypeInfo} {size : Nat}
    : checkedTypeSize ti = .ok size ↔ ti.getSize = some size ∧ size ≠ 0 := by
  unfold checkedTypeSize TypeInfo.size
  cases hsize : ti.getSize with
  | none => simp [bind, Except.bind]
  | some n =>
    simp only [bind, Except.bind]
    split
    . next hzero =>
      simp only [reduceCtorEq, Option.some.injEq, false_iff, not_and, not_not]
      omega
    . next hpos =>
      simp only [Except.ok.injEq, Option.some.injEq]
      omega

theorem isByteInteger_iff {ti : TypeInfo}
    : isByteInteger ti = true ↔ ti.isInteger = true ∧ ti.getSize = some 1 := by
  unfold isByteInteger TypeInfo.size
  cases ti.isInteger with
  | false => simp
  | true =>
    cases ti.getSize with
    | none => simp
    | some size => simp

end Data
end Idax
