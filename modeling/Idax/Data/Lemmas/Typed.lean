import Idax.Data.Lemmas.TypeInfo
import Idax.Data.Lemmas.Words

/-!
The reader and the writer, by the kind of the type behind all typedefs: an array of bytes, another
array, or a type that is read and written as a whole.
-/

namespace Idax
namespace Data

variable {casts : FloatCasts} {db : Database} {levels address : Nat}

theorem readTypedImpl_realtype (ti : TypeInfo)
    : readTypedImpl casts db levels address ti.realtype
        = readTypedImpl casts db levels address ti := by
  cases levels with
  | zero => rfl
  | succ levels => rw [readTypedImpl, readTypedImpl, resolveIfTypedef_realtype]

theorem writeTypedImpl_realtype (ti : TypeInfo) (value : TypedValue)
    : writeTypedImpl casts levels address ti.realtype value db
        = writeTypedImpl casts levels address ti value db := by
  cases levels with
  | zero => rfl
  | succ levels => rw [writeTypedImpl, writeTypedImpl, resolveIfTypedef_realtype]

def TypeInfo.IsScalar : TypeInfo → Prop
  | .typedef _ => False
  | .array _ _ => False
  | .unresolved _ => False
  | _ => True

theorem readTypedImpl_scalar {ti : TypeInfo} (h : ti.IsScalar)
    : readTypedImpl casts db (levels + 1) address ti
        = (checkedTypeSize ti).bind (readScalar casts db address ti) := by
  cases ti with
  | array element length => cases h
  | typedef target => cases h
  | unresolved name => cases h
  | _ => rfl

theorem readTypedImpl_uncounted {element : TypeInfo} {length : UInt32} (h : ¬TypeInfo.Counted length)
    : readTypedImpl casts db (levels + 1) address (.array element length) = .error TypeInfo.uncounted := by
  simp [readTypedImpl, TypeInfo.arrayLength_of_not_counted h]

theorem readTypedImpl_bytes {element : TypeInfo} {length : UInt32} (hdb : db.FullyLoaded)
    (hcounted : TypeInfo.Counted length) (hbyte : isByteInteger element = true)
    : readTypedImpl casts db (levels + 1) address (.array element length)
        = .ok (byteArrayValue (db.byte.get address length.toNat)) := by
  simp [readTypedImpl, hbyte, Database.readBytes_eq hdb, TypeInfo.arrayLength_of_counted hcounted]

theorem readTypedImpl_array {element : TypeInfo} {length : UInt32} (hcounted : TypeInfo.Counted length)
    (hbyte : isByteInteger element = false)
    : readTypedImpl casts db (levels + 1) address (.array element length)
        = (checkedTypeSize element).bind fun size =>
            (readElements (fun a => readTypedImpl casts db levels a element) address size length.toNat 0).map
              fun elements => { kind := .array, elements } := by
  simp only [readTypedImpl, resolveIfTypedef_array, ok_bind, TypeInfo.isArray_array, ↓reduceIte,
    TypeInfo.arrayElementType_array, TypeInfo.arrayLength_of_counted hcounted, hbyte, Bool.false_eq_true]
  rfl

theorem writeTypedImpl_scalar {ti : TypeInfo} (h : ti.IsScalar) (value : TypedValue)
    : writeTypedImpl casts (levels + 1) address ti value db
        = match checkedTypeSize ti with
          | .error e => (.error e, db)
          | .ok size => writeScalar casts address ti size value db := by
  cases ti with
  | array element length => cases h
  | typedef target => cases h
  | unresolved name => cases h
  | _ => rfl

theorem writeTypedImpl_uncounted {element : TypeInfo} {length : UInt32} (h : ¬TypeInfo.Counted length)
    (value : TypedValue)
    : writeTypedImpl casts (levels + 1) address (.array element length) value db
        = (.error TypeInfo.uncounted, db) := by
  simp [writeTypedImpl, TypeInfo.arrayLength_of_not_counted h]

theorem counted_of_writeTypedImpl {element : TypeInfo} {length : UInt32} {value : TypedValue}
    (h : (writeTypedImpl casts (levels + 1) address (.array element length) value db).fst = ok)
    : TypeInfo.Counted length := by
  by_contra hcounted
  rw [writeTypedImpl_uncounted hcounted] at h
  cases h

theorem writeTypedImpl_bytes {element : TypeInfo} {length : UInt32} {value : TypedValue}
    (hcounted : TypeInfo.Counted length)
    (hbyte : isByteInteger element = true) (hkind : value.kind = .bytes ∨ value.kind = .string)
    : writeTypedImpl casts (levels + 1) address (.array element length) value db
        = match byteArrayContent value length.toNat with
          | .error e => (.error e, db)
          | .ok raw => (ok, db.put address raw) := by
  simp only [writeTypedImpl, resolveIfTypedef_array, TypeInfo.isArray_array, ↓reduceIte, hbyte,
    TypeInfo.arrayElementType_array, TypeInfo.arrayLength_of_counted hcounted, Database.writeBytes_eq]
  cases byteArrayContent value length.toNat
    <;> simp only [Bool.true_and, Bool.or_eq_true, decide_eq_true_eq, hkind, ↓reduceIte]

theorem length_byteArrayContent {value : TypedValue} {length : Nat} {raw : List UInt8}
    (h : byteArrayContent value length = .ok raw) : raw.length = length := by
  unfold byteArrayContent at h
  split at h
  . split at h
    . cases h
    . next hlength =>
      cases h
      apply Classical.not_not.mp hlength
  . split at h
    . cases h
    . cases h
      rw [List.length_append, List.length_replicate]
      omega

theorem writeTypedImpl_array {element : TypeInfo} {length : UInt32} {value : TypedValue}
    (hcounted : TypeInfo.Counted length)
    (h : ¬(isByteInteger element = true ∧ (value.kind = .bytes ∨ value.kind = .string)))
    : writeTypedImpl casts (levels + 1) address (.array element length) value db
        = if value.kind ≠ .array then
            (.error (.validation "Typed array write requires array/bytes/string value"), db)
          else if value.elements.length ≠ length.toNat then
            (.error (.validation "Array element count mismatch"
              (toString value.elements.length ++ " != " ++ toString length.toNat)), db)
          else
            match checkedTypeSize element with
            | .error e => (.error e, db)
            | .ok size =>
              writeElements (fun a v db => writeTypedImpl casts levels a element v db) address size 0
                value.elements db := by
  have hcond : ¬(isByteInteger element && (value.kind = .bytes || value.kind = .string)) = true := by
    simpa using h
  rw [writeTypedImpl, resolveIfTypedef_array]
  dsimp only
  rw [if_pos (TypeInfo.isArray_array element length), TypeInfo.arrayElementType_array,
    TypeInfo.arrayLength_of_counted hcounted]
  exact if_neg hcond

theorem writeTypedImpl_elements {element : TypeInfo} {length : UInt32} {size : Nat} {value : TypedValue}
    (hcounted : TypeInfo.Counted length) (hkind : value.kind = .array)
    (hlength : value.elements.length = length.toNat)
    (hsize : checkedTypeSize element = .ok size)
    : writeTypedImpl casts (levels + 1) address (.array element length) value db
        = writeElements (fun a v db => writeTypedImpl casts levels a element v db) address size 0
            value.elements db := by
  rw [writeTypedImpl_array hcounted (by simp [hkind])]
  simp [hkind, hlength, hsize]

theorem elements_of_writeTypedImpl {element : TypeInfo} {length : UInt32} {value : TypedValue}
    (hcase : ¬(isByteInteger element = true ∧ (value.kind = .bytes ∨ value.kind = .string)))
    (h : (writeTypedImpl casts (levels + 1) address (.array element length) value db).fst = ok)
    : value.kind = .array ∧ value.elements.length = length.toNat
        ∧ ∃ size, checkedTypeSize element = .ok size := by
  rw [writeTypedImpl_array (counted_of_writeTypedImpl h) hcase] at h
  split at h
  . cases h
  . next hkind =>
    split at h
    . cases h
    . next hlength =>
      cases hsize : checkedTypeSize element with
      | error e =>
        rw [hsize] at h
        cases h
      | ok size =>
        refine ⟨Classical.not_not.mp hkind, Classical.not_not.mp hlength, size, rfl⟩

theorem length_readElements {read : Nat → Result TypedValue} {size count i : Nat}
    {values : List TypedValue} (h : readElements read address size count i = .ok values)
    : values.length = count := by
  induction count generalizing i values with
  | zero =>
    cases h
    rfl
  | succ count ih =>
    rw [readElements] at h
    cases haddress : elementAddress "Typed array read address overflow" address size i with
    | error e =>
      rw [haddress] at h
      cases h
    | ok x =>
      rw [haddress, ok_bind] at h
      cases hread : read x with
      | error e =>
        rw [hread] at h
        cases h
      | ok value =>
        rw [hread, ok_bind] at h
        cases hrest : readElements read address size count (i + 1) with
        | error e =>
          rw [hrest] at h
          cases h
        | ok values =>
          rw [hrest] at h
          cases h
          rw [List.length_cons, ih hrest]

section Scalar

variable {size : Nat}

theorem readScalar_signed (h : size ≤ 8)
    : readScalar casts db address (.integer size true) size
        = (readSignedFixed db address size).map fun value =>
            { kind := .signedInteger, signedValue := value } := by
  simp only [readScalar, TypeInfo.isPointer, TypeInfo.isFloatingPoint, TypeInfo.isInteger,
    TypeInfo.isSigned, TypeInfo.realtype, Bool.false_eq_true, ↓reduceIte, Bool.true_or]
  rw [if_neg (by omega)]
  rfl

theorem readScalar_unsigned (h : size ≤ 8)
    : readScalar casts db address (.integer size false) size
        = (readUnsignedFixed db address size).map fun value =>
            { kind := .unsignedInteger, unsignedValue := value } := by
  simp only [readScalar, TypeInfo.isPointer, TypeInfo.isFloatingPoint, TypeInfo.isInteger,
    TypeInfo.isSigned, TypeInfo.realtype, Bool.false_eq_true, ↓reduceIte, Bool.true_or]
  rw [if_neg (by omega)]
  rfl

theorem readScalar_wide {signed : Bool} (h : 8 < size) (hdb : db.FullyLoaded)
    : readScalar casts db address (.integer size signed) size
        = .ok { kind := .bytes, bytes := db.byte.get address size } := by
  simp only [readScalar, TypeInfo.isPointer, TypeInfo.isFloatingPoint, TypeInfo.isInteger,
    TypeInfo.realtype, Bool.false_eq_true, ↓reduceIte, Bool.true_or, h,
    Database.readBytes_eq hdb, ok_bind]

end Scalar

end Data
end Idax
