import Idax.Data.RoundTrip

/-!
This module contains the question for which types and bytes a value that `read_typed` returned can be
written back without a change. The reader returns some types as plain bytes that the writer refuses,
and it cuts a byte array that looks like text at its first zero.
-/

namespace Idax
namespace Data

def KeepsText (raw : List UInt8) : Prop :=
  (byteArrayValue raw).kind = .string → ∀ b ∈ raw.dropWhile (· != 0), b = 0

def Lossless (casts : FloatCasts) (db : Database) : TypeInfo → (address : Nat) → Prop
  | .typedef target, address => Lossless casts db target address
  | .integer size _, _ => size ≤ 8
  | .enum size _, _ => size ≤ 8
  | .floatingPoint size, address =>
    size = 8
      ∨ size = 4
        ∧ casts.toFloat (casts.toDouble (UInt32.ofNat (db.getWord 4 address)))
            = UInt32.ofNat (db.getWord 4 address)
  | .array element length, address =>
    if isByteInteger element then
      KeepsText (db.byte.get address length.toNat)
    else
      ∀ size, element.getSize = some size → ∀ i, i < length.toNat
        → Lossless casts db element (address + size * i)
  | .pointer _, _ => True
  | .udt _, _ => True
  | .unsized, _ => True
  | .unresolved _, _ => True

variable {casts : FloatCasts} {db : Database} {address levels : Nat}

theorem lossless_realtype (ti : TypeInfo) (address : Nat)
    : Lossless casts db ti.realtype address ↔ Lossless casts db ti address := by
  induction ti with
  | typedef target ih =>
    rw [Lossless]
    apply ih
  | _ => rfl

section Scalar

variable {size : Nat}

theorem getWord_lt (db : Database) (width address : Nat) : db.getWord width address < 256 ^ width := by
  have hlt := Word.decode_lt db.bigEndian (db.byte.get address width)
  rw [ByteMap.length_get] at hlt
  apply hlt

theorem putWord_eq_self_iff {word : Nat} (hword : word < 256 ^ size)
    : db.putWord size address word = db ↔ db.getWord size address = word := by
  rw [Database.putWord, Database.put_eq_self_iff, Word.length_encode]
  constructor
  . intro h
    rw [Database.getWord, h, Word.decode_encode _ hword]
  . intro h
    rw [← h, Database.getWord]
    have := Word.encode_decode db.bigEndian (db.byte.get address size)
    rw [ByteMap.length_get] at this
    apply this.symm

theorem putWord_getWord (db : Database) (size address : Nat)
    : db.putWord size address (db.getWord size address) = db := by
  rw [putWord_eq_self_iff (getWord_lt db size address)]

theorem put_get (db : Database) (size address : Nat)
    : db.put address (db.byte.get address size) = db := by
  rw [Database.put_eq_self_iff, ByteMap.length_get]

theorem writeUnsignedFixed_readUnsignedFixed (hdb : db.FullyLoaded) {raw : UInt64}
    (h : readUnsignedFixed db address size = .ok raw)
    : writeUnsignedFixed db address size raw = (ok, db) := by
  have hwidth := validWidth_of_readUnsignedFixed h
  have hlt := getWord_lt db size address
  rw [readUnsignedFixed_eq hdb hwidth] at h
  cases h
  have hraw : (UInt64.ofNat (db.getWord size address)).toNat = db.getWord size address := by
    rw [UInt64.toNat_ofNat', Nat.mod_eq_of_lt]
    rcases hwidth with rfl | rfl | rfl | rfl <;> omega
  rw [writeUnsignedFixed_of_fits, hraw, putWord_getWord]
  rw [fitsUnsignedWidth_iff, hraw]
  apply And.intro hwidth hlt

theorem writeSignedFixed_readSignedFixed (hdb : db.FullyLoaded) {value : Int64}
    (h : readSignedFixed db address size = .ok value)
    : writeSignedFixed db address size value = (ok, db) := by
  have hwidth : ValidWidth size := by
    rw [readSignedFixed] at h
    cases hread : readUnsignedFixed db address size with
    | error e =>
      rw [hread] at h
      cases h
    | ok raw => apply validWidth_of_readUnsignedFixed hread
  have hlt := getWord_lt db size address
  rw [readSignedFixed_eq hdb hwidth] at h
  cases h
  rw [writeSignedFixed_of_fits, signedWord_signedOfWord hwidth hlt, putWord_getWord]
  rw [fitsSignedWidth_iff, toInt_signedOfWord hwidth, Int.bmod_bmod]
  apply And.intro hwidth rfl

theorem lossless_pointer {v : TypedValue} (hdb : db.FullyLoaded)
    (h : readScalar casts db address (.pointer size) size = .ok v)
    : writeScalar casts address (.pointer size) size v db = (ok, db) := by
  rw [show readScalar casts db address (.pointer size) size
    = (readUnsignedFixed db address size).map fun raw =>
        { kind := .pointer, pointerValue := raw, unsignedValue := raw } from rfl] at h
  cases hread : readUnsignedFixed db address size with
  | error e =>
    rw [hread] at h
    cases h
  | ok raw =>
    rw [hread] at h
    cases h
    apply writeUnsignedFixed_readUnsignedFixed hdb hread

theorem lossless_integer {v : TypedValue} {signed : Bool} (hdb : db.FullyLoaded)
    (h : readScalar casts db address (.integer size signed) size = .ok v)
    : writeScalar casts address (.integer size signed) size v db = (ok, db) ↔ size ≤ 8 := by
  by_cases hwide : 8 < size
  . rw [readScalar_wide hwide hdb] at h
    cases h
    constructor
    . intro hwrite
      cases signed with
      | true =>
        cases hwrite
      | false =>
        cases hwrite
    . omega
  . simp only [Nat.le_of_not_lt hwide, iff_true]
    cases signed with
    | true =>
      rw [readScalar_signed (Nat.le_of_not_lt hwide)] at h
      cases hread : readSignedFixed db address size with
      | error e =>
        rw [hread] at h
        cases h
      | ok value =>
        rw [hread] at h
        cases h
        apply writeSignedFixed_readSignedFixed hdb hread
    | false =>
      rw [readScalar_unsigned (Nat.le_of_not_lt hwide)] at h
      cases hread : readUnsignedFixed db address size with
      | error e =>
        rw [hread] at h
        cases h
      | ok value =>
        rw [hread] at h
        cases h
        apply writeUnsignedFixed_readUnsignedFixed hdb hread

theorem lossless_floatingPoint {v : TypedValue} (hdb : db.FullyLoaded)
    (h : readScalar casts db address (.floatingPoint size) size = .ok v)
    : writeScalar casts address (.floatingPoint size) size v db = (ok, db)
        ↔ Lossless casts db (.floatingPoint size) address := by
  simp only [readScalar, TypeInfo.isPointer, TypeInfo.isFloatingPoint, TypeInfo.realtype,
    Bool.false_eq_true, ↓reduceIte] at h
  simp only [Lossless]
  split at h
  . next hfour =>
    subst hfour
    rw [Database.readDword, Database.readWidth_eq hdb] at h
    cases h
    simp only [writeScalar, TypeInfo.isPointer, TypeInfo.isFloatingPoint, TypeInfo.realtype,
      Bool.false_eq_true, ↓reduceIte, not_true, ne_eq, Database.writeDword, Prod.mk.injEq, true_and]
    rw [putWord_eq_self_iff (UInt32.toNat_lt _)]
    have hlt := getWord_lt db 4 address
    rw [← UInt32.toNat_inj, UInt32.toNat_ofNat', Nat.mod_eq_of_lt (by omega)]
    simp [eq_comm]
  . next hfour =>
    split at h
    . next height =>
      subst height
      rw [Database.readQword, Database.readWidth_eq hdb] at h
      cases h
      have hlt := getWord_lt db 8 address
      simp only [writeScalar, TypeInfo.isPointer, TypeInfo.isFloatingPoint, TypeInfo.realtype,
        Bool.false_eq_true, ↓reduceIte, not_true, ne_eq, hfour, Database.writeQword, true_or,
        iff_true]
      rw [UInt64.toNat_ofNat', Nat.mod_eq_of_lt (by omega), putWord_getWord]
    . next height =>
      rw [Database.readBytes_eq hdb] at h
      cases h
      simp only [hfour, height, false_and, or_self, iff_false]
      intro hwrite
      cases hwrite

theorem lossless_udt {v : TypedValue} (hdb : db.FullyLoaded)
    (h : readScalar casts db address (.udt size) size = .ok v)
    : writeScalar casts address (.udt size) size v db = (ok, db) := by
  simp only [readScalar, TypeInfo.isPointer, TypeInfo.isFloatingPoint, TypeInfo.isInteger,
    TypeInfo.isEnum, TypeInfo.realtype, Bool.false_eq_true, ↓reduceIte, Bool.or_self,
    Database.readBytes_eq hdb, ok_bind] at h
  cases h
  simp [writeScalar, TypeInfo.isPointer, TypeInfo.isFloatingPoint, TypeInfo.isInteger,
    TypeInfo.isEnum, TypeInfo.realtype, Database.writeBytes_eq, put_get]

theorem lossless_scalar {ti : TypeInfo} {v : TypedValue} (hdb : db.FullyLoaded) (hti : ti.IsScalar)
    (hsize : ti.getSize = some size) (h : readScalar casts db address ti size = .ok v)
    : writeScalar casts address ti size v db = (ok, db) ↔ Lossless casts db ti address := by
  cases ti with
  | integer n signed =>
    cases hsize
    apply lossless_integer hdb h
  | enum n signed =>
    -- an enum is read and written like the integer type of its size
    cases hsize
    have hinteger : readScalar casts db address (.integer size signed) size = .ok v := h
    apply lossless_integer hdb hinteger
  | pointer n =>
    cases hsize
    simp [lossless_pointer hdb h, Lossless]
  | floatingPoint n =>
    cases hsize
    apply lossless_floatingPoint hdb h
  | udt n =>
    cases hsize
    simp [lossless_udt hdb h, Lossless]
  | unsized => cases hsize
  | array element length => cases hti
  | typedef target => cases hti
  | unresolved name => cases hti

theorem lossless_of_isScalar (ti : TypeInfo) {v : TypedValue} (hdb : db.FullyLoaded)
    (hti : ti.IsScalar) (h : readTypedImpl casts db (levels + 1) address ti = .ok v)
    : writeTypedImpl casts (levels + 1) address ti v db = (ok, db)
        ↔ Lossless casts db ti address := by
  rw [readTypedImpl_scalar hti] at h
  rw [writeTypedImpl_scalar hti]
  cases hchecked : checkedTypeSize ti with
  | error e =>
    rw [hchecked] at h
    cases h
  | ok size =>
    rw [hchecked] at h
    apply lossless_scalar hdb hti (checkedTypeSize_eq_ok_iff.mp hchecked).left h

end Scalar

section Arrays

theorem keepsText_iff (raw : List UInt8)
    : byteArrayContent (byteArrayValue raw) raw.length = .ok raw ↔ KeepsText raw := by
  unfold KeepsText byteArrayValue byteArrayContent
  dsimp only
  split
  . have hraw := List.takeWhile_append_dropWhile (p := (· != 0)) (l := raw)
    generalize raw.takeWhile (· != 0) = text at hraw
    generalize raw.dropWhile (· != 0) = rest at hraw
    subst hraw
    rw [if_neg (by simp), if_neg (by simp)]
    simp only [List.length_append, Nat.add_sub_cancel_left, Except.ok.injEq, List.append_cancel_left_eq,
      forall_const]
    rw [eq_comm, List.eq_replicate_iff]
    simp
  . simp

theorem lossless_bytes {element : TypeInfo} {length : UInt32} {v : TypedValue} (hdb : db.FullyLoaded)
    (hcounted : TypeInfo.Counted length) (hbyte : isByteInteger element = true)
    (h : readTypedImpl casts db (levels + 1) address (.array element length) = .ok v)
    : writeTypedImpl casts (levels + 1) address (.array element length) v db = (ok, db)
        ↔ Lossless casts db (.array element length) address := by
  rw [readTypedImpl_bytes hdb hcounted hbyte] at h
  cases h
  have hkind : (byteArrayValue (db.byte.get address length.toNat)).kind = .bytes
      ∨ (byteArrayValue (db.byte.get address length.toNat)).kind = .string := by
    unfold byteArrayValue
    dsimp only
    split
    . exact .inr rfl
    . exact .inl rfl
  rw [writeTypedImpl_bytes hcounted hbyte hkind]
  rw [Lossless, if_pos hbyte, ← keepsText_iff, ByteMap.length_get]
  cases hcontent : byteArrayContent (byteArrayValue (db.byte.get address length.toNat)) length.toNat with
  | error e => simp [ok]
  | ok raw =>
    simp only [Prod.mk.injEq, true_and, Except.ok.injEq]
    rw [Database.put_eq_self_iff, length_byteArrayContent hcontent, eq_comm]

section Elements

variable {size : Nat} {write : Nat → TypedValue → Database → Status × Database}
  {read : Nat → Database → Result TypedValue} {P : TypedValue → TypedValue → Prop}

theorem writeElements_cons_eq_self_iff
    (htrip : ∀ a v db, (write a v db).fst = ok
      → RoundTrips db.bigEndian a size (write a v) (read a) (P v))
    {i : Nat} (v : TypedValue) (vs : List TypedValue)
    (haddress : elementAddress "Typed array write address overflow" address size i
      = .ok (address + size * i))
    : writeElements write address size i (v :: vs) db = (ok, db)
        ↔ write (address + size * i) v db = (ok, db)
          ∧ writeElements write address size (i + 1) vs db = (ok, db) := by
  rw [writeElements, haddress]
  dsimp only
  constructor
  . intro h
    split at h
    . next db1 hwrite =>
      rcases htrip (address + size * i) v db (by rw [hwrite]; rfl) with ⟨bs1, hlength, hstores1, _⟩
      rw [hstores1 db rfl] at hwrite
      cases hwrite
      have hstatus : (writeElements write address size (i + 1) vs
          (db.put (address + size * i) bs1)).fst = ok := by
        rw [h]
      rcases roundTrips_elements htrip vs (i + 1) _ hstatus with ⟨bs2, _, hstores2, _⟩
      have hnext : address + size * (i + 1) = address + size * i + bs1.length := by
        rw [hlength, Nat.mul_succ, Nat.add_assoc]
      have hput := hstores2 (db.put (address + size * i) bs1) rfl
      rw [h, hnext, ← Database.put_append] at hput
      have hget := (Database.put_eq_self_iff _ _ _).mp (Prod.mk.inj hput).right.symm
      rw [List.length_append, ByteMap.get_add] at hget
      have hfirst := (List.append_inj hget (ByteMap.length_get _ _ _)).left
      have hsame := (Database.put_eq_self_iff _ _ _).mpr hfirst
      rw [hsame] at h
      rw [hstores1 db rfl, hsame]
      apply And.intro rfl h
    . cases h
  . rintro ⟨hfirst, hrest⟩
    rw [hfirst]
    apply hrest

theorem writeElements_eq_self_iff {Q : Nat → Prop}
    (htrip : ∀ a v db, (write a v db).fst = ok
      → RoundTrips db.bigEndian a size (write a v) (read a) (P v))
    (hone : ∀ a v, read a db = .ok v → (write a v db = (ok, db) ↔ Q a)) (count i : Nat)
    (vs : List TypedValue)
    (h : readElements (fun a => read a db) address size count i = .ok vs)
    : writeElements write address size i vs db = (ok, db)
        ↔ ∀ j, j < count → Q (address + size * (i + j)) := by
  induction count generalizing i vs with
  | zero =>
    cases h
    simp [writeElements]
  | succ count ih =>
    rw [readElements] at h
    cases haddress : elementAddress "Typed array read address overflow" address size i with
    | error e =>
      rw [haddress] at h
      cases h
    | ok x =>
      rcases elementAddress_eq_ok haddress "Typed array write address overflow"
        with ⟨hx, hwriteAddress⟩
      rw [haddress, ok_bind] at h
      subst hx
      cases hread : read (address + size * i) db with
      | error e =>
        rw [hread] at h
        cases h
      | ok v =>
        rw [hread, ok_bind] at h
        cases hrest : readElements (fun a => read a db) address size count (i + 1) with
        | error e =>
          rw [hrest] at h
          cases h
        | ok vs =>
          rw [hrest] at h
          cases h
          rw [writeElements_cons_eq_self_iff htrip v vs hwriteAddress]
          rw [hone _ v hread, ih (i + 1) vs hrest, Nat.forall_lt_succ_left]
          simp only [Nat.add_zero, Nat.add_assoc, Nat.add_comm 1]

end Elements

theorem writeTypedImpl_eq_self_iff (hdb : db.FullyLoaded) (levels address : Nat) (ti : TypeInfo)
    (v : TypedValue) (h : readTypedImpl casts db levels address ti = .ok v)
    : writeTypedImpl casts levels address ti v db = (ok, db) ↔ Lossless casts db ti address := by
  induction levels generalizing address ti v with
  | zero => cases h
  | succ levels ih =>
    rw [← readTypedImpl_realtype] at h
    rw [← writeTypedImpl_realtype, ← lossless_realtype]
    have htypedef := ti.realtype_ne_typedef
    generalize ti.realtype = t at h htypedef
    cases t with
    | typedef target => exact absurd rfl (htypedef target)
    | unresolved name => cases h
    | unsized => apply lossless_of_isScalar .unsized hdb trivial h
    | integer n signed => apply lossless_of_isScalar (.integer n signed) hdb trivial h
    | enum n signed => apply lossless_of_isScalar (.enum n signed) hdb trivial h
    | pointer n => apply lossless_of_isScalar (.pointer n) hdb trivial h
    | floatingPoint n => apply lossless_of_isScalar (.floatingPoint n) hdb trivial h
    | udt n => apply lossless_of_isScalar (.udt n) hdb trivial h
    | array element length =>
      have hcounted : TypeInfo.Counted length := by
        by_contra hcounted
        rw [readTypedImpl_uncounted hcounted] at h
        cases h
      cases hbyte : isByteInteger element with
      | true => apply lossless_bytes hdb hcounted hbyte h
      | false =>
        rw [readTypedImpl_array hcounted hbyte] at h
        cases hchecked : checkedTypeSize element with
        | error e =>
          rw [hchecked] at h
          cases h
        | ok size =>
          rw [hchecked] at h
          have hsize := (checkedTypeSize_eq_ok_iff.mp hchecked).left
          dsimp only [Except.bind] at h
          cases hread : readElements (fun a => readTypedImpl casts db levels a element) address size
              length.toNat 0 with
          | error e =>
            rw [hread] at h
            cases h
          | ok vs =>
            rw [hread] at h
            cases h
            rw [writeTypedImpl_elements hcounted rfl (length_readElements hread) hchecked]
            rw [writeElements_eq_self_iff (Q := Lossless casts db element)
              (fun a v db => roundTrips_typed levels a size element v db hsize)
              (fun a v => ih a element v) length.toNat 0 vs hread]
            simp [Lossless, hbyte, hsize]

end Arrays

theorem writeTyped_readTyped {ti : TypeInfo} {v : TypedValue} (hdb : db.FullyLoaded)
    (h : readTyped casts db address ti = .ok v)
    : writeTyped casts db address ti v = (ok, db) ↔ Lossless casts db ti address := by
  apply writeTypedImpl_eq_self_iff hdb (kMaxTypedDepth + 1) address ti v h

section Example

def textDatabase : Database :=
  { byte := fun x => if x = 0x1000 then 0x41 else if x = 0x1002 then 0x42 else 0
    loaded := fun _ => true
    bigEndian := false }

theorem writeTyped_readTyped_text
    : writeTyped keepCasts textDatabase 0x1000 (.array (.integer 1 false) 4)
          (byteArrayValue [0x41, 0, 0x42, 0]) = (ok, textDatabase)
        ↔ Lossless keepCasts textDatabase (.array (.integer 1 false) 4) 0x1000 := by
  apply writeTyped_readTyped
  . intro ea
    rfl
  . rfl

theorem written_back_changed
    : textDatabase.FullyLoaded
        ∧ (∃ v, readTyped keepCasts textDatabase 0x1000 (.array (.integer 1 false) 4) = .ok v
          ∧ ∃ db', writeTyped keepCasts textDatabase 0x1000 (.array (.integer 1 false) 4) v = (ok, db')
            ∧ textDatabase.byte 0x1002 = 0x42 ∧ db'.byte 0x1002 = 0)
        ∧ ∃ v e, readTyped keepCasts textDatabase 0x1000 (.integer 16 false) = .ok v
          ∧ writeTyped keepCasts textDatabase 0x1000 (.integer 16 false) v
            = (.error e, textDatabase) := by
  refine ⟨fun _ => rfl, ?_, ?_⟩
  . refine ⟨_, rfl, _, rfl, rfl, rfl⟩
  . refine ⟨_, _, rfl, rfl⟩

end Example

end Data
end Idax
