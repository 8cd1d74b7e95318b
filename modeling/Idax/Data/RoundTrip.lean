import Idax.Data.Lemmas.Typed

/-!
This module shows that a value that `write_typed` accepts is read back in its canonical form.
-/

namespace Idax
namespace Data

namespace TypedValue

def integer? (v : TypedValue) : Option Int :=
  match v.kind with
  | .unsignedInteger => some v.unsignedValue.toNat
  | .signedInteger => some v.signedValue.toInt
  | _ => none

def address? (v : TypedValue) : Option UInt64 :=
  match v.kind with
  | .pointer => some v.pointerValue
  | .unsignedInteger => some v.unsignedValue
  | _ => none

end TypedValue

def integerKind (signed : Bool) : TypedValueKind :=
  if signed then .signedInteger else .unsignedInteger

def byteInteger (signed : Bool) (b : UInt8) : Int :=
  if signed then b.toInt8.toInt else b.toNat

def ByteContent (signed : Bool) (length : Nat) (v : TypedValue) (raw : List UInt8) : Prop :=
  match v.kind with
  | .bytes => raw = v.bytes
  | .string => raw = v.stringValue ++ List.replicate (length - v.stringValue.length) 0
  | _ => List.Forall₂ (fun element b => element.integer? = some (byteInteger signed b)) v.elements raw

def Canonical (casts : FloatCasts) : TypeInfo → TypedValue → TypedValue → Prop
  | .typedef target, v, v' => Canonical casts target v v'
  | .integer _ signed, v, v' =>
    v'.kind = integerKind signed ∧ v'.integer?.isSome ∧ v'.integer? = v.integer?
  | .enum _ signed, v, v' =>
    v'.kind = integerKind signed ∧ v'.integer?.isSome ∧ v'.integer? = v.integer?
  | .pointer _, v, v' =>
    v'.kind = .pointer ∧ v.address? = some v'.pointerValue ∧ v'.unsignedValue = v'.pointerValue
  | .floatingPoint size, v, v' =>
    v'.kind = .floatingPoint
      ∧ v'.floatingValue
          = if size = 4 then casts.toDouble (casts.toFloat v.floatingValue) else v.floatingValue
  | .array element length, v, v' =>
    if isByteInteger element then
      ∃ raw, raw.length = length.toNat ∧ ByteContent element.isSigned length.toNat v raw
        ∧ v' = byteArrayValue raw
    else
      v'.kind = .array ∧ List.Forall₂ (Canonical casts element) v.elements v'.elements
  | .udt _, v, v' => v'.kind = .bytes ∧ v'.bytes = v.bytes
  | .unsized, _, _ => False
  | .unresolved _, _, _ => False

def Stores (bigEndian : Bool) (address : Nat) (bs : List UInt8)
    (write : Database → Status × Database) : Prop :=
  ∀ db, db.bigEndian = bigEndian → write db = (ok, db.put address bs)

def ReadsBack (bigEndian : Bool) (address : Nat) (bs : List UInt8) (read : Database → Result α)
    (P : α → Prop) : Prop :=
  ∀ db, db.FullyLoaded → db.bigEndian = bigEndian → db.byte.get address bs.length = bs
    → ∃ v, read db = .ok v ∧ P v

def RoundTrips (bigEndian : Bool) (address size : Nat) (write : Database → Status × Database)
    (read : Database → Result α) (P : α → Prop) : Prop :=
  ∃ bs, bs.length = size ∧ Stores bigEndian address bs write ∧ ReadsBack bigEndian address bs read P

theorem RoundTrips.map {bigEndian : Bool} {address size : Nat}
    {write write' : Database → Status × Database} {read : Database → Result α}
    {read' : Database → Result β} {P : α → Prop} {Q : β → Prop} {f : α → β}
    (h : RoundTrips bigEndian address size write read P) (hwrite : ∀ db, write' db = write db)
    (hread : ∀ db, read' db = (read db).map f) (hP : ∀ v, P v → Q (f v))
    : RoundTrips bigEndian address size write' read' Q := by
  rcases h with ⟨bs, hlength, hstores, hreads⟩
  refine ⟨bs, hlength, ?_, ?_⟩
  . intro db hdb
    rw [hwrite, hstores db hdb]
  . intro db hloaded hdb hget
    rcases hreads db hloaded hdb hget with ⟨v, hv, hPv⟩
    refine ⟨f v, ?_, hP v hPv⟩
    rw [hread, hv]
    rfl

theorem RoundTrips.congr {bigEndian : Bool} {address size : Nat}
    {write write' : Database → Status × Database} {read read' : Database → Result α} {P Q : α → Prop}
    (h : RoundTrips bigEndian address size write read P) (hwrite : ∀ db, write' db = write db)
    (hread : ∀ db, read' db = read db) (hP : ∀ v, P v → Q v)
    : RoundTrips bigEndian address size write' read' Q := by
  apply h.map hwrite (f := id)
  . intro db
    rw [hread, Except.map_id]
    rfl
  . apply hP

section Words

variable {bigEndian : Bool} {address width : Nat}

theorem getWord_eq {db : Database} {word : Nat} (hdb : db.bigEndian = bigEndian)
    (hword : word < 256 ^ width)
    (hget : db.byte.get address (Word.encode bigEndian width word).length
      = Word.encode bigEndian width word) : db.getWord width address = word := by
  rw [Word.length_encode] at hget
  rw [Database.getWord, hget, hdb]
  apply Word.decode_encode bigEndian hword

theorem roundTrips_word {word : Nat} {write : Database → Status × Database}
    {read : Database → Result α} {f : Nat → α} {P : α → Prop} (hlt : word < 256 ^ width)
    (hwrite : ∀ db, write db = (ok, db.putWord width address word))
    (hread : ∀ db, db.FullyLoaded → read db = .ok (f (db.getWord width address)))
    (hP : P (f word)) : RoundTrips bigEndian address width write read P := by
  refine ⟨Word.encode bigEndian width word, Word.length_encode bigEndian width word, ?_, ?_⟩
  . intro db hdb
    rw [hwrite, Database.putWord, hdb]
  . intro db hloaded hdb hget
    rw [hread db hloaded, getWord_eq hdb hlt hget]
    refine ⟨_, rfl, hP⟩

theorem roundTrips_unsigned {value : UInt64} (h : fitsUnsignedWidth width value = true)
    : RoundTrips bigEndian address width (writeUnsignedFixed · address width value)
        (readUnsignedFixed · address width) (· = value) := by
  have ⟨hwidth, hlt⟩ := (fitsUnsignedWidth_iff width value).mp h
  apply roundTrips_word hlt
  . intro db
    apply writeUnsignedFixed_of_fits h
  . intro db hloaded
    apply readUnsignedFixed_eq hloaded hwidth
  . apply UInt64.ofNat_toNat

theorem roundTrips_signed {value : Int64} (h : fitsSignedWidth width value = true)
    : RoundTrips bigEndian address width (writeSignedFixed · address width value)
        (readSignedFixed · address width) (· = value) := by
  have ⟨hwidth, hbmod⟩ := (fitsSignedWidth_iff width value).mp h
  apply roundTrips_word (signedWord_lt width value)
  . intro db
    apply writeSignedFixed_of_fits h
  . intro db hloaded
    apply readSignedFixed_eq hloaded hwidth
  . apply signedOfWord_signedWord hbmod

theorem fits_of_writeUnsignedFixed {db : Database} {value : UInt64}
    (h : (writeUnsignedFixed db address width value).fst = ok)
    : fitsUnsignedWidth width value = true := by
  cases hfits : fitsUnsignedWidth width value with
  | true => rfl
  | false =>
    rw [writeUnsignedFixed_of_not_fits hfits] at h
    cases h

theorem fits_of_writeSignedFixed {db : Database} {value : Int64}
    (h : (writeSignedFixed db address width value).fst = ok)
    : fitsSignedWidth width value = true := by
  cases hfits : fitsSignedWidth width value with
  | true => rfl
  | false =>
    rw [writeSignedFixed_of_not_fits hfits] at h
    cases h

end Words

section Scalar

variable {casts : FloatCasts} {address size : Nat} {v : TypedValue} {db : Database}

theorem writeScalar_pointer (db : Database)
    : writeScalar casts address (.pointer size) size v db
        = match v.address? with
          | some raw => writeUnsignedFixed db address size raw
          | none =>
            (.error (.validation "Pointer write requires pointer or unsigned integer value"), db) := by
  unfold TypedValue.address?
  simp only [writeScalar, TypeInfo.isPointer, TypeInfo.realtype, ↓reduceIte]
  cases v.kind <;> rfl

theorem roundTrips_pointer
    (h : (writeScalar casts address (.pointer size) size v db).fst = ok)
    : RoundTrips db.bigEndian address size (writeScalar casts address (.pointer size) size v)
        (readScalar casts · address (.pointer size) size) (Canonical casts (.pointer size) v) := by
  have hread : ∀ db : Database, readScalar casts db address (.pointer size) size
      = (readUnsignedFixed db address size).map fun raw =>
          { kind := .pointer, pointerValue := raw, unsignedValue := raw } := fun _ => rfl
  have hwrite (db : Database) := @writeScalar_pointer casts address size v db
  rw [hwrite] at h
  cases hvalue : v.address? with
  | none =>
    rw [hvalue] at h
    cases h
  | some raw =>
    rw [hvalue] at h
    simp only [hvalue] at hwrite
    apply (roundTrips_unsigned (fits_of_writeUnsignedFixed h)).map hwrite hread
    intro word hword
    rw [hword]
    refine ⟨rfl, hvalue, rfl⟩

theorem roundTrips_floatingPoint
    (h : (writeScalar casts address (.floatingPoint size) size v db).fst = ok)
    : RoundTrips db.bigEndian address size (writeScalar casts address (.floatingPoint size) size v)
        (readScalar casts · address (.floatingPoint size) size)
        (Canonical casts (.floatingPoint size) v) := by
  simp only [writeScalar, TypeInfo.isPointer, TypeInfo.isFloatingPoint, TypeInfo.realtype,
    Bool.false_eq_true, ↓reduceIte] at h
  split at h
  . cases h
  . next hkind =>
    split at h
    . next hsize =>
      subst hsize
      apply roundTrips_word (f := fun word =>
        { kind := .floatingPoint, floatingValue := casts.toDouble (UInt32.ofNat word) })
        (casts.toFloat v.floatingValue).toNat_lt
      . intro db
        simp [writeScalar, TypeInfo.isPointer, TypeInfo.isFloatingPoint, TypeInfo.realtype, hkind,
          Database.writeDword]
      . intro db hloaded
        simp [readScalar, TypeInfo.isPointer, TypeInfo.isFloatingPoint, TypeInfo.realtype,
          Database.readDword, Database.readWidth_eq hloaded]
      . simp [Canonical]
    . split at h
      . next hsize =>
        subst hsize
        apply roundTrips_word (f := fun word =>
          { kind := .floatingPoint, floatingValue := UInt64.ofNat word })
          v.floatingValue.toNat_lt
        . intro db
          simp [writeScalar, TypeInfo.isPointer, TypeInfo.isFloatingPoint, TypeInfo.realtype, hkind,
            Database.writeQword]
        . intro db hloaded
          simp [readScalar, TypeInfo.isPointer, TypeInfo.isFloatingPoint, TypeInfo.realtype,
            Database.readQword, Database.readWidth_eq hloaded]
        . simp [Canonical]
      . cases h

theorem signed_of_writeScalar
    (h : (writeScalar casts address (.integer size true) size v db).fst = ok)
    : ∃ x : Int64, v.integer? = some x.toInt
        ∧ ∀ db, writeScalar casts address (.integer size true) size v db
            = writeSignedFixed db address size x := by
  simp only [writeScalar, TypeInfo.isPointer, TypeInfo.isFloatingPoint, TypeInfo.isInteger,
    TypeInfo.isSigned, TypeInfo.realtype, Bool.false_eq_true, ↓reduceIte, Bool.true_or] at h ⊢
  unfold TypedValue.integer?
  cases hkind : v.kind with
  | signedInteger => exact ⟨v.signedValue, rfl, fun _ => rfl⟩
  | unsignedInteger =>
    rw [hkind] at h
    dsimp only at h ⊢
    split at h
    . cases h
    . next hle =>
      refine ⟨v.unsignedValue.toInt64, ?_, ?_⟩
      . have htoInt := BitVec.toInt_eq_toNat_bmod v.unsignedValue.toBitVec
        rw [UInt64.toNat_toBitVec, Int.bmod_eq_of_le (by omega) (by omega)] at htoInt
        rw [← htoInt]
        rfl
      . intro db
        rw [if_neg hle]
  | _ =>
    rw [hkind] at h
    cases h

theorem unsigned_of_writeScalar
    (h : (writeScalar casts address (.integer size false) size v db).fst = ok)
    : ∃ x : UInt64, v.integer? = some (x.toNat : Int)
        ∧ ∀ db, writeScalar casts address (.integer size false) size v db
            = writeUnsignedFixed db address size x := by
  simp only [writeScalar, TypeInfo.isPointer, TypeInfo.isFloatingPoint, TypeInfo.isInteger,
    TypeInfo.isSigned, TypeInfo.realtype, Bool.false_eq_true, ↓reduceIte, Bool.true_or] at h ⊢
  unfold TypedValue.integer?
  cases hkind : v.kind with
  | unsignedInteger => exact ⟨v.unsignedValue, rfl, fun _ => rfl⟩
  | signedInteger =>
    rw [hkind] at h
    dsimp only at h ⊢
    split at h
    . cases h
    . next hle =>
      refine ⟨v.signedValue.toUInt64, ?_, ?_⟩
      . have hlt := v.signedValue.toInt_lt
        have htoNat := toNat_eq_toInt_emod v.signedValue.toBitVec
        rw [show v.signedValue.toBitVec.toInt = v.signedValue.toInt from rfl] at htoNat
        rw [Int64.lt_iff_toInt_lt, Int.not_lt] at hle
        rw [← Int64.toNat_toBitVec, htoNat]
        rw [Int.emod_eq_of_lt hle (by omega)]
      . intro db
        rw [if_neg hle]
  | _ =>
    rw [hkind] at h
    cases h

theorem roundTrips_integer {signed : Bool}
    (h : (writeScalar casts address (.integer size signed) size v db).fst = ok)
    : RoundTrips db.bigEndian address size (writeScalar casts address (.integer size signed) size v)
        (readScalar casts · address (.integer size signed) size)
        (Canonical casts (.integer size signed) v) := by
  cases signed with
  | true =>
    rcases signed_of_writeScalar h with ⟨x, hvalue, hwrite⟩
    rw [hwrite] at h
    have hfits := fits_of_writeSignedFixed h
    have ⟨hwidth, _⟩ := (fitsSignedWidth_iff size x).mp hfits
    apply (roundTrips_signed hfits).map hwrite
    . intro db
      apply readScalar_signed
      rcases hwidth with rfl | rfl | rfl | rfl <;> omega
    . intro value heq
      rw [heq]
      refine ⟨rfl, rfl, hvalue.symm⟩
  | false =>
    rcases unsigned_of_writeScalar h with ⟨x, hvalue, hwrite⟩
    rw [hwrite] at h
    have hfits := fits_of_writeUnsignedFixed h
    have ⟨hwidth, _⟩ := (fitsUnsignedWidth_iff size x).mp hfits
    apply (roundTrips_unsigned hfits).map hwrite
    . intro db
      apply readScalar_unsigned
      rcases hwidth with rfl | rfl | rfl | rfl <;> omega
    . intro value heq
      rw [heq]
      refine ⟨rfl, rfl, hvalue.symm⟩

theorem roundTrips_udt
    (h : (writeScalar casts address (.udt size) size v db).fst = ok)
    : RoundTrips db.bigEndian address size (writeScalar casts address (.udt size) size v)
        (readScalar casts · address (.udt size) size) (Canonical casts (.udt size) v) := by
  simp only [writeScalar, TypeInfo.isPointer, TypeInfo.isFloatingPoint, TypeInfo.isInteger,
    TypeInfo.isEnum, TypeInfo.realtype, Bool.false_eq_true, ↓reduceIte, Bool.or_self] at h
  split at h
  . cases h
  . next hkind =>
    split at h
    . cases h
    . next hlength =>
      rw [not_not] at hlength
      refine ⟨v.bytes, hlength, ?_, ?_⟩
      . intro db _
        simp [writeScalar, TypeInfo.isPointer, TypeInfo.isFloatingPoint, TypeInfo.isInteger,
          TypeInfo.isEnum, TypeInfo.realtype, hkind, hlength, Database.writeBytes_eq]
      . intro db hloaded _ hget
        rw [hlength] at hget
        simp [readScalar, TypeInfo.isPointer, TypeInfo.isFloatingPoint, TypeInfo.isInteger,
          TypeInfo.isEnum, TypeInfo.realtype, Database.readBytes_eq hloaded, hget, Canonical]

theorem roundTrips_scalar {ti : TypeInfo} (hti : ti.IsScalar) (hsize : ti.getSize = some size)
    (h : (writeScalar casts address ti size v db).fst = ok)
    : RoundTrips db.bigEndian address size (writeScalar casts address ti size v)
        (readScalar casts · address ti size) (Canonical casts ti v) := by
  cases ti with
  | integer n signed =>
    cases hsize
    apply roundTrips_integer h
  | enum n signed =>
    -- an enum is written and read like the integer type of its size
    cases hsize
    have hinteger : (writeScalar casts address (.integer size signed) size v db).fst = ok := h
    apply roundTrips_integer hinteger
  | pointer n =>
    cases hsize
    apply roundTrips_pointer h
  | floatingPoint n =>
    cases hsize
    apply roundTrips_floatingPoint h
  | udt n =>
    cases hsize
    apply roundTrips_udt h
  | unsized => cases hsize
  | array element length => cases hti
  | typedef target => cases hti
  | unresolved name => cases hti

end Scalar

section Elements

variable {casts : FloatCasts} {address size : Nat}

theorem elementAddress_eq_ok {message : String} {i x : Nat}
    (h : elementAddress message address size i = .ok x) (message' : String)
    : x = address + size * i ∧ elementAddress message' address size i = .ok (address + size * i) := by
  unfold elementAddress at h ⊢
  split at h
  . cases h
  . next hmul =>
    rw [if_neg hmul]
    dsimp only at h ⊢
    split at h
    . cases h
    . next hadd =>
      rw [if_neg hadd]
      cases h
      apply And.intro <;> rfl

theorem roundTrips_elements {write : Nat → TypedValue → Database → Status × Database}
    {read : Nat → Database → Result TypedValue} {P : TypedValue → TypedValue → Prop}
    (hone : ∀ a v db, (write a v db).fst = ok
      → RoundTrips db.bigEndian a size (write a v) (read a) (P v))
    (vs : List TypedValue) (i : Nat) (db : Database)
    (h : (writeElements write address size i vs db).fst = ok)
    : RoundTrips db.bigEndian (address + size * i) (size * vs.length)
        (writeElements write address size i vs)
        (fun db => readElements (fun a => read a db) address size vs.length i)
        (List.Forall₂ P vs) := by
  induction vs generalizing i db with
  | nil =>
    refine ⟨[], rfl, ?_, ?_⟩
    . intro db _
      rfl
    . intro db _ _ _
      refine ⟨[], rfl, .nil⟩
  | cons v vs ih =>
    rw [writeElements] at h
    split at h
    . cases h
    . next x hx =>
      have ⟨hx', haddress⟩ := elementAddress_eq_ok hx "Typed array write address overflow"
      have ⟨_, hreadAddress⟩ := elementAddress_eq_ok hx "Typed array read address overflow"
      subst hx'
      split at h
      . next db1 hwrite =>
        rcases hone (address + size * i) v db (by rw [hwrite]; rfl) with ⟨bs1, hlength1, hstores1, hreads1⟩
        have hdb1 : db1.bigEndian = db.bigEndian := by
          rw [hstores1 db rfl] at hwrite
          cases hwrite
          rfl
        rcases ih (i + 1) db1 h with ⟨bs2, hlength2, hstores2, hreads2⟩
        rw [hdb1] at hstores2 hreads2
        have hnext : address + size * (i + 1) = address + size * i + bs1.length := by
          rw [hlength1, Nat.mul_succ, Nat.add_assoc]
        rw [hnext] at hstores2 hreads2
        refine ⟨bs1 ++ bs2, ?_, ?_, ?_⟩
        . rw [List.length_append, hlength1, hlength2, List.length_cons, Nat.mul_succ, Nat.add_comm]
        . intro db hdb
          rw [writeElements, haddress]
          simp only [hstores1 db hdb]
          rw [Database.put_append]
          apply hstores2 (db.put (address + size * i) bs1) hdb
        . intro db hloaded hdb hget
          rw [List.length_append, ByteMap.get_add] at hget
          have ⟨hget1, hget2⟩ := List.append_inj hget (ByteMap.length_get _ _ _)
          rcases hreads1 db hloaded hdb hget1 with ⟨v', hread, hv'⟩
          rcases hreads2 db hloaded hdb hget2 with ⟨vs', hreadRest, hvs'⟩
          refine ⟨v' :: vs', ?_, .cons hv' hvs'⟩
          dsimp only at hreadRest
          show readElements (fun a => read a db) address size (vs.length + 1) i = _
          rw [readElements, hreadAddress, ok_bind, hread, ok_bind, hreadRest]
          rfl
      . cases h

end Elements

section Arrays

variable {casts : FloatCasts} {address levels : Nat} {v : TypedValue} {db : Database}

theorem canonical_realtype (ti : TypeInfo) (v v' : TypedValue)
    : Canonical casts ti.realtype v v' ↔ Canonical casts ti v v' := by
  induction ti with
  | typedef target ih =>
    rw [Canonical]
    apply ih
  | _ => rfl

theorem isInteger_realtype {ti : TypeInfo} (h : ti.isInteger = true)
    : ∃ size, ti.realtype = .integer size ti.isSigned ∧ ti.getSize = some size := by
  unfold TypeInfo.isInteger at h
  split at h
  . next size signed hreal =>
    refine ⟨size, ?_, ?_⟩
    . rw [hreal, TypeInfo.isSigned, hreal]
    . rw [← TypeInfo.getSize_realtype, hreal]
      rfl
  . cases h

theorem getWord_one (db : Database) (address : Nat)
    : db.getWord 1 address = (db.byte address).toNat := by
  cases hbig : db.bigEndian <;> simp [Database.getWord, hbig, Word.decode, Word.decodeLE, ByteMap.get]

theorem readScalar_byte (casts : FloatCasts) (address : Nat) (hdb : db.FullyLoaded) (signed : Bool)
    : ∃ v, readScalar casts db address (.integer 1 signed) 1 = .ok v
        ∧ v.integer? = some (byteInteger signed (db.byte address)) := by
  cases signed with
  | true =>
    rw [readScalar_signed (by omega), readSignedFixed_eq hdb (.inl rfl)]
    refine ⟨_, rfl, ?_⟩
    simp only [TypedValue.integer?, byteInteger, ↓reduceIte, toInt_signedOfWord (.inl rfl)]
    rw [getWord_one]
    rw [show (db.byte address).toInt8.toInt = (db.byte address).toBitVec.toInt from rfl]
    rw [BitVec.toInt_eq_toNat_bmod]
    rfl
  | false =>
    have hlt := (db.byte address).toNat_lt
    rw [readScalar_unsigned (by omega), readUnsignedFixed_eq hdb (.inl rfl)]
    refine ⟨_, rfl, ?_⟩
    simp only [TypedValue.integer?, byteInteger, UInt64.toNat_ofNat', getWord_one]
    rw [Nat.mod_eq_of_lt (by omega)]
    rfl

theorem readTypedImpl_byte {ti : TypeInfo} (hbyte : isByteInteger ti = true)
    (hdb : db.FullyLoaded) {v : TypedValue}
    (h : readTypedImpl casts db levels address ti = .ok v)
    : v.integer? = some (byteInteger ti.isSigned (db.byte address)) := by
  have ⟨hinteger, hsize⟩ := isByteInteger_iff.mp hbyte
  rcases isInteger_realtype hinteger with ⟨size, hreal, hsize'⟩
  rw [hsize] at hsize'
  cases hsize'
  rw [← readTypedImpl_realtype, hreal] at h
  cases levels with
  | zero => cases h
  | succ levels =>
    rcases readScalar_byte casts address hdb ti.isSigned
      with ⟨v', hread, hv'⟩
    rw [show readTypedImpl casts db (levels + 1) address (.integer 1 ti.isSigned)
      = readScalar casts db address (.integer 1 ti.isSigned) 1 from rfl, hread] at h
    cases h
    apply hv'

theorem readElements_bytes {ti : TypeInfo} (hbyte : isByteInteger ti = true)
    (hdb : db.FullyLoaded) (count i : Nat) (vs : List TypedValue)
    (h : readElements (fun a => readTypedImpl casts db levels a ti) address 1 count i = .ok vs)
    : List.Forall₂ (fun v b => v.integer? = some (byteInteger ti.isSigned b)) vs
        (db.byte.get (address + i) count) := by
  induction count generalizing i vs with
  | zero =>
    cases h
    apply List.Forall₂.nil
  | succ count ih =>
    rw [readElements] at h
    cases haddress : elementAddress "Typed array read address overflow" address 1 i with
    | error e =>
      rw [haddress] at h
      cases h
    | ok x =>
      rcases elementAddress_eq_ok haddress "" with ⟨hx, _⟩
      rw [haddress, ok_bind] at h
      cases hread : readTypedImpl casts db levels x ti with
      | error e =>
        rw [hread] at h
        cases h
      | ok v =>
        rw [hread, ok_bind] at h
        cases hrest : readElements (fun a => readTypedImpl casts db levels a ti) address 1 count (i + 1)
          with
        | error e =>
          rw [hrest] at h
          cases h
        | ok vs =>
          rw [hrest] at h
          cases h
          rw [Nat.one_mul] at hx
          rw [hx] at hread
          rw [ByteMap.get]
          constructor
          . apply readTypedImpl_byte hbyte hdb hread
          . apply ih (i + 1) vs hrest

theorem roundTrips_bytes {element : TypeInfo} {length : UInt32} (hbyte : isByteInteger element = true)
    (hkind : v.kind = .bytes ∨ v.kind = .string)
    (h : (writeTypedImpl casts (levels + 1) address (.array element length) v db).fst = ok)
    : RoundTrips db.bigEndian address length.toNat
        (writeTypedImpl casts (levels + 1) address (.array element length) v)
        (readTypedImpl casts · (levels + 1) address (.array element length))
        (Canonical casts (.array element length) v) := by
  have hcounted := counted_of_writeTypedImpl h
  rw [writeTypedImpl_bytes hcounted hbyte hkind] at h
  cases hcontent : byteArrayContent v length.toNat with
  | error e =>
    rw [hcontent] at h
    cases h
  | ok raw =>
    have hlength := length_byteArrayContent hcontent
    have hraw : ByteContent element.isSigned length.toNat v raw := by
      unfold byteArrayContent at hcontent
      unfold ByteContent
      split at hcontent
      . next hbytes =>
        split at hcontent
        . cases hcontent
        . cases hcontent
          rw [hbytes]
      . next hbytes =>
        rw [hkind.resolve_left hbytes]
        split at hcontent
        . cases hcontent
        . cases hcontent
          rfl
    refine ⟨raw, hlength, ?_, ?_⟩
    . intro db _
      rw [writeTypedImpl_bytes hcounted hbyte hkind, hcontent]
    . intro db hloaded _ hget
      refine ⟨_, readTypedImpl_bytes hloaded hcounted hbyte, ?_⟩
      rw [hlength] at hget
      rw [Canonical, if_pos hbyte, hget]
      refine ⟨raw, hlength, hraw, rfl⟩

theorem forall₂_integer? {ti : TypeInfo} (hinteger : ti.isInteger = true) {vs vs' : List TypedValue}
    {raw : List UInt8} (h : List.Forall₂ (Canonical casts ti) vs vs')
    (h' : List.Forall₂ (fun v b => v.integer? = some (byteInteger ti.isSigned b)) vs' raw)
    : List.Forall₂ (fun v b => v.integer? = some (byteInteger ti.isSigned b)) vs raw := by
  rcases isInteger_realtype hinteger with ⟨size, hreal, _⟩
  induction h generalizing raw with
  | nil =>
    cases h'
    apply List.Forall₂.nil
  | cons hv _ ih =>
    cases h' with
    | cons hb h' =>
      rw [← canonical_realtype, hreal] at hv
      have ⟨_, _, heq⟩ := hv
      rw [heq] at hb
      constructor
      . apply hb
      . apply ih h'

theorem roundTrips_array {element : TypeInfo} {length : UInt32} {size : Nat}
    (hkind : v.kind = .array) (hlength : v.elements.length = length.toNat)
    (hsize : checkedTypeSize element = .ok size)
    (hone : ∀ a v db, (writeTypedImpl casts levels a element v db).fst = ok
      → RoundTrips db.bigEndian a size (writeTypedImpl casts levels a element v)
          (readTypedImpl casts · levels a element) (Canonical casts element v))
    (h : (writeTypedImpl casts (levels + 1) address (.array element length) v db).fst = ok)
    : RoundTrips db.bigEndian address (size * length.toNat)
        (writeTypedImpl casts (levels + 1) address (.array element length) v)
        (readTypedImpl casts · (levels + 1) address (.array element length))
        (Canonical casts (.array element length) v) := by
  have hcounted := counted_of_writeTypedImpl h
  rw [writeTypedImpl_elements hcounted hkind hlength hsize] at h
  have helements := roundTrips_elements hone v.elements 0 db h
  rw [Nat.mul_zero, Nat.add_zero, hlength] at helements
  cases hbyte : isByteInteger element with
  | false =>
    apply helements.map
    . intro db
      apply writeTypedImpl_elements hcounted hkind hlength hsize
    . intro db
      rw [readTypedImpl_array hcounted hbyte, hsize]
      rfl
    . intro vs hvs
      rw [Canonical, hbyte]
      refine ⟨rfl, hvs⟩
  | true =>
    -- the array is read as a whole; that its elements could be read says what its bytes are
    have ⟨hinteger, hone⟩ := isByteInteger_iff.mp hbyte
    have hsizeOne : size = 1 := by
      have := (checkedTypeSize_eq_ok_iff.mp hsize).left
      rw [hone] at this
      cases this
      rfl
    subst hsizeOne
    rcases helements with ⟨bs, hbs, hstores, hreads⟩
    refine ⟨bs, hbs, ?_, ?_⟩
    . intro db hdb
      rw [writeTypedImpl_elements hcounted hkind hlength hsize]
      apply hstores db hdb
    . intro db hloaded hdb hget
      rcases hreads db hloaded hdb hget with ⟨vs, hread, hvs⟩
      have hbytes := readElements_bytes hbyte hloaded length.toNat 0 vs hread
      rw [Nat.one_mul] at hbs
      rw [hbs] at hget
      rw [Nat.add_zero, hget] at hbytes
      refine ⟨_, readTypedImpl_bytes hloaded hcounted hbyte, ?_⟩
      rw [Canonical, if_pos hbyte, hget]
      refine ⟨bs, hbs, ?_, rfl⟩
      rw [ByteContent, hkind]
      apply forall₂_integer? hinteger hvs hbytes

theorem roundTrips_of_isScalar (ti : TypeInfo) {size : Nat} (hti : ti.IsScalar)
    (hsize : ti.getSize = some size)
    (h : (writeTypedImpl casts (levels + 1) address ti v db).fst = ok)
    : RoundTrips db.bigEndian address size (writeTypedImpl casts (levels + 1) address ti v)
        (readTypedImpl casts · (levels + 1) address ti) (Canonical casts ti v) := by
  rw [writeTypedImpl_scalar hti] at h
  cases hchecked : checkedTypeSize ti with
  | error e =>
    rw [hchecked] at h
    cases h
  | ok n =>
    have heq := (checkedTypeSize_eq_ok_iff.mp hchecked).left
    rw [hsize] at heq
    cases heq
    rw [hchecked] at h
    apply (roundTrips_scalar hti hsize h).congr
    . intro db
      rw [writeTypedImpl_scalar hti, hchecked]
    . intro db
      rw [readTypedImpl_scalar hti, hchecked]
      rfl
    . intro _ hv
      apply hv

theorem roundTrips_typed (levels address size : Nat) (ti : TypeInfo) (v : TypedValue) (db : Database)
    (hsize : ti.getSize = some size) (h : (writeTypedImpl casts levels address ti v db).fst = ok)
    : RoundTrips db.bigEndian address size (writeTypedImpl casts levels address ti v)
        (readTypedImpl casts · levels address ti) (Canonical casts ti v) := by
  induction levels generalizing address size ti v db with
  | zero => cases h
  | succ levels ih =>
    suffices hreal : RoundTrips db.bigEndian address size
        (writeTypedImpl casts (levels + 1) address ti.realtype v)
        (readTypedImpl casts · (levels + 1) address ti.realtype) (Canonical casts ti.realtype v) by
      apply hreal.congr
      . intro db
        apply (writeTypedImpl_realtype ti v).symm
      . intro db
        apply (readTypedImpl_realtype ti).symm
      . intro v'
        apply (canonical_realtype ti v v').mp
    rw [← writeTypedImpl_realtype] at h
    rw [← TypeInfo.getSize_realtype] at hsize
    have htypedef := ti.realtype_ne_typedef
    generalize ti.realtype = t at h hsize htypedef
    cases t with
    | typedef target => exact absurd rfl (htypedef target)
    | unresolved name => cases hsize
    | unsized => cases hsize
    | integer n signed => apply roundTrips_of_isScalar (.integer n signed) trivial hsize h
    | enum n signed => apply roundTrips_of_isScalar (.enum n signed) trivial hsize h
    | pointer n => apply roundTrips_of_isScalar (.pointer n) trivial hsize h
    | floatingPoint n => apply roundTrips_of_isScalar (.floatingPoint n) trivial hsize h
    | udt n => apply roundTrips_of_isScalar (.udt n) trivial hsize h
    | array element length =>
      rcases TypeInfo.getSize_array hsize with ⟨elementSize, helement, hsize⟩
      rw [hsize]
      by_cases hcase : isByteInteger element = true ∧ (v.kind = .bytes ∨ v.kind = .string)
      . have hone := (isByteInteger_iff.mp hcase.left).right
        rw [helement] at hone
        cases hone
        rw [Nat.one_mul]
        apply roundTrips_bytes hcase.left hcase.right h
      . rcases elements_of_writeTypedImpl hcase h with ⟨hkind, hlength, n, hchecked⟩
        have heq := (checkedTypeSize_eq_ok_iff.mp hchecked).left
        rw [helement] at heq
        cases heq
        apply roundTrips_array hkind hlength hchecked _ h
        intro a v db
        apply ih a elementSize element v db helement

end Arrays

/--
After a successful write the value is read back in canonical form, and no byte outside of the object
has changed.
-/
theorem readTyped_writeTyped {casts : FloatCasts} {db db' : Database} {ti : TypeInfo}
    {address size : Nat} {v : TypedValue} (hdb : db.FullyLoaded) (hsize : ti.getSize = some size)
    (hwrite : writeTyped casts db address ti v = (ok, db'))
    : (∃ v', readTyped casts db' address ti = .ok v' ∧ Canonical casts ti v v')
        ∧ ∀ x, x < address ∨ address + size ≤ x → db'.byte x = db.byte x := by
  have hstatus : (writeTyped casts db address ti v).fst = ok := by rw [hwrite]
  rcases roundTrips_typed (kMaxTypedDepth + 1) address size ti v db hsize hstatus
    with ⟨bs, hlength, hstores, hreads⟩
  rw [writeTyped, hstores db rfl] at hwrite
  cases hwrite
  constructor
  . apply hreads (db.put address bs) (hdb.put address bs) rfl
    apply ByteMap.get_put
  . intro x hx
    apply ByteMap.put_outside
    rw [hlength]
    apply hx

section Example

def zeroedDatabase : Database :=
  { byte := fun _ => 0, loaded := fun _ => true, bigEndian := false }

def keepCasts : FloatCasts :=
  { toDouble := fun x => x.toUInt64, toFloat := fun x => x.toUInt32 }

def shortMatrix : TypeInfo :=
  .array (.array (.integer 2 true) 2) 2

def shortMatrixValue : TypedValue :=
  { kind := .array
    elements :=
      [ { kind := .array
          elements :=
            [ { kind := .signedInteger, signedValue := -1 }
            , { kind := .unsignedInteger, unsignedValue := 300 } ] }
      , { kind := .array
          elements :=
            [ { kind := .signedInteger, signedValue := -32768 }
            , { kind := .signedInteger, signedValue := 7 } ] } ] }

theorem readTyped_writeTyped_shortMatrix
    : (∃ v', readTyped keepCasts
          (writeTyped keepCasts zeroedDatabase 0x1000 shortMatrix shortMatrixValue).snd 0x1000
          shortMatrix = .ok v' ∧ Canonical keepCasts shortMatrix shortMatrixValue v')
        ∧ ∀ x, x < 0x1000 ∨ 0x1000 + 8 ≤ x →
            (writeTyped keepCasts zeroedDatabase 0x1000 shortMatrix shortMatrixValue).snd.byte x
              = zeroedDatabase.byte x := by
  apply readTyped_writeTyped
  . intro ea
    rfl
  . rfl
  . rfl

end Example

end Data
end Idax
