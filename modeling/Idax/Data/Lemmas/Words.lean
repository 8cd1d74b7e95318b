import Idax.Data.Typed

/-!
What the readers and writers of one word do, in terms of the bytes of the word.
-/

namespace Idax
namespace Data

def ValidWidth (width : Nat) : Prop :=
  width = 1 ∨ width = 2 ∨ width = 4 ∨ width = 8

def signedWord (width : Nat) (value : Int64) : Nat :=
  (value.toInt % (256 ^ width : Nat)).toNat

def signedOfWord (width word : Nat) : Int64 :=
  Int64.ofInt ((word : Int).bmod (256 ^ width))

theorem signedWord_cast (width : Nat) (value : Int64)
    : (signedWord width value : Int) = value.toInt % (256 ^ width : Nat) := by
  rw [signedWord, Int.toNat_of_nonneg]
  apply Int.emod_nonneg
  have := Nat.pow_pos (n := width) (show 0 < 256 by omega)
  omega

theorem signedWord_lt (width : Nat) (value : Int64) : signedWord width value < 256 ^ width := by
  have hpos := Nat.pow_pos (n := width) (show 0 < 256 by omega)
  have hlt := Int.emod_lt_of_pos value.toInt (Int.natCast_pos.mpr hpos)
  rw [← signedWord_cast] at hlt
  omega

theorem signedOfWord_signedWord {width : Nat} {value : Int64}
    (h : value.toInt.bmod (256 ^ width) = value.toInt)
    : signedOfWord width (signedWord width value) = value := by
  rw [signedOfWord, signedWord_cast, Int.emod_bmod, h]
  apply Int64.ofInt_toInt

theorem toInt_signedOfWord {width : Nat} (hwidth : ValidWidth width) (word : Nat)
    : (signedOfWord width word).toInt = (word : Int).bmod (256 ^ width) := by
  rw [signedOfWord]
  have hlt := Int.bmod_lt (x := word) (Nat.pow_pos (n := width) (show 0 < 256 by omega))
  have hle := Int.le_bmod (x := word) (Nat.pow_pos (n := width) (show 0 < 256 by omega))
  apply Int64.toInt_ofInt_of_le
  . rcases hwidth with rfl | rfl | rfl | rfl <;> omega
  . rcases hwidth with rfl | rfl | rfl | rfl <;> omega

theorem signedWord_signedOfWord {width word : Nat} (hwidth : ValidWidth width)
    (hword : word < 256 ^ width) : signedWord width (signedOfWord width word) = word := by
  rw [signedWord, toInt_signedOfWord hwidth, Int.bmod_emod]
  rw [Int.emod_eq_of_lt] <;> omega

theorem fitsUnsignedWidth_iff (width : Nat) (value : UInt64)
    : fitsUnsignedWidth width value = true ↔ ValidWidth width ∧ value.toNat < 256 ^ width := by
  have := value.toNat_lt
  unfold fitsUnsignedWidth ValidWidth
  split
  . simp
    omega
  . simp
    omega
  . simp
    omega
  . simp
    omega
  . simp_all

theorem fitsSignedWidth_iff (width : Nat) (value : Int64)
    : fitsSignedWidth width value = true
        ↔ ValidWidth width ∧ value.toInt.bmod (256 ^ width) = value.toInt := by
  have := value.le_toInt
  have := value.toInt_lt
  unfold fitsSignedWidth ValidWidth
  split
  . simp [Int.bmod]
    split <;> omega
  . simp [Int.bmod]
    split <;> omega
  . simp [Int.bmod]
    split <;> omega
  . simp
  . simp_all

section Unsigned

variable {db : Database}

theorem readUnsignedFixed_eq (h : db.FullyLoaded) {address width : Nat} (hwidth : ValidWidth width)
    : readUnsignedFixed db address width = .ok (UInt64.ofNat (db.getWord width address)) := by
  have hlt := Word.decode_lt db.bigEndian (db.byte.get address width)
  rw [ByteMap.length_get] at hlt
  rcases hwidth with rfl | rfl | rfl | rfl
  . rw [readUnsignedFixed, Database.readByte, Database.readWidth_eq h]
    apply congrArg Except.ok
    apply UInt64.toNat_inj.mp
    simp [Database.getWord]
    omega
  . rw [readUnsignedFixed, Database.readWord, Database.readWidth_eq h]
    apply congrArg Except.ok
    apply UInt64.toNat_inj.mp
    simp [Database.getWord]
    omega
  . rw [readUnsignedFixed, Database.readDword, Database.readWidth_eq h]
    apply congrArg Except.ok
    apply UInt64.toNat_inj.mp
    simp [Database.getWord]
    omega
  . rw [readUnsignedFixed, Database.readQword, Database.readWidth_eq h]

theorem validWidth_of_readUnsignedFixed {address width : Nat} {value : UInt64}
    (h : readUnsignedFixed db address width = .ok value) : ValidWidth width := by
  unfold readUnsignedFixed at h
  unfold ValidWidth
  split at h
  . omega
  . omega
  . omega
  . omega
  . simp at h

theorem writeUnsignedFixed_of_fits {width : Nat} {value : UInt64}
    (h : fitsUnsignedWidth width value = true) (db : Database) (address : Nat)
    : writeUnsignedFixed db address width value = (ok, db.putWord width address value.toNat) := by
  have ⟨hwidth, hlt⟩ := (fitsUnsignedWidth_iff width value).mp h
  unfold writeUnsignedFixed
  simp only [h, Bool.not_true, Bool.false_eq_true, ↓reduceIte]
  rcases hwidth with rfl | rfl | rfl | rfl
  . show db.writeByte address value.toUInt8 = _
    rw [Database.writeByte, UInt64.toNat_toUInt8, Nat.mod_eq_of_lt (by omega)]
  . show db.writeWord address value.toUInt16 = _
    rw [Database.writeWord, UInt64.toNat_toUInt16, Nat.mod_eq_of_lt (by omega)]
  . show db.writeDword address value.toUInt32 = _
    rw [Database.writeDword, UInt64.toNat_toUInt32, Nat.mod_eq_of_lt (by omega)]
  . rfl

theorem writeUnsignedFixed_of_not_fits {width : Nat} {value : UInt64}
    (h : fitsUnsignedWidth width value = false) (db : Database) (address : Nat)
    : writeUnsignedFixed db address width value
        = (.error (.validation "Unsigned value does not fit target width"
            (toString value ++ " for width=" ++ toString width)), db) := by
  unfold writeUnsignedFixed
  simp [h]

end Unsigned

section Signed

variable {db : Database}

theorem toNat_eq_toInt_emod {width : Nat} (x : BitVec width)
    : (x.toNat : Int) = x.toInt % (2 ^ width : Nat) := by
  rw [BitVec.toInt_eq_toNat_bmod, Int.bmod_emod, ← Int.natCast_emod]
  rw [Nat.mod_eq_of_lt x.isLt]

theorem writeSignedFixed_of_fits {width : Nat} {value : Int64}
    (h : fitsSignedWidth width value = true) (db : Database) (address : Nat)
    : writeSignedFixed db address width value
        = (ok, db.putWord width address (signedWord width value)) := by
  have ⟨hwidth, _⟩ := (fitsSignedWidth_iff width value).mp h
  unfold writeSignedFixed
  simp only [h, Bool.not_true, Bool.false_eq_true, ↓reduceIte]
  rcases hwidth with rfl | rfl | rfl | rfl
  . have := toNat_eq_toInt_emod value.toInt8.toBitVec
    rw [show value.toInt8.toBitVec.toInt = value.toInt8.toInt from rfl] at this
    rw [Int64.toInt_toInt8, Int.bmod_emod] at this
    show db.writeByte address value.toInt8.toUInt8 = _
    rw [Database.writeByte, signedWord, ← Int8.toNat_toBitVec]
    congr 2
  . have := toNat_eq_toInt_emod value.toInt16.toBitVec
    rw [show value.toInt16.toBitVec.toInt = value.toInt16.toInt from rfl] at this
    rw [Int64.toInt_toInt16, Int.bmod_emod] at this
    show db.writeWord address value.toInt16.toUInt16 = _
    rw [Database.writeWord, signedWord, ← Int16.toNat_toBitVec]
    congr 2
  . have := toNat_eq_toInt_emod value.toInt32.toBitVec
    rw [show value.toInt32.toBitVec.toInt = value.toInt32.toInt from rfl] at this
    rw [Int64.toInt_toInt32, Int.bmod_emod] at this
    show db.writeDword address value.toInt32.toUInt32 = _
    rw [Database.writeDword, signedWord, ← Int32.toNat_toBitVec]
    congr 2
  . have := toNat_eq_toInt_emod value.toBitVec
    rw [show value.toBitVec.toInt = value.toInt from rfl] at this
    show db.writeQword address value.toUInt64 = _
    rw [Database.writeQword, signedWord, ← Int64.toNat_toBitVec]
    congr 2
    omega

theorem writeSignedFixed_of_not_fits {width : Nat} {value : Int64}
    (h : fitsSignedWidth width value = false) (db : Database) (address : Nat)
    : writeSignedFixed db address width value
        = (.error (.validation "Signed value does not fit target width"
            (toString value ++ " for width=" ++ toString width)), db) := by
  unfold writeSignedFixed
  simp [h]

theorem readSignedFixed_eq (h : db.FullyLoaded) {address width : Nat} (hwidth : ValidWidth width)
    : readSignedFixed db address width
        = .ok (signedOfWord width (db.getWord width address)) := by
  have hlt := Word.decode_lt db.bigEndian (db.byte.get address width)
  rw [ByteMap.length_get] at hlt
  rw [show Word.decode db.bigEndian (db.byte.get address width) = db.getWord width address
    from rfl] at hlt
  have hword := toInt_signedOfWord hwidth (db.getWord width address)
  rw [readSignedFixed, readUnsignedFixed_eq h hwidth]
  generalize db.getWord width address = n at hlt hword
  rcases hwidth with rfl | rfl | rfl | rfl
  . apply congrArg Except.ok
    apply Int64.toInt_inj.mp
    rw [hword, Int8.toInt_toInt64]
    rw [show ∀ x : UInt8, x.toInt8.toInt = x.toBitVec.toInt from fun _ => rfl]
    rw [BitVec.toInt_eq_toNat_bmod, UInt8.toNat_toBitVec, UInt64.toNat_toUInt8, UInt64.toNat_ofNat']
    rw [show n % 2 ^ 64 % 2 ^ 8 = n by omega]
    simp
  . apply congrArg Except.ok
    apply Int64.toInt_inj.mp
    rw [hword, Int16.toInt_toInt64]
    rw [show ∀ x : UInt16, x.toInt16.toInt = x.toBitVec.toInt from fun _ => rfl]
    rw [BitVec.toInt_eq_toNat_bmod, UInt16.toNat_toBitVec, UInt64.toNat_toUInt16, UInt64.toNat_ofNat']
    rw [show n % 2 ^ 64 % 2 ^ 16 = n by omega]
    simp
  . apply congrArg Except.ok
    apply Int64.toInt_inj.mp
    rw [hword, Int32.toInt_toInt64]
    rw [show ∀ x : UInt32, x.toInt32.toInt = x.toBitVec.toInt from fun _ => rfl]
    rw [BitVec.toInt_eq_toNat_bmod, UInt32.toNat_toBitVec, UInt64.toNat_toUInt32, UInt64.toNat_ofNat']
    rw [show n % 2 ^ 64 % 2 ^ 32 = n by omega]
    simp
  . apply congrArg Except.ok
    apply Int64.toInt_inj.mp
    rw [hword]
    rw [show ∀ x : UInt64, x.toInt64.toInt = x.toBitVec.toInt from fun _ => rfl]
    rw [BitVec.toInt_eq_toNat_bmod, UInt64.toNat_toBitVec, UInt64.toNat_ofNat']
    rw [show n % 2 ^ 64 = n by omega]
    simp

end Signed

end Data
end Idax
