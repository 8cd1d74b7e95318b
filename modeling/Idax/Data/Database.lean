import Mathlib.Data.UInt
import Idax.Address
import Idax.Error
import Idax.Library.ByteMap

/-!
This module contains the bytes of a database and the untyped read and write functions of
`ida::data`.
-/

namespace Idax
namespace Data

structure Database where
  byte : ByteMap
  loaded : Nat → Bool
  bigEndian : Bool

namespace Database

variable (db : Database)

def isLoaded (ea : Nat) : Bool :=
  db.loaded ea

/--
The SDK's `get_byte`, `get_word`, `get_dword` and `get_qword`, by the number of bytes.
-/
def getWord (width ea : Nat) : Nat :=
  Word.decode db.bigEndian (db.byte.get ea width)

def put (ea : Nat) (bytes : List UInt8) : Database :=
  { db with byte := db.byte.put ea bytes }

def putWord (width ea value : Nat) : Database :=
  db.put ea (Word.encode db.bigEndian width value)

/--
The SDK's `get_bytes` stops at the first byte that is not loaded.
-/
def getBytes (ea : Nat) : (count : Nat) → List UInt8
  | 0 => []
  | count + 1 => if db.isLoaded ea then db.byte ea :: getBytes (ea + 1) count else []

def readWidth (width : Nat) (ofNat : Nat → α) (ea : Nat) : Result α :=
  if !db.isLoaded ea then
    .error (.notFound "Address not loaded" (toString ea))
  else
    .ok (ofNat (db.getWord width ea))

def readByte (ea : Nat) : Result UInt8 :=
  db.readWidth 1 UInt8.ofNat ea

def readWord (ea : Nat) : Result UInt16 :=
  db.readWidth 2 UInt16.ofNat ea

def readDword (ea : Nat) : Result UInt32 :=
  db.readWidth 4 UInt32.ofNat ea

def readQword (ea : Nat) : Result UInt64 :=
  db.readWidth 8 UInt64.ofNat ea

def readBytes (ea count : Nat) : Result (List UInt8) :=
  if count = 0 then .ok [] else .ok (db.getBytes ea count)

def writeByte (ea : Nat) (value : UInt8) : Status × Database :=
  (ok, db.putWord 1 ea value.toNat)

def writeWord (ea : Nat) (value : UInt16) : Status × Database :=
  (ok, db.putWord 2 ea value.toNat)

def writeDword (ea : Nat) (value : UInt32) : Status × Database :=
  (ok, db.putWord 4 ea value.toNat)

def writeQword (ea : Nat) (value : UInt64) : Status × Database :=
  (ok, db.putWord 8 ea value.toNat)

def writeBytes (ea : Nat) (bytes : List UInt8) : Status × Database :=
  if bytes.isEmpty then (ok, db) else (ok, db.put ea bytes)

def FullyLoaded : Prop :=
  ∀ ea, db.loaded ea = true

theorem FullyLoaded.put {db : Database} (h : db.FullyLoaded) (ea : Nat) (bytes : List UInt8)
    : (db.put ea bytes).FullyLoaded :=
  h

theorem put_nil (ea : Nat) : db.put ea [] = db :=
  rfl

theorem put_append (ea : Nat) (bs cs : List UInt8)
    : db.put ea (bs ++ cs) = (db.put ea bs).put (ea + bs.length) cs := by
  simp [put, ByteMap.put_append]

theorem put_eq_self_iff (ea : Nat) (bytes : List UInt8)
    : db.put ea bytes = db ↔ db.byte.get ea bytes.length = bytes := by
  rw [← ByteMap.put_eq_self_iff]
  constructor
  . intro h
    have := congrArg Database.byte h
    apply this
  . intro h
    rw [put, h]

theorem writeBytes_eq (ea : Nat) (bytes : List UInt8)
    : db.writeBytes ea bytes = (ok, db.put ea bytes) := by
  unfold writeBytes
  split
  . next h =>
    rw [List.isEmpty_iff] at h
    rw [h, put_nil]
  . rfl

section Loaded

variable {db : Database} (h : db.FullyLoaded)

include h

theorem getBytes_eq (ea count : Nat) : db.getBytes ea count = db.byte.get ea count := by
  induction count generalizing ea with
  | zero => rfl
  | succ count ih =>
    rw [getBytes, isLoaded, h ea, if_pos rfl, ih]
    rfl

theorem readBytes_eq (ea count : Nat) : db.readBytes ea count = .ok (db.byte.get ea count) := by
  unfold readBytes
  split
  . next hzero =>
    rw [hzero]
    rfl
  . rw [getBytes_eq h]

theorem readWidth_eq (width : Nat) (ofNat : Nat → α) (ea : Nat)
    : db.readWidth width ofNat ea = .ok (ofNat (db.getWord width ea)) := by
  simp [readWidth, isLoaded, h ea]

end Loaded

end Database

end Data
end Idax
