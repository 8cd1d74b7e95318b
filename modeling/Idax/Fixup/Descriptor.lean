import Mathlib.Algebra.Group.Nat.Defs
import Mathlib.Logic.Function.Basic
import Idax.Error

/-!
This module contains fixup descriptors: how `at` reads one from the database and `set` writes one.
-/

namespace Idax
namespace Fixup

abbrev FixupType := BitVec 16

def FIXUP_OFF16 : FixupType := 1
def FIXUP_SEG16 : FixupType := 2
def FIXUP_PTR16 : FixupType := 3
def FIXUP_OFF32 : FixupType := 4
def FIXUP_PTR32 : FixupType := 5
def FIXUP_HI8 : FixupType := 6
def FIXUP_HI16 : FixupType := 7
def FIXUP_LOW8 : FixupType := 8
def FIXUP_LOW16 : FixupType := 9
def FIXUP_OFF64 : FixupType := 12
def FIXUP_OFF8 : FixupType := 13
def FIXUP_OFF8S : FixupType := 14
def FIXUP_OFF16S : FixupType := 15
def FIXUP_OFF32S : FixupType := 16
def FIXUP_CUSTOM : FixupType := 0x8000

def FIXUPF_REL : BitVec 32 := 1

inductive FixupKind where
  | off8
  | off16
  | seg16
  | ptr16
  | off32
  | ptr32
  | hi8
  | hi16
  | low8
  | low16
  | off64
  | off8Signed
  | off16Signed
  | off32Signed
  | custom
  deriving DecidableEq, Repr

def mapFixupType (ft : FixupType) : FixupKind :=
  if ft = FIXUP_OFF8 then .off8
  else if ft = FIXUP_OFF16 then .off16
  else if ft = FIXUP_SEG16 then .seg16
  else if ft = FIXUP_PTR16 then .ptr16
  else if ft = FIXUP_OFF32 then .off32
  else if ft = FIXUP_PTR32 then .ptr32
  else if ft = FIXUP_OFF64 then .off64
  else if ft = FIXUP_HI8 then .hi8
  else if ft = FIXUP_HI16 then .hi16
  else if ft = FIXUP_LOW8 then .low8
  else if ft = FIXUP_LOW16 then .low16
  else if ft = FIXUP_OFF8S then .off8Signed
  else if ft = FIXUP_OFF16S then .off16Signed
  else if ft = FIXUP_OFF32S then .off32Signed
  else if ft = FIXUP_CUSTOM then .custom
  else .off32

def unmapFixupType : FixupKind → FixupType
  | .off8 => FIXUP_OFF8
  | .off16 => FIXUP_OFF16
  | .seg16 => FIXUP_SEG16
  | .ptr16 => FIXUP_PTR16
  | .off32 => FIXUP_OFF32
  | .ptr32 => FIXUP_PTR32
  | .hi8 => FIXUP_HI8
  | .hi16 => FIXUP_HI16
  | .low8 => FIXUP_LOW8
  | .low16 => FIXUP_LOW16
  | .off64 => FIXUP_OFF64
  | .off8Signed => FIXUP_OFF8S
  | .off16Signed => FIXUP_OFF16S
  | .off32Signed => FIXUP_OFF32S
  | .custom => FIXUP_CUSTOM

/--
`fixup_data_t`. Its base is reached through `get_base` and `set_base` only.
-/
structure FixupData where
  type : FixupType := 0
  flags : BitVec 32 := 0
  base : BitVec 64 := 0
  sel : BitVec 64 := 0
  off : BitVec 64 := 0
  displacement : BitVec 64 := 0
  deriving DecidableEq, Repr

def FixupData.isRel (fd : FixupData) : Prop :=
  fd.flags &&& FIXUPF_REL ≠ 0

instance (fd : FixupData) : Decidable fd.isRel :=
  inferInstanceAs (Decidable (_ ≠ _))

structure Descriptor where
  source : Nat
  type : FixupKind := .off32
  flags : BitVec 32 := 0
  base : BitVec 64 := 0
  target : BitVec 64 := 0
  selector : BitVec 16 := 0
  offset : BitVec 64 := 0
  displacement : BitVec 64 := 0
  deriving DecidableEq, Repr

structure Sdk where
  getBase : FixupData → BitVec 64
  setBase : FixupData → BitVec 64 → FixupData

/--
What the kernel promises: a relative fixup is relative to the base that was set, any other one to the
start of the segment with its selector.
-/
structure Sdk.Documented (sdk : Sdk) : Prop where
  getBase_of_rel : ∀ fd : FixupData, fd.isRel → sdk.getBase fd = fd.base
  getBase_of_sel : ∀ fd fd' : FixupData, ¬fd.isRel → ¬fd'.isRel → fd.sel = fd'.sel →
    sdk.getBase fd = sdk.getBase fd'
  setBase_base : ∀ fd base, (sdk.setBase fd base).base = base
  setBase_type : ∀ fd base, (sdk.setBase fd base).type = fd.type
  setBase_flags : ∀ fd base, fd.isRel → (sdk.setBase fd base).flags = fd.flags
  setBase_sel : ∀ fd base, (sdk.setBase fd base).sel = fd.sel
  setBase_displacement : ∀ fd base, (sdk.setBase fd base).displacement = fd.displacement

structure Database where
  fixups : Nat → Option FixupData

namespace Database

def getFixup (db : Database) (source : Nat) : Option FixupData :=
  db.fixups source

def setFixup (db : Database) (source : Nat) (fd : FixupData) : Database :=
  { db with fixups := Function.update db.fixups source (some fd) }

def delFixup (db : Database) (source : Nat) : Database :=
  { db with fixups := Function.update db.fixups source none }

end Database

variable (sdk : Sdk)

def makeDescriptor (source : Nat) (fd : FixupData) : Descriptor :=
  { source
    type := mapFixupType fd.type
    flags := fd.flags
    base := sdk.getBase fd
    target := sdk.getBase fd + fd.off
    selector := fd.sel.setWidth 16
    offset := fd.off
    displacement := fd.displacement }

def «at» (db : Database) (source : Nat) : Result Descriptor :=
  match db.getFixup source with
  | none => .error (.notFound "No fixup at address" (toString source))
  | some fd => .ok (makeDescriptor sdk source fd)

def fixupData (fixup : Descriptor) : FixupData :=
  let fd : FixupData :=
    { type := unmapFixupType fixup.type
      flags := fixup.flags
      sel := fixup.selector.setWidth 64
      off := fixup.offset
      displacement := fixup.displacement }
  if fixup.flags &&& FIXUPF_REL ≠ 0 ∧ fixup.base ≠ 0 then
    sdk.setBase fd fixup.base
  else
    fd

def set (db : Database) (source : Nat) (fixup : Descriptor) : Status × Database :=
  (ok, db.setFixup source (fixupData sdk fixup))

def remove (db : Database) (source : Nat) : Status × Database :=
  (ok, db.delFixup source)

def «exists» (db : Database) (source : Nat) : Bool :=
  (db.getFixup source).isSome

end Fixup
end Idax
