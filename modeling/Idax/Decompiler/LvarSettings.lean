import Mathlib.Logic.Function.Basic
import Idax.Address
import Idax.Error

/-!
This module contains the user settings of local variables: as the decompiler saves them, as the plain
values they are handed out as, and how such a value is applied.
-/

namespace Idax
namespace Decompiler

inductive Vdloc where
  | none
  | stack (stkoff : BitVec 64)
  | dist (parts : List (BitVec 32 × Nat × Nat))
  | reg1 (reg : BitVec 32)
  | reg2 (low high : BitVec 32)
  | rrel (reg : BitVec 32) (offset : BitVec 64)
  | static (ea : BitVec 64)
  deriving DecidableEq, Repr

structure LvarLocator where
  location : Vdloc := .none
  defea : BitVec 64 := BitVec.ofNat 64 badAddress
  deriving DecidableEq, Repr

/--
A `lvar_saved_info_t`, over the types `τ` of the database. No type is an empty one.
-/
structure LvarSavedInfo (τ : Type) where
  ll : LvarLocator := {}
  name : String := ""
  type : Option τ := none
  cmt : String := ""
  size : Option Nat := none

structure LvarUservec (τ : Type) where
  lvvec : List (LvarSavedInfo τ)
  nodup : (lvvec.map (·.ll)).Nodup

inductive LocalVariableLocationKind where
  | none
  | register
  | stack
  deriving DecidableEq, Repr

structure LocalVariableLocator where
  kind : LocalVariableLocationKind := .none
  registerId : BitVec 32 := 0
  stackOffset : BitVec 64 := 0
  definitionAddress : BitVec 64 := BitVec.ofNat 64 badAddress
  deriving DecidableEq, Repr

structure LocalVariableUserSetting where
  locator : LocalVariableLocator := {}
  name : String := ""
  typeDeclaration : String := ""
  comment : String := ""
  deriving DecidableEq, Repr

def MLI_NAME : BitVec 32 := 1
def MLI_TYPE : BitVec 32 := 2
def MLI_CMT : BitVec 32 := 4

abbrev LvarDatabase (τ : Type) :=
  BitVec 64 → Option (LvarUservec τ)

/--
The decompiler and the type library. A type that cannot be printed has the empty text.
-/
structure HexRays (τ : Type) where
  modifyUserLvarInfo :
    LvarDatabase τ → BitVec 64 → (mliFlags : BitVec 32) → LvarSavedInfo τ → Bool × LvarDatabase τ
  printType : τ → String
  parseDecl : String → Option τ
  getSize : τ → Option Nat

variable {τ : Type}

def makeLocator (ll : LvarLocator) : LocalVariableLocator :=
  match ll.location with
  | .reg1 reg => { kind := .register, registerId := reg, definitionAddress := ll.defea }
  | .stack stkoff => { kind := .stack, stackOffset := stkoff, definitionAddress := ll.defea }
  | _ => { definitionAddress := ll.defea }

variable (sdk : HexRays τ)

def makeLvarUserSetting (info : LvarSavedInfo τ) : LocalVariableUserSetting :=
  { locator := makeLocator info.ll
    name := info.name
    comment := info.cmt
    typeDeclaration :=
      match info.type with
      | some type => sdk.printType type
      | none => "" }

def LocalVariableLocator.ll (locator : LocalVariableLocator) : LvarLocator :=
  { location :=
      match locator.kind with
      | .register => .reg1 locator.registerId
      | .stack => .stack locator.stackOffset
      | .none => .none
    defea := locator.definitionAddress }

def terminated (declaration : String) : String :=
  if declaration.toList.getLast? = some ';' then declaration else declaration ++ ";"

def modifySetting (db : LvarDatabase τ) (functionAddress : BitVec 64) (flags : BitVec 32)
    (info : LvarSavedInfo τ) : Status × LvarDatabase τ :=
  if flags = 0 then
    (ok, db)
  else
    match sdk.modifyUserLvarInfo db functionAddress flags info with
    | (true, db) => (ok, db)
    | (false, db) =>
      (.error (.sdk "modify_user_lvar_info failed" (toString functionAddress.toNat)), db)

def applyUserLvarSetting (db : LvarDatabase τ) (functionAddress : BitVec 64)
    (setting : LocalVariableUserSetting) : Status × LvarDatabase τ :=
  let info : LvarSavedInfo τ :=
    { ll := setting.locator.ll, name := setting.name, cmt := setting.comment }
  let flags := if setting.name = "" then 0 else MLI_NAME
  let flags := if setting.comment = "" then flags else flags ||| MLI_CMT
  if setting.typeDeclaration = "" then
    modifySetting sdk db functionAddress flags info
  else
    match sdk.parseDecl (terminated setting.typeDeclaration) with
    | some parsed =>
      modifySetting sdk db functionAddress (flags ||| MLI_TYPE)
        { info with type := some parsed, size := sdk.getSize parsed }
    | none =>
      if flags = 0 then
        (.error (.sdk "parse_decl failed" setting.typeDeclaration), db)
      else
        -- The name and the comment are applied without the type.
        modifySetting sdk db functionAddress flags info

def savedUserLvarSettings (db : LvarDatabase τ) (functionAddress : BitVec 64)
    : List LocalVariableUserSetting :=
  match db functionAddress with
  | none => []
  | some settings => settings.lvvec.map (makeLvarUserSetting sdk)

def applyUserLvarSettings (db : LvarDatabase τ) (functionAddress : BitVec 64)
    : List LocalVariableUserSetting → Status × LvarDatabase τ
  | [] => (ok, db)
  | setting :: settings =>
    match applyUserLvarSetting sdk db functionAddress setting with
    | (.ok _, db) => applyUserLvarSettings db functionAddress settings
    | (.error e, db) => (.error e, db)

@[ext]
structure LvarAttributes (τ : Type) where
  name : String := ""
  type : Option τ := none
  cmt : String := ""

def LvarSavedInfo.attributes (info : LvarSavedInfo τ) : LvarAttributes τ :=
  { name := info.name, type := info.type, cmt := info.cmt }

def attributes (db : LvarDatabase τ) (functionAddress : BitVec 64) (ll : LvarLocator)
    : LvarAttributes τ :=
  match db functionAddress with
  | none => {}
  | some settings =>
    match settings.lvvec.find? (·.ll = ll) with
    | none => {}
    | some info => info.attributes

def LvarAttributes.modify (old : LvarAttributes τ) (flags : BitVec 32) (info : LvarSavedInfo τ)
    : LvarAttributes τ :=
  { name := if flags &&& MLI_NAME ≠ 0 then info.name else old.name
    type := if flags &&& MLI_TYPE ≠ 0 then info.type else old.type
    cmt := if flags &&& MLI_CMT ≠ 0 then info.cmt else old.cmt }

def MliValid (flags : BitVec 32) : Prop :=
  flags ≠ 0 ∧ flags &&& ~~~(MLI_NAME ||| MLI_TYPE ||| MLI_CMT) = 0

/--
What the decompiler promises about its saved settings, and that types are parsed as they are printed.
-/
structure HexRays.Documented (sdk : HexRays τ) : Prop where
  modify_succeeds : ∀ db ea flags info, MliValid flags →
    (sdk.modifyUserLvarInfo db ea flags info).fst = true
  modify_same : ∀ db ea flags info, MliValid flags →
    attributes (sdk.modifyUserLvarInfo db ea flags info).snd ea info.ll
      = (attributes db ea info.ll).modify flags info
  modify_other : ∀ db ea flags info ll, MliValid flags → ll ≠ info.ll →
    attributes (sdk.modifyUserLvarInfo db ea flags info).snd ea ll = attributes db ea ll
  parse_print : ∀ type, sdk.printType type ≠ "" →
    sdk.parseDecl (terminated (sdk.printType type)) = some type

end Decompiler
end Idax
