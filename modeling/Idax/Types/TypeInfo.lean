import Idax.Address
import Idax.Error
import Idax.Library.Pimpl

/-!
This module contains the class `TypeInfo` of `ida::type`: its constructors and assignments, and the
operations on its objects. An object is a pointer to an implementation, which is null after the object
was moved from.
-/

namespace Idax
namespace Types
namespace TypeInfo

open Pimpl Pimpl.Prog

inductive CallingConvention where
  | unknown
  | cdecl
  | stdcall
  | pascal
  | fastcall
  | thiscall
  | swift
  | golang
  | userDefined
  deriving DecidableEq, Repr

inductive Callcnv where
  | unknown
  | cdecl
  | ellipsis
  | stdcall
  | pascal
  | fastcall
  | thiscall
  | swift
  | golang
  | gostk
  | special
  | speciale
  | specialp
  | other (cc : Nat)
  deriving DecidableEq, Repr

structure EnumMember where
  name : String
  value : UInt64 := 0
  comment : String
  deriving DecidableEq, Repr

structure UdmT (Ti : Type) where
  name : String
  type : Ti
  offset : UInt64
  size : UInt64
  cmt : String

structure Member where
  name : String
  type : Nat
  byteOffset : UInt64
  bitSize : UInt64
  comment : String
  deriving DecidableEq, Repr

inductive TilRef (Ti : Type) where
  | ofType (ti : Ti)
  | idati
  | null

/--
The operations on `tinfo_t`. Where one can fail it has no result, or the text of the error.
-/
structure TinfoSdk (Ti : Type) where
  empty : Ti
  createSimpleType : Nat → Ti
  createPtr : Ti → Ti
  createArray : Ti → UInt32 → Ti
  createFunc : (rettype : Ti) → (cc : Callcnv) → (args : List Ti) → Option Ti
  setNbytes : UInt64 → Bool
  createEnum : (bitmask : Bool) → (nbytes : UInt64) → List EnumMember → Option Ti
  createUdt : (isUnion : Bool) → Ti
  parseDecl : String → Option Ti
  getNamedType : TilRef Ti → String → Option Ti
  isVoid : Ti → Bool
  isIntegral : Ti → Bool
  isFloating : Ti → Bool
  isPtr : Ti → Bool
  isArray : Ti → Bool
  isFunc : Ti → Bool
  isStruct : Ti → Bool
  isUnion : Ti → Bool
  isEnum : Ti → Bool
  isTypedef : Ti → Bool
  present : Ti → Bool
  getSize : Ti → Option Nat
  print : Ti → Option String
  getPointedObject : Ti → Ti
  getArrayElement : Ti → Ti
  getArrayNelems : Ti → Int
  getFinalTypeName : Ti → Option String
  getRettype : Ti → Ti
  getFuncDetails : Ti → Option (List Ti)
  getCc : Ti → Callcnv
  isVarargCc : Ti → Bool
  getEnumDetails : Ti → Option (List EnumMember)
  getUdtNmembers : Ti → Int
  getUdtDetails : Ti → Option (List (UdmT Ti))
  findUdmByName : Ti → String → Option (UdmT Ti)
  findUdmByOffset : Ti → UInt64 → Option (UdmT Ti)
  addUdm : Ti → String → Ti → UInt64 → Ti × Option String
  applyTinfo : Address → Ti → Bool
  setNamedType : Ti → String → Ti × Option String

variable {Ti : Type} (sdk : TinfoSdk Ti)

section Lifecycle

def construct : Prog Ti Nat := do
  let ptr ← new sdk.empty
  object ptr

def destroy (this : Nat) : Prog Ti Unit := do
  delete (← impl this)
  endLife this

def copyConstruct (other : Nat) : Prog Ti Nat := do
  let ti ← deref (← impl other)
  let ptr ← new ti
  object ptr

def copyAssign (this other : Nat) : Prog Ti Unit := do
  if this ≠ other then
    delete (← impl this)
    let ti ← deref (← impl other)
    setImpl this (← new ti)

def moveConstruct (other : Nat) : Prog Ti Nat := do
  let this ← object (← impl other)
  setImpl other none
  return this

def moveAssign (this other : Nat) : Prog Ti Unit := do
  if this ≠ other then
    delete (← impl this)
    setImpl this (← impl other)
    setImpl other none

end Lifecycle

section Factories

/--
`TypeInfo result;` and a call on its `tinfo_t` with arguments that are computed then.
-/
def create (arguments : Prog Ti Ti) : Prog Ti Nat := do
  let result ← construct sdk
  let ti ← arguments
  store (← impl result) ti
  return result

/--
`TypeInfo result;` and a call on its `tinfo_t` that may fail. A result that is not returned is destroyed
on the way out.
-/
def tryCreate (ti : Option Ti) (error : Error) : Prog Ti (Result Nat) :=
  match ti with
  | none => return .error error
  | some ti => do return .ok (← create sdk (pure ti))

def fromSimple (bt : Nat) : Prog Ti Nat :=
  create sdk (pure (sdk.createSimpleType bt))

inductive SimpleType where
  | voidType
  | int8
  | int16
  | int32
  | int64
  | uint8
  | uint16
  | uint32
  | uint64
  | float32
  | float64
  deriving DecidableEq, Repr

def SimpleType.code : SimpleType → Nat
  | voidType => 0x01
  | int8 => 0x02
  | int16 => 0x03
  | int32 => 0x04
  | int64 => 0x05
  | uint8 => 0x22
  | uint16 => 0x23
  | uint32 => 0x24
  | uint64 => 0x25
  | float32 => 0x09
  | float64 => 0x19

def simple (type : SimpleType) : Prog Ti Nat :=
  fromSimple sdk type.code

def pointerTo (target : Nat) : Prog Ti Nat :=
  create sdk do
    let ti ← deref (← impl target)
    return sdk.createPtr ti

def arrayOf (element : Nat) (count : UInt64) : Prog Ti Nat :=
  create sdk do
    let ti ← deref (← impl element)
    return sdk.createArray ti count.toUInt32

def toSdkCallingConvention (cc : CallingConvention) (hasVarargs : Bool) : Callcnv :=
  let sdk : Callcnv :=
    match cc with
    | .unknown => .unknown
    | .cdecl => .cdecl
    | .stdcall => .stdcall
    | .pascal => .pascal
    | .fastcall => .fastcall
    | .thiscall => .thiscall
    | .swift => .swift
    | .golang => .golang
    | .userDefined => .special
  if hasVarargs then
    if sdk = .unknown ∨ sdk = .cdecl then
      .ellipsis
    else if sdk = .special then
      .speciale
    else
      sdk
  else
    sdk

def fromSdkCallingConvention : Callcnv → CallingConvention
  | .cdecl | .ellipsis => .cdecl
  | .stdcall => .stdcall
  | .pascal => .pascal
  | .fastcall => .fastcall
  | .thiscall => .thiscall
  | .swift => .swift
  | .golang | .gostk => .golang
  | .special | .speciale | .specialp => .userDefined
  | _ => .unknown

def argumentTinfos : (argumentTypes : List Nat) → Prog Ti (Result (List Ti))
  | [] => return .ok []
  | argumentType :: argumentTypes => do
    match ← impl argumentType with
    | none => return .error (.internal "Argument type has null implementation")
    | some p =>
      let ti ← deref (some p)
      match ← argumentTinfos argumentTypes with
      | .error e => return .error e
      | .ok tis => return .ok (ti :: tis)

def functionType (returnType : Nat) (argumentTypes : List Nat) (callingConvention : CallingConvention)
    (hasVarargs : Bool) : Prog Ti (Result Nat) := do
  match ← impl returnType with
  | none => return .error (.internal "Return type has null implementation")
  | some p =>
    let rettype ← deref (some p)
    match ← argumentTinfos argumentTypes with
    | .error e => return .error e
    | .ok args =>
      let cc := toSdkCallingConvention callingConvention hasVarargs
      tryCreate sdk (sdk.createFunc rettype cc args) (.sdk "Failed to create function type")

def enumType (members : List EnumMember) (byteWidth : UInt64) (bitmask : Bool)
    : Prog Ti (Result Nat) :=
  if byteWidth = 0 ∨ 8 < byteWidth ∨ byteWidth &&& (byteWidth - 1) ≠ 0 then
    return .error (.validation "Enum byte width must be one of 1,2,4,8" (toString byteWidth))
  else if !sdk.setNbytes byteWidth then
    return .error (.validation "Failed to set enum byte width" (toString byteWidth))
  else if members.any (·.name.isEmpty) then
    return .error (.validation "Enum member name cannot be empty")
  else
    tryCreate sdk (sdk.createEnum bitmask byteWidth members) (.sdk "Failed to create enum type")

def fromDeclaration (cDecl : String) : Prog Ti (Result Nat) :=
  let qdecl := if !cDecl.isEmpty && cDecl.toList.getLast? ≠ some ';' then cDecl ++ ";" else cDecl
  tryCreate sdk (sdk.parseDecl qdecl) (.sdk "Failed to parse C declaration" cDecl)

def createStruct : Prog Ti Nat :=
  create sdk (pure (sdk.createUdt false))

def createUnion : Prog Ti Nat :=
  create sdk (pure (sdk.createUdt true))

def byName (name : String) : Prog Ti (Result Nat) :=
  tryCreate sdk (sdk.getNamedType .idati name)
    (.notFound "Type not found in local type library" name)

end Factories

section Guards

def nullImpl : Error :=
  .internal "TypeInfo has null impl"

def guarded (this : Nat) (body : (impl : Nat) → (ti : Ti) → Prog Ti (Result α))
    : Prog Ti (Result α) := do
  match ← impl this with
  | none => return .error nullImpl
  | some p =>
    let ti ← deref (some p)
    body p ti

def query (test : Ti → Bool) (this : Nat) : Prog Ti Bool := do
  match ← impl this with
  | none => return false
  | some p =>
    let ti ← deref (some p)
    return test ti

end Guards

section Introspection

variable (this : Nat)

def isVoid : Prog Ti Bool := query sdk.isVoid this

def isInteger : Prog Ti Bool := query sdk.isIntegral this

def isFloatingPoint : Prog Ti Bool := query sdk.isFloating this

def isPointer : Prog Ti Bool := query sdk.isPtr this

def isArray : Prog Ti Bool := query sdk.isArray this

def isFunction : Prog Ti Bool := query sdk.isFunc this

def isStruct : Prog Ti Bool := query sdk.isStruct this

def isUnion : Prog Ti Bool := query sdk.isUnion this

def isEnum : Prog Ti Bool := query sdk.isEnum this

def isTypedef : Prog Ti Bool := query sdk.isTypedef this

def size : Prog Ti (Result Nat) :=
  guarded this fun _ ti =>
    match sdk.getSize ti with
    | none => return .error (.sdk "Cannot determine type size")
    | some sz => return .ok sz

def toText : Prog Ti (Result String) :=
  guarded this fun _ ti =>
    match sdk.print ti with
    | none => return .error (.sdk "Failed to print type")
    | some buf => return .ok buf

def pointeeType : Prog Ti (Result Nat) :=
  guarded this fun _ ti =>
    if !sdk.isPtr ti then
      return .error (.validation "Type is not a pointer")
    else
      let pointee := sdk.getPointedObject ti
      tryCreate sdk (if sdk.present pointee then some pointee else none)
        (.sdk "Failed to get pointer target type")

def arrayElementType : Prog Ti (Result Nat) :=
  guarded this fun _ ti =>
    if !sdk.isArray ti then
      return .error (.validation "Type is not an array")
    else
      let element := sdk.getArrayElement ti
      tryCreate sdk (if sdk.present element then some element else none)
        (.sdk "Failed to get array element type")

def arrayLength : Prog Ti (Result Nat) :=
  guarded this fun _ ti =>
    if !sdk.isArray ti then
      return .error (.validation "Type is not an array")
    else
      let count := sdk.getArrayNelems ti
      if count < 0 then
        return .error (.sdk "Failed to get array element count")
      else
        return .ok count.toNat

def resolveTypedef : Prog Ti (Result Nat) :=
  guarded this fun _ ti => do
    if !sdk.isTypedef ti then
      return .ok (← create sdk (pure ti))
    else
      match (sdk.getFinalTypeName ti).filter (!·.isEmpty) with
      | none => return .error (.sdk "Failed to resolve typedef chain")
      | some finalName =>
        let resolved := sdk.getNamedType (.ofType ti) finalName
          <|> sdk.getNamedType .idati finalName <|> sdk.getNamedType .null finalName
        match resolved with
        | none => return .error (.notFound "Failed to resolve typedef target" finalName)
        | some resolved =>
          tryCreate sdk (if sdk.present resolved then some resolved else none)
            (.sdk "Resolved typedef target is invalid" finalName)

def asFunctionType (ti : Ti) : Result Ti :=
  if sdk.isFunc ti then
    .ok ti
  else if sdk.isPtr ti && sdk.isFunc (sdk.getPointedObject ti) then
    .ok (sdk.getPointedObject ti)
  else
    .error (.validation "Type is not a function or function pointer")

def withFunctionType (body : Ti → Prog Ti (Result α)) : Prog Ti (Result α) :=
  guarded this fun _ ti =>
    match asFunctionType sdk ti with
    | .error e => return .error e
    | .ok functionType => body functionType

def functionReturnType : Prog Ti (Result Nat) :=
  withFunctionType sdk this fun ti => do
    return .ok (← create sdk (pure (sdk.getRettype ti)))

def wrapAll : List Ti → Prog Ti (List Nat)
  | [] => return []
  | ti :: tis => do
    let wrapped ← create sdk (pure ti)
    return wrapped :: (← wrapAll tis)

def functionArgumentTypes : Prog Ti (Result (List Nat)) :=
  withFunctionType sdk this fun ti =>
    match sdk.getFuncDetails ti with
    | none => return .error (.sdk "Failed to get function details")
    | some arguments => do return .ok (← wrapAll sdk arguments)

def callingConvention : Prog Ti (Result CallingConvention) :=
  withFunctionType sdk this fun ti =>
    return .ok (fromSdkCallingConvention (sdk.getCc ti))

def isVariadicFunction : Prog Ti (Result Bool) :=
  withFunctionType sdk this fun ti =>
    return .ok (sdk.isVarargCc ti)

def enumMembers : Prog Ti (Result (List EnumMember)) :=
  guarded this fun _ ti =>
    if !sdk.isEnum ti then
      return .error (.validation "Type is not an enum")
    else
      match sdk.getEnumDetails ti with
      | none => return .error (.sdk "Failed to get enum details")
      | some members => return .ok members

def isUdt (ti : Ti) : Bool :=
  sdk.isStruct ti || sdk.isUnion ti

def memberCount : Prog Ti (Result Nat) :=
  guarded this fun _ ti =>
    if !isUdt sdk ti then
      return .ok 0
    else
      let n := sdk.getUdtNmembers ti
      if n < 0 then
        return .error (.sdk "Failed to get member count")
      else
        return .ok n.toNat

/--
The `TypeInfo` in which the type is wrapped is moved into the member.
-/
def makeMember (m : UdmT Ti) : Prog Ti Member := do
  let type ← create sdk (pure m.type)
  return { name := m.name, type, byteOffset := m.offset / 8, bitSize := m.size, comment := m.cmt }

def makeMembers : List (UdmT Ti) → Prog Ti (List Member)
  | [] => return []
  | m :: ms => do
    let member ← makeMember sdk m
    return member :: (← makeMembers ms)

def withUdt (body : (impl : Nat) → (ti : Ti) → Prog Ti (Result α)) : Prog Ti (Result α) :=
  guarded this fun p ti =>
    if !isUdt sdk ti then
      return .error (.validation "Type is not a struct or union")
    else
      body p ti

def members : Prog Ti (Result (List Member)) :=
  withUdt sdk this fun _ ti =>
    match sdk.getUdtDetails ti with
    | none => return .error (.sdk "Failed to get UDT details")
    | some udt => do return .ok (← makeMembers sdk udt)

def memberByName (name : String) : Prog Ti (Result Member) :=
  withUdt sdk this fun _ ti =>
    match sdk.findUdmByName ti name with
    | none => return .error (.notFound "Member not found" name)
    | some udm => do return .ok (← makeMember sdk udm)

def memberByOffset (byteOffset : UInt64) : Prog Ti (Result Member) :=
  withUdt sdk this fun _ ti =>
    match sdk.findUdmByOffset ti (byteOffset * 8) with
    | none => return .error (.notFound "No member at offset" (toString byteOffset))
    | some udm => do return .ok (← makeMember sdk udm)

def addMember (name : String) (memberType : Nat) (byteOffset : UInt64) : Prog Ti Status :=
  withUdt sdk this fun p ti => do
    let mtype ← deref (← impl memberType)
    let ⟨ti, error⟩ := sdk.addUdm ti name mtype (byteOffset * 8)
    store (some p) ti
    match error with
    | some text => return .error (.sdk "Failed to add member" (name ++ ": " ++ text))
    | none => return ok

def apply (ea : Address) : Prog Ti Status :=
  guarded this fun _ ti =>
    if !sdk.applyTinfo ea ti then
      return .error (.sdk "apply_tinfo failed" (toString ea))
    else
      return ok

def saveAs (name : String) : Prog Ti Status :=
  guarded this fun p ti => do
    let ⟨ti, error⟩ := sdk.setNamedType ti name
    store (some p) ti
    match error with
    | some text => return .error (.sdk "Failed to save named type" (name ++ ": " ++ text))
    | none => return ok

end Introspection

end TypeInfo
end Types
end Idax
