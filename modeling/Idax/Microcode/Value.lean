import Idax.Microcode.Operand

/-!
This module contains the typed arguments and options of helper calls, and what they are built into.
-/

namespace Idax
namespace Microcode

inductive MicrocodeInsertPolicy where
  | tail
  | beginning
  | beforeTail
  deriving DecidableEq, Repr

inductive MicrocodeValueKind where
  | register
  | localVariable
  | registerPair
  | globalAddress
  | stackVariable
  | helperReference
  | blockReference
  | nestedInstruction
  | unsignedImmediate
  | signedImmediate
  | float32Immediate
  | float64Immediate
  | byteArray
  | vector
  | typeDeclarationView
  deriving DecidableEq, Repr

inductive MicrocodeValueLocationKind where
  | unspecified
  | register
  | registerWithOffset
  | registerPair
  | registerRelative
  | stackOffset
  | staticAddress
  | scattered
  deriving DecidableEq, Repr

structure MicrocodeSingleLocation where
  kind : MicrocodeValueLocationKind := .unspecified
  registerId : Int := 0
  secondRegisterId : Int := 0
  registerOffset : Int := 0
  registerRelativeOffset : Int64 := 0
  stackOffset : Int64 := 0
  staticAddress : Address := badAddress

structure MicrocodeLocationPart extends MicrocodeSingleLocation where
  byteOffset : Int := 0
  byteSize : Int := 0

structure MicrocodeValueLocation extends MicrocodeSingleLocation where
  scatteredParts : List MicrocodeLocationPart := []

/--
A `double` is given by its bits, and the name of a helper by its bytes.
-/
structure MicrocodeValue where
  kind : MicrocodeValueKind := .register
  registerId : Int := 0
  localVariableIndex : Int := 0
  localVariableOffset : Int64 := 0
  secondRegisterId : Int := 0
  globalAddress : Address := badAddress
  stackOffset : Int64 := 0
  helperName : List UInt8 := []
  blockIndex : Int := 0
  nestedInstruction : Option MicrocodeInstruction := none
  unsignedImmediate : UInt64 := 0
  signedImmediate : Int64 := 0
  floatingImmediate : UInt64 := 0
  byteWidth : Int32 := 0
  unsignedInteger : Bool := true
  vectorElementByteWidth : Int32 := 0
  vectorElementCount : Int32 := 0
  vectorElementsUnsigned : Bool := true
  vectorElementsFloating : Bool := false
  typeDeclaration : String := ""
  argumentName : String := ""
  argumentFlags : UInt32 := 0
  location : MicrocodeValueLocation := {}

inductive MicrocodeCallingConvention where
  | unspecified
  | cdecl
  | stdcall
  | fastcall
  | thiscall
  deriving DecidableEq, Repr

inductive MicrocodeFunctionRole where
  | unknown
  | empty
  | memset
  | memset32
  | memset64
  | memcpy
  | strcpy
  | strlen
  | strcat
  | tail
  | bug
  | alloca
  | byteSwap
  | present
  | containingRecord
  | fastFail
  | readFlags
  | isMulOk
  | saturatedMul
  | bitTest
  | bitTestAndSet
  | bitTestAndReset
  | bitTestAndComplement
  | vaArg
  | vaCopy
  | vaStart
  | vaEnd
  | rotateLeft
  | rotateRight
  | carryFlagSub3
  | overflowFlagSub3
  | absoluteValue
  | threeWayCompare0
  | threeWayCompare1
  | wideMemCopy
  | wideMemSet
  | wideStrCopy
  | wideStrLen
  | wideStrCat
  | sseCompare4
  | sseCompare8
  deriving DecidableEq, Repr

structure MicrocodeRegisterRange where
  registerId : Int := 0
  byteWidth : Int := 0

structure MicrocodeMemoryRange where
  address : Address := badAddress
  byteSize : UInt64 := 0

structure MicrocodeCallOptions where
  insertPolicy : Option MicrocodeInsertPolicy := none
  calleeAddress : Option Address := none
  solidArgumentCount : Option Int := none
  callStackPointerDelta : Option Int := none
  stackArgumentsTop : Option Int := none
  functionRole : Option MicrocodeFunctionRole := none
  returnLocation : Option MicrocodeValueLocation := none
  returnTypeDeclaration : String := ""
  callingConvention : MicrocodeCallingConvention := .unspecified
  markFinal : Bool := false
  markPropagated : Bool := false
  markDeadReturnRegisters : Bool := false
  markNoReturn : Bool := false
  markPure : Bool := false
  markNoSideEffects : Bool := false
  markSpoiledListsOptimized : Bool := false
  markSyntheticHasCall : Bool := false
  markHasFormatString : Bool := false
  autoStackStartOffset : Option Int64 := none
  autoStackAlignment : Option Int32 := none
  autoStackArgumentLocations : Bool := false
  markExplicitLocations : Bool := false
  returnRegisters : List MicrocodeRegisterRange := []
  spoiledRegisters : List MicrocodeRegisterRange := []
  passthroughRegisters : List MicrocodeRegisterRange := []
  deadRegisters : List MicrocodeRegisterRange := []
  visibleMemoryRanges : List MicrocodeMemoryRange := []
  visibleMemoryAll : Bool := false

section Sdk

inductive BasicType where
  | int8 (unsigned : Bool)
  | int16 (unsigned : Bool)
  | int32 (unsigned : Bool)
  | int64 (unsigned : Bool)
  | float
  | double
  deriving DecidableEq, Repr

def BasicType.size : BasicType → UInt64
  | .int8 _ => 1
  | .int16 _ => 2
  | .int32 _ => 4
  | .int64 _ => 8
  | .float => 4
  | .double => 8

/--
What the SDK says about types `τ` and microcode `μ`. A type of unknown size has the size `BADSIZE`.
-/
structure Sdk (μ τ : Type) where
  parseDecl : String → Option τ
  getSize : τ → UInt64
  basicType : BasicType → τ
  createArray : τ → UInt32 → τ
  varCount : μ → Nat
  toFloat : UInt64 → UInt32
  getSize_basicType : ∀ b, getSize (basicType b) = b.size

def Sdk.ofSizes (parseDecl : String → Option UInt64) : Sdk Unit UInt64 where
  parseDecl := parseDecl
  getSize := id
  basicType := BasicType.size
  createArray := fun elementType count => elementType * count.toUInt64
  varCount := fun _ => 0
  toFloat := fun _ => 0
  getSize_basicType := fun _ => rfl

inductive SingleArgloc where
  | reg1 (reg off : Int)
  | reg2 (lo hi : Int)
  | rrel (reg : Int) (off : Int64)
  | stkoff (off : Int64)
  | ea (ea : Address)
  deriving DecidableEq, Repr

structure Argpart where
  location : SingleArgloc
  off : Int
  size : Int
  deriving DecidableEq, Repr

inductive Argloc where
  | none
  | single (location : SingleArgloc)
  | scattered (parts : List Argpart)
  deriving DecidableEq, Repr

structure Mcallarg (μ τ : Type) where
  mop : Mop μ := .empty
  type : τ
  name : String := ""
  flags : UInt32 := 0
  argloc : Argloc := .none

end Sdk

end Microcode
end Idax
