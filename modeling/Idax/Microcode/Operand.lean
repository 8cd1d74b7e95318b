import Mathlib.Data.UInt
import Idax.Address
import Idax.Library.CString

/-!
This module contains the typed microcode operands and instructions of `ida::decompiler` and those of
the SDK that they are built into, `mop_t` and `minsn_t`. Both are trees, since an operand may hold
an instruction.
-/

namespace Idax
namespace Microcode

section Typed

inductive MicrocodeOpcode where
  | noOperation
  | move
  | add
  | subtract
  | multiply
  | zeroExtend
  | loadMemory
  | storeMemory
  | bitwiseOr
  | bitwiseAnd
  | bitwiseXor
  | shiftLeft
  | shiftRightLogical
  | shiftRightArithmetic
  | floatAdd
  | floatSub
  | floatMul
  | floatDiv
  | integerToFloat
  | floatToFloat
  deriving DecidableEq, Repr

inductive MicrocodeOperandKind where
  | empty
  | register
  | localVariable
  | registerPair
  | globalAddress
  | stackVariable
  | helperReference
  | blockReference
  | nestedInstruction
  | unsignedImmediate
  | signedImmediate
  deriving DecidableEq, Repr

/--
The fields of an operand other than `nested_instruction`. The name of a helper is given by its bytes.
-/
structure OperandFields where
  kind : MicrocodeOperandKind := .empty
  registerId : Int := 0
  localVariableIndex : Int := 0
  localVariableOffset : Int64 := 0
  secondRegisterId : Int := 0
  globalAddress : Address := badAddress
  stackOffset : Int64 := 0
  helperName : List UInt8 := []
  blockIndex : Int := 0
  unsignedImmediate : UInt64 := 0
  signedImmediate : Int64 := 0
  byteWidth : Int := 0
  markUserDefinedType : Bool := false

mutual

inductive MicrocodeOperand where
  | plain (fields : OperandFields)
  | nesting (fields : OperandFields) (nestedInstruction : MicrocodeInstruction)

inductive MicrocodeInstruction where
  | mk (opcode : MicrocodeOpcode) (left right destination : MicrocodeOperand)
    (floatingPointInstruction : Bool)

end

def MicrocodeOperand.fields : MicrocodeOperand → OperandFields
  | .plain fields => fields
  | .nesting fields _ => fields

def MicrocodeOperand.isEmpty (operand : MicrocodeOperand) : Bool :=
  operand.fields.kind = .empty

end Typed

section Sdk

inductive Mcode where
  | nop
  | mov
  | add
  | sub
  | mul
  | xdu
  | ldx
  | stx
  | or
  | and
  | xor
  | shl
  | shr
  | sar
  | fadd
  | fsub
  | fmul
  | fdiv
  | i2f
  | f2f
  | other (op : Int)
  deriving DecidableEq, Repr

structure Mnumber where
  value : UInt64
  ea : Address
  opnum : Int

structure StkvarRef (μ : Type) where
  mba : μ
  off : Int64

structure LvarRef (μ : Type) where
  mba : μ
  idx : Int
  off : Int64

inductive MopLeaf (μ : Type) where
  | z
  | r (r : Int)
  | n (nnn : Option Mnumber)
  | dNull
  | v (g : Address)
  | b (b : Int)
  | h (helper : Option (List UInt8))
  | S (s : Option (StkvarRef μ))
  | l (l : Option (LvarRef μ))
  | pNull
  | other (t : Nat)

mutual

inductive Mop (μ : Type) where
  | leaf (content : MopLeaf μ) (size : Int) (udt : Bool)
  | d (insn : Minsn μ) (size : Int) (udt : Bool)
  | p (lop hop : Mop μ) (size : Int) (udt : Bool)

inductive Minsn (μ : Type) where
  | mk (opcode : Mcode) (ea : Address) (l r d : Mop μ) (fpinsn : Bool)

end

def noSize : Int := -1

namespace Mop

variable {μ : Type}

def size : Mop μ → Int
  | .leaf _ size _ => size
  | .d _ size _ => size
  | .p _ _ size _ => size

def setSize (size : Int) : Mop μ → Mop μ
  | .leaf content _ udt => .leaf content size udt
  | .d insn _ udt => .d insn size udt
  | .p lop hop _ udt => .p lop hop size udt

def setUdt : Mop μ → Mop μ
  | .leaf content size _ => .leaf content size true
  | .d insn size _ => .d insn size true
  | .p lop hop size _ => .p lop hop size true

def empty : Mop μ :=
  .leaf .z noSize false

def makeReg (reg size : Int) : Mop μ :=
  .leaf (.r reg) size false

def makeLvar (mba : μ) (idx : Int) (off : Int64) : Mop μ :=
  .leaf (.l (some { mba, idx, off })) noSize false

def makeRegPair (loreg hireg halfsize : Int) : Mop μ :=
  .p (makeReg loreg halfsize) (makeReg hireg halfsize) (2 * halfsize) false

def makeGvar (ea : Address) : Mop μ :=
  .leaf (.v ea) noSize false

def makeStkvar (mba : μ) (off : Int64) : Mop μ :=
  .leaf (.S (some { mba, off })) noSize false

/--
The helper's name is a C string and ends before its first NUL.
-/
def makeHelper (name : List UInt8) : Mop μ :=
  .leaf (.h (some (CString.read name))) noSize false

def makeBlkref (blknum : Int) : Mop μ :=
  .leaf (.b blknum) noSize false

def makeNumber (value : UInt64) (size : Int) (ea : Address) (opnum : Int) : Mop μ :=
  .leaf (.n (some { value, ea, opnum })) size false

def createFromInsn : Minsn μ → Mop μ
  | .mk opcode ea left right dest fpinsn =>
    .d (.mk opcode ea left right dest fpinsn) dest.size false

end Mop

end Sdk

end Microcode
end Idax
