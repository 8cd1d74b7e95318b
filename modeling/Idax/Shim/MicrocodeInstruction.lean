import Idax.Microcode.Operand
import Idax.Shim.Text

/-!
This module contains the C structs of microcode operands and instructions, which hold one another.
-/

namespace Idax
namespace Shim

open Microcode
open Ownership

structure IdaxMicrocodeOperandFields where
  kind : Int := 0
  registerId : Int := 0
  localVariableIndex : Int := 0
  localVariableOffset : Int64 := 0
  secondRegisterId : Int := 0
  globalAddress : Address := 0
  stackOffset : Int64 := 0
  helperName : Ptr (List UInt8) := none
  blockIndex : Int := 0
  unsignedImmediate : UInt64 := 0
  signedImmediate : Int64 := 0
  byteWidth : Int := 0
  markUserDefinedType : Int := 0

mutual

inductive IdaxMicrocodeOperand where
  | plain (fields : IdaxMicrocodeOperandFields)
  | nesting (fields : IdaxMicrocodeOperandFields) (address : Nat)
    (nestedInstruction : IdaxMicrocodeInstruction)

inductive IdaxMicrocodeInstruction where
  | mk (opcode : Int) (left right destination : IdaxMicrocodeOperand)
    (floatingPointInstruction : Int)

end

def opcodeNumber : MicrocodeOpcode → Int
  | .noOperation => 0
  | .move => 1
  | .add => 2
  | .subtract => 3
  | .multiply => 4
  | .zeroExtend => 5
  | .loadMemory => 6
  | .storeMemory => 7
  | .bitwiseOr => 8
  | .bitwiseAnd => 9
  | .bitwiseXor => 10
  | .shiftLeft => 11
  | .shiftRightLogical => 12
  | .shiftRightArithmetic => 13
  | .floatAdd => 14
  | .floatSub => 15
  | .floatMul => 16
  | .floatDiv => 17
  | .integerToFloat => 18
  | .floatToFloat => 19

def operandKindNumber : MicrocodeOperandKind → Int
  | .empty => 0
  | .register => 1
  | .localVariable => 2
  | .registerPair => 3
  | .globalAddress => 4
  | .stackVariable => 5
  | .helperReference => 6
  | .blockReference => 7
  | .nestedInstruction => 8
  | .unsignedImmediate => 9
  | .signedImmediate => 10

def flag (value : Bool) : Int :=
  if value then 1 else 0

section Free

mutual

def freeMicrocodeOperand : IdaxMicrocodeOperand → Mem IdaxMicrocodeOperand
  | .plain fields => do
    free fields.helperName.address
    return .plain { fields with helperName := none }
  | .nesting fields address nestedInstruction => do
    free fields.helperName.address
    let _ ← microcodeInstructionFree nestedInstruction
    free (some address)
    return .plain { fields with helperName := none }

def microcodeInstructionFree : IdaxMicrocodeInstruction → Mem IdaxMicrocodeInstruction
  | .mk _ left right destination _ => do
    let left ← freeMicrocodeOperand left
    let right ← freeMicrocodeOperand right
    let destination ← freeMicrocodeOperand destination
    return .mk 0 left right destination 0

end

end Free

section Fill

variable (refused : Nat → Bool)

def operandFields (fields : OperandFields) : IdaxMicrocodeOperandFields :=
  { kind := operandKindNumber fields.kind
    registerId := fields.registerId
    localVariableIndex := fields.localVariableIndex
    localVariableOffset := fields.localVariableOffset
    secondRegisterId := fields.secondRegisterId
    globalAddress := fields.globalAddress
    stackOffset := fields.stackOffset
    blockIndex := fields.blockIndex
    unsignedImmediate := fields.unsignedImmediate
    signedImmediate := fields.signedImmediate
    byteWidth := fields.byteWidth
    markUserDefinedType := flag fields.markUserDefinedType }

/--
The part of `fill_microcode_operand` before the nested instruction.
-/
def fillOperandFields (operand : OperandFields) : Mem (Status × IdaxMicrocodeOperandFields) := do
  let helperName ← dupString refused operand.helperName
  let fields := { operandFields operand with helperName }
  if helperName.isNone && !operand.helperName.isEmpty then
    return (.error mallocFailed, fields)
  else
    return (ok, fields)

mutual

def fillMicrocodeOperand : MicrocodeOperand → Mem (Status × IdaxMicrocodeOperand)
  | .plain operand => do
    let (status, fields) ← fillOperandFields refused operand
    return (status, .plain fields)
  | .nesting operand nestedInstruction => do
    let (status, fields) ← fillOperandFields refused operand
    match status with
    | .error err => return (.error err, .plain fields)
    | .ok _ =>
      let block ← malloc refused
      match block with
      | none =>
        free fields.helperName.address
        return (.error mallocFailed, .plain { fields with helperName := none })
      | some address =>
        let (status, nested) ← fillMicrocodeInstruction nestedInstruction
        match status with
        | .ok _ => return (ok, .nesting fields address nested)
        | .error err =>
          let _ ← microcodeInstructionFree nested
          free (some address)
          free fields.helperName.address
          return (.error err, .plain { fields with helperName := none })

/--
The operands that were filled before one that fails are given back. The struct was zeroed at first.
-/
def fillMicrocodeInstruction : MicrocodeInstruction → Mem (Status × IdaxMicrocodeInstruction)
  | .mk opcode left right destination floatingPointInstruction => do
    let out := IdaxMicrocodeInstruction.mk (opcodeNumber opcode)
    let fp := flag floatingPointInstruction
    let (status, left) ← fillMicrocodeOperand left
    match status with
    | .error err => return (.error err, out left (.plain {}) (.plain {}) fp)
    | .ok _ =>
      let (status, right) ← fillMicrocodeOperand right
      match status with
      | .error err =>
        let left ← freeMicrocodeOperand left
        return (.error err, out left right (.plain {}) fp)
      | .ok _ =>
        let (status, destination) ← fillMicrocodeOperand destination
        match status with
        | .error err =>
          let right ← freeMicrocodeOperand right
          let left ← freeMicrocodeOperand left
          return (.error err, out left right destination fp)
        | .ok _ => return (ok, out left right destination fp)

end

end Fill

section Calls

variable (refused : Nat → Bool)

/--
What `idax_decompiler_microcode_context_instruction_at_index` and `..._last_emitted_instruction` do with
the instruction that they have got.
-/
def fillInstructionOut (instruction : MicrocodeInstruction) : Mem (Status × IdaxMicrocodeInstruction) := do
  let (status, out) ← fillMicrocodeInstruction refused instruction
  match status with
  | .ok _ => return (ok, out)
  | .error err =>
    let out ← microcodeInstructionFree out
    return (.error err, out)

end Calls

end Shim
end Idax
