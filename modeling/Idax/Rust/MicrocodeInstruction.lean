import Idax.Rust.LastError
import Idax.Shim.Lemmas.MicrocodeInstruction

/-!
This module contains how the Rust binding reads microcode instructions.
-/

namespace Idax
namespace Rust

open Microcode
open Ownership
open Shim

def opcodeOf (raw : Int) : MicrocodeOpcode :=
  if raw = 1 then .move
  else if raw = 2 then .add
  else if raw = 3 then .subtract
  else if raw = 4 then .multiply
  else if raw = 5 then .zeroExtend
  else if raw = 6 then .loadMemory
  else if raw = 7 then .storeMemory
  else if raw = 8 then .bitwiseOr
  else if raw = 9 then .bitwiseAnd
  else if raw = 10 then .bitwiseXor
  else if raw = 11 then .shiftLeft
  else if raw = 12 then .shiftRightLogical
  else if raw = 13 then .shiftRightArithmetic
  else if raw = 14 then .floatAdd
  else if raw = 15 then .floatSub
  else if raw = 16 then .floatMul
  else if raw = 17 then .floatDiv
  else if raw = 18 then .integerToFloat
  else if raw = 19 then .floatToFloat
  else .noOperation

def operandKindOf (raw : Int) : MicrocodeOperandKind :=
  if raw = 1 then .register
  else if raw = 2 then .localVariable
  else if raw = 3 then .registerPair
  else if raw = 4 then .globalAddress
  else if raw = 5 then .stackVariable
  else if raw = 6 then .helperReference
  else if raw = 7 then .blockReference
  else if raw = 8 then .nestedInstruction
  else if raw = 9 then .unsignedImmediate
  else if raw = 10 then .signedImmediate
  else .empty

structure OperandFields where
  kind : MicrocodeOperandKind
  registerId : Int
  localVariableIndex : Int
  localVariableOffset : Int64
  secondRegisterId : Int
  globalAddress : Address
  stackOffset : Int64
  helperName : List UInt8
  blockIndex : Int
  unsignedImmediate : UInt64
  signedImmediate : Int64
  byteWidth : Int
  markUserDefinedType : Bool

mutual

inductive MicrocodeOperand where
  | plain (fields : OperandFields)
  | nesting (fields : OperandFields) (nestedInstruction : MicrocodeInstruction)

inductive MicrocodeInstruction where
  | mk (opcode : MicrocodeOpcode) (left right destination : MicrocodeOperand)
    (floatingPointInstruction : Bool)

end

section Convert

def operandFieldsFromFfi (raw : IdaxMicrocodeOperandFields) : Read OperandFields := do
  let helperName ← stringOf raw.helperName
  let fields : OperandFields :=
    { kind := operandKindOf raw.kind
      registerId := raw.registerId
      localVariableIndex := raw.localVariableIndex
      localVariableOffset := raw.localVariableOffset
      secondRegisterId := raw.secondRegisterId
      globalAddress := raw.globalAddress
      stackOffset := raw.stackOffset
      helperName
      blockIndex := raw.blockIndex
      unsignedImmediate := raw.unsignedImmediate
      signedImmediate := raw.signedImmediate
      byteWidth := raw.byteWidth
      markUserDefinedType := raw.markUserDefinedType != 0 }
  return fields

mutual

def microcodeOperandFromFfi : IdaxMicrocodeOperand → Read MicrocodeOperand
  | .plain raw => do
    let fields ← operandFieldsFromFfi raw
    return .plain fields
  | .nesting raw _ nested => do
    let fields ← operandFieldsFromFfi raw
    let nestedInstruction ← microcodeInstructionFromFfi nested
    return .nesting fields nestedInstruction

def microcodeInstructionFromFfi : IdaxMicrocodeInstruction → Read MicrocodeInstruction
  | .mk opcode left right destination floatingPointInstruction => do
    let left ← microcodeOperandFromFfi left
    let right ← microcodeOperandFromFfi right
    let destination ← microcodeOperandFromFfi destination
    return .mk (opcodeOf opcode) left right destination (floatingPointInstruction != 0)

end

end Convert

section Calls

/--
`MicrocodeContext::instruction_at_index` and `last_emitted_instruction`, where the C++ call that the shim
forwards has the outcome `found`.
-/
def instructionFrom (refused : Nat → Bool) (found : Idax.Result Microcode.MicrocodeInstruction)
    (fallbackMsg : String) : Mem (Except ErrorBytes MicrocodeInstruction) :=
  match found with
  | .error err => return .error (consumeLastError (setError (.of err)) fallbackMsg)
  | .ok instruction => do
    let (status, raw) ← fillInstructionOut refused instruction
    match status with
    | .error err => return .error (consumeLastError (setError (.of err)) fallbackMsg)
    | .ok _ =>
      match microcodeInstructionFromFfi raw with
      | none => fault
      | some parsed =>
        let _ ← microcodeInstructionFree raw
        return parsed.mapError .of

end Calls

end Rust
end Idax
