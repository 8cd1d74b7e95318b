import Idax.Error
import Idax.Microcode.Operand

/-!
This module contains the functions that build SDK instructions from typed ones.
-/

namespace Idax
namespace Microcode

def toSdkOpcode : MicrocodeOpcode → Result Mcode
  | .noOperation => .ok .nop
  | .move => .ok .mov
  | .add => .ok .add
  | .subtract => .ok .sub
  | .multiply => .ok .mul
  | .zeroExtend => .ok .xdu
  | .loadMemory => .ok .ldx
  | .storeMemory => .ok .stx
  | .bitwiseOr => .ok .or
  | .bitwiseAnd => .ok .and
  | .bitwiseXor => .ok .xor
  | .shiftLeft => .ok .shl
  | .shiftRightLogical => .ok .shr
  | .shiftRightArithmetic => .ok .sar
  | .floatAdd => .ok .fadd
  | .floatSub => .ok .fsub
  | .floatMul => .ok .fmul
  | .floatDiv => .ok .fdiv
  | .integerToFloat => .ok .i2f
  | .floatToFloat => .ok .f2f

def kMaxNestedInstructionDepth : Int := 32

variable {μ : Type}

def Mop.withWidth (byteWidth : Int) (mop : Mop μ) : Mop μ :=
  if byteWidth > 0 then mop.setSize byteWidth else mop

/--
The cases of `build_typed_instruction_operand` that look at no nested instruction.
-/
def buildPlainOperand (mba : Option μ) (instructionAddress : Address) (operand : OperandFields)
    (role : String) : Result (Mop μ) :=
  match operand.kind with
  | .empty => .ok .empty
  | .register =>
    if operand.registerId < 0 then
      .error (.validation "Register operand id cannot be negative" role)
    else if operand.byteWidth ≤ 0 then
      .error (.validation "Register operand byte width must be positive" role)
    else
      .ok (.makeReg operand.registerId operand.byteWidth)
  | .localVariable =>
    match mba with
    | none => .error (.internal "Local-variable operand requires microcode context" role)
    | some mba =>
      if operand.localVariableIndex < 0 then
        .error (.validation "Local-variable operand index cannot be negative" role)
      else
        .ok ((Mop.makeLvar mba operand.localVariableIndex operand.localVariableOffset).withWidth
          operand.byteWidth)
  | .registerPair =>
    if operand.registerId < 0 ∨ operand.secondRegisterId < 0 then
      .error (.validation "Register-pair operand ids cannot be negative" role)
    else if operand.byteWidth ≤ 0 ∨ operand.byteWidth.tmod 2 ≠ 0 then
      .error (.validation "Register-pair operand byte width must be a positive even value" role)
    else
      -- Each of the two registers has half of the width.
      .ok (.makeRegPair operand.registerId operand.secondRegisterId (operand.byteWidth.tdiv 2))
  | .globalAddress =>
    if operand.globalAddress = badAddress then
      .error (.validation "Global-address operand cannot use BadAddress" role)
    else
      .ok ((Mop.makeGvar operand.globalAddress).withWidth operand.byteWidth)
  | .stackVariable =>
    match mba with
    | none => .error (.internal "Stack-variable operand requires microcode context" role)
    | some mba => .ok ((Mop.makeStkvar mba operand.stackOffset).withWidth operand.byteWidth)
  | .helperReference =>
    if operand.helperName.isEmpty then
      .error (.validation "Helper-reference operand requires helper_name" role)
    else
      .ok ((Mop.makeHelper operand.helperName).withWidth operand.byteWidth)
  | .blockReference =>
    if operand.blockIndex < 0 then
      .error (.validation "Block-reference operand index cannot be negative" role)
    else
      .ok ((Mop.makeBlkref operand.blockIndex).withWidth operand.byteWidth)
  | .nestedInstruction =>
    .error (.validation "Nested-instruction operand requires nested_instruction payload" role)
  | .unsignedImmediate =>
    if operand.byteWidth ≤ 0 then
      .error (.validation "Immediate operand byte width must be positive" role)
    else
      .ok (.makeNumber operand.unsignedImmediate operand.byteWidth instructionAddress 0)
  | .signedImmediate =>
    if operand.byteWidth ≤ 0 then
      .error (.validation "Immediate operand byte width must be positive" role)
    else
      .ok (.makeNumber operand.signedImmediate.toUInt64 operand.byteWidth instructionAddress 0)

def Mop.markUdt (operand : OperandFields) (mop : Mop μ) : Mop μ :=
  if operand.markUserDefinedType then mop.setUdt else mop

def depthError (role : String) : Error :=
  .validation "Nested instruction depth exceeds limit" role

def loadStoreError (role : String) : Error :=
  .validation
    "Nested load/store memory instructions require non-empty left/right/destination operands" role

mutual

def buildTypedInstructionOperand (mba : Option μ) (instructionAddress : Address)
    : MicrocodeOperand → (role : String) → (depth : Int) → Result (Mop μ)
  | .plain fields, role, depth =>
    if depth > kMaxNestedInstructionDepth then
      .error (depthError role)
    else do
      let result ← buildPlainOperand mba instructionAddress fields role
      return result.markUdt fields
  | .nesting fields instruction, role, depth =>
    if depth > kMaxNestedInstructionDepth then
      .error (depthError role)
    else if fields.kind = .nestedInstruction then do
      -- The check in there counts this level a second time.
      let nested ← buildTypedNestedInstruction mba instructionAddress instruction role (depth + 1)
      let result := (Mop.createFromInsn nested).withWidth fields.byteWidth
      return result.markUdt fields
    else do
      let result ← buildPlainOperand mba instructionAddress fields role
      return result.markUdt fields

def buildTypedNestedInstruction (mba : Option μ) (instructionAddress : Address)
    : MicrocodeInstruction → (role : String) → (depth : Int) → Result (Minsn μ)
  | .mk opcode left right destination floatingPoint, role, depth =>
    if depth > kMaxNestedInstructionDepth then
      .error (depthError role)
    else do
      let sdkOpcode ← toSdkOpcode opcode
      if (opcode = .loadMemory ∨ opcode = .storeMemory)
          ∧ (left.isEmpty ∨ right.isEmpty ∨ destination.isEmpty) then
        .error (loadStoreError role)
      else
        let l ← buildTypedInstructionOperand mba instructionAddress left (role ++ ":left")
          (depth + 1)
        let r ← buildTypedInstructionOperand mba instructionAddress right (role ++ ":right")
          (depth + 1)
        let d ← buildTypedInstructionOperand mba instructionAddress destination
          (role ++ ":destination") (depth + 1)
        return .mk sdkOpcode instructionAddress l r d floatingPoint

end

end Microcode
end Idax
