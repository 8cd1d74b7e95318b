import Idax.Error
import Idax.Microcode.Operand

/-!
This module contains the functions that read SDK instructions back as typed ones.
-/

namespace Idax
namespace Microcode

def parseSdkOpcode : Mcode → Result MicrocodeOpcode
  | .nop => .ok .noOperation
  | .mov => .ok .move
  | .add => .ok .add
  | .sub => .ok .subtract
  | .mul => .ok .multiply
  | .xdu => .ok .zeroExtend
  | .ldx => .ok .loadMemory
  | .stx => .ok .storeMemory
  | .or => .ok .bitwiseOr
  | .and => .ok .bitwiseAnd
  | .xor => .ok .bitwiseXor
  | .shl => .ok .shiftLeft
  | .shr => .ok .shiftRightLogical
  | .sar => .ok .shiftRightArithmetic
  | .fadd => .ok .floatAdd
  | .fsub => .ok .floatSub
  | .fmul => .ok .floatMul
  | .fdiv => .ok .floatDiv
  | .i2f => .ok .integerToFloat
  | .f2f => .ok .floatToFloat
  | .other op => .error (.unsupported "Unsupported SDK opcode" (toString op))

variable {μ : Type}

/--
The cases of `parse_sdk_operand` that go into no further operand. `result` has the width and the
mark that all of them share.
-/
def parseLeaf (result : OperandFields) : MopLeaf μ → Result OperandFields
  | .z => .ok { result with kind := .empty }
  | .r r => .ok { result with kind := .register, registerId := r }
  | .n none => .ok { result with kind := .unsignedImmediate }
  | .n (some nnn) =>
    .ok { result with kind := .unsignedImmediate, unsignedImmediate := nnn.value }
  | .dNull => .ok { result with kind := .nestedInstruction }
  | .v g => .ok { result with kind := .globalAddress, globalAddress := g }
  | .b b => .ok { result with kind := .blockReference, blockIndex := b }
  | .h none => .ok { result with kind := .helperReference }
  | .h (some helper) => .ok { result with kind := .helperReference, helperName := helper }
  | .S none => .ok { result with kind := .stackVariable }
  | .S (some s) => .ok { result with kind := .stackVariable, stackOffset := s.off }
  | .l none => .ok { result with kind := .localVariable }
  | .l (some l) =>
    .ok {
      result with
      kind := .localVariable, localVariableIndex := l.idx, localVariableOffset := l.off
    }
  | .pNull => .error (.unsupported "Unsupported register pair format")
  | .other t => .error (.unsupported "Unsupported SDK micro-operand type" (toString t))

def Mop.register? : Mop μ → Option Int
  | .leaf (.r r) _ _ => some r
  | _ => none

mutual

def parseSdkOperand : Mop μ → Result MicrocodeOperand
  | .leaf content size udt => do
    let fields ← parseLeaf { byteWidth := size, markUserDefinedType := udt } content
    return .plain fields
  | .d insn size udt => do
    let nested ← parseMinsn insn
    return .nesting
      { kind := .nestedInstruction, byteWidth := size, markUserDefinedType := udt } nested
  | .p lop hop size udt =>
    match lop.register?, hop.register? with
    | some lo, some hi =>
      .ok (.plain {
        kind := .registerPair
        registerId := lo
        secondRegisterId := hi
        byteWidth := size
        markUserDefinedType := udt
      })
    -- Pairs of anything but registers are not read back.
    | _, _ => .error (.unsupported "Unsupported register pair format")

def parseMinsn : Minsn μ → Result MicrocodeInstruction
  | .mk opcode _ l r d fpinsn => do
    let opcode ← parseSdkOpcode opcode
    let left ← parseSdkOperand l
    let right ← parseSdkOperand r
    let destination ← parseSdkOperand d
    return .mk opcode left right destination fpinsn

end

def parseSdkInstruction : Option (Minsn μ) → Result MicrocodeInstruction
  | none => .error (.validation "Null minsn_t")
  | some minsn => parseMinsn minsn

end Microcode
end Idax
