import Idax.Library.LinkedNodes
import Idax.Microcode.CallOptions

/-!
This module contains the functions of `MicrocodeContext` that change the block of microcode that is
being emitted.
-/

namespace Idax
namespace Microcode

variable {μ τ : Type}

/--
What stands in a block: what `emit` made of registers or of operands, a helper call, or what somebody
else has put there.
-/
inductive MicroInsn (μ τ : Type) where
  | registers (code : Mcode) (width l r d offsize : Int) (lUdt dUdt fpinsn : Bool)
  | operands (code : Mcode) (l r d : Mop μ) (fpinsn : Bool)
  | call (call : HelperCall μ τ)
  | other (id : Nat)

def MicroInsn.setFpinsn : MicroInsn μ τ → MicroInsn μ τ
  | .registers code width l r d offsize lUdt dUdt _ =>
    .registers code width l r d offsize lUdt dUdt true
  | .operands code l r d _ => .operands code l r d true
  | insn => insn

abbrev Mblock (μ τ : Type) := LinkedNodes (MicroInsn μ τ)

structure MicrocodeContext (μ τ : Type) where
  hasRaw : Bool := true
  hasCodegen : Bool := true
  insnEa : Address
  mba : Option μ
  hasBlock : Bool := true
  mb : Mblock μ τ
  emittedNoop : Bool := false
  lastEmitted : Option Nat := none

def MicrocodeContext.atStart (insnEa : Address) (mba : Option μ) : MicrocodeContext μ τ where
  insnEa := insnEa
  mba := mba
  mb := .empty

/--
What the calls of the SDK in one emission return. Loading and storing operands may emit instructions
of their own.
-/
structure Outcomes (μ τ : Type) where
  emit : Bool := true
  insertIntoBlock : Bool := true
  createHelperCall : Option (Option (Mcallinfo τ)) := none
  allocKreg : Option Int := none
  storeOperand : Int → Mop μ → Option (List (MicroInsn μ τ)) := fun _ _ => none
  loadOperand : Int → Option (Int × List (MicroInsn μ τ)) := fun _ => none
  loadEffectiveAddress : Int → Option (Int × List (MicroInsn μ τ)) := fun _ => none

namespace MicrocodeContext

section Block

variable (outcomes : Outcomes μ τ) (context : MicrocodeContext μ τ)

def incomplete : Error :=
  .internal "MicrocodeContext has incomplete codegen state"

def empty : Error :=
  .internal "MicrocodeContext is empty"

def nullCodegen : Error :=
  .internal "MicrocodeContext has null codegen"

def anchorForInsertPolicy (block : Mblock μ τ) : MicrocodeInsertPolicy → Option (Node (MicroInsn μ τ))
  | .tail => block.tail?
  | .beginning => none
  | .beforeTail => block.beforeTail?

def emit (insn : MicroInsn μ τ) : Option (Node (MicroInsn μ τ) × MicrocodeContext μ τ) :=
  if outcomes.emit && context.hasBlock then
    some ({ address := context.mb.next, content := insn },
      { context with mb := context.mb.append insn })
  else
    none

def insertIntoBlock (node : Node (MicroInsn μ τ)) (anchor : Option (Node (MicroInsn μ τ)))
    : Option (MicrocodeContext μ τ) :=
  if outcomes.insertIntoBlock then do
    let mb ← context.mb.insert node (anchor.map Node.address)
    return { context with mb }
  else
    none

def insertCallInstruction (call : Option (HelperCall μ τ)) (helperName : String)
    (policy : MicrocodeInsertPolicy) : Status × MicrocodeContext μ τ :=
  if !context.hasRaw || !context.hasCodegen || !context.hasBlock then
    (.error incomplete, context)
  else
    match call with
    | none => (.error (.sdk "create_helper_call failed" helperName), context)
    | some call =>
      let (node, mb) := context.mb.allocate (.call call)
      let anchor := anchorForInsertPolicy mb policy
      match insertIntoBlock outcomes { context with mb } node anchor with
      | none => (.error (.sdk "insert_into_block failed" helperName), context)
      | some context => (ok, { context with lastEmitted := some node.address })

def repositionEmittedInstruction (emitted : Node (MicroInsn μ τ)) (policy : MicrocodeInsertPolicy)
    : Status × MicrocodeContext μ τ :=
  if policy = .tail then
    (ok, context)
  else if !context.hasRaw || !context.hasCodegen || !context.hasBlock then
    (.error incomplete, context)
  else
    let context := { context with mb := context.mb.remove emitted.address }
    let anchor := anchorForInsertPolicy context.mb policy
    match insertIntoBlock outcomes context emitted anchor with
    -- The instruction has been unlinked and stays so.
    | none => (.error (.sdk "insert_into_block failed"), context)
    | some context => (ok, context)

def findMinsnAtIndex (instructionIndex : Int) : Option (Node (MicroInsn μ τ)) :=
  if !context.hasBlock || decide (instructionIndex < 0) then none
  else context.mb.nodes[instructionIndex.toNat]?

def removeLastEmittedInstruction : Status × MicrocodeContext μ τ :=
  if !context.hasRaw then
    (.error empty, context)
  else if !context.hasCodegen || !context.hasBlock then
    (.error incomplete, context)
  else
    match context.lastEmitted with
    | none => (.error (.notFound "No tracked emitted instruction to remove"), context)
    | some address =>
      (ok, { context with mb := context.mb.remove address, lastEmitted := none })

def removeInstructionAtIndex (instructionIndex : Int) : Status × MicrocodeContext μ τ :=
  if instructionIndex < 0 then
    (.error (.validation "Instruction index cannot be negative" (toString instructionIndex)),
      context)
  else if !context.hasRaw then
    (.error empty, context)
  else if !context.hasCodegen || !context.hasBlock then
    (.error incomplete, context)
  else
    match context.findMinsnAtIndex instructionIndex with
    | none =>
      (.error (.notFound "No microcode instruction at index" (toString instructionIndex)), context)
    | some instruction =>
      let lastEmitted :=
        if context.lastEmitted = some instruction.address then none else context.lastEmitted
      (ok, { context with mb := context.mb.remove instruction.address, lastEmitted })

end Block

section Emit

variable (outcomes : Outcomes μ τ) (context : MicrocodeContext μ τ)

def emitTracked (failed : Error) (insn : MicroInsn μ τ) (policy : MicrocodeInsertPolicy)
    (finish : MicroInsn μ τ → MicroInsn μ τ) (noop : Bool) : Status × MicrocodeContext μ τ :=
  match emit outcomes context insn with
  | none => (.error failed, context)
  | some (emitted, context) =>
    match repositionEmittedInstruction outcomes context emitted policy with
    | (.error e, context) => (.error e, context)
    | (.ok _, context) =>
      (ok, {
        context with
        mb := context.mb.modify emitted.address finish
        lastEmitted := some emitted.address
        emittedNoop := context.emittedNoop || noop
      })

def noopInsn : MicroInsn μ τ :=
  .registers .nop 0 0 0 0 0 false false false

def noopFailed : Error :=
  .sdk "emit(m_nop) failed"

def emitNoopWithPolicy (policy : MicrocodeInsertPolicy) : Status × MicrocodeContext μ τ :=
  if !context.hasRaw then
    (.error empty, context)
  else if !context.hasCodegen then
    (.error nullCodegen, context)
  else
    emitTracked outcomes context noopFailed noopInsn policy id true

def emitNoop : Status × MicrocodeContext μ τ :=
  emitNoopWithPolicy outcomes context .tail

end Emit

end MicrocodeContext

def buildInstruction (mba : Option μ) (ea : Address) : MicrocodeInstruction → Result (MicroInsn μ τ)
  | .mk opcode left right destination _ => do
    let sdkOpcode ← toSdkOpcode opcode
    if (opcode = .loadMemory ∨ opcode = .storeMemory)
        ∧ (left.isEmpty ∨ right.isEmpty ∨ destination.isEmpty) then
      .error (.validation
        "Load/store memory instructions require non-empty left/right/destination operands")
    else if sdkOpcode = .nop then
      return MicrocodeContext.noopInsn
    else
      let left ← buildTypedInstructionOperand mba ea left "left" 0
      let right ← buildTypedInstructionOperand mba ea right "right" 0
      let destination ← buildTypedInstructionOperand mba ea destination "destination" 0
      return .operands sdkOpcode left right destination false

namespace MicrocodeInstruction

def opcode : MicrocodeInstruction → MicrocodeOpcode
  | .mk opcode _ _ _ _ => opcode

def floatingPointInstruction : MicrocodeInstruction → Bool
  | .mk _ _ _ _ floatingPointInstruction => floatingPointInstruction

end MicrocodeInstruction

namespace MicrocodeContext

section Emit

variable (outcomes : Outcomes μ τ) (context : MicrocodeContext μ τ)

def emitInstructionWithPolicy (instruction : MicrocodeInstruction) (policy : MicrocodeInsertPolicy)
    : Status × MicrocodeContext μ τ :=
  if !context.hasRaw then
    (.error empty, context)
  else if !context.hasCodegen then
    (.error nullCodegen, context)
  else
    match buildInstruction context.mba context.insnEa instruction with
    | .error e => (.error e, context)
    | .ok insn =>
      let noop := decide (instruction.opcode = .noOperation)
      let failed :=
        if noop then noopFailed
        else .sdk "emit typed instruction failed" (toString instruction.opcode.ctorIdx)
      let finish := if instruction.floatingPointInstruction then MicroInsn.setFpinsn else id
      emitTracked outcomes context failed insn policy finish noop

def emitInstruction (instruction : MicrocodeInstruction) : Status × MicrocodeContext μ τ :=
  emitInstructionWithPolicy outcomes context instruction .tail

def atIndex (index : Nat) (error : Error) : Error :=
  if error.context.isEmpty then { error with context := toString index }
  else { error with context := toString index ++ ":" ++ error.context }

def emitInstructionsFrom (outcomes : Nat → Outcomes μ τ) (policy : MicrocodeInsertPolicy)
    : (index : Nat) → List MicrocodeInstruction → MicrocodeContext μ τ
      → Status × MicrocodeContext μ τ
  | _, [], context => (ok, context)
  | index, instruction :: instructions, context =>
    match emitInstructionWithPolicy (outcomes index) context instruction policy with
    | (.error e, context) => (.error (atIndex index e), context)
    | (.ok _, context) => emitInstructionsFrom outcomes policy (index + 1) instructions context

def emitInstructionsWithPolicy (outcomes : Nat → Outcomes μ τ)
    (instructions : List MicrocodeInstruction) (policy : MicrocodeInsertPolicy)
    : Status × MicrocodeContext μ τ :=
  emitInstructionsFrom outcomes policy 0 instructions context

def emitInstructions (outcomes : Nat → Outcomes μ τ) (instructions : List MicrocodeInstruction)
    : Status × MicrocodeContext μ τ :=
  emitInstructionsWithPolicy context outcomes instructions .tail

def emitMoveRegisterWithPolicy (sourceRegister destinationRegister byteWidth : Int)
    (policy : MicrocodeInsertPolicy) (markUserDefinedType : Bool) : Status × MicrocodeContext μ τ :=
  if byteWidth ≤ 0 then
    (.error (.validation "Byte width must be positive" (toString byteWidth)), context)
  else if !context.hasRaw then
    (.error empty, context)
  else if !context.hasCodegen then
    (.error nullCodegen, context)
  else
    emitTracked outcomes context (.sdk "emit(m_mov) failed")
      (.registers .mov byteWidth sourceRegister 0 destinationRegister 0 markUserDefinedType
        markUserDefinedType false)
      policy id false

def emitMoveRegister (sourceRegister destinationRegister byteWidth : Int)
    (markUserDefinedType : Bool) : Status × MicrocodeContext μ τ :=
  emitMoveRegisterWithPolicy outcomes context sourceRegister destinationRegister byteWidth .tail
    markUserDefinedType

def emitLoadMemoryRegisterWithPolicy
    (selectorRegister offsetRegister destinationRegister byteWidth offsetByteWidth : Int)
    (policy : MicrocodeInsertPolicy) (markUserDefinedType : Bool) : Status × MicrocodeContext μ τ :=
  if byteWidth ≤ 0 then
    (.error (.validation "Byte width must be positive" (toString byteWidth)), context)
  else if offsetByteWidth ≤ 0 then
    (.error (.validation "Offset byte width must be positive" (toString offsetByteWidth)), context)
  else if !context.hasRaw then
    (.error empty, context)
  else if !context.hasCodegen then
    (.error nullCodegen, context)
  else
    emitTracked outcomes context (.sdk "emit(m_ldx) failed")
      (.registers .ldx byteWidth selectorRegister offsetRegister destinationRegister offsetByteWidth
        false markUserDefinedType false)
      policy id false

def emitLoadMemoryRegister
    (selectorRegister offsetRegister destinationRegister byteWidth offsetByteWidth : Int)
    (markUserDefinedType : Bool) : Status × MicrocodeContext μ τ :=
  emitLoadMemoryRegisterWithPolicy outcomes context selectorRegister offsetRegister
    destinationRegister byteWidth offsetByteWidth .tail markUserDefinedType

/--
The store alone of the register forms asks for the block before it emits.
-/
def emitStoreMemoryRegisterWithPolicy
    (sourceRegister selectorRegister offsetRegister byteWidth offsetByteWidth : Int)
    (policy : MicrocodeInsertPolicy) (markUserDefinedType : Bool) : Status × MicrocodeContext μ τ :=
  if byteWidth ≤ 0 then
    (.error (.validation "Byte width must be positive" (toString byteWidth)), context)
  else if offsetByteWidth ≤ 0 then
    (.error (.validation "Offset byte width must be positive" (toString offsetByteWidth)), context)
  else if !context.hasRaw then
    (.error empty, context)
  else if !context.hasCodegen || !context.hasBlock then
    (.error incomplete, context)
  else
    emitTracked outcomes context (.sdk "emit(m_stx) failed")
      (.registers .stx byteWidth sourceRegister selectorRegister offsetRegister offsetByteWidth
        markUserDefinedType false false)
      policy id false

def emitStoreMemoryRegister
    (sourceRegister selectorRegister offsetRegister byteWidth offsetByteWidth : Int)
    (markUserDefinedType : Bool) : Status × MicrocodeContext μ τ :=
  emitStoreMemoryRegisterWithPolicy outcomes context sourceRegister selectorRegister offsetRegister
    byteWidth offsetByteWidth .tail markUserDefinedType

def appendAll (context : MicrocodeContext μ τ) (insns : List (MicroInsn μ τ))
    : MicrocodeContext μ τ :=
  { context with mb := insns.foldl LinkedNodes.append context.mb }

def loadRegister (load : Int → Option (Int × List (MicroInsn μ τ))) (failed : String)
    (operandIndex : Int) : Result Int × MicrocodeContext μ τ :=
  if operandIndex < 0 then
    (.error (.validation "Operand index cannot be negative" (toString operandIndex)), context)
  else if !context.hasRaw then
    (.error empty, context)
  else if !context.hasCodegen then
    (.error nullCodegen, context)
  else
    match load operandIndex with
    | none => (.error (.sdk failed (toString operandIndex)), context)
    | some (reg, insns) => (.ok reg, context.appendAll insns)

def loadOperandRegister (operandIndex : Int) : Result Int × MicrocodeContext μ τ :=
  loadRegister context outcomes.loadOperand "load_operand failed" operandIndex

def loadEffectiveAddressRegister (operandIndex : Int) : Result Int × MicrocodeContext μ τ :=
  loadRegister context outcomes.loadEffectiveAddress "load_effective_address failed" operandIndex

def allocateTemporaryRegister (byteWidth : Int32) : Result Int :=
  if byteWidth ≤ 0 then
    .error (.validation "Byte width must be positive" (toString byteWidth))
  else if !context.hasRaw then
    .error empty
  else if !context.hasCodegen || context.mba.isNone then
    .error incomplete
  else
    match outcomes.allocKreg with
    | none => .error (.sdk "alloc_kreg failed" (toString byteWidth))
    | some reg => .ok reg

def storeOperandRegister (operandIndex sourceRegister : Int) (byteWidth : Int32)
    (markUserDefinedType : Bool) : Status × MicrocodeContext μ τ :=
  if operandIndex < 0 then
    (.error (.validation "Operand index cannot be negative" (toString operandIndex)), context)
  else if byteWidth ≤ 0 then
    (.error (.validation "Byte width must be positive" (toString byteWidth)), context)
  else if !context.hasRaw then
    (.error empty, context)
  else if !context.hasCodegen then
    (.error nullCodegen, context)
  else
    let source := Mop.makeReg sourceRegister byteWidth.toInt
    let source := if markUserDefinedType then source.setUdt else source
    match outcomes.storeOperand operandIndex source with
    | none => (.error (.sdk "store_operand failed" (toString operandIndex)), context)
    | some insns => (ok, context.appendAll insns)

end Emit

end MicrocodeContext

end Microcode
end Idax
