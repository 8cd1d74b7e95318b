import Idax.Jbc.Instruction
import Idax.Processor.OutputContext

/-!
This module contains the results of the callbacks of processor modules, and the processor module for JAM
byte-code. The kernel is what its callbacks read; the references that `emulate` adds are part of its
answer.
-/

namespace Idax

namespace Processor

inductive EmulateResult where
  | notImplemented
  | success
  | deleteInsn
  deriving DecidableEq, Repr

inductive OutputOperandResult where
  | notImplemented
  | success
  | hidden
  deriving DecidableEq, Repr

inductive OutputInstructionResult where
  | notImplemented
  | success
  deriving DecidableEq, Repr

inductive AnalyzeOperandKind where
  | none
  | register
  | immediate
  | nearAddress
  | farAddress
  | directMemory
  | indirectMemory
  | displacement
  | processorSpecific (n : Fin 6)
  deriving DecidableEq, Repr

structure AnalyzeOperand where
  index : Nat := 0
  kind : AnalyzeOperandKind := .none
  hasRegister : Bool := false
  registerIndex : Int := -1
  hasImmediate : Bool := false
  immediateValue : UInt64 := 0
  hasTargetAddress : Bool := false
  targetAddress : UInt64 := .ofNat badAddress
  hasDisplacement : Bool := false
  displacement : Int64 := 0
  dataTypeCode : UInt32 := 0
  processorFlags : UInt32 := 0
  deriving DecidableEq, Repr

structure AnalyzeDetails where
  size : Nat := 0
  operands : List AnalyzeOperand := []
  deriving DecidableEq, Repr

end Processor

namespace Jbc

open Processor

inductive CodeType where
  | callNear
  | jumpNear
  | flow
  deriving DecidableEq, Repr

inductive DataType where
  | read
  deriving DecidableEq, Repr

inductive Reference where
  | code (source target : UInt64) (type : CodeType)
  | data (source target : UInt64) (type : DataType)
  deriving DecidableEq, Repr

/--
What the callbacks read: the bytes, where there are segments, the names, and the values of the node that
the loader leaves behind, if there is one.
-/
structure Kernel where
  database : Data.Database
  hasSegment : UInt64 → Bool
  name : UInt64 → Option Text
  node : Option (UInt64 → UInt64)

def stateCodeBaseIndex : UInt64 := 1
def stateStringBaseIndex : UInt64 := 2

structure JbcFullProcessor where
  codeBase : UInt64 := 0
  stringBase : UInt64 := 0
  cachedDecodeAddress : UInt64 := .ofNat badAddress
  hasCachedDecode : Bool := false
  cachedDecode : DecodedInstruction := {}
  deriving DecidableEq, Repr

def toOperandKind : OperandKind → AnalyzeOperandKind
  | .address => .nearAddress
  | .stringOffset => .directMemory
  | .var => .processorSpecific 0
  | .state => .immediate
  | .count => .immediate
  | .immediate32 => .immediate
  | .none => .none

namespace DecodedInstruction

variable (instruction : DecodedInstruction)

def argument (index : Nat) : UInt32 :=
  instruction.arguments.getD index 0

def kind (index : Nat) : OperandKind :=
  operandKind instruction.definition index

def has (flag : UInt16) : Bool :=
  instruction.definition.any (hasFlag ·.flags flag)

def mnemonic : Text :=
  match instruction.definition with
  | none => unknownMnemonic instruction.opcode
  | some definition => definition.mnemonic

end DecodedInstruction

namespace JbcFullProcessor

variable (kernel : Kernel) (self : JbcFullProcessor)

def clearDecodeCache : JbcFullProcessor :=
  { self with
    cachedDecodeAddress := .ofNat badAddress
    cachedDecode := {}
    hasCachedDecode := false }

def reloadState : JbcFullProcessor :=
  let self := { self with codeBase := 0, stringBase := 0 }
  let self := self.clearDecodeCache
  match kernel.node with
  | none => self
  | some alt => { self with codeBase := alt stateCodeBaseIndex, stringBase := alt stateStringBaseIndex }

def decodeWithCache (address : UInt64) : Result DecodedInstruction × JbcFullProcessor :=
  if self.hasCachedDecode && self.cachedDecodeAddress == address then
    (.ok self.cachedDecode, self)
  else
    match decodeInstruction kernel.database address with
    | .error e => (.error e, self)
    | .ok decoded =>
      (.ok decoded,
        { self with cachedDecodeAddress := address, cachedDecode := decoded, hasCachedDecode := true })

def decoding (address : UInt64) (failed : Error → α) (f : JbcFullProcessor → DecodedInstruction → α)
    : α × JbcFullProcessor :=
  match self.decodeWithCache kernel address with
  | (.error e, self) => (failed e, self)
  | (.ok decoded, self) => (f self decoded, self)

section Analysis

def analyzeOperand (instruction : DecodedInstruction) (operandIndex : Nat) : AnalyzeOperand :=
  let value := instruction.argument operandIndex
  let operand : AnalyzeOperand := {
    index := operandIndex
    kind := toOperandKind (instruction.kind operandIndex)
    processorFlags := instruction.definition.elim 0 (·.flags.toUInt32)
  }
  match instruction.kind operandIndex with
  | .address =>
    { operand with hasTargetAddress := true, targetAddress := self.codeBase + value.toUInt64 }
  | .stringOffset =>
    { operand with hasTargetAddress := true, targetAddress := self.stringBase + value.toUInt64 }
  | .none => operand
  | _ => { operand with hasImmediate := true, immediateValue := value.toUInt64 }

def buildAnalyzeDetails (instruction : DecodedInstruction) : AnalyzeDetails where
  size := instruction.size
  operands := (List.range instruction.argumentCount).map (self.analyzeOperand instruction)

def analyzeWithDetails (address : UInt64) : Result AnalyzeDetails × JbcFullProcessor :=
  self.decoding kernel address .error fun self decoded => .ok (self.buildAnalyzeDetails decoded)

def analyze (address : UInt64) : Result Nat × JbcFullProcessor :=
  let (details, self) := self.analyzeWithDetails kernel address
  match details with
  | .error _ => (.ok 0, self)
  | .ok details => (.ok details.size, self)

def firstReference (address : UInt64) (instruction : DecodedInstruction) : List Reference :=
  if instruction.definition.isSome && instruction.argumentCount ≥ 1 then
    let value := instruction.argument 0
    match instruction.kind 0 with
    | .address =>
      let target := self.codeBase + value.toUInt64
      if kernel.hasSegment target then
        if instruction.has flagCall then
          [.code address target .callNear]
        else if instruction.has flagBranch then
          [.code address target .jumpNear]
        else
          [.code address target .flow]
      else
        []
    | .stringOffset =>
      let target := self.stringBase + value.toUInt64
      if kernel.hasSegment target then [.data address target .read] else []
    | _ => []
  else
    []

def secondReference (address : UInt64) (instruction : DecodedInstruction) : List Reference :=
  if instruction.definition.isSome && instruction.argumentCount ≥ 2 then
    match instruction.kind 1 with
    | .address =>
      let target := self.codeBase + (instruction.argument 1).toUInt64
      if kernel.hasSegment target then [.code address target .jumpNear] else []
    | _ => []
  else
    []

def ends (instruction : DecodedInstruction) : Bool :=
  instruction.has flagReturn || instruction.has flagStop
    || (instruction.has flagBranch && !instruction.has flagConditional)

def references (address : UInt64) (instruction : DecodedInstruction) : List Reference :=
  self.firstReference kernel address instruction
    ++ self.secondReference kernel address instruction
    ++ if ends instruction then [] else [.code address (address + .ofNat instruction.size) .flow]

def emulate (address : UInt64) : (EmulateResult × List Reference) × JbcFullProcessor :=
  self.decoding kernel address (fun _ => (.notImplemented, [])) fun self instruction =>
    (.success, self.references kernel address instruction)

def isCall (address : UInt64) : Int × JbcFullProcessor :=
  self.decoding kernel address (fun _ => 0) fun _ decoded =>
    if decoded.definition.isNone then 0 else if decoded.has flagCall then 1 else -1

def isReturn (address : UInt64) : Int × JbcFullProcessor :=
  self.decoding kernel address (fun _ => 0) fun _ decoded =>
    if decoded.definition.isNone then 0 else if decoded.has flagReturn then 1 else -1

def mayBeFunction (address : UInt64) : Int × JbcFullProcessor :=
  self.decoding kernel address (fun _ => 0) fun _ decoded => if decoded.opcode == 0x43 then 100 else 50

def isBasicBlockEnd (address : UInt64) (_callInstructionStopsBlock : Bool) : Int × JbcFullProcessor :=
  self.decoding kernel address (fun _ => 0) fun _ decoded =>
    if decoded.definition.isNone then 0 else if ends decoded then 1 else -1

end Analysis

section Output

def appendTarget (target : UInt64) (output : OutputContext) : OutputContext :=
  match kernel.name target with
  | none => output.address target
  | some symbol => if symbol.isEmpty then output.address target else output.symbol symbol

def appendOperandText (output : OutputContext) (instruction : DecodedInstruction) (operandIndex : Nat)
    : OutputContext :=
  let value := instruction.argument operandIndex
  match instruction.kind operandIndex with
  | .address => appendTarget kernel (self.codeBase + value.toUInt64) output
  | .var => (output.keyword (ascii "var_")).immediate (.ofNat value.toNat) 10
  | .stringOffset =>
    appendTarget kernel (self.stringBase + value.toUInt64)
      ((output.keyword (ascii "str")).punctuation (ascii ":"))
  | .state => output.keyword (jtagStateName value.toUInt8)
  | .count | .immediate32 => output.immediate (.ofNat value.toNat) 16
  | .none => output

def outputMnemonicWithContext (address : UInt64) (output : OutputContext)
    : (OutputInstructionResult × OutputContext) × JbcFullProcessor :=
  self.decoding kernel address (fun _ => (.notImplemented, output)) fun _ decoded =>
    (.success, output.mnemonic decoded.mnemonic)

def appendOperands (instruction : DecodedInstruction) (output : OutputContext) : OutputContext :=
  (List.range instruction.argumentCount).foldl
    (fun output index =>
      let output := if index = 0 then output.space else output.comma.space
      self.appendOperandText kernel output instruction index)
    output

def appendNote (instruction : DecodedInstruction) (output : OutputContext) : OutputContext :=
  if instruction.has flagJtag && instruction.kind 0 = .state && instruction.argumentCount ≥ 1 then
    output.space.comment (ascii "; " ++ jtagStateName (instruction.argument 0).toUInt8)
  else
    output

def outputInstructionWithContext (address : UInt64) (output : OutputContext)
    : (OutputInstructionResult × OutputContext) × JbcFullProcessor :=
  match self.decodeWithCache kernel address with
  | (.error _, self) => ((.notImplemented, output), self)
  | (.ok instruction, self) =>
    match self.outputMnemonicWithContext kernel address output with
    | ((.success, output), self) =>
      let output := self.appendOperands kernel instruction output
      ((.success, appendNote instruction output), self)
    | (mnemonicResult, self) => (mnemonicResult, self)

def outputInstruction (address : UInt64) : JbcFullProcessor :=
  (self.outputInstructionWithContext kernel address {}).2

def outputOperandWithContext (address : UInt64) (operandIndex : Int) (output : OutputContext)
    : (OutputOperandResult × OutputContext) × JbcFullProcessor :=
  self.decoding kernel address (fun _ => (.notImplemented, output)) fun self decoded =>
    if operandIndex < 0 ∨ operandIndex ≥ decoded.argumentCount then
      (.hidden, output)
    else
      (.success, self.appendOperandText kernel output decoded operandIndex.toNat)

def outputOperand (address : UInt64) (operandIndex : Int) : OutputOperandResult × JbcFullProcessor :=
  let (result, self) := self.outputOperandWithContext kernel address operandIndex {}
  (result.1, self)

end Output

end JbcFullProcessor

inductive Callback where
  | onNewFile
  | onOldFile
  | analyze (address : UInt64)
  | analyzeWithDetails (address : UInt64)
  | emulate (address : UInt64)
  | isCall (address : UInt64)
  | isReturn (address : UInt64)
  | mayBeFunction (address : UInt64)
  | isBasicBlockEnd (address : UInt64) (callInstructionStopsBlock : Bool)
  | outputInstruction (address : UInt64)
  | outputOperand (address : UInt64) (operandIndex : Int)
  | outputMnemonicWithContext (address : UInt64) (output : OutputContext)
  | outputInstructionWithContext (address : UInt64) (output : OutputContext)
  | outputOperandWithContext (address : UInt64) (operandIndex : Int) (output : OutputContext)

inductive Reply where
  | unit
  | size (size : Result Nat)
  | details (details : Result AnalyzeDetails)
  | emulated (result : EmulateResult × List Reference)
  | answer (answer : Int)
  | operandResult (result : OutputOperandResult)
  | instruction (result : OutputInstructionResult × OutputContext)
  | operand (result : OutputOperandResult × OutputContext)

namespace JbcFullProcessor

def call (kernel : Kernel) (self : JbcFullProcessor) : Callback → Reply × JbcFullProcessor
  | .onNewFile => (.unit, self.reloadState kernel)
  | .onOldFile => (.unit, self.reloadState kernel)
  | .analyze address => (self.analyze kernel address).map .size id
  | .analyzeWithDetails address => (self.analyzeWithDetails kernel address).map .details id
  | .emulate address => (self.emulate kernel address).map .emulated id
  | .isCall address => (self.isCall kernel address).map .answer id
  | .isReturn address => (self.isReturn kernel address).map .answer id
  | .mayBeFunction address => (self.mayBeFunction kernel address).map .answer id
  | .isBasicBlockEnd address stops => (self.isBasicBlockEnd kernel address stops).map .answer id
  | .outputInstruction address => (.unit, self.outputInstruction kernel address)
  | .outputOperand address operandIndex =>
    (self.outputOperand kernel address operandIndex).map .operandResult id
  | .outputMnemonicWithContext address output =>
    (self.outputMnemonicWithContext kernel address output).map .instruction id
  | .outputInstructionWithContext address output =>
    (self.outputInstructionWithContext kernel address output).map .instruction id
  | .outputOperandWithContext address operandIndex output =>
    (self.outputOperandWithContext kernel address operandIndex output).map .operand id

end JbcFullProcessor

end Jbc
end Idax
