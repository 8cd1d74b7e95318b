import Idax.Microcode.HelperCalls

/-!
This module lists the functions of `MicrocodeContext` that emit a single instruction or the call of a
helper.
-/

namespace Idax
namespace Microcode

variable {μ τ : Type}

inductive Emitter where
  | noop (policy : MicrocodeInsertPolicy)
  | instruction (typed : MicrocodeInstruction) (policy : MicrocodeInsertPolicy)
  | moveRegister (source destination width : Int) (policy : MicrocodeInsertPolicy) (udt : Bool)
  | loadMemoryRegister (selector offset destination width offsetWidth : Int)
    (policy : MicrocodeInsertPolicy) (udt : Bool)
  | storeMemoryRegister (source selector offset width offsetWidth : Int)
    (policy : MicrocodeInsertPolicy) (udt : Bool)
  | helperCall (helperName : String)
  | helperCallWithArguments (helperName : String) (arguments : List MicrocodeValue)
    (options : MicrocodeCallOptions)
  | helperCallToRegister (helperName : String) (arguments : List MicrocodeValue) (register : Int)
    (width : Int32) (isUnsigned : Bool) (options : MicrocodeCallOptions)
  | helperCallToMicroOperand (helperName : String) (arguments : List MicrocodeValue)
    (destination : MicrocodeOperand) (isUnsigned : Bool) (options : MicrocodeCallOptions)
  | helperCallToOperand (helperName : String) (arguments : List MicrocodeValue) (index : Int)
    (width : Int32) (isUnsigned : Bool) (options : MicrocodeCallOptions)

open MicrocodeContext

section Run

variable (sdk : Sdk μ τ) (outcomes : Outcomes μ τ) (context : MicrocodeContext μ τ)

def Emitter.run : Emitter → Status × MicrocodeContext μ τ
  | .noop policy => emitNoopWithPolicy outcomes context policy
  | .instruction typed policy => emitInstructionWithPolicy outcomes context typed policy
  | .moveRegister source destination width policy udt =>
    emitMoveRegisterWithPolicy outcomes context source destination width policy udt
  | .loadMemoryRegister selector offset destination width offsetWidth policy udt =>
    emitLoadMemoryRegisterWithPolicy outcomes context selector offset destination width offsetWidth
      policy udt
  | .storeMemoryRegister source selector offset width offsetWidth policy udt =>
    emitStoreMemoryRegisterWithPolicy outcomes context source selector offset width offsetWidth
      policy udt
  | .helperCall helperName => emitHelperCall outcomes context helperName
  | .helperCallWithArguments helperName arguments options =>
    emitHelperCallWithArgumentsAndOptions sdk outcomes context helperName arguments options
  | .helperCallToRegister helperName arguments register width isUnsigned options =>
    emitHelperCallWithArgumentsToRegisterAndOptions sdk outcomes context helperName arguments
      register width isUnsigned options
  | .helperCallToMicroOperand helperName arguments destination isUnsigned options =>
    emitHelperCallWithArgumentsToMicroOperandAndOptions sdk outcomes context helperName arguments
      destination isUnsigned options
  | .helperCallToOperand helperName arguments index width isUnsigned options =>
    emitHelperCallWithArgumentsToOperandAndOptions sdk outcomes context helperName arguments index
      width isUnsigned options

end Run

end Microcode
end Idax
