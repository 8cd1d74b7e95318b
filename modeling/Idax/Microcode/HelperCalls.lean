import Idax.Microcode.Context

/-!
This module contains the functions of `MicrocodeContext` that emit calls of helpers.
-/

namespace Idax
namespace Microcode
namespace MicrocodeContext

variable {μ τ : Type}

section Types

variable (sdk : Sdk μ τ)

def returnTypeOfWidth (destinationByteWidth : Int32) (destinationUnsigned : Bool) : Result τ :=
  match makeIntegerType sdk destinationByteWidth destinationUnsigned with
  | some type => .ok type
  | none =>
    match makeByteArrayType sdk destinationByteWidth with
    | some type => .ok type
    | none =>
      .error (.unsupported "Microcode typed return width unsupported"
        (toString destinationByteWidth))

def registerReturnType (declaration : String) (destinationByteWidth : Int32)
    (destinationUnsigned : Bool) : Result τ :=
  if !declaration.isEmpty then
    match sdk.parseDecl (terminated declaration) with
    | none =>
      .error (.validation "Failed to parse helper-call return type declaration" declaration)
    | some returnType =>
      let returnSize := sdk.getSize returnType
      if returnSize = 0 then
        .error (.validation "Parsed helper-call return type has unknown size" declaration)
      else if narrow returnSize ≠ destinationByteWidth then
        .error (sizeMismatch "Return type size does not match destination byte width" returnSize
          destinationByteWidth)
      else
        .ok returnType
  else
    returnTypeOfWidth sdk destinationByteWidth destinationUnsigned

def microOperandReturnType (declaration : String) (destinationByteWidth : Int32)
    (destinationUnsigned : Bool) : Result (τ × Int32) :=
  if !declaration.isEmpty then do
    let returnType ← parseTypeDeclaration sdk declaration "helper_return_type"
    let returnSize := sdk.getSize returnType
    if returnSize = 0 then
      .error (.validation "Parsed helper-call return type has unknown size" declaration)
    else
      let width :=
        if destinationByteWidth ≤ 0 then narrow returnSize else destinationByteWidth
      if narrow returnSize ≠ width then
        .error (sizeMismatch "Return type size does not match destination byte width" returnSize
          width)
      else
        return (returnType, width)
  else if destinationByteWidth ≤ 0 then
    .error (.validation "Destination micro-operand byte width must be positive"
      (toString destinationByteWidth))
  else do
    let returnType ← returnTypeOfWidth sdk destinationByteWidth destinationUnsigned
    return (returnType, destinationByteWidth)

end Types

section Emit

variable (sdk : Sdk μ τ) (outcomes : Outcomes μ τ) (context : MicrocodeContext μ τ)

def effectiveOptions (options : MicrocodeCallOptions) (callargs : CallArgumentsBuildResult μ τ)
    : MicrocodeCallOptions :=
  { options with
    solidArgumentCount := some (options.solidArgumentCount.getD callargs.arguments.length)
    markExplicitLocations := options.markExplicitLocations || callargs.hasExplicitLocations }

def createHelperCall (helper : String) (returnType : Option τ) (arguments : List (Mcallarg μ τ))
    (destination : Option (Mop μ)) : Option (HelperCall μ τ) :=
  outcomes.createHelperCall.map fun info =>
    { ea := context.insnEa, helper := cString helper, returnType, arguments, destination, info }

structure CallPlan (μ τ : Type) where
  arguments : List (Mcallarg μ τ)
  options : MicrocodeCallOptions
  returnType : Option τ := none
  destination : Option (Mop μ) := none

def emitPlannedCall (helperName : String) (plan : Result (CallPlan μ τ))
    : Status × MicrocodeContext μ τ :=
  match plan with
  | .error e => (.error e, context)
  | .ok plan =>
    let call :=
      createHelperCall outcomes context helperName plan.returnType plan.arguments plan.destination
    match applyCallOptions sdk plan.options call helperName with
    | .error e => (.error e, context)
    | .ok call =>
      insertCallInstruction outcomes context call helperName
        (plan.options.insertPolicy.getD .tail)

def planArguments (arguments : List MicrocodeValue) (options : MicrocodeCallOptions)
    : Result (CallPlan μ τ) := do
  let callargs ← buildCallArguments sdk context.mba context.insnEa options arguments
  return { arguments := callargs.arguments, options := effectiveOptions options callargs }

def helperNameEmpty : Error :=
  .validation "Helper name cannot be empty"

def emitHelperCall (helperName : String) : Status × MicrocodeContext μ τ :=
  if helperName.isEmpty then
    (.error helperNameEmpty, context)
  else if !context.hasRaw then
    (.error empty, context)
  else if !context.hasCodegen || context.mba.isNone || !context.hasBlock then
    (.error incomplete, context)
  else
    insertCallInstruction outcomes context (createHelperCall outcomes context helperName none [] none)
      helperName .tail

def emitHelperCallWithArgumentsAndOptions (helperName : String) (arguments : List MicrocodeValue)
    (options : MicrocodeCallOptions) : Status × MicrocodeContext μ τ :=
  if helperName.isEmpty then
    (.error helperNameEmpty, context)
  else if !context.hasRaw then
    (.error empty, context)
  else if !context.hasCodegen || context.mba.isNone || !context.hasBlock then
    (.error incomplete, context)
  else
    emitPlannedCall sdk outcomes context helperName (planArguments sdk context arguments options)

def emitHelperCallWithArguments (helperName : String) (arguments : List MicrocodeValue)
    : Status × MicrocodeContext μ τ :=
  emitHelperCallWithArgumentsAndOptions sdk outcomes context helperName arguments {}

def planRegister (arguments : List MicrocodeValue) (destinationRegister : Int)
    (destinationByteWidth : Int32) (destinationUnsigned : Bool) (options : MicrocodeCallOptions)
    : Result (CallPlan μ τ) := do
  let plan ← planArguments sdk context arguments options
  let returnType ← registerReturnType sdk plan.options.returnTypeDeclaration destinationByteWidth
    destinationUnsigned
  let destination := Mop.makeReg destinationRegister destinationByteWidth.toInt
  return {
    plan with
    returnType := some returnType
    destination := some (if 8 < destinationByteWidth then destination.setUdt else destination)
  }

def emitHelperCallWithArgumentsToRegisterAndOptions (helperName : String)
    (arguments : List MicrocodeValue) (destinationRegister : Int) (destinationByteWidth : Int32)
    (destinationUnsigned : Bool) (options : MicrocodeCallOptions) : Status × MicrocodeContext μ τ :=
  if helperName.isEmpty then
    (.error helperNameEmpty, context)
  else if destinationByteWidth ≤ 0 then
    (.error (.validation "Destination byte width must be positive" (toString destinationByteWidth)),
      context)
  else if !context.hasRaw then
    (.error empty, context)
  else if !context.hasCodegen || context.mba.isNone || !context.hasBlock then
    (.error incomplete, context)
  else
    emitPlannedCall sdk outcomes context helperName
      (planRegister sdk context arguments destinationRegister destinationByteWidth
        destinationUnsigned options)

def emitHelperCallWithArgumentsToRegister (helperName : String) (arguments : List MicrocodeValue)
    (destinationRegister : Int) (destinationByteWidth : Int32) (destinationUnsigned : Bool)
    : Status × MicrocodeContext μ τ :=
  emitHelperCallWithArgumentsToRegisterAndOptions sdk outcomes context helperName arguments
    destinationRegister destinationByteWidth destinationUnsigned {}

def MicrocodeOperandKind.isWritable : MicrocodeOperandKind → Bool
  | .register => true
  | .localVariable => true
  | .registerPair => true
  | .globalAddress => true
  | .stackVariable => true
  | _ => false

def planMicroOperand (arguments : List MicrocodeValue) (destination : MicrocodeOperand)
    (destinationUnsigned : Bool) (options : MicrocodeCallOptions) : Result (CallPlan μ τ) := do
  let plan ← planArguments sdk context arguments options
  let operand ← buildTypedInstructionOperand context.mba context.insnEa destination
    "helper_destination" 0
  let declaredWidth := Int32.ofInt destination.fields.byteWidth
  let width := if declaredWidth ≤ 0 then Int32.ofInt operand.size else declaredWidth
  let (returnType, width) ← microOperandReturnType sdk plan.options.returnTypeDeclaration width
    destinationUnsigned
  let operand := withWidth width operand
  let marked := destination.fields.markUserDefinedType || decide (8 < width)
  return {
    plan with
    returnType := some returnType
    destination := some (if marked then operand.setUdt else operand)
  }

def emitHelperCallWithArgumentsToMicroOperandAndOptions (helperName : String)
    (arguments : List MicrocodeValue) (destination : MicrocodeOperand) (destinationUnsigned : Bool)
    (options : MicrocodeCallOptions) : Status × MicrocodeContext μ τ :=
  if helperName.isEmpty then
    (.error helperNameEmpty, context)
  else if !context.hasRaw then
    (.error empty, context)
  else if !MicrocodeOperandKind.isWritable destination.fields.kind then
    (.error (.validation "Micro-operand destination kind is not writable"
      (toString destination.fields.kind.ctorIdx)), context)
  else if !context.hasCodegen || context.mba.isNone || !context.hasBlock then
    (.error incomplete, context)
  else
    emitPlannedCall sdk outcomes context helperName
      (planMicroOperand sdk context arguments destination destinationUnsigned options)

def emitHelperCallWithArgumentsToMicroOperand (helperName : String)
    (arguments : List MicrocodeValue) (destination : MicrocodeOperand) (destinationUnsigned : Bool)
    : Status × MicrocodeContext μ τ :=
  emitHelperCallWithArgumentsToMicroOperandAndOptions sdk outcomes context helperName arguments
    destination destinationUnsigned {}

def emitHelperCallWithArgumentsToOperandAndOptions (helperName : String)
    (arguments : List MicrocodeValue) (destinationOperandIndex : Int) (destinationByteWidth : Int32)
    (destinationUnsigned : Bool) (options : MicrocodeCallOptions) : Status × MicrocodeContext μ τ :=
  if destinationOperandIndex < 0 then
    (.error (.validation "Destination operand index cannot be negative"
      (toString destinationOperandIndex)), context)
  else if destinationByteWidth ≤ 0 then
    (.error (.validation "Destination byte width must be positive" (toString destinationByteWidth)),
      context)
  else
    match allocateTemporaryRegister outcomes context destinationByteWidth with
    | .error e => (.error e, context)
    | .ok temporaryRegister =>
      match emitHelperCallWithArgumentsToRegisterAndOptions sdk outcomes context helperName arguments
          temporaryRegister destinationByteWidth destinationUnsigned options with
      | (.error e, context) => (.error e, context)
      -- The call stands in the block, whatever comes of the store.
      | (.ok _, context) =>
        storeOperandRegister outcomes context destinationOperandIndex temporaryRegister
          destinationByteWidth (decide (8 < destinationByteWidth))

def emitHelperCallWithArgumentsToOperand (helperName : String) (arguments : List MicrocodeValue)
    (destinationOperandIndex : Int) (destinationByteWidth : Int32) (destinationUnsigned : Bool)
    : Status × MicrocodeContext μ τ :=
  emitHelperCallWithArgumentsToOperandAndOptions sdk outcomes context helperName arguments
    destinationOperandIndex destinationByteWidth destinationUnsigned {}

end Emit

end MicrocodeContext

end Microcode
end Idax
