import Idax.Microcode.Build
import Idax.Microcode.Value

/-!
This module contains `build_call_arguments` and the functions under it.
-/

namespace Idax
namespace Microcode

/--
`static_cast<int>` of a `size_t`.
-/
def narrow (size : UInt64) : Int32 :=
  size.toUInt32.toInt32

def cString (s : String) : String :=
  String.ofList (s.toList.takeWhile (· ≠ '\x00'))

def terminated (declaration : String) : String :=
  let declaration := cString declaration
  if declaration.toList.getLast? = none ∨ declaration.toList.getLast? = some ';' then declaration
  else declaration ++ ";"

variable {μ τ : Type} (sdk : Sdk μ τ)

section Types

def makeIntegerType (byteWidth : Int32) (isUnsigned : Bool) : Option τ :=
  if byteWidth = 1 then some (sdk.basicType (.int8 isUnsigned))
  else if byteWidth = 2 then some (sdk.basicType (.int16 isUnsigned))
  else if byteWidth = 4 then some (sdk.basicType (.int32 isUnsigned))
  else if byteWidth = 8 then some (sdk.basicType (.int64 isUnsigned))
  else none

def makeByteArrayType (byteWidth : Int32) : Option τ :=
  if byteWidth ≤ 0 then
    none
  else
    let array := sdk.createArray (sdk.basicType (.int8 true)) byteWidth.toUInt32
    if sdk.getSize array ≠ byteWidth.toInt64.toUInt64 then none else some array

def parseTypeDeclaration (declarationText context : String) : Result τ :=
  if declarationText.isEmpty then
    .error (.validation "Type declaration cannot be empty" context)
  else
    match sdk.parseDecl (terminated declarationText) with
    | none => .error (.validation "Failed to parse type declaration" declarationText)
    | some parsed => .ok parsed

def inferTypedValueType (byteWidth : Int32) (unsignedInteger : Bool) (context : String)
    : Result τ :=
  if byteWidth ≤ 0 then
    .error (.validation "Typed value byte width must be positive" context)
  else
    match makeIntegerType sdk byteWidth unsignedInteger with
    | some type => .ok type
    | none =>
      match makeByteArrayType sdk byteWidth with
      | some type => .ok type
      | none => .error (.unsupported "Typed value byte width unsupported" (toString byteWidth))

def sizeMismatch (message : String) (declaredSize : UInt64) (width : Int32) : Error :=
  .validation message (toString declaredSize ++ ":" ++ toString width)

def strictType (argument : MicrocodeValue) (context unknown mismatch : String)
    (infer : Result τ) : Result (τ × Int32) :=
  if !argument.typeDeclaration.isEmpty then do
    let type ← parseTypeDeclaration sdk argument.typeDeclaration context
    let declaredSize := sdk.getSize type
    if declaredSize = 0 then
      .error (.validation unknown argument.typeDeclaration)
    else if argument.byteWidth ≤ 0 then
      return (type, narrow declaredSize)
    else if narrow declaredSize ≠ argument.byteWidth then
      .error (sizeMismatch mismatch declaredSize argument.byteWidth)
    else
      return (type, argument.byteWidth)
  else do
    let type ← infer
    return (type, argument.byteWidth)

def lenientType (argument : MicrocodeValue) (width : Int32) (context mismatch : String)
    : Result (τ × Int32) :=
  if !argument.typeDeclaration.isEmpty then do
    let type ← parseTypeDeclaration sdk argument.typeDeclaration context
    let declaredSize := sdk.getSize type
    let width := if declaredSize ≠ 0 ∧ width ≤ 0 then narrow declaredSize else width
    if declaredSize ≠ 0 ∧ 0 < width ∧ narrow declaredSize ≠ width then
      .error (sizeMismatch mismatch declaredSize width)
    else
      return (type, width)
  else do
    let type ← inferTypedValueType sdk width argument.unsignedInteger context
    return (type, width)

end Types

section Location

def applySingleLocationToArgloc (location : MicrocodeSingleLocation) (context : String)
    : Result SingleArgloc :=
  match location.kind with
  | .register =>
    if location.registerId < 0 then
      .error (.validation "Explicit register id cannot be negative" context)
    else
      .ok (.reg1 location.registerId 0)
  | .registerWithOffset =>
    if location.registerId < 0 then
      .error (.validation "Explicit register id cannot be negative" context)
    else
      .ok (.reg1 location.registerId location.registerOffset)
  | .registerPair =>
    if location.registerId < 0 ∨ location.secondRegisterId < 0 then
      .error (.validation "Explicit register-pair ids cannot be negative" context)
    else
      .ok (.reg2 location.registerId location.secondRegisterId)
  | .registerRelative =>
    if location.registerId < 0 then
      .error (.validation "Explicit register-relative base register cannot be negative" context)
    else
      .ok (.rrel location.registerId location.registerRelativeOffset)
  | .stackOffset => .ok (.stkoff location.stackOffset)
  | .staticAddress =>
    if location.staticAddress = badAddress then
      .error (.validation "Explicit static address cannot be BadAddress" context)
    else
      .ok (.ea location.staticAddress)
  | .unspecified => .error (.validation "Explicit location kind is unspecified" context)
  | .scattered => .error (.validation "Nested scattered locations are not supported" context)

def applyScatteredParts (context : String)
    : (partIndex : Nat) → List MicrocodeLocationPart → Result (List Argpart)
  | _, [] => .ok []
  | partIndex, part :: parts => do
    let context' := context ++ ":" ++ toString partIndex
    if part.byteOffset < 0 ∨ part.byteOffset > 0xffff then
      .error (.validation "Scattered location part offset out of range" context')
    else if part.byteSize ≤ 0 ∨ part.byteSize > 0xffff then
      .error (.validation "Scattered location part size out of range" context')
    else
      let location ← applySingleLocationToArgloc part.toMicrocodeSingleLocation context'
      let argparts ← applyScatteredParts context (partIndex + 1) parts
      return { location, off := part.byteOffset, size := part.byteSize } :: argparts

def applyLocationToArgloc (location : MicrocodeValueLocation) (context : String)
    (allowUnspecified : Bool) : Result (Argloc × Bool) :=
  if location.kind = .unspecified then
    if allowUnspecified then .ok (.none, false)
    else .error (.validation "Explicit location kind is unspecified" context)
  else if location.kind = .scattered then
    if location.scatteredParts.isEmpty then
      .error (.validation "Scattered explicit location requires at least one part" context)
    else do
      let parts ← applyScatteredParts context 0 location.scatteredParts
      return (.scattered parts, true)
  else do
    let argloc ← applySingleLocationToArgloc location.toMicrocodeSingleLocation context
    return (.single argloc, true)

def applyExplicitLocation (location : MicrocodeValueLocation) (index : Nat)
    : Result (Argloc × Bool) :=
  applyLocationToArgloc location (toString index) true

end Location

section Operand

variable (mba : Option μ) (instructionAddress : Address) (index : Nat)

def withWidth (width : Int32) (mop : Mop μ) : Mop μ :=
  mop.withWidth width.toInt

def registerArgument (argument : MicrocodeValue) : Result (Mcallarg μ τ) :=
  if argument.registerId < 0 then
    .error (.validation "Microcode register argument id cannot be negative" (toString index))
  else do
    let (type, width) ← strictType sdk argument "register"
      "Parsed register argument type has unknown size"
      "Register argument type size does not match byte width" <|
        if argument.byteWidth ≤ 0 then
          .error (.validation "Microcode register argument byte width must be positive"
            (toString index))
        else
          inferTypedValueType sdk argument.byteWidth argument.unsignedInteger "register"
    return { mop := .makeReg argument.registerId width.toInt, type }

def operandArgument (argument : MicrocodeValue) (mop : Mop μ) (width : Int32)
    (context mismatch : String) : Result (Mcallarg μ τ) := do
  let (type, width) ← lenientType sdk argument width context mismatch
  return { mop := withWidth width mop, type }

def localVariableArgument (argument : MicrocodeValue) : Result (Mcallarg μ τ) :=
  match mba with
  | none =>
    .error (.internal "Local-variable argument requires microcode context" (toString index))
  | some mba =>
    if argument.localVariableIndex < 0 then
      .error (.validation "Microcode local-variable argument index cannot be negative"
        (toString index))
    else if sdk.varCount mba ≤ argument.localVariableIndex.toNat then
      .error (.validation "Microcode local-variable argument index out of range" (toString index))
    else
      operandArgument sdk argument
        (.makeLvar mba argument.localVariableIndex argument.localVariableOffset) argument.byteWidth
        "local_variable" "Local-variable argument type size does not match byte width"

def registerPairArgument (argument : MicrocodeValue) : Result (Mcallarg μ τ) :=
  if argument.registerId < 0 ∨ argument.secondRegisterId < 0 then
    .error (.validation "Microcode register-pair argument ids cannot be negative" (toString index))
  else if argument.byteWidth ≤ 0 ∨ argument.byteWidth % 2 ≠ 0 then
    .error (.validation "Microcode register-pair argument width must be a positive even value"
      (toString index))
  else do
    let (type, width) ← strictType sdk argument "register_pair"
      "Parsed register-pair argument type has unknown size"
      "Register-pair argument type size does not match byte width"
      (inferTypedValueType sdk argument.byteWidth argument.unsignedInteger "register_pair")
    let pair := Mop.makeRegPair argument.registerId argument.secondRegisterId (width / 2).toInt
    return { mop := if 8 < width then pair.setUdt else pair, type }

def globalAddressArgument (argument : MicrocodeValue) : Result (Mcallarg μ τ) :=
  if argument.globalAddress = badAddress then
    .error (.validation "Microcode global-address argument cannot be BadAddress" (toString index))
  else
    operandArgument sdk argument (.makeGvar argument.globalAddress) argument.byteWidth
      "global_address" "Global-address argument type size does not match byte width"

def stackVariableArgument (argument : MicrocodeValue) : Result (Mcallarg μ τ) :=
  match mba with
  | none =>
    .error (.internal "Stack-variable argument requires microcode context" (toString index))
  | some mba =>
    operandArgument sdk argument (.makeStkvar mba argument.stackOffset) argument.byteWidth
      "stack_variable" "Stack-variable argument type size does not match byte width"

def helperReferenceArgument (argument : MicrocodeValue) : Result (Mcallarg μ τ) :=
  if argument.helperName.isEmpty then
    .error (.validation "Helper-reference argument requires helper_name" (toString index))
  else
    operandArgument sdk argument (.makeHelper argument.helperName) argument.byteWidth
      "helper_reference" "Helper-reference argument type size does not match byte width"

def blockReferenceArgument (argument : MicrocodeValue) : Result (Mcallarg μ τ) :=
  if argument.blockIndex < 0 then
    .error (.validation "Microcode block-reference argument index cannot be negative"
      (toString index))
  else
    operandArgument sdk argument (.makeBlkref argument.blockIndex) argument.byteWidth
      "block_reference" "Block-reference argument type size does not match byte width"

def nestedInstructionArgument (argument : MicrocodeValue) : Result (Mcallarg μ τ) :=
  match argument.nestedInstruction with
  | none =>
    .error (.validation "Nested-instruction argument requires nested_instruction payload"
      (toString index))
  | some instruction => do
    let nested ← buildTypedNestedInstruction mba instructionAddress instruction
      ("call_argument_nested:" ++ toString index) 0
    let mop := Mop.createFromInsn nested
    let width := if argument.byteWidth ≤ 0 then Int32.ofInt mop.size else argument.byteWidth
    operandArgument sdk argument mop width "nested_instruction"
      "Nested-instruction argument type size does not match byte width"

def immediateArgument (argument : MicrocodeValue) (value : UInt64) (isUnsigned : Bool)
    (context : String) : Result (Mcallarg μ τ) := do
  let (type, width) ← strictType sdk argument context
    "Parsed immediate argument type has unknown size"
    "Immediate argument type size does not match byte width" <|
      if argument.byteWidth ≤ 0 then
        .error (.validation "Microcode immediate argument byte width must be positive"
          (toString index))
      else
        match makeIntegerType sdk argument.byteWidth isUnsigned with
        | some type => .ok type
        | none =>
          .error (.unsupported "Microcode typed argument width unsupported"
            (toString argument.byteWidth))
  return { mop := .makeNumber value width.toInt instructionAddress 0, type }

def unsignedImmediateArgument (argument : MicrocodeValue) : Result (Mcallarg μ τ) :=
  immediateArgument sdk instructionAddress index argument argument.unsignedImmediate true
    "unsigned_immediate"

def signedImmediateArgument (argument : MicrocodeValue) : Result (Mcallarg μ τ) :=
  immediateArgument sdk instructionAddress index argument argument.signedImmediate.toUInt64 false
    "signed_immediate"

def floatArgument (argument : MicrocodeValue) (bits : UInt64) (size : Int32) (type : BasicType)
    (message : String) : Result (Mcallarg μ τ) :=
  let width := if argument.byteWidth = 0 then size else argument.byteWidth
  if width ≠ size then
    .error (.validation message (toString index))
  else
    .ok { mop := .makeNumber bits width.toInt instructionAddress 0, type := sdk.basicType type }

def float32ImmediateArgument (argument : MicrocodeValue) : Result (Mcallarg μ τ) :=
  floatArgument sdk instructionAddress index argument
    (sdk.toFloat argument.floatingImmediate).toUInt64 4 .float
    "Float32 argument width must be 4 bytes"

def float64ImmediateArgument (argument : MicrocodeValue) : Result (Mcallarg μ τ) :=
  floatArgument sdk instructionAddress index argument argument.floatingImmediate 8 .double
    "Float64 argument width must be 8 bytes"

variable (options : MicrocodeCallOptions)

def needsLocation (argument : MicrocodeValue) : Bool :=
  decide (argument.location.kind = .unspecified) && !options.autoStackArgumentLocations

def byteArrayArgument (argument : MicrocodeValue) : Result (Mcallarg μ τ) :=
  if argument.byteWidth ≤ 0 then
    .error (.validation "ByteArray argument byte width must be positive" (toString index))
  else if needsLocation options argument then
    .error (.validation "ByteArray argument requires explicit location" (toString index))
  else
    .ok { type := sdk.createArray (sdk.basicType (.int8 true)) argument.byteWidth.toUInt32 }

def vectorElementType (argument : MicrocodeValue) : Result (τ × Int32) :=
  let elementByteWidth := argument.vectorElementByteWidth
  if !argument.typeDeclaration.isEmpty then do
    let elementType ← parseTypeDeclaration sdk argument.typeDeclaration "vector_element"
    let declaredSize := sdk.getSize elementType
    if declaredSize = 0 then
      .error (.validation "Vector element type declaration has unknown size" (toString index))
    else if elementByteWidth ≤ 0 then
      return (elementType, narrow declaredSize)
    else if narrow declaredSize ≠ elementByteWidth then
      .error (sizeMismatch "Vector element declaration size does not match byte width" declaredSize
        elementByteWidth)
    else
      return (elementType, elementByteWidth)
  else if elementByteWidth ≤ 0 then
    .error (.validation "Vector argument element byte width must be positive" (toString index))
  else if argument.vectorElementsFloating then
    if elementByteWidth = 4 then .ok (sdk.basicType .float, elementByteWidth)
    else if elementByteWidth = 8 then .ok (sdk.basicType .double, elementByteWidth)
    else .error (.validation "Floating vector elements must be 4 or 8 bytes" (toString index))
  else
    match makeIntegerType sdk elementByteWidth argument.vectorElementsUnsigned with
    | some elementType => .ok (elementType, elementByteWidth)
    | none =>
      .error (.unsupported "Vector integer element width unsupported" (toString elementByteWidth))

def vectorElementCount (argument : MicrocodeValue) (elementByteWidth : Int32) : Result Int32 :=
  if argument.vectorElementCount ≤ 0 then
    if argument.byteWidth ≤ 0 then
      .error (.validation "Vector argument element count must be positive" (toString index))
    else if elementByteWidth ≤ 0 ∨ argument.byteWidth % elementByteWidth ≠ 0 then
      .error (.validation "Vector argument byte width must be divisible by element width"
        (toString index))
    else
      .ok (argument.byteWidth / elementByteWidth)
  else
    .ok argument.vectorElementCount

def vectorArgument (argument : MicrocodeValue) : Result (Mcallarg μ τ) :=
  if needsLocation options argument then
    .error (.validation "Vector argument requires explicit location" (toString index))
  else do
    let (elementType, elementByteWidth) ← vectorElementType sdk index argument
    let elementCount ← vectorElementCount index argument elementByteWidth
    if elementCount ≤ 0 then
      .error (.validation "Vector argument element count must be positive" (toString index))
    else if 0 < argument.byteWidth ∧ 0 < elementByteWidth
        ∧ elementCount * elementByteWidth ≠ argument.byteWidth then
      .error (.validation "Vector argument byte width does not match element count/size"
        (toString (elementCount * elementByteWidth) ++ ":" ++ toString argument.byteWidth))
    else
      return { type := sdk.createArray elementType elementCount.toUInt32 }

def typeDeclarationViewArgument (argument : MicrocodeValue) : Result (Mcallarg μ τ) :=
  if argument.typeDeclaration.isEmpty then
    .error (.validation "TypeDeclarationView argument requires a non-empty declaration"
      (toString index))
  else if needsLocation options argument then
    .error (.validation "TypeDeclarationView argument requires explicit location" (toString index))
  else
    match sdk.parseDecl (terminated argument.typeDeclaration) with
    | none =>
      .error (.validation "Failed to parse TypeDeclarationView declaration"
        argument.typeDeclaration)
    | some declaredType => .ok { type := declaredType }

def kindArgument (argument : MicrocodeValue) : Result (Mcallarg μ τ) :=
  match argument.kind with
  | .register => registerArgument sdk index argument
  | .localVariable => localVariableArgument sdk mba index argument
  | .registerPair => registerPairArgument sdk index argument
  | .globalAddress => globalAddressArgument sdk index argument
  | .stackVariable => stackVariableArgument sdk mba index argument
  | .helperReference => helperReferenceArgument sdk index argument
  | .blockReference => blockReferenceArgument sdk index argument
  | .nestedInstruction => nestedInstructionArgument sdk mba instructionAddress index argument
  | .unsignedImmediate => unsignedImmediateArgument sdk instructionAddress index argument
  | .signedImmediate => signedImmediateArgument sdk instructionAddress index argument
  | .float32Immediate => float32ImmediateArgument sdk instructionAddress index argument
  | .float64Immediate => float64ImmediateArgument sdk instructionAddress index argument
  | .byteArray => byteArrayArgument sdk index options argument
  | .vector => vectorArgument sdk index options argument
  | .typeDeclarationView => typeDeclarationViewArgument sdk index options argument

def hiddenFlag : UInt32 := 0x1

def retptrFlag : UInt32 := 0x2

def kSupportedArgumentFlags : UInt32 := 0x1f

def buildArgument (argument : MicrocodeValue) : Result (Mcallarg μ τ) := do
  let callarg ← kindArgument sdk mba instructionAddress index options argument
  if argument.argumentFlags &&& ~~~kSupportedArgumentFlags ≠ 0 then
    .error (.validation "Microcode argument flags contain unsupported bits"
      (toString argument.argumentFlags))
  else
    let flags :=
      if argument.argumentFlags &&& retptrFlag ≠ 0 then argument.argumentFlags ||| hiddenFlag
      else argument.argumentFlags
    return { callarg with name := cString argument.argumentName, flags }

end Operand

section AutoStack

variable (options : MicrocodeCallOptions)

def growAlignment (size : Int32) : (turns : Nat) → Int32 → Int32
  | 0, alignment => alignment
  | turns + 1, alignment =>
    if alignment < size ∧ alignment < 64 then growAlignment size turns (alignment <<< 1)
    else alignment

/--
From 8 the alignment reaches 64 in three turns.
-/
def stackAlignmentForSize (size : Int32) : Int32 :=
  growAlignment size 3 8

def argumentSize (callarg : Mcallarg μ τ) : Int32 :=
  let size := narrow (sdk.getSize callarg.type)
  if size ≤ 0 then Int32.ofInt callarg.mop.size else size

def argumentAlignment (size : Int32) : Int32 :=
  options.autoStackAlignment.getD (stackAlignmentForSize size)

def alignOffset (autoStackOffset : Int64) (alignment : Int32) : Int64 :=
  let remainder := autoStackOffset % alignment.toInt64
  if remainder ≠ 0 then autoStackOffset + (alignment.toInt64 - remainder) else autoStackOffset

def placedAutomatically (argument : MicrocodeValue) : Bool :=
  decide (argument.location.kind = .unspecified) && options.autoStackArgumentLocations

def effectiveLocation (index : Nat) (argument : MicrocodeValue) (callarg : Mcallarg μ τ)
    (autoStackOffset : Int64) : Result (MicrocodeValueLocation × Int64) :=
  if placedAutomatically options argument then
    let size := argumentSize sdk callarg
    if size ≤ 0 then
      .error (.validation "Cannot infer argument size for auto stack location" (toString index))
    else
      let offset := alignOffset autoStackOffset (argumentAlignment options size)
      .ok ({ argument.location with kind := .stackOffset, stackOffset := offset },
        offset + size.toInt64)
  else
    .ok (argument.location, autoStackOffset)

end AutoStack

structure CallArgumentsBuildResult (μ τ : Type) where
  arguments : List (Mcallarg μ τ) := []
  hasExplicitLocations : Bool := false

variable (mba : Option μ) (instructionAddress : Address) (options : MicrocodeCallOptions)

def buildArgumentsFrom : (index : Nat) → (autoStackOffset : Int64) → List MicrocodeValue
    → Result (CallArgumentsBuildResult μ τ)
  | _, _, [] => .ok {}
  | index, autoStackOffset, argument :: arguments => do
    let callarg ← buildArgument sdk mba instructionAddress index options argument
    let (location, autoStackOffset) ←
      effectiveLocation sdk options index argument callarg autoStackOffset
    let (argloc, hasExplicit) ← applyExplicitLocation location index
    let result ← buildArgumentsFrom (index + 1) autoStackOffset arguments
    return {
      arguments := { callarg with argloc } :: result.arguments
      hasExplicitLocations := hasExplicit || result.hasExplicitLocations
    }

def checkAutoStackOptions : Status :=
  let startOffset := options.autoStackStartOffset.getD 0
  let alignment := options.autoStackAlignment.getD 1
  if startOffset < 0 then
    .error (.validation "Auto stack start offset cannot be negative" (toString startOffset))
  else if alignment ≤ 0 then
    .error (.validation "Auto stack alignment must be positive" (toString alignment))
  else if alignment &&& (alignment - 1) ≠ 0 then
    .error (.validation "Auto stack alignment must be a power of two" (toString alignment))
  else
    ok

def buildCallArguments (arguments : List MicrocodeValue)
    : Result (CallArgumentsBuildResult μ τ) := do
  checkAutoStackOptions options
  buildArgumentsFrom sdk mba instructionAddress options 0 (options.autoStackStartOffset.getD 0)
    arguments

end Microcode
end Idax
