import Idax.Microcode.Argument

/-!
This module contains `apply_call_options`, which shapes the call information of a helper call.
-/

namespace Idax
namespace Microcode

section Lists

abbrev Mlist := List (Int × Int)

def Mlist.has (list : Mlist) (byte : Int) : Bool :=
  list.any fun (register, width) => decide (register ≤ byte) && decide (byte < register + width)

def Mlist.includes (list sub : Mlist) : Bool :=
  sub.all fun (register, width) =>
    (List.range width.toNat).all fun (i : Nat) => list.has (register + i)

inductive Ivlset where
  | ranges (ranges : List (Address × UInt64))
  | allValues

end Lists

inductive CallingConvention where
  | invalid
  | cdecl
  | stdcall
  | fastcall
  | thiscall
  deriving DecidableEq, Repr

def toSdkCallingConvention : MicrocodeCallingConvention → CallingConvention
  | .unspecified => .invalid
  | .cdecl => .cdecl
  | .stdcall => .stdcall
  | .fastcall => .fastcall
  | .thiscall => .thiscall

inductive CallFlag where
  | final
  | prop
  | dead
  | noret
  | pure
  | noside
  | splok
  | hascall
  | hasfmt
  | explocs
  deriving DecidableEq, Repr

structure Mcallinfo (τ : Type) where
  callee : Address := badAddress
  solidArgs : Int := 0
  callSpd : Int := 0
  stkargsTop : Int := 0
  role : MicrocodeFunctionRole := .unknown
  returnArgloc : Argloc := .none
  returnType : τ
  cc : CallingConvention := .invalid
  flags : List CallFlag := []
  returnRegs : Mlist := []
  spoiled : Mlist := []
  passRegs : Mlist := []
  deadRegs : Mlist := []
  visibleMemory : Ivlset := .ranges []

def applyRegisterRanges (context : String)
    : (index : Nat) → List MicrocodeRegisterRange → Result Mlist
  | _, [] => .ok []
  | index, range :: ranges => do
    if range.registerId < 0 then
      .error (.validation "Microcode register range id cannot be negative"
        (context ++ ":" ++ toString index))
    else if range.byteWidth ≤ 0 then
      .error (.validation "Microcode register range width must be positive"
        (context ++ ":" ++ toString index))
    else
      let output ← applyRegisterRanges context (index + 1) ranges
      return (range.registerId, range.byteWidth) :: output

def visibleRanges (context : String)
    : (index : Nat) → List MicrocodeMemoryRange → Result (List (Address × UInt64))
  | _, [] => .ok []
  | index, range :: ranges => do
    if range.address = badAddress then
      .error (.validation "Visible memory range address cannot be BadAddress"
        (context ++ ":" ++ toString index))
    else if range.byteSize = 0 then
      .error (.validation "Visible memory range byte size must be positive"
        (context ++ ":" ++ toString index))
    else
      let output ← visibleRanges context (index + 1) ranges
      return (range.address, range.byteSize) :: output

def applyVisibleMemoryRanges (ranges : List MicrocodeMemoryRange) (allValues : Bool)
    (context : String) : Result Ivlset :=
  if allValues && !ranges.isEmpty then
    .error (.validation
      "visible_memory_all cannot be combined with explicit visible memory ranges" context)
  else if allValues then
    .ok .allValues
  else do
    let output ← visibleRanges context 0 ranges
    return .ranges output

namespace MicrocodeCallOptions

variable (options : MicrocodeCallOptions)

def hasOptions : Bool :=
  options.calleeAddress.isSome
    || options.solidArgumentCount.isSome
    || options.callStackPointerDelta.isSome
    || options.stackArgumentsTop.isSome
    || options.functionRole.isSome
    || options.returnLocation.isSome
    || !options.returnTypeDeclaration.isEmpty
    || decide (options.callingConvention ≠ .unspecified)
    || options.markFinal
    || options.markPropagated
    || options.markDeadReturnRegisters
    || options.markNoReturn
    || options.markPure
    || options.markNoSideEffects
    || options.markSpoiledListsOptimized
    || options.markSyntheticHasCall
    || options.markHasFormatString
    || options.markExplicitLocations
    || !options.returnRegisters.isEmpty
    || !options.spoiledRegisters.isEmpty
    || !options.passthroughRegisters.isEmpty
    || !options.deadRegisters.isEmpty
    || !options.visibleMemoryRanges.isEmpty
    || options.visibleMemoryAll

def flags : List CallFlag :=
  (if options.markFinal then [.final] else [])
    ++ (if options.markPropagated then [.prop] else [])
    ++ (if options.markDeadReturnRegisters then [.dead] else [])
    ++ (if options.markNoReturn then [.noret] else [])
    ++ (if options.markPure then [.pure] else [])
    ++ (if options.markNoSideEffects then [.noside] else [])
    ++ (if options.markSpoiledListsOptimized then [.splok] else [])
    ++ (if options.markSyntheticHasCall then [.hascall] else [])
    ++ (if options.markHasFormatString then [.hasfmt] else [])
    ++ (if options.markExplicitLocations then [.explocs] else [])

end MicrocodeCallOptions

variable {μ τ : Type} (sdk : Sdk μ τ) (options : MicrocodeCallOptions)

def applyScalarOptions (info : Mcallinfo τ) : Result (Mcallinfo τ) :=
  let info := { info with callee := options.calleeAddress.getD info.callee }
  let solidArgs := options.solidArgumentCount.getD info.solidArgs
  if options.solidArgumentCount.isSome ∧ solidArgs < 0 then
    .error (.validation "Solid argument count cannot be negative" (toString solidArgs))
  else
    .ok {
      info with
      solidArgs
      callSpd := options.callStackPointerDelta.getD info.callSpd
      stkargsTop := options.stackArgumentsTop.getD info.stkargsTop
      role := options.functionRole.getD info.role
    }

def applyReturnOptions (info : Mcallinfo τ) : Result (Mcallinfo τ) := do
  let info ← match options.returnLocation with
    | none => pure info
    | some location => do
      let (returnArgloc, _) ← applyLocationToArgloc location "return" false
      pure { info with returnArgloc }
  if options.returnTypeDeclaration.isEmpty then
    return info
  else
    match sdk.parseDecl (terminated options.returnTypeDeclaration) with
    | none =>
      .error (.validation "Failed to parse helper-call return type declaration"
        options.returnTypeDeclaration)
    | some returnType => return { info with returnType }

def rangesOr (old : Mlist) (ranges : List MicrocodeRegisterRange) (context : String)
    : Result Mlist :=
  if ranges.isEmpty then .ok old else applyRegisterRanges context 0 ranges

def applyRegisterOptions (helperName : String) (info : Mcallinfo τ) : Result (Mcallinfo τ) := do
  let returnRegs ← rangesOr info.returnRegs options.returnRegisters "return_registers"
  let spoiled ← rangesOr info.spoiled options.spoiledRegisters "spoiled_registers"
  let passRegs ← rangesOr info.passRegs options.passthroughRegisters "passthrough_registers"
  let deadRegs ← rangesOr info.deadRegs options.deadRegisters "dead_registers"
  let spoiled := spoiled ++ returnRegs
  if !options.passthroughRegisters.isEmpty && !spoiled.includes passRegs then
    .error (.validation "passthrough_registers must be a subset of spoiled_registers" helperName)
  else
    return { info with returnRegs, spoiled, passRegs, deadRegs }

def shapeCallinfo (helperName : String) (info : Mcallinfo τ) : Result (Mcallinfo τ) := do
  let info ← applyScalarOptions options info
  let info ← applyReturnOptions sdk options info
  let cc := toSdkCallingConvention options.callingConvention
  let info := { info with cc := if cc = CallingConvention.invalid then info.cc else cc }
  let info := { info with flags := info.flags ++ options.flags }
  let info ← applyRegisterOptions options helperName info
  if options.visibleMemoryAll || !options.visibleMemoryRanges.isEmpty then
    let visibleMemory ← applyVisibleMemoryRanges options.visibleMemoryRanges
      options.visibleMemoryAll "visible_memory"
    return { info with visibleMemory }
  else
    return info

structure HelperCall (μ τ : Type) where
  ea : Address
  helper : String
  returnType : Option τ
  arguments : List (Mcallarg μ τ)
  destination : Option (Mop μ)
  info : Option (Mcallinfo τ)

def applyCallOptions (root : Option (HelperCall μ τ)) (helperName : String)
    : Result (Option (HelperCall μ τ)) :=
  if !options.hasOptions then
    .ok root
  else
    match root with
    | none => .error (.sdk "Helper-call root instruction missing" helperName)
    | some call =>
      match call.info with
      | none => .error (.sdk "Helper-call instruction shape not recognized" helperName)
      | some info => do
        let info ← shapeCallinfo sdk options helperName info
        return some { call with info := some info }

end Microcode
end Idax
