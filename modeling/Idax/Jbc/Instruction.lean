import Idax.Data.Database
import Idax.Library.Hex

/-!
This module contains the instructions of JAM byte-code and how they are decoded from the bytes of a
database.
-/

namespace Idax
namespace Jbc

abbrev Text := List UInt8

def ascii (text : String) : Text :=
  text.toList.map fun c => UInt8.ofNat c.toNat

inductive OperandKind where
  | none
  | immediate32
  | var
  | address
  | stringOffset
  | state
  | count
  deriving DecidableEq, Repr

def flagNone : UInt16 := 0
def flagBranch : UInt16 := 1
def flagCall : UInt16 := 2
def flagReturn : UInt16 := 4
def flagStop : UInt16 := 8
def flagJtag : UInt16 := 16
def flagStack : UInt16 := 32
def flagIo : UInt16 := 64
def flagConditional : UInt16 := 128
def flagUnimplemented : UInt16 := 256

def hasFlag (flags flag : UInt16) : Bool :=
  flags &&& flag != 0

structure InstructionDefinition where
  opcode : UInt8
  mnemonic : Text
  operand1 : OperandKind
  operand2 : OperandKind
  operand3 : OperandKind
  flags : UInt16
  deriving DecidableEq, Repr

def argumentCount (opcode : UInt8) : Nat :=
  ((opcode >>> 6) &&& 3).toNat

def instructionSize (opcode : UInt8) : Nat :=
  1 + argumentCount opcode * 4

/--
There are four bytes wherever this is called.
-/
def readBigEndianU32 : List UInt8 → UInt32
  | b :: b1 :: b2 :: b3 :: _ =>
    b.toUInt32 <<< 24 ||| b1.toUInt32 <<< 16 ||| b2.toUInt32 <<< 8 ||| b3.toUInt32
  | _ => 0

def jtagStateNames : List Text :=
  [ascii "TEST_LOGIC_RESET", ascii "RUN_TEST_IDLE",
   ascii "SELECT_DR_SCAN", ascii "CAPTURE_DR", ascii "SHIFT_DR", ascii "EXIT1_DR",
   ascii "PAUSE_DR", ascii "EXIT2_DR", ascii "UPDATE_DR",
   ascii "SELECT_IR_SCAN", ascii "CAPTURE_IR", ascii "SHIFT_IR", ascii "EXIT1_IR",
   ascii "PAUSE_IR", ascii "EXIT2_IR", ascii "UPDATE_IR"]

def jtagStateName (state : UInt8) : Text :=
  jtagStateNames.getD state.toNat (ascii "UNKNOWN_STATE")

def instructionTable : List InstructionDefinition :=
  [⟨0x00, ascii "nop", .none, .none, .none, flagNone⟩,
   ⟨0x01, ascii "dup", .none, .none, .none, flagStack⟩,
   ⟨0x02, ascii "swp", .none, .none, .none, flagStack⟩,
   ⟨0x03, ascii "add", .none, .none, .none, flagNone⟩,
   ⟨0x04, ascii "sub", .none, .none, .none, flagNone⟩,
   ⟨0x05, ascii "mult", .none, .none, .none, flagNone⟩,
   ⟨0x06, ascii "div", .none, .none, .none, flagNone⟩,
   ⟨0x07, ascii "mod", .none, .none, .none, flagNone⟩,
   ⟨0x08, ascii "shl", .none, .none, .none, flagNone⟩,
   ⟨0x09, ascii "shr", .none, .none, .none, flagNone⟩,
   ⟨0x0A, ascii "not", .none, .none, .none, flagNone⟩,
   ⟨0x0B, ascii "and", .none, .none, .none, flagNone⟩,
   ⟨0x0C, ascii "or", .none, .none, .none, flagNone⟩,
   ⟨0x0D, ascii "xor", .none, .none, .none, flagNone⟩,
   ⟨0x0E, ascii "inv", .none, .none, .none, flagNone⟩,
   ⟨0x0F, ascii "gt", .none, .none, .none, flagNone⟩,
   ⟨0x10, ascii "lt", .none, .none, .none, flagNone⟩,
   ⟨0x11, ascii "ret", .none, .none, .none, flagReturn⟩,
   ⟨0x12, ascii "cmps", .none, .none, .none, flagNone⟩,
   ⟨0x13, ascii "pint", .none, .none, .none, flagIo⟩,
   ⟨0x14, ascii "prnt", .none, .none, .none, flagIo⟩,
   ⟨0x15, ascii "dss", .none, .none, .none, flagJtag⟩,
   ⟨0x16, ascii "dssc", .none, .none, .none, flagJtag⟩,
   ⟨0x17, ascii "iss", .none, .none, .none, flagJtag⟩,
   ⟨0x18, ascii "issc", .none, .none, .none, flagJtag⟩,
   ⟨0x19, ascii "vss", .none, .none, .none, flagJtag ||| flagUnimplemented⟩,
   ⟨0x1A, ascii "vssc", .none, .none, .none, flagJtag ||| flagUnimplemented⟩,
   ⟨0x1B, ascii "vmpf", .none, .none, .none, flagJtag ||| flagUnimplemented⟩,
   ⟨0x1C, ascii "dpr", .none, .none, .none, flagJtag⟩,
   ⟨0x1D, ascii "dprl", .none, .none, .none, flagJtag⟩,
   ⟨0x1E, ascii "dpo", .none, .none, .none, flagJtag⟩,
   ⟨0x1F, ascii "dpol", .none, .none, .none, flagJtag⟩,
   ⟨0x20, ascii "ipr", .none, .none, .none, flagJtag⟩,
   ⟨0x21, ascii "iprl", .none, .none, .none, flagJtag⟩,
   ⟨0x22, ascii "ipo", .none, .none, .none, flagJtag⟩,
   ⟨0x23, ascii "ipol", .none, .none, .none, flagJtag⟩,
   ⟨0x24, ascii "pchr", .none, .none, .none, flagIo⟩,
   ⟨0x25, ascii "exit", .none, .none, .none, flagStop⟩,
   ⟨0x26, ascii "equ", .none, .none, .none, flagNone⟩,
   ⟨0x27, ascii "popt", .none, .none, .none, flagStack⟩,
   ⟨0x28, ascii "trst", .none, .none, .none, flagJtag ||| flagUnimplemented⟩,
   ⟨0x29, ascii "frq", .none, .none, .none, flagUnimplemented⟩,
   ⟨0x2A, ascii "frqu", .none, .none, .none, flagUnimplemented⟩,
   ⟨0x2B, ascii "pd32", .none, .none, .none, flagUnimplemented⟩,
   ⟨0x2C, ascii "abs", .none, .none, .none, flagNone⟩,
   ⟨0x2D, ascii "bch0", .none, .none, .none, flagStack⟩,
   ⟨0x2E, ascii "bch1", .none, .none, .none, flagStack ||| flagUnimplemented⟩,
   ⟨0x2F, ascii "psh0", .none, .none, .none, flagStack⟩,
   ⟨0x40, ascii "pshl", .immediate32, .none, .none, flagStack⟩,
   ⟨0x41, ascii "pshv", .var, .none, .none, flagStack⟩,
   ⟨0x42, ascii "jmp", .address, .none, .none, flagBranch⟩,
   ⟨0x43, ascii "call", .address, .none, .none, flagCall⟩,
   ⟨0x45, ascii "pstr", .stringOffset, .none, .none, flagIo⟩,
   ⟨0x47, ascii "sint", .state, .none, .none, flagJtag⟩,
   ⟨0x48, ascii "st", .state, .none, .none, flagJtag⟩,
   ⟨0x49, ascii "istp", .state, .none, .none, flagJtag⟩,
   ⟨0x4A, ascii "dstp", .state, .none, .none, flagJtag⟩,
   ⟨0x50, ascii "jmpz", .address, .none, .none, flagBranch ||| flagConditional⟩,
   ⟨0x51, ascii "ds", .var, .none, .none, flagJtag⟩,
   ⟨0x52, ascii "is", .var, .none, .none, flagJtag⟩,
   ⟨0x57, ascii "expt", .stringOffset, .none, .none, flagIo⟩,
   ⟨0x80, ascii "copy", .var, .var, .none, flagNone⟩,
   ⟨0x82, ascii "dsc", .var, .var, .none, flagJtag⟩,
   ⟨0x83, ascii "isc", .var, .var, .none, flagJtag⟩,
   ⟨0x84, ascii "wait", .state, .state, .none, flagJtag⟩,
   ⟨0xC0, ascii "cmpa", .var, .var, .var, flagNone⟩]

def lookupInstruction (opcode : UInt8) : Option InstructionDefinition :=
  instructionTable.find? (·.opcode == opcode)

def operandKind (definition : Option InstructionDefinition) (operandIndex : Nat) : OperandKind :=
  match definition with
  | .none => .immediate32
  | .some definition =>
    match operandIndex with
    | 0 => definition.operand1
    | 1 => definition.operand2
    | 2 => definition.operand3
    | _ => .none

/--
`snprintf` with `op_%02X`.
-/
def unknownMnemonic (opcode : UInt8) : Text :=
  ascii "op_" ++ Hex.encode 2 opcode.toNat

structure DecodedInstruction where
  opcode : UInt8 := 0
  argumentCount : Nat := 0
  size : Nat := 0
  arguments : List UInt32 := [0, 0, 0]
  definition : Option InstructionDefinition := .none
  deriving DecidableEq, Repr

def readArguments (count : Nat) (bytes : List UInt8) : List UInt32 :=
  (List.range 3).map fun index =>
    if index < count then readBigEndianU32 (bytes.drop (index * 4)) else 0

def decodeInstruction (db : Data.Database) (address : UInt64) : Result DecodedInstruction :=
  match db.readByte address.toNat with
  | .error e => .error e
  | .ok opcode =>
    let decoded : DecodedInstruction := {
      opcode
      argumentCount := argumentCount opcode
      size := instructionSize opcode
      definition := lookupInstruction opcode
    }
    if decoded.argumentCount > 0 then
      match db.readBytes (address + 1).toNat (decoded.argumentCount * 4) with
      | .error e => .error e
      | .ok bytes =>
        if bytes.length ≠ decoded.argumentCount * 4 then
          .error (.validation "Truncated JBC instruction arguments" (toString address.toNat))
        else
          .ok { decoded with arguments := readArguments decoded.argumentCount bytes }
    else
      .ok decoded

end Jbc
end Idax
