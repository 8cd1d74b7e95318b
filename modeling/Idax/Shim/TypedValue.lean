import Idax.Data.Typed
import Idax.Shim.Text

/-!
This module contains the C struct of a typed value: the shim copies a value to it for the caller, who
gives it back, and reads it where the caller has built it.
-/

namespace Idax
namespace Shim

open Data
open Ownership

/--
The fields of an `IdaxDataTypedValue` other than `elements`. A `char *` and a `uint8_t *` come with what
they point at.
-/
structure IdaxDataTypedFields where
  kind : Int := 0
  unsignedValue : UInt64 := 0
  signedValue : Int64 := 0
  floatingValue : UInt64 := 0
  pointerValue : UInt64 := 0
  stringValue : Ptr (List UInt8) := none
  bytes : Ptr (List UInt8) := none
  byteCount : Nat := 0
  elementCount : Nat := 0

inductive IdaxDataTypedValue where
  | mk (fields : IdaxDataTypedFields) (elements : Option Nat) (array : List IdaxDataTypedValue)

def IdaxDataTypedValue.zeroed : IdaxDataTypedValue :=
  .mk {} none []

def kindNumber : TypedValueKind → Int
  | .unsignedInteger => 0
  | .signedInteger => 1
  | .floatingPoint => 2
  | .pointer => 3
  | .string => 4
  | .bytes => 5
  | .array => 6

def kindOfNumber? (number : Int) : Option TypedValueKind :=
  if number = 0 then some .unsignedInteger
  else if number = 1 then some .signedInteger
  else if number = 2 then some .floatingPoint
  else if number = 3 then some .pointer
  else if number = 4 then some .string
  else if number = 5 then some .bytes
  else if number = 6 then some .array
  else none

section Free

mutual

def freeTypedValueContents : IdaxDataTypedValue → Mem IdaxDataTypedValue
  | .mk fields elements array => do
    free fields.stringValue.address
    free fields.bytes.address
    if elements.isSome then
      freeElements array fields.elementCount
      free elements
    return .mk
      { fields with stringValue := none, bytes := none, byteCount := 0, elementCount := 0 } none []

def freeElements : List IdaxDataTypedValue → (count : Nat) → Mem Unit
  | _, 0 => return
  | [], _ + 1 => fault
  | value :: array, count + 1 => do
    let _ ← freeTypedValueContents value
    freeElements array count

end

end Free

section Fill

variable (refused : Nat → Bool)

def copyBytes (bytes : List UInt8) : Mem (Ptr (List UInt8)) :=
  if bytes.isEmpty then return none else store refused bytes

def failWith (err : Error) (out : IdaxDataTypedValue) : Mem (Status × IdaxDataTypedValue) := do
  let out ← freeTypedValueContents out
  return (.error err, out)

mutual

/--
A null pointer of an empty string is no failure.
-/
def fillTypedValue : TypedValue → Mem (Status × IdaxDataTypedValue)
  | ⟨kind, unsignedValue, signedValue, floatingValue, pointerValue, string, bytes, elements⟩ => do
    let fields : IdaxDataTypedFields :=
      { kind := kindNumber kind
        unsignedValue, signedValue, floatingValue, pointerValue
        byteCount := bytes.length
        elementCount := elements.length }
    let stringValue ← dupString refused string
    let fields := { fields with stringValue }
    if stringValue.isNone && !string.isEmpty then
      failWith mallocFailed (.mk fields none [])
    else
      let copied ← copyBytes refused bytes
      let fields := { fields with bytes := copied }
      if copied.isNone && !bytes.isEmpty then
        failWith mallocFailed (.mk fields none [])
      else if elements.isEmpty then
        return (ok, .mk fields none [])
      else
        let block ← malloc refused
        if block.isNone then
          failWith mallocFailed (.mk fields none [])
        else
          let (status, array) ← fillElements elements
          match status with
          | .ok _ => return (ok, .mk fields block array)
          | .error err => failWith err (.mk fields block array)

def fillElements : List TypedValue → Mem (Status × List IdaxDataTypedValue)
  | [] => return (ok, [])
  | value :: values => do
    let (status, out) ← fillTypedValue value
    match status with
    | .error err => return (.error err, out :: List.replicate values.length .zeroed)
    | .ok _ =>
      let (status, array) ← fillElements values
      return (status, out :: array)

end

end Fill

section Parse

def readBytes (p : Ptr (List UInt8)) (count : Nat) : Read (List UInt8) :=
  if 0 < count then
    match p with
    | none => throw (.validation "Typed value bytes pointer is null")
    | some block =>
      if count ≤ block.contents.length then return block.contents.take count else outside
  else
    return []

mutual

def parseTypedValue : IdaxDataTypedValue → Read TypedValue
  | .mk fields elements array =>
    match kindOfNumber? fields.kind with
    | none => throw (.validation "Invalid typed value kind" (toString fields.kind))
    | some kind => do
      let stringValue ← readString fields.stringValue
      let bytes ← readBytes fields.bytes fields.byteCount
      if 0 < fields.elementCount ∧ elements.isNone then
        throw (.validation "Typed value elements pointer is null")
      else
        let elements ← parseElements array fields.elementCount
        let value : TypedValue :=
          { kind
            unsignedValue := fields.unsignedValue
            signedValue := fields.signedValue
            floatingValue := fields.floatingValue
            pointerValue := fields.pointerValue
            stringValue, bytes, elements }
        return value

def parseElements : List IdaxDataTypedValue → (count : Nat) → Read (List TypedValue)
  | _, 0 => return []
  | [], _ + 1 => outside
  | value :: array, count + 1 => do
    let element ← parseTypedValue value
    let elements ← parseElements array count
    return element :: elements

end

end Parse

end Shim
end Idax
