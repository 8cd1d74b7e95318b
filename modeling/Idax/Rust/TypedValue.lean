import Idax.Rust.LastError
import Idax.Shim.TypedValueCopy

/-!
This module contains the typed values of the Rust binding. They have only the payload of their kind, and
cross the C interface in the struct of the shim, in both directions.
-/

namespace Idax
namespace Rust

open Ownership
open Shim

inductive TypedValue where
  | unsignedInteger (value : UInt64)
  | signedInteger (value : Int64)
  | floatingPoint (value : UInt64)
  | pointer (value : UInt64)
  | string (value : List UInt8)
  | bytes (value : List UInt8)
  | array (values : List TypedValue)

section Build

/--
Memory that Rust owns. Its addresses are none of those that the shim hands out.
-/
def borrowed (contents : List UInt8) : Ptr (List UInt8) :=
  some { address := 0, contents }

mutual

def buildOwnedTypedValue : TypedValue → Result IdaxDataTypedValue
  | .unsignedInteger value => .ok (.mk { kind := 0, unsignedValue := value } none [])
  | .signedInteger value => .ok (.mk { kind := 1, signedValue := value } none [])
  | .floatingPoint value => .ok (.mk { kind := 2, floatingValue := value } none [])
  | .pointer value => .ok (.mk { kind := 3, pointerValue := value } none [])
  | .string value =>
    if 0 ∈ value then
      .error (.validation "typed string contains interior null")
    else
      .ok (.mk { kind := 4, stringValue := borrowed (value ++ [0]) } none [])
  | .bytes value =>
    if value.isEmpty then
      .ok (.mk { kind := 5 } none [])
    else
      .ok (.mk { kind := 5, bytes := borrowed value, byteCount := value.length } none [])
  | .array values => do
    let raws ← buildOwnedTypedValues values
    if raws.isEmpty then
      .ok (.mk { kind := 6 } none [])
    else
      .ok (.mk { kind := 6, elementCount := raws.length } (some 0) raws)

def buildOwnedTypedValues : List TypedValue → Result (List IdaxDataTypedValue)
  | [] => .ok []
  | value :: values => do
    let raw ← buildOwnedTypedValue value
    let raws ← buildOwnedTypedValues values
    .ok (raw :: raws)

end

end Build

section Convert

def bytesOf (p : Ptr (List UInt8)) (count : Nat) : Read (List UInt8) :=
  if p.isNone ∨ count = 0 then return [] else readBytes p count

mutual

def rawTypedValueToRust : IdaxDataTypedValue → Read TypedValue
  | .mk fields elements array =>
    if fields.kind = 0 then
      return .unsignedInteger fields.unsignedValue
    else if fields.kind = 1 then
      return .signedInteger fields.signedValue
    else if fields.kind = 2 then
      return .floatingPoint fields.floatingValue
    else if fields.kind = 3 then
      return .pointer fields.pointerValue
    else if fields.kind = 4 then do
      let text ← stringOf fields.stringValue
      return .string text
    else if fields.kind = 5 then do
      let bytes ← bytesOf fields.bytes fields.byteCount
      return .bytes bytes
    else if fields.kind = 6 then
      if 0 < fields.elementCount ∧ elements.isNone then
        throw (.internal "typed value array pointer is null")
      else do
        let values ← rawTypedValuesToRust array fields.elementCount
        return .array values
    else
      throw (.validation ("invalid typed value kind: " ++ toString fields.kind))

def rawTypedValuesToRust : List IdaxDataTypedValue → (count : Nat) → Read (List TypedValue)
  | _, 0 => return []
  | [], _ + 1 => outside
  | raw :: array, count + 1 => do
    let value ← rawTypedValueToRust raw
    let values ← rawTypedValuesToRust array count
    return value :: values

end

end Convert

section Calls

variable (casts : Data.FloatCasts) (db : Data.Database) (address : Nat) (ty : Data.TypeInfo)

/--
`read_typed`, which gives the contents of the struct back when they have been converted.
-/
def readTyped (refused : Nat → Bool) : Mem (Except ErrorBytes TypedValue) :=
  match Data.readTyped casts db address ty with
  | .error err => return .error (consumeLastError (setError (.of err)) "read_typed failed")
  | .ok value => do
    let (status, raw) ← fillTypedValue refused value
    match status with
    | .error err => return .error (consumeLastError (setError (.of err)) "read_typed failed")
    | .ok _ =>
      match rawTypedValueToRust raw with
      | none => fault
      | some result =>
        let _ ← freeTypedValueContents raw
        return result.mapError .of

/--
`write_typed`, which has no result where the shim reads outside of what it is given.
-/
def writeTyped (value : TypedValue) : Option (Except ErrorBytes Unit × Data.Database) :=
  match buildOwnedTypedValue value with
  | .error err => some (.error (.of err), db)
  | .ok raw =>
    match parseTypedValue raw with
    | none => none
    | some (.error err) =>
      some (.error (consumeLastError (setError (.of err)) "write_typed failed"), db)
    | some (.ok parsed) =>
      let (status, db) := Data.writeTyped casts db address ty parsed
      let (ret, state) := returnStatus {} (status.mapError .of)
      some (intToStatus ret state "write_typed failed", db)

end Calls

end Rust
end Idax
