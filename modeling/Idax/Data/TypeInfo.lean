import Mathlib.Data.UInt
import Idax.Error

/-!
This module contains the types that values are read and written with, as far as `ida::data` asks
about them.
-/

namespace Idax
namespace Data

/--
A type of the database. A typedef names a further type; the target of an `unresolved` one is not in
any type library. The SDK keeps the length of an array in 32 bits.
-/
inductive TypeInfo where
  | integer (size : Nat) (signed : Bool)
  | enum (size : Nat) (signed : Bool)
  | pointer (size : Nat)
  | floatingPoint (size : Nat)
  | array (element : TypeInfo) (length : UInt32)
  | udt (size : Nat)
  | unsized
  | typedef (target : TypeInfo)
  | unresolved (name : String)
  deriving DecidableEq, Repr

namespace TypeInfo

def badSize : Nat :=
  2 ^ 64 - 1

/--
The type that the SDK's predicates look at, behind all typedefs.
-/
def realtype : TypeInfo → TypeInfo
  | .typedef target => target.realtype
  | ti => ti

def isTypedef : TypeInfo → Bool
  | .typedef _ => true
  | .unresolved _ => true
  | _ => false

def isArray (ti : TypeInfo) : Bool :=
  ti.realtype matches .array _ _

def isPointer (ti : TypeInfo) : Bool :=
  ti.realtype matches .pointer _

def isFloatingPoint (ti : TypeInfo) : Bool :=
  ti.realtype matches .floatingPoint _

def isInteger (ti : TypeInfo) : Bool :=
  ti.realtype matches .integer _ _

def isEnum (ti : TypeInfo) : Bool :=
  ti.realtype matches .enum _ _

def isSigned (ti : TypeInfo) : Bool :=
  match ti.realtype with
  | .integer _ signed => signed
  | .enum _ signed => signed
  | _ => false

/--
The SDK's `get_size`. The size of an array that does not fit a `size_t` is not known.
-/
def getSize : TypeInfo → Option Nat
  | .integer size _ => some size
  | .enum size _ => some size
  | .pointer size => some size
  | .floatingPoint size => some size
  | .array element length => do
    let size ← element.getSize
    if size * length.toNat < badSize then some (size * length.toNat) else none
  | .udt size => some size
  | .unsized => none
  | .typedef target => target.getSize
  | .unresolved _ => none

def size (ti : TypeInfo) : Result Nat :=
  match ti.getSize with
  | none => .error (.sdk "Cannot determine type size")
  | some size => .ok size

def arrayElementType (ti : TypeInfo) : Result TypeInfo :=
  match ti.realtype with
  | .array element _ => .ok element
  | _ => .error (.validation "Type is not an array")

/--
The SDK's `get_array_nelems` returns an `int`.
-/
def getArrayNelems (ti : TypeInfo) : Int :=
  match ti.realtype with
  | .array _ length => length.toInt32.toInt
  | _ => -1

def arrayLength (ti : TypeInfo) : Result Nat :=
  if !ti.isArray then
    .error (.validation "Type is not an array")
  else
    let count := ti.getArrayNelems
    if count < 0 then .error (.sdk "Failed to get array element count") else .ok count.toNat

def resolveTypedef : TypeInfo → Result TypeInfo
  | .typedef target => target.resolveTypedef
  | .unresolved name => .error (.notFound "Failed to resolve typedef target" name)
  | ti => .ok ti

end TypeInfo

def checkedTypeSize (ti : TypeInfo) : Result Nat := do
  let size ← ti.size
  if size = 0 then
    .error (.validation "Type size must be greater than zero")
  else
    .ok size

def resolveIfTypedef (ti : TypeInfo) : Result TypeInfo :=
  if !ti.isTypedef then .ok ti else ti.resolveTypedef

def isByteInteger (ti : TypeInfo) : Bool :=
  if !ti.isInteger then
    false
  else
    match ti.size with
    | .ok size => size == 1
    | .error _ => false

end Data
end Idax
