import Idax.Address
import Idax.Error
import Idax.Library.CString
import Mathlib.Logic.Function.Basic

/-!
This module contains the values that a node of `ida::storage` keeps. The SDK is given keys as C strings,
and a length of zero stands for the length of a C string as well.
-/

namespace Idax
namespace Storage

abbrev Text := List UInt8

abbrev CText := { text : Text // 0 ∉ text }

def cStr (text : Text) : CText :=
  ⟨CString.read text, CString.zero_not_mem_read text⟩

/--
A `std::span`. Behind the pointer of an empty one there may be a C string, or nothing that can be read.
-/
structure Span where
  bytes : Text
  atData : Option CText
  deriving DecidableEq

inductive Slot where
  | index (tag : UInt8) (idx : Address)
  | key (tag : UInt8) (key : CText)
  deriving DecidableEq

section Sdk

def maxSpecSize : Nat := 1024

structure Sdk where
  accepts : Slot → Text → Bool
  /-- What `hashval` returns for a value that does not fit into the buffer. -/
  longSize : Text → Int

abbrev Netnode := Slot → Option Text

namespace Netnode

variable (sdk : Sdk) (nn : Netnode)

def argument (value : Span) : Option Text :=
  if value.bytes.length = 0 then value.atData.map (·.val) else some value.bytes

/--
`supset`, `hashset` and `setblob`.
-/
def store (slot : Slot) (value : Span) : Option (Bool × Netnode) := do
  let text ← argument value
  if sdk.accepts slot text then
    some (true, Function.update nn slot (some text))
  else
    some (false, nn)

def size (slot : Slot) : Int :=
  match nn slot with
  | none => -1
  | some text => text.length

def contents (slot : Slot) : Text :=
  (nn slot).getD []

def hashval (slot : Slot) (bufsize : Nat) : Int × Text :=
  match nn slot with
  | none => (-1, [])
  | some text =>
    if text.length ≤ bufsize then (text.length, text) else (sdk.longSize text, text.take bufsize)

end Netnode

end Sdk

structure Node where
  impl : Option Netnode

namespace Node

variable (sdk : Sdk) (self : Node)

def nullImpl : Error :=
  .internal "Node has null impl"

def sup (index : Address) (tag : UInt8) : Result Text :=
  match self.impl with
  | none => .error nullImpl
  | some nn =>
    let sz := nn.size (.index tag index)
    if sz ≤ 0 then
      .error (.notFound "No supval at index")
    else
      .ok (nn.contents (.index tag index))

def set (slot : Slot) (value : Span) (message : String) : Option (Status × Node) :=
  match self.impl with
  | none => some (.error nullImpl, self)
  | some nn => do
    let ⟨stored, nn⟩ ← nn.store sdk slot value
    if !stored then
      some (.error (.sdk message), { impl := some nn })
    else
      some (ok, { impl := some nn })

def setSup (index : Address) (data : Span) (tag : UInt8) : Option (Status × Node) :=
  self.set sdk (.index tag index) data "supset failed"

def display (text : Text) : String :=
  String.ofList (text.map fun b => Char.ofNat b.toNat)

/--
The outer `none` is a read behind the end of the buffer.
-/
def hash (key : Text) (tag : UInt8) : Option (Result Text) :=
  match self.impl with
  | none => some (.error nullImpl)
  | some nn =>
    let ⟨sz, buf⟩ := nn.hashval sdk (.key tag (cStr key)) maxSpecSize
    if sz ≤ 0 then
      some (.error (.notFound "No hash value for key" (display key)))
    else if maxSpecSize < sz then
      none
    else
      some (.ok (buf.take sz.toNat))

/--
`qval.c_str()` of an empty text is an empty C string.
-/
def setHash (key value : Text) (tag : UInt8) : Option (Status × Node) :=
  let qval : Span := { bytes := value, atData := some (cStr value) }
  self.set sdk (.key tag (cStr key)) qval "hashset failed"

def blob (index : Address) (tag : UInt8) : Result Text :=
  match self.impl with
  | none => .error nullImpl
  | some nn =>
    let sz := nn.size (.index tag index)
    if sz < 0 then
      .error (.notFound "No blob at index")
    else
      .ok (nn.contents (.index tag index))

def setBlob (index : Address) (data : Span) (tag : UInt8) : Option (Status × Node) :=
  self.set sdk (.index tag index) data "setblob failed"

end Node

end Storage
end Idax
