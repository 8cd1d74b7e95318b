import Idax.Error
import Mathlib.Logic.Function.Basic

/-!
This module contains the typed forms of `ida::ui`: the bindings, the builder that writes the markup of a
form beside them, and the call of the SDK that both are passed on to.
-/

namespace Idax
namespace Ui

abbrev FormText := List Char

/--
The variables that bindings refer to, by their addresses. An `sval_t` has 64 bits, and these are kept
together with the ones of type `std::int64_t`.
-/
structure FormVariables where
  integers : Nat → Int64
  shorts : Nat → UInt16
  addresses : Nat → UInt64
  strings : Nat → FormText

/--
The values that the SDK is given the addresses of. In `path` it is all of the buffer.
-/
inductive FormValue where
  | sval (value : Int64)
  | ushort (value : UInt16)
  | ea (value : UInt64)
  | qstring (value : FormText)
  | path (buffer : FormText)
  deriving DecidableEq, Repr

inductive FormBinding where
  | int (value : Nat)
  | sval (value : Nat)
  | u16 (value : Nat)
  | address (value : Nat)
  | text (value : Nat)
  | path (value : Nat) (forSaving : Bool)
  deriving DecidableEq, Repr

def cString (buffer : FormText) : FormText :=
  buffer.takeWhile (· ≠ '\x00')

section Bindings

-- The SDK's `QMAXPATH`, the size of the buffer for a path.
variable (qmaxpath : Nat)

namespace FormBinding

def prepare (memory : FormVariables) : FormBinding → Result FormValue
  | .int value =>
    if memory.integers value < Int64.minValue ∨ Int64.maxValue < memory.integers value then
      .error (.validation "Form integer value is out of SDK range")
    else
      .ok (.sval (memory.integers value))
  | .sval value => .ok (.sval (memory.integers value))
  | .u16 value => .ok (.ushort (memory.shorts value))
  | .address value => .ok (.ea (memory.addresses value))
  | .text value =>
    if '\x00' ∈ memory.strings value then
      .error (.validation "Form text contains an embedded NUL")
    else
      .ok (.qstring (memory.strings value))
  | .path value _ =>
    let text := memory.strings value
    if '\x00' ∈ text then
      .error (.validation "Form path contains an embedded NUL")
    else if qmaxpath ≤ text.length then
      .error (.validation "Form path exceeds QMAXPATH")
    else
      .ok (.path (text ++ List.replicate (qmaxpath - text.length) '\x00'))

/--
The last case is the one of a value that has not the type of the binding.
-/
def commit (memory : FormVariables) : FormBinding → FormValue → FormVariables
  | .int value, .sval v => { memory with integers := Function.update memory.integers value v }
  | .sval value, .sval v => { memory with integers := Function.update memory.integers value v }
  | .u16 value, .ushort v => { memory with shorts := Function.update memory.shorts value v }
  | .address value, .ea v =>
    { memory with addresses := Function.update memory.addresses value v }
  | .text value, .qstring v =>
    { memory with strings := Function.update memory.strings value v }
  | .path value _, .path v =>
    { memory with strings := Function.update memory.strings value (cString v) }
  | _, _ => memory

end FormBinding

def prepareFormBindings (memory : FormVariables) (bindings : List FormBinding)
    : Result (List FormValue) :=
  bindings.mapM (FormBinding.prepare qmaxpath memory)

def commitFormBindings (memory : FormVariables) (bindings : List FormBinding)
    (values : List FormValue) : FormVariables :=
  (bindings.zip values).foldl (fun memory (binding, value) => binding.commit memory value)
    memory

end Bindings

def validateFormMarkup (markup : FormText) : Status :=
  if markup = [] then
    .error (.validation "Form markup cannot be empty")
  else if '\x00' ∈ markup then
    .error (.validation "Form markup contains an embedded NUL")
  else
    ok

def decimal (n : Int) : FormText :=
  if n < 0 then '-' :: Nat.toDigits 10 n.natAbs else Nat.toDigits 10 n.natAbs

def appendFormField (markup label : FormText) (type : Char) (width visibleWidth : Int) : FormText :=
  let markup := markup ++ ['<'] ++ label ++ [':'] ++ [type] ++ [':']
  let markup := if 0 ≤ width then markup ++ decimal width else markup
  let markup := markup ++ [':']
  let markup := if 0 ≤ visibleWidth then markup ++ decimal visibleWidth else markup
  markup ++ "::>\n".toList

def appendChoice (groupLabel : FormText) (type : Char) (size : Nat) (markup : FormText)
    : FormText × Nat → FormText
  | (choice, i) =>
    let markup := markup ++ ['<']
    let markup :=
      if i = 0 ∧ groupLabel ≠ [] then
        markup ++ "##".toList ++ groupLabel ++ "##".toList
      else
        markup
    let markup := markup ++ choice ++ [':'] ++ [type] ++ ['>']
    let markup := if i + 1 = size then markup ++ ['>'] else markup
    markup ++ ['\n']

def appendChoiceGroup (markup groupLabel : FormText) (type : Char) (choices : List FormText)
    : FormText :=
  let choices := if choices = [] then [groupLabel] else choices
  choices.zipIdx.foldl (appendChoice groupLabel type choices.length) markup

structure FormBuilder where
  markup : FormText := []
  bindings : List FormBinding := []
  deriving DecidableEq, Repr

namespace FormBuilder

def ofTitle (title : FormText) : FormBuilder :=
  { markup := title ++ "\n\n".toList }

variable (builder : FormBuilder)

def appendBinding (markup : FormText) (binding : FormBinding) : FormBuilder :=
  { markup, bindings := builder.bindings ++ [binding] }

def addInt (label : FormText) (value : Nat) (width : Int := 10) (visibleWidth : Int := 10)
    : FormBuilder :=
  let nextMarkup := appendFormField builder.markup label 'D' width visibleWidth
  builder.appendBinding nextMarkup (.int value)

def addSval (label : FormText) (value : Nat) (width : Int := 10) (visibleWidth : Int := 10)
    : FormBuilder :=
  let nextMarkup := appendFormField builder.markup label 'D' width visibleWidth
  builder.appendBinding nextMarkup (.sval value)

def addBitset (groupLabel : FormText) (value : Nat) (choices : List FormText) : FormBuilder :=
  let nextMarkup := appendChoiceGroup builder.markup groupLabel 'C' choices
  builder.appendBinding nextMarkup (.u16 value)

def addRadio (groupLabel : FormText) (value : Nat) (choices : List FormText) : FormBuilder :=
  let nextMarkup := appendChoiceGroup builder.markup groupLabel 'R' choices
  builder.appendBinding nextMarkup (.u16 value)

def addAddress (label : FormText) (value : Nat) (width : Int := 16) (visibleWidth : Int := 16)
    : FormBuilder :=
  let nextMarkup := appendFormField builder.markup label '$' width visibleWidth
  builder.appendBinding nextMarkup (.address value)

def addText (label : FormText) (value : Nat) (width : Int := 256) (visibleWidth : Int := 40)
    : FormBuilder :=
  let nextMarkup := appendFormField builder.markup label 'q' width visibleWidth
  builder.appendBinding nextMarkup (.text value)

def addPath (label : FormText) (value : Nat) (forSaving : Bool := true) (visibleWidth : Int := 64)
    : FormBuilder :=
  let nextMarkup :=
    appendFormField builder.markup label 'f' (if forSaving then 1 else 0) visibleWidth
  builder.appendBinding nextMarkup (.path value forSaving)

end FormBuilder

/--
The arguments of `::ask_form`: a pointer to the markup, of which the text up to the first NUL is read, and
pointers to the values.
-/
structure FormCall where
  markup : FormText
  args : List FormValue
  deriving DecidableEq, Repr

structure FormAnswer where
  rc : Int
  values : List FormValue

section Asking

variable (qmaxpath : Nat) (builder : FormBuilder) (memory : FormVariables)

/--
The call that `ask` passes on, which for a builder with no bindings is the one of the other overload.
-/
def FormBuilder.call : Result FormCall :=
  if builder.bindings = [] then
    if builder.markup = [] then
      .error (.validation "Form markup cannot be empty")
    else
      .ok { markup := cString builder.markup, args := [] }
  else do
    validateFormMarkup builder.markup
    let args ← prepareFormBindings qmaxpath memory builder.bindings
    return { markup := cString builder.markup, args }

def FormBuilder.ask (host : FormCall → FormAnswer) : Result Bool × FormVariables :=
  match builder.call qmaxpath memory with
  | .error e => (.error e, memory)
  | .ok call =>
    let answer := host call
    if answer.rc < 0 then
      (.error (.sdk "ask_form failed"), memory)
    else if 0 < answer.rc then
      (.ok true, commitFormBindings memory builder.bindings answer.values)
    else
      (.ok false, memory)

end Asking

end Ui
end Idax
