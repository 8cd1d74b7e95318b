import Idax.Error
import Idax.Library.CString

/-!
The functions that replace a line of the pseudocode of a decompiled function.
-/

namespace Idax
namespace Decompiler

open CString (View)

structure Cfunc where
  sv : List (List UInt8)
  deriving DecidableEq, Repr

namespace DecompiledFunction

structure Impl where
  cfunc : Option Cfunc
  deriving DecidableEq, Repr

end DecompiledFunction

structure DecompiledFunction where
  impl : Option DecompiledFunction.Impl
  deriving DecidableEq, Repr

/--
`sv[line_index].line = tagged_text.data()`, where the index is in range.
-/
def Cfunc.setLine (cfunc : Cfunc) (lineIndex : Nat) (taggedText : View) : Status × Cfunc :=
  if cfunc.sv.length ≤ lineIndex then
    (.error (.validation "Line index out of range"), cfunc)
  else
    (ok, { cfunc with sv := cfunc.sv.set lineIndex (taggedText.readAt 0) })

def DecompiledFunction.cfunc? (self : DecompiledFunction) : Option Cfunc :=
  self.impl.bind (·.cfunc)

def DecompiledFunction.setRawLine (self : DecompiledFunction) (lineIndex : Nat) (taggedText : View)
    : Status × DecompiledFunction :=
  match self.cfunc? with
  | none => (.error (.internal "DecompiledFunction is empty"), self)
  | some cfunc =>
    let ⟨status, cfunc⟩ := cfunc.setLine lineIndex taggedText
    (status, { self with impl := some { cfunc := some cfunc } })

def setPseudocodeLine (cfuncHandle : Option Cfunc) (lineIndex : Nat) (taggedText : View)
    : Status × Option Cfunc :=
  match cfuncHandle with
  | none => (.error (.validation "cfunc_handle is null"), none)
  | some cfunc =>
    let ⟨status, cfunc⟩ := cfunc.setLine lineIndex taggedText
    (status, some cfunc)

end Decompiler
end Idax
