import Idax.Address
import Idax.Error
import Idax.Library.CString
import Idax.Library.Scan
import Mathlib.Logic.Function.Basic

/-!
The anterior and posterior lines of `ida::comment`. The SDK keeps both kinds of lines in one space
of indices for each address, with the anterior ones from `E_PREV` on and the posterior ones from
`E_NEXT` on.
-/

namespace Idax
namespace Comment

abbrev Text := List UInt8

def ePrev : Int := 1000

def eNext : Int := 2000

section Sdk

structure Column where
  text : Int → Option Text
  bound : Nat
  missing : ∀ i : Int, bound ≤ i → text i = none
  noNul : ∀ i t, text i = some t → 0 ∉ t

namespace Column

def empty : Column where
  text := fun _ => none
  bound := 0
  missing := fun _ _ => rfl
  noNul := fun _ _ h => by cases h

def set (c : Column) (i : Int) (t : Text) : Column where
  text := Function.update c.text i (some (CString.read t))
  bound := max c.bound (i + 1).toNat
  missing := by
    intro j hj
    have hne : j ≠ i := by omega
    rw [Function.update_of_ne hne]
    apply c.missing
    omega
  noNul := by
    intro j t' ht'
    by_cases h : j = i
    . subst h
      rw [Function.update_self] at ht'
      cases ht'
      apply CString.zero_not_mem_read
    . rw [Function.update_of_ne h] at ht'
      apply c.noNul j t' ht'

def runLength (c : Column) (what : Int) : Nat :=
  Scan.run (fun i => (c.text (what + i)).isSome) (c.bound + what.natAbs)

def removeRun (c : Column) (what : Int) : Column where
  text := fun i => if what ≤ i ∧ i < what + c.runLength what then none else c.text i
  bound := c.bound
  missing := by
    intro i hi
    split
    . rfl
    . apply c.missing i hi
  noNul := by
    intro i t ht
    split at ht
    . cases ht
    . apply c.noNul i t ht

end Column

abbrev Store := Address → Column

/--
The length is `-1` where there is no comment.
-/
def getExtraCmt (s : Store) (ea : Address) (what : Int) : Int × Text :=
  match (s ea).text what with
  | none => (-1, [])
  | some line => (line.length, line)

/--
`str` is what a pointer leads to, up to the first NUL.
-/
def updateExtraCmt (ea : Address) (what : Int) (str : Text) (s : Store) : Bool × Store :=
  (true, Function.update s ea ((s ea).set what str))

def deleteExtraCmts (ea : Address) (what : Int) (s : Store) : Store :=
  Function.update s ea ((s ea).removeRun what)

end Sdk

section Lines

/--
`fuel` is more than there are comments at the address.
-/
def collectExtraLines.go (s : Store) (ea : Address) (baseIdx : Int) : (fuel i : Nat) → List Text
  | 0, _ => []
  | fuel + 1, i =>
    let (n, line) := getExtraCmt s ea (baseIdx + i)
    if n ≤ 0 then [] else line :: go s ea baseIdx fuel (i + 1)

def collectExtraLines (s : Store) (ea : Address) (baseIdx : Int) : Result (List Text) :=
  .ok (collectExtraLines.go s ea baseIdx (s ea).bound 0)

def setExtraLines.go (ea : Address) (baseIdx : Int) : Nat → List Text → Store → Status × Store
  | _, [], s => (ok, s)
  | i, line :: lines, s =>
    let (updated, s) := updateExtraCmt ea (baseIdx + i) line s
    if !updated then
      (.error (.sdk "update_extra_cmt failed" (toString ea)), s)
    else
      go ea baseIdx (i + 1) lines s

def setExtraLines (ea : Address) (baseIdx : Int) (lines : List Text) (s : Store) : Status × Store :=
  setExtraLines.go ea baseIdx 0 lines (deleteExtraCmts ea baseIdx s)

end Lines

section Operations

/--
What `add_anterior` and `add_posterior` have in common; the same goes for the functions that follow.
-/
def addExtra (baseIdx : Int) (ea : Address) (text : Text) (s : Store) : Status × Store :=
  let lineIdx := Scan.run (fun i => (getExtraCmt s ea (baseIdx + i)).1 > 0) (s ea).bound
  let (_, s) := updateExtraCmt ea (baseIdx + lineIdx) text s
  (ok, s)

def setExtra (baseIdx : Int) (negative notFound : String) (ea : Address) (lineIndex : Int)
    (text : Text) (s : Store) : Status × Store :=
  if lineIndex < 0 then
    (.error (.validation negative (toString lineIndex)), s)
  else if (getExtraCmt s ea (baseIdx + lineIndex)).1 ≤ 0 then
    (.error (.notFound notFound (toString lineIndex)), s)
  else
    let (updated, s) := updateExtraCmt ea (baseIdx + lineIndex) text s
    if !updated then
      (.error (.sdk "update_extra_cmt failed" (toString ea)), s)
    else
      (ok, s)

def removeExtraLine (baseIdx : Int) (negative notFound : String) (ea : Address) (lineIndex : Int)
    (s : Store) : Status × Store :=
  if lineIndex < 0 then
    (.error (.validation negative (toString lineIndex)), s)
  else
    match collectExtraLines s ea baseIdx with
    | .error e => (.error e, s)
    | .ok lines =>
      if lineIndex ≥ lines.length then
        (.error (.notFound notFound (toString lineIndex)), s)
      else
        setExtraLines ea baseIdx (lines.eraseIdx lineIndex.toNat) s

def addAnterior : Address → Text → Store → Status × Store :=
  addExtra ePrev

def addPosterior : Address → Text → Store → Status × Store :=
  addExtra eNext

def setAnterior : Address → Int → Text → Store → Status × Store :=
  setExtra ePrev "Anterior line index must be non-negative" "Anterior line index not found"

def setPosterior : Address → Int → Text → Store → Status × Store :=
  setExtra eNext "Posterior line index must be non-negative" "Posterior line index not found"

def removeAnteriorLine : Address → Int → Store → Status × Store :=
  removeExtraLine ePrev "Anterior line index must be non-negative" "Anterior line index not found"

def removePosteriorLine : Address → Int → Store → Status × Store :=
  removeExtraLine eNext "Posterior line index must be non-negative"
    "Posterior line index not found"

def setAnteriorLines (ea : Address) (lines : List Text) (s : Store) : Status × Store :=
  setExtraLines ea ePrev lines s

def setPosteriorLines (ea : Address) (lines : List Text) (s : Store) : Status × Store :=
  setExtraLines ea eNext lines s

def clearAnterior (ea : Address) (s : Store) : Status × Store :=
  (ok, deleteExtraCmts ea ePrev s)

def clearPosterior (ea : Address) (s : Store) : Status × Store :=
  (ok, deleteExtraCmts ea eNext s)

def anteriorLines (s : Store) (ea : Address) : Result (List Text) :=
  collectExtraLines s ea ePrev

def posteriorLines (s : Store) (ea : Address) : Result (List Text) :=
  collectExtraLines s ea eNext

end Operations

section Sides

inductive Side where
  | anterior
  | posterior
  deriving DecidableEq, Repr

inductive ExtraOp where
  | add (text : Text)
  | set (lineIndex : Int) (text : Text)
  | removeLine (lineIndex : Int)
  | setLines (lines : List Text)
  | clear
  deriving DecidableEq, Repr

def Side.baseIdx : Side → Int
  | .anterior => ePrev
  | .posterior => eNext

def Side.lines (s : Store) (ea : Address) : Side → Result (List Text)
  | .anterior => anteriorLines s ea
  | .posterior => posteriorLines s ea

def ExtraOp.run (ea : Address) (s : Store) : Side → ExtraOp → Status × Store
  | .anterior, .add text => addAnterior ea text s
  | .anterior, .set lineIndex text => setAnterior ea lineIndex text s
  | .anterior, .removeLine lineIndex => removeAnteriorLine ea lineIndex s
  | .anterior, .setLines lines => setAnteriorLines ea lines s
  | .anterior, .clear => clearAnterior ea s
  | .posterior, .add text => addPosterior ea text s
  | .posterior, .set lineIndex text => setPosterior ea lineIndex text s
  | .posterior, .removeLine lineIndex => removePosteriorLine ea lineIndex s
  | .posterior, .setLines lines => setPosteriorLines ea lines s
  | .posterior, .clear => clearPosterior ea s

end Sides

end Comment
end Idax
