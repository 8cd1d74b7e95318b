import Mathlib.Data.List.Basic
import Idax.Error

/-!
This module contains `callers` and `callees` over the functions and cross-references of a database.
-/

namespace Idax
namespace Function

inductive XrefType where
  | callNear
  | callFar
  | jumpNear
  | jumpFar
  | flow
  | other (type : Nat)
  deriving DecidableEq, Repr

structure Xref where
  source : Nat
  target : Nat
  iscode : Bool
  type : XrefType
  deriving DecidableEq, Repr

structure Chunk where
  start : Nat
  stop : Nat
  deriving DecidableEq, Repr

namespace Chunk

def contains (c : Chunk) (ea : Nat) : Bool :=
  decide (c.start ≤ ea) && decide (ea < c.stop)

end Chunk

structure Func where
  entry : Chunk
  tails : List Chunk
  deriving DecidableEq, Repr

namespace Func

def start (fn : Func) : Nat :=
  fn.entry.start

def contains (fn : Func) (ea : Nat) : Bool :=
  fn.entry.contains ea || fn.tails.any (·.contains ea)

end Func

def Xref.isCall (xref : Xref) : Bool :=
  xref.iscode && (xref.type == .callNear || xref.type == .callFar)

/--
The functions and the cross-references, the latter in the order in which they are enumerated. No address
is in two functions, and a call goes from an instruction to the start of a function.
-/
structure Database where
  functions : List Func
  isCode : Nat → Bool
  xrefs : List Xref
  entry_nonempty : ∀ fn ∈ functions, fn.entry.start < fn.entry.stop
  disjoint : ∀ f ∈ functions, ∀ g ∈ functions, ∀ ea, f.contains ea = true → g.contains ea = true → f = g
  call_source : ∀ xref ∈ xrefs, xref.isCall = true → isCode xref.source = true
  call_target : ∀ xref ∈ xrefs, xref.isCall = true → ∃ fn ∈ functions, fn.start = xref.target

namespace Database

variable (db : Database)

def getFunc (ea : Nat) : Option Func :=
  db.functions.find? (·.contains ea)

def firstTo (ea : Nat) : List Xref :=
  db.xrefs.filter (·.target == ea)

def firstFrom (ea : Nat) : List Xref :=
  db.xrefs.filter (·.source == ea)

def codeItems (start stop : Nat) : List Nat :=
  (List.range' start (stop - start)).filter db.isCode

/--
What `func_item_iterator_t` stands on after `set` and each `next_code`: the start of the function, as
whatever it is, and the instructions behind it.
-/
def items (fn : Func) : List Nat :=
  fn.start :: db.codeItems (fn.start + 1) fn.entry.stop
    ++ fn.tails.flatMap fun c => db.codeItems c.start c.stop

end Database

def noFunction (ea : Nat) : Error :=
  .notFound "No function at address" (toString ea)

def callers (db : Database) (ea : Nat) : Result (List Nat) :=
  match db.getFunc ea with
  | none => .error (noFunction ea)
  | some fn => .ok ((db.firstTo fn.start).foldl visit [])
where
  visit (result : List Nat) (xb : Xref) : List Nat :=
    if !xb.iscode then
      result
    else if xb.type ≠ .callNear ∧ xb.type ≠ .callFar then
      result
    else
      match db.getFunc xb.source with
      | none => result
      | some caller =>
        -- Compared with the last one only.
        if result.isEmpty ∨ result.getLast? ≠ some caller.start then
          result ++ [caller.start]
        else
          result

def callees (db : Database) (ea : Nat) : Result (List Nat) :=
  match db.getFunc ea with
  | none => .error (noFunction ea)
  | some fn => .ok ((db.items fn).foldl (fun result item => (db.firstFrom item).foldl visit result) [])
where
  visit (result : List Nat) (xb : Xref) : List Nat :=
    if !xb.iscode then
      result
    else if xb.type ≠ .callNear ∧ xb.type ≠ .callFar then
      result
    else
      match db.getFunc xb.target with
      | none => result
      | some target => if result.any (· == target.start) then result else result ++ [target.start]

end Function
end Idax
