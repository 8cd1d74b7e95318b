import Mathlib.Data.String.Basic
import Idax.Decompiler.Ctree
import Idax.Library.OrderedMap
import Idax.Types.Formatter

/-!
This module contains the collection of the types that a decompiled function refers to, and of the member
offsets that it accesses.
-/

namespace Idax
namespace Decompiler

open Idax.Types (UsedMemberOffsets castInt)

/--
What the tests of a `tinfo_t` say, in the order in which `collect` makes them.
-/
inductive TypeShape (τ : Type) where
  | absent
  | pointer (pointed : τ)
  | array (element : τ)
  | function (details : Option (τ × List τ))
  | declared
  | other

/--
The types of the SDK. A type without a name has the empty one, and one without an ordinal has 0.
-/
structure TypeSdk (τ : Type) where
  shape : τ → TypeShape τ
  typeName : τ → String
  ordinal : τ → Nat
  objectType : Address → Option τ

namespace TypeSdk

variable {τ : Type} (sdk : TypeSdk τ)

def present (ti : τ) : Bool :=
  match sdk.shape ti with
  | .absent => false
  | _ => true

def pointedObject (ti : τ) : τ :=
  match sdk.shape ti with
  | .pointer pointed => pointed
  | _ => ti

end TypeSdk

/--
The items of a ctree. The operands of an expression are its children, the first of them is `x`.
-/
inductive CItem (τ : Type) where
  | expression (op : ItemType) (type : τ) (objEa : Address) (m : Nat) (children : List (CItem τ))
  | statement (children : List (CItem τ))

def CItem.type? {τ : Type} : CItem τ → Option τ
  | .expression _ type _ _ _ => some type
  | .statement _ => none

structure CFunc (τ : Type) where
  funcType : Option τ
  lvars : Option (List τ)
  body : CItem τ

structure ReferencedTypeCollector where
  ordinals : OrderedMap Nat Unit := .empty
  seenNames : OrderedMap String Unit := .empty
  usedOffsets : OrderedMap String (OrderedMap Int Unit) := .empty

structure ReferencedTypeCollection where
  ordinals : List Nat := []
  usedOffsets : List UsedMemberOffsets := []

section Collect

variable {τ : Type} (sdk : TypeSdk τ)

namespace ReferencedTypeCollector

def declare (name : String) (ordinal : Nat) (c : ReferencedTypeCollector) : ReferencedTypeCollector :=
  if name ≠ "" ∧ (c.seenNames.find? name).isSome then
    c
  else
    let c := if name ≠ "" then { c with seenNames := c.seenNames.insert name () } else c
    if ordinal ≠ 0 then { c with ordinals := c.ordinals.insert ordinal () } else c

/--
`levels` says how far it is to a `depth` over 32.
-/
def collectFrom : (levels : Nat) → τ → ReferencedTypeCollector → ReferencedTypeCollector
  | 0, _, c => c
  | levels + 1, ti, c =>
    match sdk.shape ti with
    | .absent => c
    | .pointer pointed => collectFrom levels pointed c
    | .array element => collectFrom levels element c
    | .function none => c
    | .function (some (rettype, args)) =>
      args.foldl (fun c arg => collectFrom levels arg c) (collectFrom levels rettype c)
    | .declared => c.declare (sdk.typeName ti) (sdk.ordinal ti)
    | .other => c

def collect (ti : τ) (c : ReferencedTypeCollector) : ReferencedTypeCollector :=
  collectFrom sdk 33 ti c

def recordOffset (name : String) (offsetBytes : Int) (c : ReferencedTypeCollector)
    : ReferencedTypeCollector :=
  let offsets := (c.usedOffsets.find? name).getD .empty
  { c with usedOffsets := c.usedOffsets.insert name (offsets.insert offsetBytes ()) }

def recordMemberAccess (parentType : τ) (offsetBytes : Int) (c : ReferencedTypeCollector)
    : ReferencedTypeCollector :=
  if !sdk.present parentType || sdk.typeName parentType = "" then
    c
  else
    c.recordOffset (sdk.typeName parentType) offsetBytes

end ReferencedTypeCollector

open ReferencedTypeCollector

namespace ReferencedTypeWalker

def visitObject (op : ItemType) (objEa : Address) (c : ReferencedTypeCollector)
    : ReferencedTypeCollector :=
  if op = .exprObject then
    match sdk.objectType objEa with
    | some objectType => c.collect sdk objectType
    | none => c
  else
    c

def visitMember (op : ItemType) (m : Nat) (parent : Option τ) (c : ReferencedTypeCollector)
    : ReferencedTypeCollector :=
  if op = .exprMemberRef ∨ op = .exprMemberPtr then
    match parent with
    | none => c
    | some parentType =>
      if sdk.present parentType then
        let parentType := if op = .exprMemberPtr then sdk.pointedObject parentType else parentType
        c.recordMemberAccess sdk parentType (castInt m)
      else
        c
  else
    c

def visitExpr (op : ItemType) (type : τ) (objEa : Address) (m : Nat) (parent : Option τ)
    (c : ReferencedTypeCollector) : ReferencedTypeCollector :=
  let c := if sdk.present type then c.collect sdk type else c
  let c := visitObject sdk op objEa c
  visitMember sdk op m parent c

mutual

/--
The visitor goes on whatever it has seen, so every expression is visited, before its operands.
-/
def applyTo (item : CItem τ) (c : ReferencedTypeCollector) : ReferencedTypeCollector :=
  match item with
  | .expression op type objEa m children =>
    let c := visitExpr sdk op type objEa m (children.head?.bind CItem.type?) c
    applyToAll children c
  | .statement children => applyToAll children c

def applyToAll (items : List (CItem τ)) (c : ReferencedTypeCollector) : ReferencedTypeCollector :=
  match items with
  | [] => c
  | item :: items => applyToAll items (applyTo item c)

end

end ReferencedTypeWalker

def collectCFunc (cfunc : CFunc τ) : ReferencedTypeCollector :=
  let c : ReferencedTypeCollector := cfunc.funcType.elim {} fun functionType =>
    collect sdk functionType {}
  let c := (cfunc.lvars.getD []).foldl (fun c type => c.collect sdk type) c
  ReferencedTypeWalker.applyTo sdk cfunc.body c

def collectionOf (cfunc : CFunc τ) : ReferencedTypeCollection :=
  let collector := collectCFunc sdk cfunc
  { ordinals := collector.ordinals.keys
    usedOffsets := collector.usedOffsets.entries.map fun e =>
      { typeName := e.1, byteOffsets := e.2.keys } }

/--
`functions` says where there is a function, and what the decompiler makes of it.
-/
def collectReferencedTypes (functions : Address → Option (Option (CFunc τ)))
    (functionAddress : Address) : Result ReferencedTypeCollection :=
  match functions functionAddress with
  | none => .error (.notFound "Function not found" (toString functionAddress))
  | some none => .error (.sdk "decompile failed" (toString functionAddress))
  | some (some cfunc) => .ok (collectionOf sdk cfunc)

end Collect

end Decompiler
end Idax
