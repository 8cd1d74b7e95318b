import Mathlib.Data.List.Basic
import Mathlib.Logic.Relation

/-!
This module contains the part of the SDK's type model that `ida::type` walks over: type expressions
and the type library that says what each name stands for.
-/

namespace Idax
namespace Types

/--
A `tinfo_t`, as far as the walks look at it. A name is looked up in the type library.
-/
inductive Tinfo where
  | absent
  | unnamed
  | ptr (pointed : Tinfo)
  | array (element : Tinfo)
  | func (rettype : Tinfo) (args : List Tinfo)
  | named (name : String)
  deriving Repr

namespace Tinfo

def typeName : Tinfo → String
  | .named name => name
  | _ => ""

end Tinfo

structure Udm where
  name : String
  type : Tinfo
  offset : Nat
  size : Nat
  isBitfield : Bool := false
  deriving Repr

structure UdtTypeData where
  isUnion : Bool := false
  members : List Udm
  totalSize : Nat
  deriving Repr

inductive TypeKind where
  | enum
  | udt (details : UdtTypeData)
  | other
  deriving Repr

/--
The local type library, with the SDK's printing of a type as a function of it.
-/
structure Til where
  types : List (String × TypeKind)
  numbered : Nat → Option Tinfo
  ordinalOf : Tinfo → Nat
  print : Tinfo → String → String

namespace Til

variable (til : Til)

def kind? (name : String) : Option TypeKind :=
  til.types.lookup name

def udtDetails? (ti : Tinfo) : Option UdtTypeData :=
  match til.kind? ti.typeName with
  | some (.udt details) => some details
  | _ => none

def isEnum (ti : Tinfo) : Bool :=
  match til.kind? ti.typeName with
  | some .enum => true
  | _ => false

def isUdt (ti : Tinfo) : Bool :=
  (til.udtDetails? ti).isSome

def tinfoFromOrdinal (ordinal : Nat) : Option Tinfo :=
  if ordinal = 0 then none else til.numbered ordinal

def tinfoFromName (name : String) : Option Tinfo :=
  if name.isEmpty then
    none
  else
    (til.kind? name).map fun _ => .named name

def printTypeDecl (ti : Tinfo) (name : String) : String :=
  til.print ti name

end Til

inductive Mentions : Tinfo → String → Prop where
  | named {name} (hname : name ≠ "") : Mentions (.named name) name
  | ptr {t name} (h : Mentions t name) : Mentions (.ptr t) name
  | array {t name} (h : Mentions t name) : Mentions (.array t) name
  | ret {t args name} (h : Mentions t name) : Mentions (.func t args) name
  | arg {t args arg name} (harg : arg ∈ args) (h : Mentions arg name) : Mentions (.func t args) name

inductive Reaches (til : Til) (roots : List Tinfo) : String → Prop where
  | root {t name} (ht : t ∈ roots) (h : Mentions t name) : Reaches til roots name
  | member {owner name udt m} (howner : Reaches til roots owner)
    (hudt : til.udtDetails? (.named owner) = some udt) (hm : m ∈ udt.members)
    (h : Mentions m.type name) : Reaches til roots name

def valueName : Tinfo → String
  | .named name => name
  | .array t => valueName t
  | _ => ""

def ContainsByValue (til : Til) (owner name : String) : Prop :=
  ∃ udt m, til.udtDetails? (.named owner) = some udt ∧ m ∈ udt.members ∧ name ≠ ""
    ∧ valueName m.type = name

theorem mentions_of_valueName (t : Tinfo) {name : String} (hname : name ≠ "")
    (h : valueName t = name) : Mentions t name := by
  unfold valueName at h
  split at h
  . subst h
    exact .named hname
  . exact .array (mentions_of_valueName _ hname h)
  . exact absurd h.symm hname
termination_by t

end Types
end Idax
