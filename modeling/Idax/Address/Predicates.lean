import Mathlib.Order.Defs.LinearOrder
import Idax.Error

/-!
This module contains the predicates on addresses, the searches for an address that meets one, and the
iterator over all of them in a range. Addresses are machine words here: the loops count up to an end
that may be the largest word.
-/

namespace Idax
namespace Address

instance linearOrderUInt64 : LinearOrder UInt64 where
  le_refl := UInt64.le_refl
  le_trans := fun _ _ _ => UInt64.le_trans
  le_antisymm := fun _ _ => UInt64.le_antisymm
  le_total := UInt64.le_total
  toDecidableLE := inferInstance
  toDecidableEq := inferInstance
  toDecidableLT := inferInstance
  lt_iff_le_not_ge := by
    intro a b
    rw [UInt64.not_le, UInt64.lt_iff_toNat_lt, UInt64.le_iff_toNat_le]
    omega

def badAddressWord : UInt64 :=
  0xFFFFFFFFFFFFFFFF

/--
The flags of every address, with the SDK's tests of them. Whether an address is loaded is asked of the
address itself.
-/
structure Flags where
  getFlags : UInt64 → UInt64
  loaded : UInt64 → Bool
  code : UInt64 → Bool
  data : UInt64 → Bool
  unknown : UInt64 → Bool
  head : UInt64 → Bool
  tail : UInt64 → Bool

inductive Predicate where
  | mapped
  | loaded
  | code
  | data
  | unknown
  | head
  | tail
  deriving DecidableEq, Repr

namespace Flags

variable (db : Flags)

/--
An address without flags is not mapped and meets no test of them.
-/
def hasFlags (test : UInt64 → Bool) (ea : UInt64) : Bool :=
  db.getFlags ea != 0 && test (db.getFlags ea)

def isMapped (ea : UInt64) : Bool :=
  db.getFlags ea != 0

def isLoaded (ea : UInt64) : Bool :=
  db.loaded ea

def isCode (ea : UInt64) : Bool :=
  db.hasFlags db.code ea

def isData (ea : UInt64) : Bool :=
  db.hasFlags db.data ea

def isUnknown (ea : UInt64) : Bool :=
  db.hasFlags db.unknown ea

def isHead (ea : UInt64) : Bool :=
  db.hasFlags db.head ea

def isTail (ea : UInt64) : Bool :=
  db.hasFlags db.tail ea

def matchesPredicate (ea : UInt64) : Predicate → Bool
  | .mapped => db.isMapped ea
  | .loaded => db.isLoaded ea
  | .code => db.isCode ea
  | .data => db.isData ea
  | .unknown => db.isUnknown ea
  | .head => db.isHead ea
  | .tail => db.isTail ea

theorem toNat_add_one_of_lt {ea last : UInt64} (h : ea < last) : (ea + 1).toNat = ea.toNat + 1 := by
  rw [UInt64.lt_iff_toNat_lt] at h
  have := last.toNat_lt
  rw [UInt64.toNat_add]
  simp
  omega

/--
`for (; ea < last; ++ea) if (matches_predicate(ea, p)) return ea;`, the loop of all four searches.
-/
def scan (p : Predicate) (ea last : UInt64) : Option UInt64 :=
  if ea < last then
    if db.matchesPredicate ea p then some ea else scan p (ea + 1) last
  else
    none
termination_by last.toNat - ea.toNat
decreasing_by
  next h _ =>
    have := toNat_add_one_of_lt h
    rw [UInt64.lt_iff_toNat_lt] at h
    omega

def findFirst (start last : UInt64) (predicate : Predicate) : Result UInt64 :=
  if start ≥ last then
    .error (.validation "Invalid search range")
  else
    match db.scan predicate start last with
    | some ea => .ok ea
    | none => .error (.notFound "No matching address in range")

def findNext (ea : UInt64) (predicate : Predicate) (last : UInt64) : Result UInt64 :=
  let limit := if last = badAddressWord then 0xFFFFFFFFFFFFFFFF else last
  if ea ≥ limit then
    .error (.validation "Search start at/after limit")
  else
    match db.scan predicate (ea + 1) limit with
    | some ea => .ok ea
    | none => .error (.notFound "No next matching address")

def firstMatch (start last : UInt64) (predicate : Predicate) : UInt64 :=
  (db.scan predicate start last).getD last

def nextMatch (current last : UInt64) (predicate : Predicate) : UInt64 :=
  if current ≥ last ∨ current = 0xFFFFFFFFFFFFFFFF then
    last
  else
    (db.scan predicate (current + 1) last).getD last

end Flags

def normalizeEnd (last : UInt64) : UInt64 :=
  if last = badAddressWord then 0xFFFFFFFFFFFFFFFF else last

structure PredicateIterator where
  current : UInt64
  last : UInt64
  predicate : Predicate
  deriving Repr

structure PredicateRange where
  start : UInt64
  last : UInt64
  predicate : Predicate
  deriving Repr

namespace PredicateIterator

def new (db : Flags) (current last : UInt64) (predicate : Predicate) : PredicateIterator :=
  let last := normalizeEnd last
  { current := if current < last then db.firstMatch current last predicate else last
    last
    predicate }

def increment (db : Flags) (it : PredicateIterator) : PredicateIterator :=
  { it with current := db.nextMatch it.current it.last it.predicate }

def eq (a b : PredicateIterator) : Bool :=
  a.current == b.current

end PredicateIterator

namespace PredicateRange

variable (db : Flags) (range : PredicateRange)

def beginIterator : PredicateIterator :=
  .new db range.start range.last range.predicate

def endIterator : PredicateIterator :=
  let last := normalizeEnd range.last
  .new db last last range.predicate

end PredicateRange

def codeItems (start last : UInt64) : PredicateRange :=
  ⟨start, last, .code⟩

def dataItems (start last : UInt64) : PredicateRange :=
  ⟨start, last, .data⟩

def unknownBytes (start last : UInt64) : PredicateRange :=
  ⟨start, last, .unknown⟩

/--
`for (Address a : range)`: what the loop variable is in each turn.
-/
def PredicateRange.iterate (db : Flags) (range : PredicateRange) (fuel : Nat) : Option (List UInt64) :=
  go fuel (range.beginIterator db)
where
  go : (fuel : Nat) → PredicateIterator → Option (List UInt64)
    | 0, it => if it.eq (range.endIterator db) then some [] else none
    | fuel + 1, it =>
      if it.eq (range.endIterator db) then some [] else (go fuel (it.increment db)).map (it.current :: ·)

/--
`find_first`, and `find_next` from each address found, until one of them finds nothing more. Any other
failure is no result.
-/
def Flags.findAll (db : Flags) (range : PredicateRange) (fuel : Nat) : Option (List UInt64) :=
  go fuel (db.findFirst range.start range.last range.predicate)
where
  go : (fuel : Nat) → Result UInt64 → Option (List UInt64)
    | _, .error e => if e.category = .notFound then some [] else none
    | 0, .ok _ => none
    | fuel + 1, .ok ea => (go fuel (db.findNext ea range.predicate range.last)).map (ea :: ·)

end Address
end Idax
