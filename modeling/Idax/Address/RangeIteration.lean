import Mathlib.Data.FinEnum
import Idax.Address.Predicates
import Idax.Library.Enumeration

/-!
What the predicate ranges iterate over: the matching addresses from the start up to the end, each once
and in order, and the same ones that the searches find one after the other.
-/

namespace Idax
namespace Address

open Enumeration

def Flags.Meets (db : Flags) (ea : UInt64) : Predicate → Prop
  | .mapped => db.getFlags ea ≠ 0
  | .loaded => db.loaded ea
  | .code => db.getFlags ea ≠ 0 ∧ db.code (db.getFlags ea)
  | .data => db.getFlags ea ≠ 0 ∧ db.data (db.getFlags ea)
  | .unknown => db.getFlags ea ≠ 0 ∧ db.unknown (db.getFlags ea)
  | .head => db.getFlags ea ≠ 0 ∧ db.head (db.getFlags ea)
  | .tail => db.getFlags ea ≠ 0 ∧ db.tail (db.getFlags ea)

def Flags.matching (db : Flags) (start last : UInt64) (predicate : Predicate) : Set UInt64 :=
  {ea | start ≤ ea ∧ ea < last ∧ db.Meets ea predicate}

/--
The iteration ends, and with the matching addresses in ascending order. So does the chain of searches,
if there are addresses between the start and the end.
-/
structure PredicateRange.Exact (db : Flags) (range : PredicateRange) (start last : UInt64)
    (predicate : Predicate) (l : List UInt64) : Prop where
  enumerates : Enumerates l (db.matching start last predicate)
  iterates : ∃ bound, ∀ fuel, bound ≤ fuel → range.iterate db fuel = some l
  finds : start < last
    → ∃ bound, ∀ fuel, bound ≤ fuel → db.findAll ⟨start, last, predicate⟩ fuel = some l

variable {db : Flags} {range : PredicateRange} {p : Predicate}

theorem normalizeEnd_eq (last : UInt64) : normalizeEnd last = last := by
  unfold normalizeEnd badAddressWord
  split
  . next heq => exact heq.symm
  . rfl

theorem le_max (ea : UInt64) : ea ≤ 0xFFFFFFFFFFFFFFFF := by
  rw [UInt64.le_iff_toNat_le]
  have := ea.toNat_lt
  simp
  omega

theorem add_one_le_iff {ea last x : UInt64} (h : ea < last) : ea + 1 ≤ x ↔ ea < x := by
  rw [UInt64.le_iff_toNat_le, UInt64.lt_iff_toNat_lt, Flags.toNat_add_one_of_lt h]
  omega

theorem matchesPredicate_iff {ea : UInt64}
    : db.matchesPredicate ea p = true ↔ db.Meets ea p := by
  cases p <;> simp [Flags.matchesPredicate, Flags.Meets, Flags.isMapped, Flags.isLoaded, Flags.isCode,
    Flags.isData, Flags.isUnknown, Flags.isHead, Flags.isTail, Flags.hasFlags]

theorem firstOf_scan (db : Flags) (p : Predicate) (ea last : UInt64)
    : FirstOf (db.matching ea last p) (db.scan p ea last) := by
  fun_induction db.scan p ea last with
  | case1 ea hlt hmatch =>
    rw [matchesPredicate_iff] at hmatch
    constructor
    . exact ⟨le_refl ea, hlt, hmatch⟩
    . intro x hx
      apply hx.left
  | case2 ea hlt hmatch ih =>
    rw [matchesPredicate_iff] at hmatch
    apply ih.congr
    ext x
    constructor
    . intro ⟨hle, hx⟩
      exact ⟨le_of_lt ((add_one_le_iff hlt).mp hle), hx⟩
    . intro ⟨hle, hx, hmatchx⟩
      refine ⟨(add_one_le_iff hlt).mpr (lt_of_le_of_ne hle ?_), hx, hmatchx⟩
      intro heq
      rw [heq] at hmatch
      exact hmatch hmatchx
  | case3 ea hge =>
    apply Set.eq_empty_of_forall_notMem
    intro x hx
    apply hge (lt_of_le_of_lt hx.left hx.right.left)

def Flags.after (db : Flags) (range : PredicateRange) (ea : UInt64) : Option UInt64 :=
  db.scan range.predicate (ea + 1) range.last

theorem firstOf_after {ea : UInt64} (h : ea ∈ db.matching range.start range.last range.predicate)
    : FirstOf {x ∈ db.matching range.start range.last range.predicate | ea < x}
        (db.after range ea) := by
  apply (firstOf_scan db range.predicate (ea + 1) range.last).congr
  ext x
  constructor
  . intro ⟨hle, hx⟩
    have hlt := (add_one_le_iff h.right.left).mp hle
    exact ⟨⟨le_of_lt (lt_of_le_of_lt h.left hlt), hx⟩, hlt⟩
  . intro ⟨⟨_, hx⟩, hlt⟩
    exact ⟨(add_one_le_iff h.right.left).mpr hlt, hx⟩

def PredicateIterator.position (range : PredicateRange) (ea : UInt64) : Option UInt64 :=
  if ea = range.last then none else some ea

theorem endIterator_current : (range.endIterator db).current = range.last := by
  simp [PredicateRange.endIterator, PredicateIterator.new, normalizeEnd_eq]

theorem scan_lt {ea x : UInt64} (h : db.scan p ea last = some x) : x < last := by
  have hfirst := firstOf_scan db p ea last
  rw [h] at hfirst
  exact hfirst.left.right.left

theorem position_scan (ea : UInt64)
    : PredicateIterator.position range ((db.scan p ea range.last).getD range.last)
        = db.scan p ea range.last := by
  unfold PredicateIterator.position
  cases hscan : db.scan p ea range.last with
  | none => simp
  | some x => simp [ne_of_lt (scan_lt hscan)]

theorem position_beginIterator (db : Flags) (range : PredicateRange)
    : PredicateIterator.position range (range.beginIterator db).current
        = db.scan range.predicate range.start range.last := by
  rw [← position_scan]
  unfold PredicateRange.beginIterator PredicateIterator.new
  rw [normalizeEnd_eq]
  dsimp only
  split
  . rfl
  . next hge =>
    rw [Flags.scan, if_neg hge]
    rfl

theorem position_increment (db : Flags) {it : PredicateIterator} (hlast : it.last = range.last)
    (hpredicate : it.predicate = range.predicate) (hcurrent : it.current < range.last)
    : PredicateIterator.position range (it.increment db).current = db.after range it.current := by
  have hmax : it.current ≠ 0xFFFFFFFFFFFFFFFF := by
    intro heq
    rw [heq] at hcurrent
    exact absurd (le_max range.last) (not_le_of_gt hcurrent)
  unfold PredicateIterator.increment Flags.nextMatch
  dsimp only
  rw [hlast, hpredicate, if_neg (by simp [hcurrent, hmax]), position_scan]
  rfl

theorem go_iterate_eq {it : PredicateIterator} (hlast : it.last = range.last)
    (hpredicate : it.predicate = range.predicate) (hcurrent : it.current ≤ range.last) (fuel : Nat)
    : PredicateRange.iterate.go db range fuel it
        = walk (db.after range) fuel (PredicateIterator.position range it.current) := by
  induction fuel generalizing it with
  | zero =>
    unfold PredicateRange.iterate.go PredicateIterator.eq PredicateIterator.position
    rw [endIterator_current]
    by_cases heq : it.current = range.last
    . simp [heq, walk]
    . simp [heq, walk]
  | succ fuel ih =>
    unfold PredicateRange.iterate.go PredicateIterator.eq
    rw [endIterator_current]
    by_cases heq : it.current = range.last
    . simp [heq, walk, PredicateIterator.position]
    . have hlt := lt_of_le_of_ne hcurrent heq
      have hnext := position_increment db hlast hpredicate hlt
      have hle : (it.increment db).current ≤ range.last := by
        unfold PredicateIterator.position at hnext
        split at hnext
        . next hend => exact le_of_eq hend
        . apply le_of_lt (scan_lt hnext.symm)
      rw [@ih (it.increment db) hlast hpredicate hle, hnext]
      simp [heq, walk, PredicateIterator.position]

theorem findNext_eq {ea : UInt64} (hea : ea < range.last)
    : db.findNext ea range.predicate range.last
        = (db.after range ea).elim (.error (.notFound "No next matching address")) .ok := by
  unfold Flags.findNext
  dsimp only
  rw [show (if range.last = badAddressWord then 0xFFFFFFFFFFFFFFFF else range.last) = range.last
    from normalizeEnd_eq range.last]
  rw [if_neg (not_le_of_gt hea)]
  unfold Flags.after
  cases db.scan range.predicate (ea + 1) range.last <;> rfl

theorem findFirst_eq (hrange : range.start < range.last)
    : db.findFirst range.start range.last range.predicate
        = (db.scan range.predicate range.start range.last).elim
            (.error (.notFound "No matching address in range")) .ok := by
  unfold Flags.findFirst
  rw [if_neg (not_le_of_gt hrange)]
  cases db.scan range.predicate range.start range.last <;> rfl

theorem go_findAll_eq {x? : Option UInt64} (hx : ∀ x, x? = some x → x < range.last)
    (message : String) (fuel : Nat)
    : Flags.findAll.go db range fuel (x?.elim (.error (.notFound message)) .ok)
        = walk (db.after range) fuel x? := by
  induction fuel generalizing x? message with
  | zero => cases x? <;> rfl
  | succ fuel ih =>
    cases x? with
    | none => rfl
    | some x =>
      rw [Option.elim_some, Flags.findAll.go, walk, findNext_eq (hx x rfl)]
      rw [@ih (db.after range x) (fun y hy => scan_lt hy)]

theorem PredicateRange.exact_fields (db : Flags) (range : PredicateRange)
    : ∃ l, range.Exact db range.start range.last range.predicate l := by
  rcases exists_enumerates_walk (Set.toFinite _)
    (firstOf_scan db range.predicate range.start range.last) (fun _ => firstOf_after)
    with ⟨l, henumerates, hwalk⟩
  refine ⟨l, henumerates, ⟨l.length, ?_⟩, fun hrange => ⟨l.length, ?_⟩⟩
  . intro fuel hfuel
    have hle : (range.beginIterator db).current ≤ range.last := by
      have hposition := position_beginIterator db range
      unfold PredicateIterator.position at hposition
      split at hposition
      . next hend => exact le_of_eq hend
      . apply le_of_lt (scan_lt hposition.symm)
    unfold PredicateRange.iterate
    rw [go_iterate_eq (normalizeEnd_eq range.last) rfl hle, position_beginIterator]
    apply hwalk fuel hfuel
  . intro fuel hfuel
    unfold Flags.findAll
    rw [findFirst_eq hrange, go_findAll_eq (fun x hx => scan_lt hx)]
    apply hwalk fuel hfuel

/--
A range of a predicate is iterated over from its beginning to its end in finitely many turns, and gives
the addresses that meet it, each once and in order. The largest word as the end takes in every address
below it.
-/
theorem PredicateRange.exists_exact (db : Flags) (start last : UInt64)
    : (∀ predicate, ∃ l, PredicateRange.Exact db ⟨start, last, predicate⟩ start last predicate l)
        ∧ (∃ l, (codeItems start last).Exact db start last .code l)
        ∧ (∃ l, (dataItems start last).Exact db start last .data l)
        ∧ (∃ l, (unknownBytes start last).Exact db start last .unknown l) :=
  ⟨fun predicate => PredicateRange.exact_fields db ⟨start, last, predicate⟩,
    PredicateRange.exact_fields db (codeItems start last),
    PredicateRange.exact_fields db (dataItems start last),
    PredicateRange.exact_fields db (unknownBytes start last)⟩

end Address
end Idax
