import Idax.Library.LimitedSearch
import Idax.Types.Lemmas.Order

/-!
The walk of the renderer with a depth limit is a depth-first search limited to that depth, of the
graph whose vertices are the names that are not dropped.
-/

namespace Idax
namespace Types
namespace TypeDeclarationFormatter

open LimitedSearch

variable (fmt : TypeDeclarationFormatter)

structure Matches (stack : List String) (entered : List (String × Nat)) (s : WalkState) : Prop where
  onStack : s.onStack = stack
  out : s.out = orderedTypes s.emitted
  seen : ∀ name, name ∈ entered.map Prod.fst ↔ name ∈ s.emitted ∨ name ∈ stack

def LimitedOne (limit left : Nat) (ti : Tinfo) : Prop :=
  ∀ s stack entered, Matches stack entered s
    → ∃ s', Matches stack (search fmt.succ left entered (fmt.leaves ti)) s'
      ∧ ∃ bound, ∀ fuel, bound ≤ fuel
        → fmt.walk limit fuel ti ((limit : Int) + 1 - left) s = some s'

def LimitedAll (limit left : Nat) (tis : List Tinfo) : Prop :=
  ∀ s stack entered, Matches stack entered s
    → ∃ s', Matches stack (search fmt.succ left entered (fmt.leavesAll tis)) s'
      ∧ ∃ bound, ∀ fuel, bound ≤ fuel
        → tis.foldlM (fun s ti => fmt.walk limit fuel ti ((limit : Int) + 1 - left) s) s = some s'

variable {fmt} {limit left : Nat}

theorem Matches.enter {stack : List String} {entered : List (String × Nat)} {s : WalkState}
    (h : Matches stack entered s) (name : String) (left : Nat)
    : Matches (name :: stack) ((name, left) :: entered)
        { s with onStack := name :: s.onStack } := by
  constructor
  . rw [h.onStack]
  . apply h.out
  . intro other
    rw [List.map_cons, List.mem_cons, List.mem_cons, h.seen]
    tauto

theorem Matches.leave {stack : List String} {entered : List (String × Nat)} {name : String}
    {s : WalkState} (h : Matches (name :: stack) entered s)
    : Matches stack entered
        { out := s.out ++ [⟨name, .named name⟩]
          emitted := s.emitted ++ [name]
          onStack := s.onStack.erase name } := by
  constructor
  . rw [h.onStack]
    apply List.erase_cons_head
  . rw [h.out, orderedTypes, orderedTypes, List.map_append]
    rfl
  . intro other
    rw [h.seen, List.mem_append, List.mem_singleton, List.mem_cons]
    tauto

theorem LimitedOne.succ_fuel {ti : Tinfo} {entered' : List (String × Nat)} {s s' : WalkState}
    {stack : List String} (hmatches : Matches stack entered' s') (bound : Nat)
    (h : ∀ fuel, bound ≤ fuel
      → fmt.walk limit (fuel + 1) ti ((limit : Int) + 1 - left) s = some s')
    : ∃ s', Matches stack entered' s' ∧ ∃ bound, ∀ fuel, bound ≤ fuel
        → fmt.walk limit fuel ti ((limit : Int) + 1 - left) s = some s' := by
  refine ⟨s', hmatches, bound + 1, ?_⟩
  intro fuel hfuel
  cases fuel with
  | zero => omega
  | succ fuel => apply h fuel (by omega)

theorem LimitedAll.cons {ti : Tinfo} {tis : List Tinfo} (hone : fmt.LimitedOne limit left ti)
    (hall : fmt.LimitedAll limit left tis) : fmt.LimitedAll limit left (ti :: tis) := by
  intro s stack entered h
  rcases hone s stack entered h with ⟨mid, hmid, b1, h1⟩
  rcases hall mid stack _ hmid with ⟨s', hs', b2, h2⟩
  refine ⟨s', ?_, max b1 b2, ?_⟩
  . rw [leavesAll, search_append]
    apply hs'
  . intro fuel hfuel
    rw [List.foldlM_cons]
    rw [h1 fuel (by omega)]
    apply h2 fuel (by omega)

mutual

theorem LimitedOne.of_named (hnamed : ∀ name, fmt.LimitedOne limit left (.named name)) (ti : Tinfo)
    : fmt.LimitedOne limit left ti := by
  intro s stack entered h
  match ti with
  | .absent =>
    rw [leaves, search_nil]
    apply LimitedOne.succ_fuel h 0
    intro fuel _
    rfl
  | .unnamed =>
    rw [leaves, search_nil]
    apply LimitedOne.succ_fuel h 0
    intro fuel _
    rfl
  | .ptr pointed =>
    rcases LimitedOne.of_named hnamed pointed s stack entered h with ⟨s', hs', bound, hwalk⟩
    apply LimitedOne.succ_fuel hs' bound hwalk
  | .array element =>
    rcases LimitedOne.of_named hnamed element s stack entered h with ⟨s', hs', bound, hwalk⟩
    apply LimitedOne.succ_fuel hs' bound hwalk
  | .func rettype args =>
    have hall := LimitedAll.cons (LimitedOne.of_named hnamed rettype) (LimitedAll.of_named hnamed args)
    rcases hall s stack entered h with ⟨s', hs', bound, hfold⟩
    apply LimitedOne.succ_fuel hs' bound
    intro fuel hfuel
    have := hfold fuel hfuel
    rw [List.foldlM_cons] at this
    apply this
  | .named name => apply hnamed name s stack entered h

theorem LimitedAll.of_named (hnamed : ∀ name, fmt.LimitedOne limit left (.named name))
    (tis : List Tinfo) : fmt.LimitedAll limit left tis := by
  match tis with
  | [] =>
    intro s stack entered h
    refine ⟨s, ?_, 0, ?_⟩
    . rw [leavesAll, search_nil]
      apply h
    . intro fuel _
      rfl
  | ti :: tis =>
    apply LimitedAll.cons (LimitedOne.of_named hnamed ti) (LimitedAll.of_named hnamed tis)

end

theorem LimitedOne.beyond (name : String) : fmt.LimitedOne limit 0 (.named name) := by
  intro s stack entered h
  rw [search_zero]
  apply LimitedOne.succ_fuel h 0
  intro fuel _
  simp only [walk]
  rw [if_pos (show 0 ≤ (limit : Int) ∧ (limit : Int) < (limit : Int) + 1 - (0 : Nat) by omega)]
  split <;> rfl

theorem LimitedOne.visit (hbelow : ∀ tis, fmt.LimitedAll limit left tis) (name : String)
    : fmt.LimitedOne limit (left + 1) (.named name) := by
  intro s stack entered h
  rw [leaves]
  split
  . next hskip =>
    rw [search_nil]
    apply LimitedOne.succ_fuel h 0
    intro fuel _
    apply walk_skipped hskip
  . next hkept =>
    simp only [Bool.or_eq_true, not_or, Bool.not_eq_true] at hkept
    by_cases hseen : name ∈ entered.map Prod.fst
    . rw [search_cons_seen hseen, search_nil]
      apply LimitedOne.succ_fuel h 0
      intro fuel _
      apply walk_seen
      rw [h.onStack]
      apply (h.seen name).mp hseen
    . rw [search_cons_enter hseen, search_nil]
      rw [h.seen, not_or] at hseen
      have hmembers := hbelow (fmt.followed name) _ _ _ (h.enter name left)
      rcases hmembers with ⟨mid, hmid, bound, hfold⟩
      apply LimitedOne.succ_fuel hmid.leave bound
      intro fuel hfuel
      apply walk_enter hkept.left hkept.right (by omega) hseen.left (by rw [h.onStack]; exact hseen.right)
      rw [show (limit : Int) + 1 - (left + 1 : Nat) + 1 = (limit : Int) + 1 - left by omega]
      apply hfold fuel hfuel

theorem limitedAll (fmt : TypeDeclarationFormatter) (limit left : Nat) (tis : List Tinfo)
    : fmt.LimitedAll limit left tis := by
  induction left generalizing tis with
  | zero => apply LimitedAll.of_named LimitedOne.beyond
  | succ left ih => apply LimitedAll.of_named (LimitedOne.visit ih)

theorem exists_orderNamed (fmt : TypeDeclarationFormatter) (ns : List String) (d : Nat)
    : ∃ out : List String,
        (∃ bound, ∀ fuel, bound ≤ fuel → fmt.orderNamed fuel ns d = some (orderedTypes out))
        ∧ ∀ name, name ∈ out ↔ name ∈ (entries fmt.succ d
            (fmt.leavesAll (ns.filterMap fmt.til.tinfoFromName))).map Prod.fst := by
  have hstart : Matches [] [] {} := by
    constructor <;> simp [orderedTypes]
  rcases fmt.limitedAll d (d + 1) (ns.filterMap fmt.til.tinfoFromName) {} [] [] hstart
    with ⟨s', hs', bound, hfold⟩
  refine ⟨s'.emitted, ⟨bound, ?_⟩, ?_⟩
  . intro fuel hfuel
    have hfold := hfold fuel hfuel
    rw [show (d : Int) + 1 - (d + 1 : Nat) = 0 by omega] at hfold
    rw [orderNamed_eq, hfold, Option.map_some, hs'.out]
  . intro name
    rw [entries, hs'.seen]
    simp

end TypeDeclarationFormatter
end Types
end Idax
