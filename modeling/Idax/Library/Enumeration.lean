import Mathlib.Data.Set.Card
import Mathlib.Order.Bounds.Basic

/-!
Enumerations of a finite set in ascending order, by a walk that starts at its least element and asks
for the next one until there is none.
-/

namespace Enumeration

variable {α : Type u} [LinearOrder α] {s t : Set α} {l : List α} {next : α → Option α}

structure Enumerates (l : List α) (s : Set α) : Prop where
  mem_iff : ∀ x, x ∈ l ↔ x ∈ s
  ascending : l.Pairwise (· < ·)

def FirstOf (s : Set α) : Option α → Prop
  | none => s = ∅
  | some x => IsLeast s x

def walk (next : α → Option α) : (fuel : Nat) → Option α → Option (List α)
  | _, none => some []
  | 0, some _ => none
  | fuel + 1, some x => (walk next fuel (next x)).map (x :: ·)

theorem enumerates_empty : Enumerates [] (∅ : Set α) := by
  constructor
  case mem_iff => simp
  case ascending => exact .nil

theorem Enumerates.cons {x : α} (h : Enumerates l {y ∈ s | x < y}) (hx : IsLeast s x)
    : Enumerates (x :: l) s := by
  constructor
  case mem_iff =>
    intro y
    rw [List.mem_cons, h.mem_iff]
    constructor
    . intro hy
      cases hy with
      | inl heq =>
        rw [heq]
        apply hx.left
      | inr hmem => exact hmem.left
    . intro hy
      cases lt_or_eq_of_le (hx.right hy) with
      | inl hlt => exact .inr ⟨hy, hlt⟩
      | inr heq => exact .inl heq.symm
  case ascending =>
    rw [List.pairwise_cons]
    constructor
    . intro y hy
      apply ((h.mem_iff y).mp hy).right
    . apply h.ascending

theorem FirstOf.congr {x? : Option α} (h : FirstOf s x?) (heq : s = t) : FirstOf t x? := by
  rw [← heq]
  apply h

/--
A walk that starts at the least element and goes on to the least one above gives all of them in
order, and as many turns as there are elements are enough.
-/
theorem exists_enumerates_walk (hfinite : s.Finite) {start : Option α} (hstart : FirstOf s start)
    (hnext : ∀ x ∈ s, FirstOf {y ∈ s | x < y} (next x))
    : ∃ l, Enumerates l s ∧ ∀ fuel, l.length ≤ fuel → walk next fuel start = some l := by
  induction hcard : s.ncard using Nat.strong_induction_on generalizing s start with
  | _ n ih =>
    cases start with
    | none =>
      refine ⟨[], ?_, fun fuel _ => by cases fuel <;> rfl⟩
      rw [show s = ∅ from hstart]
      apply enumerates_empty
    | some x =>
      have hx : IsLeast s x := hstart
      have habove : {y ∈ s | x < y}.ncard < n := by
        rw [← hcard]
        apply Set.ncard_lt_ncard _ hfinite
        rw [Set.ssubset_iff_of_subset (Set.sep_subset s _)]
        exact ⟨x, hx.left, fun hself => lt_irrefl x hself.right⟩
      have hnext' : ∀ y ∈ {y ∈ s | x < y}, FirstOf {z ∈ {y ∈ s | x < y} | y < z} (next y) := by
        intro y hy
        apply (hnext y hy.left).congr
        ext z
        constructor
        . intro hz
          exact ⟨⟨hz.left, lt_trans hy.right hz.right⟩, hz.right⟩
        . intro hz
          exact ⟨hz.left.left, hz.right⟩
      rcases ih _ habove (hfinite.sep _) (hnext x hx.left) hnext' rfl with ⟨l, hl, hwalk⟩
      refine ⟨x :: l, hl.cons hx, ?_⟩
      intro fuel hfuel
      cases fuel with
      | zero => simp at hfuel
      | succ fuel =>
        rw [walk, hwalk fuel (by simpa using hfuel)]
        rfl

end Enumeration
