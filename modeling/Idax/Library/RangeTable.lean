import Mathlib.Data.List.FinRange
import Mathlib.Order.Defs.LinearOrder

/-!
Tables of ranges that are not empty and do not overlap, in their order. The operations change one bound
of a range and refuse a bound that the table has no room for.
-/

structure Extent (α : Type u) [LinearOrder α] where
  first : α
  stop : α
  nonempty : first < stop

structure RangeTable (α : Type u) [LinearOrder α] (n : Nat) where
  range : Fin n → Extent α
  ordered : ∀ i j, i < j → (range i).stop ≤ (range j).first

namespace RangeTable

variable {α : Type u} [LinearOrder α] {n : Nat} (t : RangeTable α n)

def Contains (i : Fin n) (a : α) : Prop :=
  (t.range i).first ≤ a ∧ a < (t.range i).stop

instance instDecidableContains (i : Fin n) (a : α) : Decidable (t.Contains i a) :=
  inferInstanceAs (Decidable (_ ∧ _))

def Fits (i : Fin n) (first stop : α) : Prop :=
  first < stop ∧ ∀ j, j ≠ i → stop ≤ (t.range j).first ∨ (t.range j).stop ≤ first

instance instDecidableFits (i : Fin n) (first stop : α) : Decidable (t.Fits i first stop) :=
  inferInstanceAs (Decidable (_ ∧ _))

def find? (a : α) : Option (Fin n) :=
  (List.finRange n).find? fun i => t.Contains i a

theorem contains_unique {t : RangeTable α n} {i j : Fin n} {a : α} (hi : t.Contains i a)
    (hj : t.Contains j a)
    : i = j := by
  rcases lt_trichotomy i j with hlt | heq | hgt
  . have hstop := t.ordered i j hlt
    exact absurd (lt_of_lt_of_le hi.right hstop) (not_lt_of_ge hj.left)
  . exact heq
  . have hstop := t.ordered j i hgt
    exact absurd (lt_of_lt_of_le hj.right hstop) (not_lt_of_ge hi.left)

theorem find?_eq_some_iff {i : Fin n} {a : α} : t.find? a = some i ↔ t.Contains i a := by
  unfold find?
  constructor
  . intro h
    have hcontains := List.find?_some h
    simpa using hcontains
  . intro hcontains
    cases hfind : (List.finRange n).find? fun i => t.Contains i a with
    | none =>
      rw [List.find?_eq_none] at hfind
      have hnot := hfind i (List.mem_finRange i)
      simp [hcontains] at hnot
    | some j =>
      have hj : t.Contains j a := by
        simpa using List.find?_some hfind
      rw [contains_unique hj hcontains]

theorem contains_first (i : Fin n) : t.Contains i (t.range i).first :=
  ⟨le_refl _, (t.range i).nonempty⟩

/--
A range that still has an address in common with the one that it replaces keeps its place.
-/
def replace (i : Fin n) (first stop : α) (hfits : t.Fits i first stop)
    (hmeets : first < (t.range i).stop ∧ (t.range i).first < stop) : RangeTable α n where
  range j := if j = i then ⟨first, stop, hfits.left⟩ else t.range j
  ordered := by
    intro j k hlt
    have hold := t.ordered j k hlt
    split
    . next hj =>
      subst hj
      rw [if_neg (ne_of_gt hlt)]
      rcases hfits.right k (ne_of_gt hlt) with hbelow | habove
      . exact hbelow
      . have hbefore := lt_of_le_of_lt habove hmeets.left
        exact absurd (lt_trans (t.range k).nonempty hbefore) (not_lt_of_ge hold)
    . next hj =>
      split
      . next hk =>
        subst hk
        rcases hfits.right j hj with hbelow | habove
        . have hbehind := lt_of_lt_of_le hmeets.right hbelow
          exact absurd (lt_trans hbehind (t.range j).nonempty) (not_lt_of_ge hold)
        . exact habove
      . exact hold

section Replace

variable {t} {i : Fin n} {first stop : α} (hfits : t.Fits i first stop)
variable (hmeets : first < (t.range i).stop ∧ (t.range i).first < stop)

@[simp]
theorem range_replace_self : (t.replace i first stop hfits hmeets).range i
      = ⟨first, stop, hfits.left⟩ :=
  if_pos rfl

theorem range_replace_of_ne {j : Fin n} (h : j ≠ i)
    : (t.replace i first stop hfits hmeets).range j = t.range j :=
  if_neg h

end Replace

theorem fits_congr {t t' : RangeTable α n} {i : Fin n} (h : ∀ j, j ≠ i → t'.range j = t.range j)
    (first stop : α)
    : t'.Fits i first stop ↔ t.Fits i first stop := by
  unfold Fits
  apply and_congr_right
  intro _
  refine forall_congr' fun j => forall_congr' fun hj => ?_
  rw [h j hj]

def setFirst? (i : Fin n) (a : α) : Option (RangeTable α n) :=
  if h : t.Fits i a (t.range i).stop then
    some (t.replace i a (t.range i).stop h ⟨h.left, (t.range i).nonempty⟩)
  else
    none

def setStop? (i : Fin n) (b : α) : Option (RangeTable α n) :=
  if h : t.Fits i (t.range i).first b then
    some (t.replace i (t.range i).first b h ⟨(t.range i).nonempty, h.left⟩)
  else
    none

end RangeTable
