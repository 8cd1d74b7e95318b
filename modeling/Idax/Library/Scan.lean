import Mathlib.Logic.Basic

/-!
Loops that count upwards as long as a condition holds, with a bound on the number of their turns.
-/

namespace Scan

def go (p : Nat → Bool) : Nat → Nat → Nat
  | 0, i => i
  | fuel + 1, i => if p i then go p fuel (i + 1) else i

/--
`while (p(i)) ++i`, from zero.
-/
def run (p : Nat → Bool) (fuel : Nat) : Nat :=
  go p fuel 0

variable {p : Nat → Bool}

theorem go_spec (fuel i : Nat)
    : i ≤ go p fuel i
      ∧ (∀ j, i ≤ j → j < go p fuel i → p j = true)
      ∧ (p (i + fuel) = false → p (go p fuel i) = false) := by
  induction fuel generalizing i with
  | zero =>
    refine ⟨Nat.le_refl i, ?_, fun hstop => hstop⟩
    intro j hle hlt
    simp only [go] at hlt
    omega
  | succ fuel ih =>
    unfold go
    split
    . next hi =>
      rcases ih (i + 1) with ⟨hle, hbefore, hstop⟩
      refine ⟨by omega, ?_, ?_⟩
      . intro j hij hj
        by_cases heq : j = i
        . rw [heq]
          apply hi
        . apply hbefore j (by omega) hj
      . intro hfuel
        apply hstop
        rw [Nat.add_assoc, Nat.add_comm 1]
        apply hfuel
    . next hi =>
      refine ⟨Nat.le_refl i, ?_, fun _ => by simpa using hi⟩
      intro j hle hlt
      omega

theorem of_lt_run {fuel i : Nat} (hlt : i < run p fuel) : p i = true :=
  (go_spec fuel 0).right.left i (Nat.zero_le i) hlt

theorem run_stop {fuel : Nat} (hfuel : p fuel = false) : p (run p fuel) = false := by
  apply (go_spec fuel 0).right.right
  rw [Nat.zero_add]
  apply hfuel

theorem go_full {fuel i : Nat} (h : ∀ j, i ≤ j → j < i + fuel → p j = true)
    : go p fuel i = i + fuel := by
  induction fuel generalizing i with
  | zero => rfl
  | succ fuel ih =>
    rw [go, if_pos (h i (by omega) (by omega))]
    rw [ih fun j hle hlt => h j (by omega) (by omega)]
    omega

theorem run_full {fuel : Nat} (h : ∀ i < fuel, p i = true) : run p fuel = fuel := by
  rw [run, go_full fun j _ hlt => h j (by omega)]
  apply Nat.zero_add

theorem run_eq {fuel n : Nat} (hfuel : p fuel = false) (hbefore : ∀ i < n, p i = true)
    (hstop : p n = false) : run p fuel = n := by
  rcases Nat.lt_trichotomy (run p fuel) n with hlt | heq | hlt
  . have htrue := hbefore _ hlt
    rw [run_stop hfuel] at htrue
    cases htrue
  . apply heq
  . have htrue := of_lt_run hlt
    rw [hstop] at htrue
    cases htrue

end Scan
