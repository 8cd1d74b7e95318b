import Mathlib.Logic.Basic

/-!
Loops over a listing that is read one entry at a time. The body may refuse an entry, and reading the
next entry may fail in its own way.
-/

namespace Listing

variable {α σ ε τ : Type}

inductive End (σ ε τ : Type) where
  | finished (s : σ)
  | refused (e : ε) (s : σ)
  | interrupted (t : τ) (s : σ)

inductive Stop (α : Type) where
  | none
  | atEntry
  | atAdvance (rest : List α)

def firstStop (refuses : α → Bool) (interrupts : Nat → Bool) : (i : Nat) → List α → Stop α
  | _, [] => .none
  | i, a :: as =>
    if refuses a then .atEntry
    else if interrupts i then .atAdvance as
    else firstStop refuses interrupts (i + 1) as

def Ends (invariant : List α → σ → Prop) (all : List α) : Stop α → End σ ε τ → Prop
  | .none, .finished s => invariant all s
  | .atEntry, .refused _ _ => True
  | .atAdvance rest, .interrupted _ s => ∃ done, all = done ++ rest ∧ invariant done s
  | _, _ => False

variable {body : α → σ → Except ε σ} {advance : Nat → Option τ} {refuses : α → Bool}
variable {invariant : List α → σ → Prop} {all : List α}

end Listing
