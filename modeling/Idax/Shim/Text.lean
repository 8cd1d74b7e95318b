import Idax.Error
import Idax.Library.CString
import Idax.Library.Ownership

/-!
This module contains the texts that the shim hands out: each is a copy with a NUL behind it, in a block of
its own.
-/

namespace Idax
namespace Shim

open Ownership

def mallocFailed : Error :=
  .internal "malloc failed"

section Dup

variable (refused : Nat → Bool)

def dupString (s : List UInt8) : Mem (Ptr (List UInt8)) :=
  store refused (s ++ [0])

end Dup

/--
Reading what the caller has given has no result where it goes beyond what a pointer points at.
-/
abbrev Read := ExceptT Error Option

def outside : Read α :=
  none

def readString (p : Ptr (List UInt8)) : Read (List UInt8) :=
  match p with
  | none => return []
  | some block => if 0 ∈ block.contents then return CString.read block.contents else outside

section Copies

variable {refused : Nat → Bool}

def CopiedTo (s contents : List UInt8) (p : Ptr (List UInt8)) : Prop :=
  (∃ address, p = some { address, contents }) ∨ s = [] ∧ p = none

theorem copiedTo_or_failed {s contents : List UInt8} {p : Ptr (List UInt8)}
    (h : (∃ address, p = some { address, contents }) ∨ p = none ∧ ∃ k, refused k = true)
    : CopiedTo s contents p ∧ (p.isNone && !s.isEmpty) = false
        ∨ p = none ∧ (p.isNone && !s.isEmpty) = true ∧ ∃ k, refused k = true := by
  rcases h with ⟨address, rfl⟩ | ⟨rfl, hrefused⟩
  . exact .inl ⟨.inl ⟨address, rfl⟩, rfl⟩
  . cases s with
    | nil => exact .inl ⟨.inr ⟨rfl, rfl⟩, rfl⟩
    | cons byte s => exact .inr ⟨rfl, rfl, hrefused⟩

theorem triple_dupString (s : List UInt8)
    : Triple 0 (dupString refused s)
        (fun p blocks => blocks = held p.address
          ∧ (CopiedTo s (s ++ [0]) p ∧ (p.isNone && !s.isEmpty) = false
            ∨ p = none ∧ (p.isNone && !s.isEmpty) = true ∧ ∃ k, refused k = true)) := by
  apply (triple_store refused _).consequence
  rintro p blocks ⟨hblocks, hstore⟩
  exact ⟨hblocks, copiedTo_or_failed hstore⟩

theorem readString_of_copied {s : List UInt8} {p : Ptr (List UInt8)} (h : CopiedTo s (s ++ [0]) p)
    : readString p = pure (CString.read s) := by
  rcases h with ⟨address, rfl⟩ | ⟨rfl, rfl⟩
  . unfold readString
    dsimp only
    rw [if_pos (by simp), CString.read_terminated]
  . rfl

end Copies

end Shim
end Idax
