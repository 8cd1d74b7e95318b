import Mathlib.Data.List.Pairwise
import Mathlib.Data.Nat.Basic

/-!
Blocks that are put one behind the other, each at a multiple of its alignment.
-/

def roundUp (n alignment : Nat) : Nat :=
  if n % alignment = 0 then n else n + (alignment - n % alignment)

theorem le_roundUp (n alignment : Nat) : n ≤ roundUp n alignment := by
  unfold roundUp
  split <;> omega

theorem roundUp_lt (n : Nat) {alignment : Nat} (h : 0 < alignment)
    : roundUp n alignment < n + alignment := by
  unfold roundUp
  split <;> omega

theorem dvd_roundUp (n : Nat) {alignment : Nat} (h : 0 < alignment)
    : alignment ∣ roundUp n alignment := by
  unfold roundUp
  split
  . next hmod => apply Nat.dvd_of_mod_eq_zero hmod
  . next hmod =>
    have hlt := Nat.mod_lt n h
    have hdiv := Nat.mod_add_div n alignment
    refine ⟨n / alignment + 1, ?_⟩
    rw [Nat.mul_succ]
    omega

structure Block where
  alignment : Nat
  size : Nat

def pack : (free : Nat) → List Block → List Nat
  | _, [] => []
  | free, block :: blocks =>
    let offset := roundUp free block.alignment
    offset :: pack (offset + block.size) blocks

def packEnd : (free : Nat) → List Block → Nat
  | free, [] => free
  | free, block :: blocks => packEnd (roundUp free block.alignment + block.size) blocks

theorem length_pack (free : Nat) (blocks : List Block)
    : (pack free blocks).length = blocks.length := by
  induction blocks generalizing free with
  | nil => rfl
  | cons block blocks ih => simp [pack, ih]

theorem le_packEnd (free : Nat) (blocks : List Block) : free ≤ packEnd free blocks := by
  induction blocks generalizing free with
  | nil => apply Nat.le_refl
  | cons block blocks ih =>
    have hhead := le_roundUp free block.alignment
    have htail := ih (roundUp free block.alignment + block.size)
    unfold packEnd
    omega

theorem le_of_mem_pack {free offset : Nat} {blocks : List Block} (h : offset ∈ pack free blocks)
    : free ≤ offset := by
  induction blocks generalizing free with
  | nil => cases h
  | cons block blocks ih =>
    have hhead := le_roundUp free block.alignment
    rcases List.mem_cons.mp h with rfl | hmem
    . apply hhead
    . have htail := ih hmem
      omega
