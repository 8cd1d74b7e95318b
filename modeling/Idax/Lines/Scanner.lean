import Idax.Library.Scan
import Idax.Lines.Tags

/-!
Routines that read tags as the header describes them: a control byte and the byte of its color, an
address tag with its digits, and an escape byte that quotes the next character.
-/

namespace Idax
namespace Lines
namespace Scanner

/--
What the next byte is: text, the byte of a color, a quoted character, or one of the digits of an
address of which `left` more follow.
-/
inductive Mode where
  | text
  | colorOn
  | colorOff
  | quoted
  | digit (left : Fin 16)
  deriving DecidableEq, Repr

def next : Mode → UInt8 → Mode
  | .text, b =>
    if b = kColorOn then
      .colorOn
    else if b = kColorOff then
      .colorOff
    else if b = kColorEsc then
      .quoted
    else
      .text
  | .colorOn, b => if b = kColorAddr then .digit 15 else .text
  | .colorOff, _ => .text
  | .quoted, _ => .text
  | .digit left, _ => if left = 0 then .text else .digit (left - 1)

def shows : Mode → UInt8 → Bool
  | .text, b => kColorInv < b
  | .quoted, _ => true
  | _, _ => false

def modeAfter (mode : Mode) (s : Text) : Mode :=
  s.foldl next mode

def visible : Mode → Text → Text
  | _, [] => []
  | mode, b :: s => if shows mode b then b :: visible (next mode b) s else visible (next mode b) s

theorem visible_append (mode : Mode) (s t : Text)
    : visible mode (s ++ t) = visible mode s ++ visible (modeAfter mode s) t := by
  induction s generalizing mode with
  | nil => rfl
  | cons b s ih =>
    simp only [List.cons_append, visible, ih, modeAfter, List.foldl_cons]
    split <;> rfl

theorem modeAfter_append (mode : Mode) (s t : Text)
    : modeAfter mode (s ++ t) = modeAfter (modeAfter mode s) t := by
  apply List.foldl_append

theorem visible_plain {t : Text} (h : ∀ b ∈ t, kColorInv < b) : visible .text t = t := by
  induction t with
  | nil => rfl
  | cons b t ih =>
    have hb : kColorInv < b := h b List.mem_cons_self
    have hnext : next .text b = .text := by
      rw [next, if_neg, if_neg, if_neg]
      . rintro rfl
        exact absurd hb (by decide)
      . rintro rfl
        exact absurd hb (by decide)
      . rintro rfl
        exact absurd hb (by decide)
    rw [visible, hnext, ih fun c hc => h c (List.mem_cons_of_mem b hc)]
    simp [shows, hb]

theorem modeAfter_digits (left : Fin 16)
    : modeAfter (.digit left) (List.replicate (left + 1) 0x30) = .text := by
  revert left
  decide

theorem exists_end (mode : Mode)
    : ∃ p : Text, 0 ∉ p ∧ p.length ≤ 2 + kColorAddrSize ∧ modeAfter mode p = .text := by
  cases mode with
  | text => exact ⟨[], by decide, by decide, rfl⟩
  | colorOn => exact ⟨[0x05], by decide, by decide, rfl⟩
  | colorOff => exact ⟨[0x05], by decide, by decide, rfl⟩
  | quoted => exact ⟨[0x05], by decide, by decide, rfl⟩
  | digit left =>
    refine ⟨List.replicate (left + 1) 0x30, ?_, ?_, modeAfter_digits left⟩
    . rw [List.mem_replicate]
      intro h
      exact absurd h.right (by decide)
    . rw [List.length_replicate, kColorAddrSize]
      omega

def isBefore (s : Text) (cnt : Int) (k : Nat) : Bool :=
  decide (((visible .text (s.take k)).length : Int) < cnt)

theorem isBefore_one_iff {s : Text} {k : Nat}
    : isBefore s 1 k = true ↔ visible .text (s.take k) = [] := by
  rw [isBefore, decide_eq_true_iff, ← List.length_eq_zero_iff]
  omega

def tagRoutines : TagRoutines where
  tagRemove := visible .text
  tagAdvance := fun s cnt => Scan.run (isBefore s cnt) s.length
  tagStrlen := fun s => (visible .text s).length

theorem documented : tagRoutines.Documented := by
  constructor
  . intro s t _ _
    simp only [tagRoutines, visible_append]
    apply List.prefix_append
  . intro s _
    rcases exists_end (modeAfter .text s) with ⟨p, hp, hlength, hmode⟩
    refine ⟨p, hp, hlength, ?_⟩
    intro t ht
    simp only [tagRoutines]
    rw [visible_append, modeAfter_append, hmode, visible_plain ht]
  . intro s _
    rfl
  . intro s _ hvisible
    constructor
    . have hend : isBefore s 1 s.length = false := by
        rw [Bool.eq_false_iff, Ne, isBefore_one_iff, List.take_length]
        apply hvisible
      have hstop := Scan.run_stop hend
      rw [Bool.eq_false_iff, Ne, isBefore_one_iff] at hstop
      apply hstop
    . intro k hk
      apply isBefore_one_iff.mp (Scan.of_lt_run hk)
  . intro s _ hnone
    apply Scan.run_full
    intro k _
    rw [isBefore_one_iff]
    have heq : visible .text (s.take k ++ s.drop k) = [] := by
      rw [List.take_append_drop]
      apply hnone
    rw [visible_append] at heq
    apply (List.append_eq_nil_iff.mp heq).left

end Scanner
end Lines
end Idax
