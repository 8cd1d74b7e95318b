import Mathlib.Algebra.Group.Nat.Defs
import Idax.Library.CString

/-!
The functions of `ida::lines` that read color tags. Each is given a view and hands it to a routine of
the SDK as a pointer to its first byte.
-/

namespace Idax
namespace Lines

open CString (View)

abbrev Text := List UInt8

def kColorOn : UInt8 := 0x01

def kColorOff : UInt8 := 0x02

def kColorEsc : UInt8 := 0x03

def kColorInv : UInt8 := 0x04

def kColorAddr : UInt8 := 0x28

def kColorAddrSize : Nat := 16

/--
The routines of the SDK, as functions of the text up to its NUL. The pointer that `tag_advance`
returns is given by its distance from the start.
-/
structure TagRoutines where
  tagRemove : Text → Text
  tagAdvance : Text → (cnt : Int) → Nat
  tagStrlen : Text → Int

namespace TagRoutines

/--
What is documented of the routines: they read a text from left to right, and `tag_remove` gives its
visible part.
-/
structure Documented (sdk : TagRoutines) : Prop where
  /-- What is visible does not depend on what follows. -/
  visible : ∀ s t, 0 ∉ s → 0 ∉ t → sdk.tagRemove s <+: sdk.tagRemove (s ++ t)
  /-- A few bytes end a tag, and text without control bytes is visible as it is after that. -/
  resumes : ∀ s, 0 ∉ s → ∃ p, 0 ∉ p ∧ p.length ≤ 2 + kColorAddrSize
    ∧ ∀ t, (∀ b ∈ t, kColorInv < b) → sdk.tagRemove (s ++ p ++ t) = sdk.tagRemove (s ++ p) ++ t
  strlen : ∀ s, 0 ∉ s → sdk.tagStrlen s = (sdk.tagRemove s).length
  /-- One position to the right is just behind the first visible character. -/
  advance : ∀ s, 0 ∉ s → sdk.tagRemove s ≠ []
    → sdk.tagRemove (s.take (sdk.tagAdvance s 1)) ≠ []
      ∧ ∀ k, k < sdk.tagAdvance s 1 → sdk.tagRemove (s.take k) = []
  advance_end : ∀ s, 0 ∉ s → sdk.tagRemove s = [] → sdk.tagAdvance s 1 = s.length

end TagRoutines

def tagRemove (sdk : TagRoutines) (taggedText : View) : Text :=
  if taggedText.contents.isEmpty then
    []
  else
    sdk.tagRemove (taggedText.readAt 0)

def castInt (value : Nat) : Int :=
  (value : Int).bmod (2 ^ 32)

def tagAdvance (sdk : TagRoutines) (taggedText : View) (pos : Int) : Int :=
  if pos < 0 ∨ (taggedText.contents.length : Int) ≤ pos then
    1
  else
    let skip := castInt (sdk.tagAdvance (taggedText.readAt pos.toNat) 1)
    if 0 < skip then skip else 1

def tagStrlen (sdk : TagRoutines) (taggedText : View) : Nat :=
  if taggedText.contents.isEmpty then
    0
  else
    let len := sdk.tagStrlen (taggedText.readAt 0)
    if 0 ≤ len then len.toNat else 0

theorem castInt_eq {value : Nat} (h : value < 2 ^ 31) : castInt value = value := by
  unfold castInt
  rw [Int.bmod_eq_of_le] <;> omega

def skipOf (sdk : TagRoutines) (s : Text) : Int :=
  if 0 < castInt (sdk.tagAdvance s 1) then castInt (sdk.tagAdvance s 1) else 1

theorem skipOf_eq {sdk : TagRoutines} {s : Text} (hpos : 0 < sdk.tagAdvance s 1)
    (h : sdk.tagAdvance s 1 < 2 ^ 31) : skipOf sdk s = sdk.tagAdvance s 1 := by
  rw [skipOf, castInt_eq h, if_pos]
  omega

theorem tagAdvance_eq {sdk : TagRoutines} {v : View} {pos : Int}
    (hrange : ¬(pos < 0 ∨ (v.contents.length : Int) ≤ pos))
    : tagAdvance sdk v pos = skipOf sdk (v.readAt pos.toNat) := by
  rw [tagAdvance, if_neg hrange]
  rfl

end Lines
end Idax
