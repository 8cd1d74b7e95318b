import Idax.Shim.Text

/-!
This module contains the texts that the Rust binding takes from the shim.
-/

namespace Idax
namespace Rust

open Ownership
open Shim

section Utf8

def isContinuation (byte : UInt8) : Bool :=
  0x80 ≤ byte && byte ≤ 0xbf

def isSecondByte (first second : UInt8) : Bool :=
  if first = 0xe0 then 0xa0 ≤ second && second ≤ 0xbf
  else if first = 0xed then 0x80 ≤ second && second ≤ 0x9f
  else if first = 0xf0 then 0x90 ≤ second && second ≤ 0xbf
  else if first = 0xf4 then 0x80 ≤ second && second ≤ 0x8f
  else isContinuation second

def utf8CharWidth (first : UInt8) : Nat :=
  if first < 0x80 then 1
  else if first < 0xc2 then 0
  else if first < 0xe0 then 2
  else if first < 0xf0 then 3
  else if first < 0xf5 then 4
  else 0

/--
How many of the bytes behind `first` go on with its sequence, up to the first one that does not.
-/
def continued (first : UInt8) (rest : List UInt8) : Nat :=
  let tail := rest.take (utf8CharWidth first - 1)
  match tail with
  | [] => 0
  | second :: tail =>
    if utf8CharWidth first = 2 then
      if isContinuation second then 1 else 0
    else if isSecondByte first second then
      1 + (tail.takeWhile isContinuation).length
    else
      0

/--
`String::from_utf8_lossy`: what is no UTF-8 is replaced by U+FFFD, once for each sequence broken off.
-/
def fromUtf8Lossy : List UInt8 → List UInt8
  | [] => []
  | first :: rest =>
    let more := continued first rest
    if 0 < utf8CharWidth first ∧ more + 1 = utf8CharWidth first then
      first :: rest.take more ++ fromUtf8Lossy (rest.drop more)
    else
      [0xef, 0xbf, 0xbd] ++ fromUtf8Lossy (rest.drop more)
termination_by bytes => bytes.length
decreasing_by all_goals simp only [List.length_drop, List.length_cons]; omega

inductive Utf8 : List UInt8 → Prop where
  | nil : Utf8 []
  | char {first rest} (hwidth : 0 < utf8CharWidth first)
    (hchar : continued first rest + 1 = utf8CharWidth first)
    (h : Utf8 (rest.drop (continued first rest))) : Utf8 (first :: rest)

theorem utf8CharWidth_of_ascii {byte : UInt8} (h : byte < 0x80) : utf8CharWidth byte = 1 := by
  rw [utf8CharWidth, if_pos h]

theorem continued_of_ascii {byte : UInt8} (h : byte < 0x80) (rest : List UInt8)
    : continued byte rest = 0 := by
  rw [continued, utf8CharWidth_of_ascii h, Nat.sub_self, List.take_zero]

theorem fromUtf8Lossy_of_ascii {text : List UInt8} (h : ∀ byte ∈ text, byte < 0x80)
    : fromUtf8Lossy text = text := by
  induction text with
  | nil => rw [fromUtf8Lossy]
  | cons first rest ih =>
    have hfirst := h first List.mem_cons_self
    rw [fromUtf8Lossy, continued_of_ascii hfirst, utf8CharWidth_of_ascii hfirst, if_pos (by decide)]
    rw [List.take_zero, List.drop_zero, ih fun byte hbyte => h byte (List.mem_cons_of_mem _ hbyte)]
    rfl

theorem lossy_eq_self_iff (text : List UInt8) : fromUtf8Lossy text = text ↔ Utf8 text := by
  fun_induction fromUtf8Lossy text with
  | case1 => exact iff_of_true rfl .nil
  | case2 first rest more hchar ih =>
    rw [List.cons_append, List.cons.injEq, eq_self, true_and]
    constructor
    . intro heq
      refine .char hchar.left hchar.right (ih.mp ?_)
      nth_rewrite 3 [← List.take_append_drop more rest] at heq
      exact List.append_cancel_left heq
    . intro h
      cases h with
      | char _ _ h => rw [ih.mpr h, List.take_append_drop]
  | case3 first rest more hbroken ih =>
    refine iff_of_false ?_ ?_
    . intro heq
      simp only [List.cons_append, List.nil_append, List.cons.injEq] at heq
      rcases heq with ⟨rfl, hrest⟩
      apply hbroken
      rw [show more = continued 0xef rest from rfl, ← hrest]
      exact ⟨by decide, rfl⟩
    . intro h
      cases h with
      | char hwidth hchar _ => exact hbroken ⟨hwidth, hchar⟩

theorem zero_not_mem_lossy {text : List UInt8} (h : 0 ∉ text) : 0 ∉ fromUtf8Lossy text := by
  fun_induction fromUtf8Lossy text with
  | case1 => exact h
  | case2 first rest more _ ih =>
    rw [List.mem_cons, not_or] at h
    simp only [List.cons_append, List.mem_cons, List.mem_append, not_or]
    refine ⟨h.left, ?_, ih fun hmem => h.right (List.mem_of_mem_drop hmem)⟩
    exact fun hmem => h.right (List.mem_of_mem_take hmem)
  | case3 first rest more _ ih =>
    rw [List.mem_cons, not_or] at h
    rw [List.mem_append, not_or]
    exact ⟨by decide, ih fun hmem => h.right (List.mem_of_mem_drop hmem)⟩

theorem lossy_read_eq_self_iff (text : List UInt8)
    : fromUtf8Lossy (CString.read text) = text ↔ 0 ∉ text ∧ Utf8 text := by
  constructor
  . intro heq
    have hzero : 0 ∉ text := by
      rw [← heq]
      exact zero_not_mem_lossy (CString.zero_not_mem_read text)
    rw [CString.read_eq_self_iff.mpr hzero] at heq
    exact ⟨hzero, (lossy_eq_self_iff text).mp heq⟩
  . intro ⟨hzero, h⟩
    rw [CString.read_eq_self_iff.mpr hzero]
    exact (lossy_eq_self_iff text).mpr h

end Utf8

def stringOf (p : Ptr (List UInt8)) : Read (List UInt8) := do
  let text ← readString p
  return fromUtf8Lossy text

theorem stringOf_of_copied {s : List UInt8} {p : Ptr (List UInt8)} (h : CopiedTo s (s ++ [0]) p)
    : stringOf p = pure (fromUtf8Lossy (CString.read s)) := by
  rw [stringOf, readString_of_copied h]
  rfl

end Rust
end Idax
