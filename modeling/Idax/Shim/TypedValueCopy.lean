import Idax.Shim.Lemmas.TypedValue

/-!
This module contains the round trip of typed values through the C struct: what a copy is read back as,
and that no order of refused requests makes it lose memory or give it back twice.
-/

namespace Idax
namespace Shim

open Data
open Ownership
open IdaxDataTypedValue

section Parse

mutual

def cut : TypedValue → TypedValue
  | ⟨kind, unsignedValue, signedValue, floatingValue, pointerValue, string, bytes, elements⟩ =>
    { kind, unsignedValue, signedValue, floatingValue, pointerValue, bytes
      stringValue := CString.read string
      elements := cutAll elements }

def cutAll : List TypedValue → List TypedValue
  | [] => []
  | value :: values => cut value :: cutAll values

end

theorem kindOfNumber?_kindNumber (kind : TypedValueKind)
    : kindOfNumber? (kindNumber kind) = some kind := by
  cases kind <;> rfl

theorem readBytes_of_copied {bytes : List UInt8} {p : Ptr (List UInt8)} (h : CopiedTo bytes bytes p)
    : readBytes p bytes.length = pure bytes := by
  unfold readBytes
  rcases h with ⟨address, rfl⟩ | ⟨rfl, rfl⟩
  . dsimp only
    rw [if_pos (Nat.le_refl _), List.take_length]
    split
    . rfl
    . next hempty =>
      have hnil : bytes = [] := List.eq_nil_of_length_eq_zero (by omega)
      rw [hnil]
  . rfl

mutual

theorem parse_of_copies : (value : TypedValue) → (out : IdaxDataTypedValue) → Copies value out →
    parseTypedValue out = pure (cut value)
  | ⟨kind, unsignedValue, signedValue, floatingValue, pointerValue, string, bytes, elements⟩,
    .mk fields pointer array, h => by
    have ⟨hkind, hunsigned, hsigned, hfloating, hpointer, hstring, hbytes, hbyteCount, hcount, hnone,
      hall⟩ := h
    have hguard : ¬(0 < elements.length ∧ pointer.isNone) := by
      rintro ⟨hlength, hisNone⟩
      rw [hnone (Option.isNone_iff_eq_none.mp hisNone)] at hlength
      exact Nat.lt_irrefl 0 hlength
    unfold parseTypedValue
    rw [hkind, kindOfNumber?_kindNumber]
    dsimp only
    rw [readString_of_copied hstring, hbyteCount, readBytes_of_copied hbytes, hcount,
      parse_of_copiesAll elements array hall]
    simp only [pure_bind]
    rw [if_neg hguard, hunsigned, hsigned, hfloating, hpointer]
    rfl

theorem parse_of_copiesAll : (values : List TypedValue) → (array : List IdaxDataTypedValue) →
    CopiesAll values array → parseElements array values.length = pure (cutAll values)
  | [], _, _ => by
    unfold parseElements
    rfl
  | value :: values, out :: array, h => by
    unfold parseElements
    dsimp only [List.length_cons]
    rw [parse_of_copies value out h.left, parse_of_copiesAll values array h.right]
    rfl

end

end Parse

/--
A value is copied as a whole, or memory was refused and nothing stays behind. Whatever came of it, its
contents can be given back, which leaves what was there before, and once more.
-/
theorem fillTypedValue_safe (refused : Nat → Bool) (value : TypedValue) (heap : Heap)
    : ∃ status out after,
        fillTypedValue refused value heap = some ((status, out), after)
        ∧ (status = ok ∧ parseTypedValue out = pure (cut value)
              ∧ after.live = heap.live + out.owned
            ∨ status = .error mallocFailed ∧ (∃ k, refused k = true) ∧ after.live = heap.live)
        ∧ ∃ out' freed, freeTypedValueContents out after = some (out', freed)
            ∧ freed.live = heap.live
            ∧ ∃ out'' freed', freeTypedValueContents out' freed = some (out'', freed')
                ∧ freed'.live = heap.live := by
  rcases (triple_fillTypedValue value).run heap
    with ⟨⟨status, out⟩, after, hfill, _, hlive, rfl, hshaped, hout⟩
  rcases triple_freeTypedValueContents out hshaped heap.live after.requests
    with ⟨out', freed, hfree, _, hfreed, rfl, howned, hshaped'⟩
  rcases triple_freeTypedValueContents out' hshaped' heap.live freed.requests
    with ⟨out'', freed', hfree', _, hfreed', rfl, _⟩
  dsimp only at hlive hout hfree
  rw [← hlive] at hfree
  rw [howned, ← hfreed] at hfree'
  rw [Multiset.add_zero] at hfreed hfreed'
  refine ⟨status, out, after, hfill, ?_, out', freed, hfree, hfreed, out'', freed', hfree', hfreed'⟩
  rcases hout with ⟨hok, hcopies⟩ | ⟨herror, hnone, hrefused⟩
  . exact .inl ⟨hok, parse_of_copies value out hcopies, hlive⟩
  . rw [hnone, Multiset.add_zero] at hlive
    exact .inr ⟨herror, hrefused, hlive⟩

end Shim
end Idax
