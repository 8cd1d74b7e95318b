import Idax.Shim.TypedValue

/-!
This module contains what the copies of typed values own, and that they are given back as a whole.
-/

namespace Idax
namespace Shim

open Data
open Ownership

namespace IdaxDataTypedValue

mutual

def owned : IdaxDataTypedValue → Multiset Nat
  | .mk fields elements array =>
    held fields.stringValue.address + (held fields.bytes.address + (ownedAll array + held elements))

def ownedAll : List IdaxDataTypedValue → Multiset Nat
  | [] => 0
  | value :: array => value.owned + ownedAll array

end

mutual

def Shaped : IdaxDataTypedValue → Prop
  | .mk fields elements array =>
    (elements = none → array = [])
      ∧ (elements.isSome = true → fields.elementCount = array.length)
      ∧ ShapedAll array

def ShapedAll : List IdaxDataTypedValue → Prop
  | [] => True
  | value :: array => value.Shaped ∧ ShapedAll array

end

theorem ownedAll_replicate_zeroed (n : Nat) : ownedAll (List.replicate n zeroed) = 0 := by
  induction n with
  | zero => rfl
  | succ n ih =>
    rw [List.replicate_succ, ownedAll, ih]
    rfl

theorem shapedAll_replicate_zeroed (n : Nat) : ShapedAll (List.replicate n zeroed) := by
  induction n with
  | zero => trivial
  | succ n ih =>
    rw [List.replicate_succ]
    refine ⟨⟨fun _ => rfl, ?_, trivial⟩, ih⟩
    intro hsome
    cases hsome

theorem shaped_of_no_array (fields : IdaxDataTypedFields) : (mk fields none []).Shaped := by
  refine ⟨fun _ => rfl, ?_, trivial⟩
  intro hsome
  cases hsome

theorem owned_mk (fields : IdaxDataTypedFields) (elements : Option Nat)
    (array : List IdaxDataTypedValue)
    : (mk fields elements array).owned
        = ownedAll array + (held elements
            + (held fields.stringValue.address + held fields.bytes.address)) := by
  rw [owned, ← Multiset.add_assoc, Multiset.add_comm, Multiset.add_assoc]

theorem owned_of_no_array (fields : IdaxDataTypedFields)
    : (mk fields none []).owned
        = held fields.stringValue.address + held fields.bytes.address := by
  simp only [owned, ownedAll, held_none, Multiset.add_zero]

end IdaxDataTypedValue

open IdaxDataTypedValue

section Free

mutual

theorem triple_freeTypedValueContents : (value : IdaxDataTypedValue) → value.Shaped →
    Triple value.owned (freeTypedValueContents value)
      (fun out blocks => blocks = 0 ∧ out.owned = 0 ∧ out.Shaped)
  | .mk fields elements array, hshaped => by
    have ⟨hnone, hcount, harray⟩ := hshaped
    unfold freeTypedValueContents owned
    apply (triple_free _).call rfl
    rintro _ _ rfl
    rw [Multiset.zero_add]
    apply (triple_free _).call rfl
    rintro _ _ rfl
    rw [Multiset.zero_add]
    cases elements with
    | none =>
      rw [hnone rfl]
      apply Triple.pure
      exact ⟨rfl, rfl, shaped_of_no_array _⟩
    | some address =>
      rw [Option.isSome_some, if_pos rfl, hcount rfl]
      apply (triple_freeElements array harray).call rfl
      rintro _ _ rfl
      rw [Multiset.zero_add]
      apply (triple_free (some address)).bind
      rintro _ _ rfl
      apply Triple.pure
      exact ⟨rfl, rfl, shaped_of_no_array _⟩

theorem triple_freeElements : (array : List IdaxDataTypedValue) → ShapedAll array →
    Triple (ownedAll array) (freeElements array array.length) (fun _ blocks => blocks = 0)
  | [], _ => by
    apply Triple.pure
    rfl
  | value :: array, hshaped => by
    unfold freeElements ownedAll
    apply (triple_freeTypedValueContents value hshaped.left).call rfl
    rintro _ _ ⟨rfl, _⟩
    rw [Multiset.zero_add]
    apply triple_freeElements array hshaped.right

end

end Free

section Fill

mutual

def Copies : TypedValue → IdaxDataTypedValue → Prop
  | ⟨kind, unsignedValue, signedValue, floatingValue, pointerValue, string, bytes, elements⟩,
    .mk fields pointer array =>
    fields.kind = kindNumber kind
      ∧ fields.unsignedValue = unsignedValue
      ∧ fields.signedValue = signedValue
      ∧ fields.floatingValue = floatingValue
      ∧ fields.pointerValue = pointerValue
      ∧ CopiedTo string (string ++ [0]) fields.stringValue
      ∧ CopiedTo bytes bytes fields.bytes
      ∧ fields.byteCount = bytes.length
      ∧ fields.elementCount = elements.length
      ∧ (pointer = none → elements = [])
      ∧ CopiesAll elements array

def CopiesAll : List TypedValue → List IdaxDataTypedValue → Prop
  | [], array => array = []
  | value :: values, out :: array => Copies value out ∧ CopiesAll values array
  | _ :: _, [] => False

end

variable (refused : Nat → Bool)

def Filled (value : TypedValue) (result : Status × IdaxDataTypedValue) (blocks : Multiset Nat) : Prop :=
  blocks = result.2.owned ∧ result.2.Shaped
    ∧ (result.1 = ok ∧ Copies value result.2
      ∨ result.1 = .error mallocFailed ∧ result.2.owned = 0 ∧ ∃ k, refused k = true)

def FilledAll (values : List TypedValue) (result : Status × List IdaxDataTypedValue)
    (blocks : Multiset Nat) : Prop :=
  blocks = ownedAll result.2 ∧ ShapedAll result.2 ∧ result.2.length = values.length
    ∧ (result.1 = ok ∧ CopiesAll values result.2
      ∨ result.1 = .error mallocFailed ∧ ∃ k, refused k = true)

variable {refused}

theorem triple_failWith {value : TypedValue} {out : IdaxDataTypedValue} {blocks : Multiset Nat}
    (hblocks : blocks = out.owned) (hshaped : out.Shaped) (hrefused : ∃ k, refused k = true)
    : Triple blocks (failWith mallocFailed out) (Filled refused value) := by
  rw [hblocks]
  apply (triple_freeTypedValueContents out hshaped).bind
  rintro out' _ ⟨rfl, howned, hshaped'⟩
  apply Triple.pure
  exact ⟨howned.symm, hshaped', .inr ⟨rfl, howned, hrefused⟩⟩

theorem triple_copyBytes (bytes : List UInt8)
    : Triple 0 (copyBytes refused bytes)
        (fun p blocks => blocks = held p.address
          ∧ (CopiedTo bytes bytes p ∧ (p.isNone && !bytes.isEmpty) = false
            ∨ p = none ∧ (p.isNone && !bytes.isEmpty) = true ∧ ∃ k, refused k = true)) := by
  unfold copyBytes
  cases bytes with
  | nil =>
    apply Triple.pure
    exact ⟨rfl, .inl ⟨.inr ⟨rfl, rfl⟩, rfl⟩⟩
  | cons byte bytes =>
    rw [List.isEmpty_cons, if_neg (by decide)]
    apply (triple_store refused _).consequence
    rintro p blocks ⟨hblocks, hstore⟩
    exact ⟨hblocks, copiedTo_or_failed hstore⟩

mutual

theorem triple_fillTypedValue : (value : TypedValue) →
    Triple 0 (fillTypedValue refused value) (Filled refused value)
  | ⟨kind, unsignedValue, signedValue, floatingValue, pointerValue, string, bytes, elements⟩ => by
    unfold fillTypedValue
    apply (triple_dupString string).bind
    rintro stringValue _ ⟨rfl, ⟨hstring, hcheck⟩ | ⟨rfl, hcheck, hrefused⟩⟩
    rotate_left
    . rw [if_pos hcheck]
      apply triple_failWith (owned_of_no_array _).symm (shaped_of_no_array _) hrefused
    rw [if_neg (by rw [hcheck]; decide)]
    apply (triple_copyBytes bytes).call (Multiset.zero_add _).symm
    rintro copied _ ⟨rfl, ⟨hbytes, hcheck⟩ | ⟨rfl, hcheck, hrefused⟩⟩
    rotate_left
    . rw [if_pos hcheck, Multiset.add_comm]
      apply triple_failWith (owned_of_no_array _).symm (shaped_of_no_array _) hrefused
    rw [if_neg (by rw [hcheck]; decide), Multiset.add_comm]
    cases elements with
    | nil =>
      apply Triple.pure
      refine ⟨by rw [owned_of_no_array], shaped_of_no_array _, .inl ⟨rfl, ?_⟩⟩
      exact ⟨rfl, rfl, rfl, rfl, rfl, hstring, hbytes, rfl, rfl, fun _ => rfl, rfl⟩
    | cons element elements =>
      rw [List.isEmpty_cons, if_neg (by decide)]
      apply (triple_malloc refused).call (Multiset.zero_add _).symm
      rintro block _ ⟨rfl, hrefused⟩
      cases block with
      | none =>
        rw [Option.isNone_none, if_pos rfl, held_none, Multiset.zero_add]
        apply triple_failWith (owned_of_no_array _).symm (shaped_of_no_array _) (hrefused rfl)
      | some address =>
        rw [Option.isNone_some, if_neg (by decide)]
        apply (triple_fillElements (element :: elements)).call (Multiset.zero_add _).symm
        rintro ⟨status, array⟩ _ ⟨rfl, harray, hlength, hout⟩
        have hshaped (fields : IdaxDataTypedFields)
            (hcount : fields.elementCount = (element :: elements).length)
            : (mk fields (some address) array).Shaped := by
          refine ⟨?_, fun _ => ?_, harray⟩
          . intro hnone
            cases hnone
          . rw [hcount, hlength]
        rcases hout with ⟨rfl, hcopies⟩ | ⟨rfl, hrefused⟩
        . apply Triple.pure
          refine ⟨by rw [owned_mk], hshaped _ rfl, .inl ⟨rfl, ?_⟩⟩
          refine ⟨rfl, rfl, rfl, rfl, rfl, hstring, hbytes, rfl, rfl, ?_, hcopies⟩
          intro hnone
          cases hnone
        . apply triple_failWith (owned_mk _ _ _).symm (hshaped _ rfl) hrefused

theorem triple_fillElements : (values : List TypedValue) →
    Triple 0 (fillElements refused values) (FilledAll refused values)
  | [] => by
    apply Triple.pure
    exact ⟨rfl, trivial, rfl, .inl ⟨rfl, rfl⟩⟩
  | value :: values => by
    unfold fillElements
    apply (triple_fillTypedValue value).bind
    rintro ⟨status, out⟩ _ ⟨rfl, hshaped, hout⟩
    rcases hout with ⟨rfl, hcopies⟩ | ⟨rfl, howned, hrefused⟩
    . apply (triple_fillElements values).call (Multiset.zero_add _).symm
      rintro ⟨status, array⟩ _ ⟨rfl, harray, hlength, hrest⟩
      apply Triple.pure
      refine ⟨Multiset.add_comm _ _, ⟨hshaped, harray⟩, congrArg Nat.succ hlength, ?_⟩
      rcases hrest with ⟨hok, hall⟩ | ⟨herror, hrefused⟩
      . exact .inl ⟨hok, hcopies, hall⟩
      . exact .inr ⟨herror, hrefused⟩
    . apply Triple.pure
      refine ⟨?_, ⟨hshaped, shapedAll_replicate_zeroed _⟩, ?_, .inr ⟨rfl, hrefused⟩⟩
      . rw [ownedAll, ownedAll_replicate_zeroed, Multiset.add_zero]
      . rw [List.length_cons, List.length_replicate, List.length_cons]

end

end Fill

end Shim
end Idax
