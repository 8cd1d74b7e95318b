import Idax.Shim.MicrocodeInstruction

/-!
This module contains what the copies of microcode instructions own, and that they are given back as a
whole.
-/

namespace Idax
namespace Shim

open Microcode
open Ownership

mutual

def IdaxMicrocodeOperand.owned : IdaxMicrocodeOperand → Multiset Nat
  | .plain fields => held fields.helperName.address
  | .nesting fields address nestedInstruction =>
    held fields.helperName.address + (nestedInstruction.owned + held (some address))

def IdaxMicrocodeInstruction.owned : IdaxMicrocodeInstruction → Multiset Nat
  | .mk _ left right destination _ => left.owned + (right.owned + destination.owned)

end

theorem owned_instruction (opcode : Int) (left right destination : IdaxMicrocodeOperand) (fp : Int)
    : (IdaxMicrocodeInstruction.mk opcode left right destination fp).owned
        = left.owned + (right.owned + destination.owned) := by
  unfold IdaxMicrocodeInstruction.owned
  rfl

theorem owned_zeroed : (IdaxMicrocodeOperand.plain {}).owned = 0 := by
  unfold IdaxMicrocodeOperand.owned
  rfl

section Free

mutual

theorem triple_freeMicrocodeOperand : (operand : IdaxMicrocodeOperand) →
    Triple operand.owned (freeMicrocodeOperand operand) (fun out blocks => blocks = 0 ∧ out.owned = 0)
  | .plain fields => by
    unfold freeMicrocodeOperand IdaxMicrocodeOperand.owned
    apply (triple_free _).bind
    rintro _ _ rfl
    apply Triple.pure
    exact ⟨rfl, rfl⟩
  | .nesting fields address nestedInstruction => by
    unfold freeMicrocodeOperand IdaxMicrocodeOperand.owned
    apply (triple_free _).call rfl
    rintro _ _ rfl
    rw [Multiset.zero_add]
    apply (triple_microcodeInstructionFree nestedInstruction).call rfl
    rintro _ _ ⟨rfl, _⟩
    rw [Multiset.zero_add]
    apply (triple_free _).bind
    rintro _ _ rfl
    apply Triple.pure
    exact ⟨rfl, rfl⟩

theorem triple_microcodeInstructionFree : (instruction : IdaxMicrocodeInstruction) →
    Triple instruction.owned (microcodeInstructionFree instruction)
      (fun out blocks => blocks = 0 ∧ out.owned = 0)
  | .mk opcode left right destination floatingPointInstruction => by
    unfold microcodeInstructionFree IdaxMicrocodeInstruction.owned
    apply (triple_freeMicrocodeOperand left).call rfl
    rintro left' _ ⟨rfl, hleft⟩
    rw [Multiset.zero_add]
    apply (triple_freeMicrocodeOperand right).call rfl
    rintro right' _ ⟨rfl, hright⟩
    rw [Multiset.zero_add]
    apply (triple_freeMicrocodeOperand destination).bind
    rintro destination' _ ⟨rfl, hdestination⟩
    apply Triple.pure
    refine ⟨rfl, ?_⟩
    show left'.owned + (right'.owned + destination'.owned) = 0
    rw [hleft, hright, hdestination]
    rfl

end

end Free

section Fill

variable {refused : Nat → Bool}

def CopiedFields (operand : OperandFields) (fields : IdaxMicrocodeOperandFields) : Prop :=
  fields = { operandFields operand with helperName := fields.helperName }
    ∧ CopiedTo operand.helperName (operand.helperName ++ [0]) fields.helperName

mutual

def CopiesOperand : MicrocodeOperand → IdaxMicrocodeOperand → Prop
  | .plain operand, .plain fields => CopiedFields operand fields
  | .nesting operand nestedInstruction, .nesting fields _ nested =>
    CopiedFields operand fields ∧ CopiesInstruction nestedInstruction nested
  | .plain _, .nesting _ _ _ => False
  | .nesting _ _, .plain _ => False

def CopiesInstruction : MicrocodeInstruction → IdaxMicrocodeInstruction → Prop
  | .mk opcode left right destination fp, .mk opcode' left' right' destination' fp' =>
    opcode' = opcodeNumber opcode ∧ CopiesOperand left left' ∧ CopiesOperand right right'
      ∧ CopiesOperand destination destination' ∧ fp' = flag fp

end

theorem triple_fillOperandFields (operand : OperandFields)
    : Triple 0 (fillOperandFields refused operand) (fun result blocks =>
        blocks = held result.2.helperName.address
          ∧ (result.1 = ok ∧ CopiedFields operand result.2
            ∨ result.1 = .error mallocFailed ∧ result.2.helperName = none ∧ ∃ k, refused k = true)) := by
  unfold fillOperandFields
  apply (triple_dupString _).bind
  rintro helperName _ ⟨rfl, ⟨hcopied, hcheck⟩ | ⟨rfl, hcheck, hrefused⟩⟩
  . rw [if_neg (by rw [hcheck]; decide)]
    apply Triple.pure
    exact ⟨rfl, .inl ⟨rfl, rfl, hcopied⟩⟩
  . rw [if_pos hcheck]
    apply Triple.pure
    exact ⟨rfl, .inr ⟨rfl, rfl, hrefused⟩⟩

def WholeOrNothing {T : Type} (refused : Nat → Bool) (owned : T → Multiset Nat) (copies : T → Prop)
    (result : Status × T) (blocks : Multiset Nat) : Prop :=
  blocks = owned result.2
    ∧ (result.1 = ok ∧ copies result.2
      ∨ result.1 = .error mallocFailed ∧ owned result.2 = 0 ∧ ∃ k, refused k = true)

def FilledOperand (refused : Nat → Bool) (operand : MicrocodeOperand)
    : Status × IdaxMicrocodeOperand → Multiset Nat → Prop :=
  WholeOrNothing refused IdaxMicrocodeOperand.owned (CopiesOperand operand)

def FilledInstruction (refused : Nat → Bool) (instruction : MicrocodeInstruction)
    : Status × IdaxMicrocodeInstruction → Multiset Nat → Prop :=
  WholeOrNothing refused IdaxMicrocodeInstruction.owned (CopiesInstruction instruction)

theorem filled_plain_none {operand : MicrocodeOperand} {fields : IdaxMicrocodeOperandFields}
    (hnone : fields.helperName = none) (hrefused : ∃ k, refused k = true)
    : FilledOperand refused operand (.error mallocFailed, .plain fields)
        (held fields.helperName.address) := by
  refine ⟨rfl, .inr ⟨rfl, ?_, hrefused⟩⟩
  rw [IdaxMicrocodeOperand.owned, hnone]
  rfl

theorem triple_fill_plain (operand : OperandFields)
    : Triple 0 (fillMicrocodeOperand refused (.plain operand))
        (FilledOperand refused (.plain operand)) := by
  unfold fillMicrocodeOperand
  apply (triple_fillOperandFields operand).bind
  rintro ⟨status, fields⟩ _ ⟨rfl, ⟨rfl, hcopied⟩ | ⟨rfl, hnone, hrefused⟩⟩
  . apply Triple.pure
    exact ⟨rfl, .inl ⟨rfl, hcopied⟩⟩
  . apply Triple.pure
    exact filled_plain_none hnone hrefused

theorem triple_fill_nesting (operand : OperandFields) {nestedInstruction : MicrocodeInstruction}
    (ih : Triple 0 (fillMicrocodeInstruction refused nestedInstruction)
      (FilledInstruction refused nestedInstruction))
    : Triple 0 (fillMicrocodeOperand refused (.nesting operand nestedInstruction))
        (FilledOperand refused (.nesting operand nestedInstruction)) := by
  unfold fillMicrocodeOperand
  apply (triple_fillOperandFields operand).bind
  rintro ⟨status, fields⟩ _ ⟨rfl, ⟨rfl, hcopied⟩ | ⟨rfl, hnone, hrefused⟩⟩
  rotate_left
  . apply Triple.pure
    exact filled_plain_none hnone hrefused
  apply (triple_malloc refused).call (Multiset.zero_add _).symm
  rintro block _ ⟨rfl, hrefused⟩
  cases block with
  | none =>
    rw [held_none, Multiset.zero_add]
    apply (triple_free _).bind
    rintro _ _ rfl
    apply Triple.pure
    exact filled_plain_none rfl (hrefused rfl)
  | some address =>
    apply ih.call (Multiset.zero_add _).symm
    rintro ⟨status, nested⟩ _ ⟨rfl, ⟨rfl, hnested⟩ | ⟨rfl, howned, hrefused⟩⟩
    . apply Triple.pure
      refine ⟨?_, .inl ⟨rfl, hcopied, hnested⟩⟩
      rw [IdaxMicrocodeOperand.owned, ← Multiset.add_assoc, Multiset.add_comm]
    . apply (triple_microcodeInstructionFree nested).call rfl
      rintro _ _ ⟨rfl, _⟩
      rw [Multiset.zero_add]
      apply (triple_free _).call rfl
      rintro _ _ rfl
      rw [Multiset.zero_add]
      apply (triple_free _).bind
      rintro _ _ rfl
      apply Triple.pure
      exact filled_plain_none rfl hrefused

theorem filled_failed {instruction : MicrocodeInstruction} {left right destination : IdaxMicrocodeOperand}
    (opcode fp : Int) (hleft : left.owned = 0) (hright : right.owned = 0)
    (hdestination : destination.owned = 0) (hrefused : ∃ k, refused k = true)
    : FilledInstruction refused instruction
        (.error mallocFailed, .mk opcode left right destination fp) 0 := by
  have howned : (IdaxMicrocodeInstruction.mk opcode left right destination fp).owned = 0 := by
    rw [owned_instruction, hleft, hright, hdestination]
    rfl
  exact ⟨howned.symm, .inr ⟨rfl, howned, hrefused⟩⟩

theorem triple_fill_mk (opcode : MicrocodeOpcode) {left right destination : MicrocodeOperand} (fp : Bool)
    (ihleft : Triple 0 (fillMicrocodeOperand refused left) (FilledOperand refused left))
    (ihright : Triple 0 (fillMicrocodeOperand refused right) (FilledOperand refused right))
    (ihdestination : Triple 0 (fillMicrocodeOperand refused destination)
      (FilledOperand refused destination))
    : Triple 0 (fillMicrocodeInstruction refused (.mk opcode left right destination fp))
        (FilledInstruction refused (.mk opcode left right destination fp)) := by
  unfold fillMicrocodeInstruction
  apply ihleft.bind
  rintro ⟨status, left'⟩ _ ⟨rfl, ⟨rfl, hleft⟩ | ⟨rfl, howned, hrefused⟩⟩
  rotate_left
  . apply Triple.pure
    dsimp only at howned ⊢
    rw [howned]
    exact filled_failed _ _ howned owned_zeroed owned_zeroed hrefused
  apply ihright.call (Multiset.zero_add _).symm
  rintro ⟨status, right'⟩ _ ⟨rfl, ⟨rfl, hright⟩ | ⟨rfl, howned, hrefused⟩⟩
  rotate_left
  . dsimp only at howned ⊢
    rw [howned, Multiset.zero_add]
    apply (triple_freeMicrocodeOperand left').bind
    rintro left'' _ ⟨rfl, hleft'⟩
    apply Triple.pure
    exact filled_failed _ _ hleft' howned owned_zeroed hrefused
  apply ihdestination.call (Multiset.zero_add _).symm
  rintro ⟨status, destination'⟩ _ ⟨rfl, ⟨rfl, hdestination⟩ | ⟨rfl, howned, hrefused⟩⟩
  . apply Triple.pure
    refine ⟨?_, .inl ⟨rfl, rfl, hleft, hright, hdestination, rfl⟩⟩
    dsimp only
    rw [owned_instruction, Multiset.add_comm destination'.owned, Multiset.add_comm right'.owned,
      Multiset.add_assoc]
  . dsimp only at howned ⊢
    rw [howned, Multiset.zero_add]
    apply (triple_freeMicrocodeOperand right').call rfl
    rintro right'' _ ⟨rfl, hright'⟩
    rw [Multiset.zero_add]
    apply (triple_freeMicrocodeOperand left').bind
    rintro left'' _ ⟨rfl, hleft'⟩
    apply Triple.pure
    exact filled_failed _ _ hleft' hright' howned hrefused

mutual

theorem triple_fillMicrocodeOperand : (operand : MicrocodeOperand) →
    Triple 0 (fillMicrocodeOperand refused operand) (FilledOperand refused operand)
  | .plain operand => triple_fill_plain operand
  | .nesting operand nestedInstruction =>
    triple_fill_nesting operand (triple_fillMicrocodeInstruction nestedInstruction)

theorem triple_fillMicrocodeInstruction : (instruction : MicrocodeInstruction) →
    Triple 0 (fillMicrocodeInstruction refused instruction) (FilledInstruction refused instruction)
  | .mk opcode left right destination fp =>
    triple_fill_mk opcode fp (triple_fillMicrocodeOperand left) (triple_fillMicrocodeOperand right)
      (triple_fillMicrocodeOperand destination)

end

end Fill

end Shim
end Idax
