import Idax.Rust.MicrocodeInstruction

/-!
This module contains the way of a microcode instruction to Rust: it arrives as a whole, however deep it is
nested, and its copy is given back.
-/

namespace Idax
namespace Rust

open Ownership
open Shim

section Conversion

def ofFields (operand : Microcode.OperandFields) : OperandFields :=
  { kind := operand.kind
    registerId := operand.registerId
    localVariableIndex := operand.localVariableIndex
    localVariableOffset := operand.localVariableOffset
    secondRegisterId := operand.secondRegisterId
    globalAddress := operand.globalAddress
    stackOffset := operand.stackOffset
    helperName := fromUtf8Lossy (CString.read operand.helperName)
    blockIndex := operand.blockIndex
    unsignedImmediate := operand.unsignedImmediate
    signedImmediate := operand.signedImmediate
    byteWidth := operand.byteWidth
    markUserDefinedType := operand.markUserDefinedType }

mutual

def ofOperand : Microcode.MicrocodeOperand → MicrocodeOperand
  | .plain operand => .plain (ofFields operand)
  | .nesting operand nestedInstruction =>
    .nesting (ofFields operand) (ofInstruction nestedInstruction)

def ofInstruction : Microcode.MicrocodeInstruction → MicrocodeInstruction
  | .mk opcode left right destination floatingPointInstruction =>
    .mk opcode (ofOperand left) (ofOperand right) (ofOperand destination) floatingPointInstruction

end

theorem opcodeOf_opcodeNumber (opcode : Microcode.MicrocodeOpcode)
    : opcodeOf (opcodeNumber opcode) = opcode := by
  cases opcode <;> rfl

theorem operandKindOf_operandKindNumber (kind : Microcode.MicrocodeOperandKind)
    : operandKindOf (operandKindNumber kind) = kind := by
  cases kind <;> rfl

theorem flag_ne_zero (value : Bool) : (flag value != 0) = value := by
  cases value <;> rfl

theorem fields_of_copied {operand : Microcode.OperandFields} {fields : IdaxMicrocodeOperandFields}
    (h : CopiedFields operand fields) : operandFieldsFromFfi fields = pure (ofFields operand) := by
  rw [operandFieldsFromFfi, stringOf_of_copied h.right, h.left]
  dsimp only [operandFields]
  rw [operandKindOf_operandKindNumber, flag_ne_zero]
  rfl

mutual

theorem operand_of_copies : (operand : Microcode.MicrocodeOperand) → (out : IdaxMicrocodeOperand) →
    CopiesOperand operand out → microcodeOperandFromFfi out = pure (ofOperand operand)
  | .plain operand, .plain fields, h => by
    unfold microcodeOperandFromFfi
    rw [fields_of_copied h]
    rfl
  | .nesting operand nestedInstruction, .nesting fields address nested, h => by
    unfold microcodeOperandFromFfi
    rw [fields_of_copied h.left, instruction_of_copies nestedInstruction nested h.right]
    rfl

theorem instruction_of_copies : (instruction : Microcode.MicrocodeInstruction) →
    (out : IdaxMicrocodeInstruction) → CopiesInstruction instruction out →
    microcodeInstructionFromFfi out = pure (ofInstruction instruction)
  | .mk opcode left right destination floatingPointInstruction, .mk opcode' left' right' destination' fp,
    h => by
    have ⟨hopcode, hleft, hright, hdestination, hfp⟩ := h
    unfold microcodeInstructionFromFfi
    rw [operand_of_copies left left' hleft, operand_of_copies right right' hright,
      operand_of_copies destination destination' hdestination, hopcode, hfp, opcodeOf_opcodeNumber]
    simp only [pure_bind]
    rw [flag_ne_zero]
    rfl

end

end Conversion

section Calls

variable {refused : Nat → Bool}

theorem triple_fillInstructionOut (instruction : Microcode.MicrocodeInstruction)
    : Triple 0 (fillInstructionOut refused instruction) (fun result blocks => blocks = result.2.owned
        ∧ (result.1 = ok ∧ CopiesInstruction instruction result.2
          ∨ result.1 = .error mallocFailed ∧ result.2.owned = 0 ∧ ∃ k, refused k = true)) := by
  apply (triple_fillMicrocodeInstruction instruction).bind
  rintro ⟨status, out⟩ _ ⟨rfl, ⟨rfl, hcopies⟩ | ⟨rfl, howned, hrefused⟩⟩
  . apply Triple.pure
    exact ⟨rfl, .inl ⟨rfl, hcopies⟩⟩
  . apply (triple_microcodeInstructionFree out).bind
    rintro out' _ ⟨rfl, howned'⟩
    apply Triple.pure
    exact ⟨howned'.symm, .inr ⟨rfl, howned', hrefused⟩⟩

theorem triple_instructionFrom (found : Idax.Result Microcode.MicrocodeInstruction)
    (fallbackMsg : String)
    : Triple 0 (instructionFrom refused found fallbackMsg) (fun result blocks => blocks = 0
        ∧ (result = (found.mapError crossedError).map ofInstruction
          ∨ result = .error (crossedError mallocFailed) ∧ ∃ k, refused k = true)) := by
  unfold instructionFrom
  cases found with
  | error err =>
    apply Triple.pure
    exact ⟨rfl, .inl (congrArg Except.error (consumeLastError_setError (.of err) _))⟩
  | ok instruction =>
    apply (triple_fillInstructionOut instruction).bind
    rintro ⟨status, raw⟩ _ ⟨rfl, ⟨rfl, hcopies⟩ | ⟨rfl, howned, hrefused⟩⟩
    . dsimp only [ok]
      rw [instruction_of_copies instruction raw hcopies]
      apply (triple_microcodeInstructionFree raw).bind
      rintro _ _ ⟨rfl, _⟩
      apply Triple.pure
      exact ⟨rfl, .inl rfl⟩
    . dsimp only at howned ⊢
      rw [howned]
      apply Triple.pure
      exact ⟨rfl, .inr ⟨congrArg Except.error (consumeLastError_setError _ _), hrefused⟩⟩

/--
Whichever requests are refused, no memory is kept or given back twice, and what arrives is the instruction
that was found or the error instead of it, unless memory was refused.
-/
theorem instructionFrom_safe (refused : Nat → Bool)
    (found : Idax.Result Microcode.MicrocodeInstruction) (fallbackMsg : String) (heap : Heap)
    : ∃ result after, instructionFrom refused found fallbackMsg heap = some (result, after)
        ∧ after.live = heap.live
        ∧ (result = (found.mapError crossedError).map ofInstruction
          ∨ result = .error (crossedError mallocFailed) ∧ ∃ k, refused k = true) := by
  rcases (triple_instructionFrom found fallbackMsg).run heap
    with ⟨result, after, hrun, _, hlive, rfl, hresult⟩
  rw [Multiset.add_zero] at hlive
  exact ⟨result, after, hrun, hlive, hresult⟩

end Calls

end Rust
end Idax
