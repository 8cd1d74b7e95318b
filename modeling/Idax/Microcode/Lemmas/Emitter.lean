import Idax.Microcode.Emitter
import Idax.Microcode.Lemmas.Context

/-!
What a call of an emitter does to the block and to the marker of the last instruction.
-/

namespace Idax
namespace Microcode

variable {μ τ : Type}

open MicrocodeContext

section Step

variable {sdk : Sdk μ τ} {outcomes : Outcomes μ τ} {context : MicrocodeContext μ τ}

def OneOrNothing (before : MicrocodeContext μ τ) (result : Status × MicrocodeContext μ τ) : Prop :=
  (result.fst = ok ∧ Complete before ∧ ∃ policy insn, Placed policy insn before result.snd)
    ∨ ((∃ e, result.fst = .error e) ∧ Unchanged before result.snd)

theorem OneOrNothing.of_error (e : Error) : OneOrNothing context (.error e, context) :=
  .inr ⟨⟨e, rfl⟩, .refl context⟩

theorem oneOrNothing_emitTracked (hraw : context.hasRaw = true)
    (hcodegen : context.hasCodegen = true) (failed : Error) (insn : MicroInsn μ τ)
    (policy : MicrocodeInsertPolicy) (finish : MicroInsn μ τ → MicroInsn μ τ) (noop : Bool)
    : OneOrNothing context (emitTracked outcomes context failed insn policy finish noop) := by
  rcases @emitTracked_cases _ _ outcomes context policy hraw hcodegen failed insn finish noop
    with ⟨status, after, heq, hcases⟩
  rw [heq]
  split at hcases
  . next hemits =>
    unfold emits at hemits
    simp only [Bool.and_eq_true] at hemits
    exact .inl ⟨hcases.left, ⟨hraw, hcodegen, hemits.left.right⟩, policy, _, hcases.right⟩
  . exact .inr hcases

theorem oneOrNothing_check {c : Prop} [Decidable c] {e : Error}
    {result : Status × MicrocodeContext μ τ} (h : ¬c → OneOrNothing context result)
    : OneOrNothing context (if c then (.error e, context) else result) := by
  split
  . apply OneOrNothing.of_error
  . next hc => apply h hc

theorem eq_true_of_not_not {b : Bool} (h : ¬(!b) = true) : b = true := by
  simpa using h

theorem oneOrNothing_emitNoop (policy : MicrocodeInsertPolicy)
    : OneOrNothing context (emitNoopWithPolicy outcomes context policy) := by
  apply oneOrNothing_check
  intro hraw
  apply oneOrNothing_check
  intro hcodegen
  apply oneOrNothing_emitTracked (eq_true_of_not_not hraw) (eq_true_of_not_not hcodegen)

theorem oneOrNothing_emitInstruction (instruction : MicrocodeInstruction)
    (policy : MicrocodeInsertPolicy)
    : OneOrNothing context (emitInstructionWithPolicy outcomes context instruction policy) := by
  rcases @emitInstruction_cases _ _ outcomes context policy instruction
    with ⟨status, after, heq, hcases⟩
  rw [heq]
  split at hcases
  . next haccepts =>
    unfold accepts emits at haccepts
    simp only [Bool.and_eq_true] at haccepts
    rcases haccepts with ⟨⟨⟨hraw, hcodegen⟩, _⟩, ⟨_, hblock⟩, _⟩
    rcases hcases with ⟨hstatus, insn, _, hplaced⟩
    exact .inl ⟨hstatus, ⟨hraw, hcodegen, hblock⟩, policy, insn, hplaced⟩
  . exact .inr hcases

theorem oneOrNothing_emitMoveRegister (source destination width : Int)
    (policy : MicrocodeInsertPolicy) (udt : Bool)
    : OneOrNothing context
        (emitMoveRegisterWithPolicy outcomes context source destination width policy udt) := by
  apply oneOrNothing_check
  intro _
  apply oneOrNothing_check
  intro hraw
  apply oneOrNothing_check
  intro hcodegen
  apply oneOrNothing_emitTracked (eq_true_of_not_not hraw) (eq_true_of_not_not hcodegen)

theorem oneOrNothing_emitLoadMemoryRegister (selector offset destination width offsetWidth : Int)
    (policy : MicrocodeInsertPolicy) (udt : Bool)
    : OneOrNothing context (emitLoadMemoryRegisterWithPolicy outcomes context selector offset
        destination width offsetWidth policy udt) := by
  apply oneOrNothing_check
  intro _
  apply oneOrNothing_check
  intro _
  apply oneOrNothing_check
  intro hraw
  apply oneOrNothing_check
  intro hcodegen
  apply oneOrNothing_emitTracked (eq_true_of_not_not hraw) (eq_true_of_not_not hcodegen)

theorem oneOrNothing_emitStoreMemoryRegister (source selector offset width offsetWidth : Int)
    (policy : MicrocodeInsertPolicy) (udt : Bool)
    : OneOrNothing context (emitStoreMemoryRegisterWithPolicy outcomes context source selector offset
        width offsetWidth policy udt) := by
  apply oneOrNothing_check
  intro _
  apply oneOrNothing_check
  intro _
  apply oneOrNothing_check
  intro hraw
  apply oneOrNothing_check
  intro hcomplete
  rw [Bool.or_eq_true, not_or] at hcomplete
  apply oneOrNothing_emitTracked (eq_true_of_not_not hraw) (eq_true_of_not_not hcomplete.left)

theorem oneOrNothing_insertCall (call : Option (HelperCall μ τ)) (helperName : String)
    (policy : MicrocodeInsertPolicy)
    : OneOrNothing context (insertCallInstruction outcomes context call helperName policy) := by
  rcases @insertCallInstruction_cases _ _ outcomes context policy helperName call
    with ⟨status, after, heq, hcases⟩
  rw [heq]
  split at hcases
  . next hinserts =>
    unfold insertsCall at hinserts
    simp only [Bool.and_eq_true] at hinserts
    rcases hinserts with ⟨⟨⟨⟨hraw, hcodegen⟩, hblock⟩, _⟩, _⟩
    rcases hcases with ⟨hstatus, call', _, hplaced⟩
    exact .inl ⟨hstatus, ⟨hraw, hcodegen, hblock⟩, policy, .call call', hplaced⟩
  . exact .inr hcases

theorem oneOrNothing_emitPlannedCall (helperName : String) (plan : Result (CallPlan μ τ))
    : OneOrNothing context (emitPlannedCall sdk outcomes context helperName plan) := by
  unfold emitPlannedCall
  cases plan with
  | error e => apply OneOrNothing.of_error
  | ok plan =>
    dsimp only
    split
    . apply OneOrNothing.of_error
    . apply oneOrNothing_insertCall

theorem oneOrNothing_emitHelperCall (helperName : String)
    : OneOrNothing context (emitHelperCall outcomes context helperName) := by
  apply oneOrNothing_check
  intro _
  apply oneOrNothing_check
  intro _
  apply oneOrNothing_check
  intro _
  apply oneOrNothing_insertCall

theorem oneOrNothing_emitHelperCallWithArguments (helperName : String)
    (arguments : List MicrocodeValue) (options : MicrocodeCallOptions)
    : OneOrNothing context
        (emitHelperCallWithArgumentsAndOptions sdk outcomes context helperName arguments options) := by
  apply oneOrNothing_check
  intro _
  apply oneOrNothing_check
  intro _
  apply oneOrNothing_check
  intro _
  apply oneOrNothing_emitPlannedCall

theorem oneOrNothing_emitHelperCallToRegister (helperName : String)
    (arguments : List MicrocodeValue) (register : Int) (width : Int32) (isUnsigned : Bool)
    (options : MicrocodeCallOptions)
    : OneOrNothing context (emitHelperCallWithArgumentsToRegisterAndOptions sdk outcomes context
        helperName arguments register width isUnsigned options) := by
  apply oneOrNothing_check
  intro _
  apply oneOrNothing_check
  intro _
  apply oneOrNothing_check
  intro _
  apply oneOrNothing_check
  intro _
  apply oneOrNothing_emitPlannedCall

theorem oneOrNothing_emitHelperCallToMicroOperand (helperName : String)
    (arguments : List MicrocodeValue) (destination : MicrocodeOperand) (isUnsigned : Bool)
    (options : MicrocodeCallOptions)
    : OneOrNothing context (emitHelperCallWithArgumentsToMicroOperandAndOptions sdk outcomes context
        helperName arguments destination isUnsigned options) := by
  apply oneOrNothing_check
  intro _
  apply oneOrNothing_check
  intro _
  apply oneOrNothing_check
  intro _
  apply oneOrNothing_check
  intro _
  apply oneOrNothing_emitPlannedCall

def Emitter.storesOperand : Emitter → Bool
  | .helperCallToOperand .. => true
  | _ => false

theorem oneOrNothing_run {emitter : Emitter} (h : emitter.storesOperand = false)
    : OneOrNothing context (emitter.run sdk outcomes context) := by
  cases emitter with
  | noop => apply oneOrNothing_emitNoop
  | instruction => apply oneOrNothing_emitInstruction
  | moveRegister => apply oneOrNothing_emitMoveRegister
  | loadMemoryRegister => apply oneOrNothing_emitLoadMemoryRegister
  | storeMemoryRegister => apply oneOrNothing_emitStoreMemoryRegister
  | helperCall => apply oneOrNothing_emitHelperCall
  | helperCallWithArguments => apply oneOrNothing_emitHelperCallWithArguments
  | helperCallToRegister => apply oneOrNothing_emitHelperCallToRegister
  | helperCallToMicroOperand => apply oneOrNothing_emitHelperCallToMicroOperand
  | helperCallToOperand => cases h

end Step

end Microcode
end Idax
