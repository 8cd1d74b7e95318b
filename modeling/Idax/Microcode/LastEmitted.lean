import Idax.Microcode.Lemmas.Emitter

/-!
This module shows that the marker of the last emitted instruction always points into the block.
-/

namespace Idax
namespace Microcode

variable {μ τ : Type}

inductive Operation (μ τ : Type) where
  | emit (outcomes : Outcomes μ τ) (emitter : Emitter)
  | emitInstructions (outcomes : Nat → Outcomes μ τ) (instructions : List MicrocodeInstruction)
    (policy : MicrocodeInsertPolicy)
  | loadOperand (outcomes : Outcomes μ τ) (index : Int)
  | loadEffectiveAddress (outcomes : Outcomes μ τ) (index : Int)
  | storeOperand (outcomes : Outcomes μ τ) (index register : Int) (width : Int32) (udt : Bool)
  | removeLastEmitted
  | removeAtIndex (index : Int)

open MicrocodeContext

section Run

variable (sdk : Sdk μ τ)

def Operation.apply (context : MicrocodeContext μ τ) : Operation μ τ → MicrocodeContext μ τ
  | .emit outcomes emitter => (emitter.run sdk outcomes context).snd
  | .emitInstructions outcomes instructions policy =>
    (context.emitInstructionsWithPolicy outcomes instructions policy).snd
  | .loadOperand outcomes index => (loadOperandRegister outcomes context index).snd
  | .loadEffectiveAddress outcomes index => (loadEffectiveAddressRegister outcomes context index).snd
  | .storeOperand outcomes index register width udt =>
    (storeOperandRegister outcomes context index register width udt).snd
  | .removeLastEmitted => context.removeLastEmittedInstruction.snd
  | .removeAtIndex index => (context.removeInstructionAtIndex index).snd

def runOperations (context : MicrocodeContext μ τ) (operations : List (Operation μ τ))
    : MicrocodeContext μ τ :=
  operations.foldl (Operation.apply sdk) context

end Run

def LastIsLinked (context : MicrocodeContext μ τ) : Prop :=
  ∀ address, context.lastEmitted = some address
    → Complete context ∧ address ∈ context.mb.addresses

namespace LastIsLinked

variable {sdk : Sdk μ τ} {outcomes : Outcomes μ τ} {context after : MicrocodeContext μ τ}

theorem of_unchanged (h : LastIsLinked context) (hunchanged : Unchanged context after)
    : LastIsLinked after := by
  intro address haddress
  rw [hunchanged.lastEmitted] at haddress
  rcases h address haddress with ⟨hcomplete, hmem⟩
  refine ⟨hunchanged.complete hcomplete, ?_⟩
  unfold LinkedNodes.addresses at hmem ⊢
  rw [hunchanged.nodes]
  apply hmem

theorem of_placed {policy : MicrocodeInsertPolicy} {insn : MicroInsn μ τ}
    (hcomplete : Complete context) (hplaced : Placed policy insn context after)
    : LastIsLinked after := by
  intro address haddress
  rw [hplaced.lastEmitted] at haddress
  cases haddress
  refine ⟨hplaced.complete hcomplete, ?_⟩
  unfold LinkedNodes.addresses
  rw [hplaced.nodes]
  simp [place]

theorem of_oneOrNothing {result : Status × MicrocodeContext μ τ} (h : LastIsLinked context)
    (hresult : OneOrNothing context result) : LastIsLinked result.snd := by
  rcases hresult with ⟨_, hcomplete, policy, insn, hplaced⟩ | ⟨_, hunchanged⟩
  . apply of_placed hcomplete hplaced
  . apply h.of_unchanged hunchanged

theorem appendAll (h : LastIsLinked context) (insns : List (MicroInsn μ τ))
    : LastIsLinked (context.appendAll insns) := by
  intro address haddress
  rcases h address haddress with ⟨hcomplete, hmem⟩
  refine ⟨⟨hcomplete.hasRaw, hcomplete.hasCodegen, hcomplete.hasBlock⟩, ?_⟩
  apply LinkedNodes.mem_addresses_appendAll hmem

theorem storeOperandRegister (h : LastIsLinked context) (index register : Int) (width : Int32)
    (udt : Bool)
    : LastIsLinked (storeOperandRegister outcomes context index register width udt).snd := by
  unfold MicrocodeContext.storeOperandRegister
  split
  . apply h
  . split
    . apply h
    . split
      . apply h
      . split
        . apply h
        . dsimp only
          split
          . apply h
          . apply h.appendAll

theorem loadRegister (h : LastIsLinked context)
    (load : Int → Option (Int × List (MicroInsn μ τ))) (failed : String) (index : Int)
    : LastIsLinked (context.loadRegister load failed index).snd := by
  unfold MicrocodeContext.loadRegister
  split
  . apply h
  . split
    . apply h
    . split
      . apply h
      . split
        . apply h
        . apply h.appendAll

theorem helperCallToOperand (h : LastIsLinked context) (helperName : String)
    (arguments : List MicrocodeValue) (index : Int) (width : Int32) (isUnsigned : Bool)
    (options : MicrocodeCallOptions)
    : LastIsLinked (emitHelperCallWithArgumentsToOperandAndOptions sdk outcomes context helperName
        arguments index width isUnsigned options).snd := by
  unfold emitHelperCallWithArgumentsToOperandAndOptions
  split
  . apply h
  . split
    . apply h
    . split
      . apply h
      . next register _ =>
        have hcall := h.of_oneOrNothing (@oneOrNothing_emitHelperCallToRegister _ _ sdk outcomes
          context helperName arguments register width isUnsigned options)
        split
        . next e after heq =>
          rw [heq] at hcall
          apply hcall
        . next u after heq =>
          rw [heq] at hcall
          apply hcall.storeOperandRegister

theorem emit (h : LastIsLinked context) (emitter : Emitter)
    : LastIsLinked (emitter.run sdk outcomes context).snd := by
  cases hstores : emitter.storesOperand with
  | false => apply h.of_oneOrNothing (oneOrNothing_run hstores)
  | true =>
    cases emitter with
    | helperCallToOperand => apply h.helperCallToOperand
    | _ => cases hstores

theorem emitInstructionsFrom (h : LastIsLinked context) (outcomes : Nat → Outcomes μ τ)
    (policy : MicrocodeInsertPolicy) (index : Nat) (instructions : List MicrocodeInstruction)
    : LastIsLinked (emitInstructionsFrom outcomes policy index instructions context).snd := by
  induction instructions generalizing index context with
  | nil => apply h
  | cons instruction instructions ih =>
    have hhead := h.of_oneOrNothing
      (@oneOrNothing_emitInstruction _ _ (outcomes index) context instruction policy)
    unfold MicrocodeContext.emitInstructionsFrom
    split
    . next e after heq =>
      rw [heq] at hhead
      apply hhead
    . next u after heq =>
      rw [heq] at hhead
      apply ih hhead

theorem removeLastEmitted (h : LastIsLinked context)
    : LastIsLinked context.removeLastEmittedInstruction.snd := by
  unfold removeLastEmittedInstruction
  split
  . apply h
  . split
    . apply h
    . split
      . apply h
      . intro address haddress
        cases haddress

theorem removeAtIndex (h : LastIsLinked context) (index : Int)
    : LastIsLinked (context.removeInstructionAtIndex index).snd := by
  unfold removeInstructionAtIndex
  split
  . apply h
  . split
    . apply h
    . split
      . apply h
      . split
        . apply h
        . next instruction _ =>
          intro address haddress
          dsimp only at haddress
          split at haddress
          . cases haddress
          . next hother =>
            rcases h address haddress with ⟨hcomplete, hmem⟩
            refine ⟨⟨hcomplete.hasRaw, hcomplete.hasCodegen, hcomplete.hasBlock⟩, ?_⟩
            apply LinkedNodes.mem_remove_addresses.mpr ⟨hmem, ?_⟩
            intro heq
            rw [haddress, heq] at hother
            apply hother rfl

theorem apply (h : LastIsLinked context) (operation : Operation μ τ)
    : LastIsLinked (operation.apply sdk context) := by
  cases operation with
  | emit outcomes emitter => apply h.emit
  | emitInstructions outcomes instructions policy => apply h.emitInstructionsFrom
  | loadOperand outcomes index => apply h.loadRegister
  | loadEffectiveAddress outcomes index => apply h.loadRegister
  | storeOperand outcomes index register width udt => apply h.storeOperandRegister
  | removeLastEmitted => apply h.removeLastEmitted
  | removeAtIndex index => apply h.removeAtIndex

theorem run (h : LastIsLinked context) (operations : List (Operation μ τ))
    : LastIsLinked (runOperations sdk context operations) := by
  unfold runOperations
  induction operations generalizing context with
  | nil => apply h
  | cons operation operations ih => apply ih (h.apply operation)

end LastIsLinked

def RemovesLast (context : MicrocodeContext μ τ) : Prop :=
  match context.lastEmitted with
  | none => ∃ e, context.removeLastEmittedInstruction = (.error e, context)
  | some address =>
    ∃ before insn behind after,
      context.mb.nodes = before ++ { address, content := insn } :: behind
        ∧ context.removeLastEmittedInstruction = (ok, after)
        ∧ after.mb.nodes = before ++ behind
        ∧ after.lastEmitted = none

theorem LastIsLinked.removesLast {context : MicrocodeContext μ τ} (h : LastIsLinked context)
    : RemovesLast context := by
  unfold RemovesLast removeLastEmittedInstruction
  cases hlast : context.lastEmitted with
  | none =>
    dsimp only
    cases context.hasRaw with
    | false => exact ⟨_, rfl⟩
    | true =>
      cases context.hasCodegen with
      | false => exact ⟨_, rfl⟩
      | true => cases context.hasBlock <;> exact ⟨_, rfl⟩
  | some address =>
    dsimp only
    rcases h address hlast with ⟨⟨hraw, hcodegen, hblock⟩, hmem⟩
    rcases List.mem_map.mp hmem with ⟨node, hnode, rfl⟩
    rcases List.append_of_mem hnode with ⟨before, behind, hnodes⟩
    refine ⟨before, node.content, behind,
      { context with mb := context.mb.remove node.address, lastEmitted := none }, hnodes, ?_, ?_, rfl⟩
    . rw [hraw, hcodegen, hblock]
      rfl
    . apply LinkedNodes.remove_eq hnodes

theorem lastIsLinked_and_removesLast (sdk : Sdk μ τ) (context : MicrocodeContext μ τ)
    (operations : List (Operation μ τ))
    : LastIsLinked (runOperations sdk { context with lastEmitted := none } operations)
        ∧ RemovesLast (runOperations sdk { context with lastEmitted := none } operations) := by
  have hstart : LastIsLinked { context with lastEmitted := none } := by
    intro address haddress
    cases haddress
  have hrun : LastIsLinked (runOperations sdk { context with lastEmitted := none } operations) :=
    hstart.run operations
  exact ⟨hrun, hrun.removesLast⟩

end Microcode
end Idax
