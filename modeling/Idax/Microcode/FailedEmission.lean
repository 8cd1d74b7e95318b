import Idax.Microcode.Lemmas.Emitter

/-!
This module shows which of the emitters leave the block alone when they fail.
-/

namespace Idax
namespace Microcode

variable {μ τ : Type}

open MicrocodeContext

section Store

variable (sdk : Sdk μ τ) (outcomes : Outcomes μ τ) (context : MicrocodeContext μ τ)

def emitsPlannedCall (helperName : String) (plan : Result (CallPlan μ τ)) : Bool :=
  match plan with
  | .error _ => false
  | .ok plan =>
    let call :=
      createHelperCall outcomes context helperName plan.returnType plan.arguments plan.destination
    match applyCallOptions sdk plan.options call helperName with
    | .error _ => false
    | .ok call => insertsCall outcomes context call

def storeSource (register : Int) (width : Int32) : Mop μ :=
  let source := Mop.makeReg register width.toInt
  if 8 < width then source.setUdt else source

def StoreIsLost : Emitter → Prop
  | .helperCallToOperand helperName arguments index width isUnsigned options =>
    0 ≤ index ∧ 0 < width ∧ helperName.isEmpty = false ∧ context.mba.isSome = true
      ∧ ∃ register, outcomes.allocKreg = some register
        ∧ emitsPlannedCall sdk outcomes context helperName
            (planRegister sdk context arguments register width isUnsigned options) = true
        ∧ outcomes.storeOperand index (storeSource register width) = none
  | _ => False

variable {sdk outcomes context}

theorem insertCallInstruction_ok_iff (call : Option (HelperCall μ τ)) (helperName : String)
    (policy : MicrocodeInsertPolicy)
    : (insertCallInstruction outcomes context call helperName policy).fst = ok
        ↔ insertsCall outcomes context call = true := by
  rcases @insertCallInstruction_cases _ _ outcomes context policy helperName call
    with ⟨status, after, heq, hcases⟩
  rw [heq]
  split at hcases
  . next h => simp [h, hcases.left]
  . next h =>
    rcases hcases.left with ⟨e, rfl⟩
    simp [h, ok]

theorem emitPlannedCall_ok_iff (helperName : String) (plan : Result (CallPlan μ τ))
    : (emitPlannedCall sdk outcomes context helperName plan).fst = ok
        ↔ emitsPlannedCall sdk outcomes context helperName plan = true := by
  unfold emitPlannedCall emitsPlannedCall
  cases plan with
  | error e => simp [ok]
  | ok plan =>
    dsimp only
    cases applyCallOptions sdk plan.options
        (createHelperCall outcomes context helperName plan.returnType plan.arguments plan.destination)
        helperName with
    | error e => simp [ok]
    | ok call => apply insertCallInstruction_ok_iff

theorem hasHandles_of_emitsPlannedCall {helperName : String} {plan : Result (CallPlan μ τ)}
    (h : emitsPlannedCall sdk outcomes context helperName plan = true)
    : context.hasRaw = true ∧ context.hasCodegen = true ∧ context.hasBlock = true := by
  unfold emitsPlannedCall insertsCall at h
  cases plan with
  | error e => cases h
  | ok plan =>
    dsimp only at h
    split at h
    . cases h
    . simp only [Bool.and_eq_true] at h
      exact ⟨h.left.left.left.left, h.left.left.left.right, h.left.left.right⟩

theorem check_ok_iff {c : Prop} [Decidable c] {e : Error} {result : Status × MicrocodeContext μ τ}
    : (if c then (.error e, context) else result).fst = ok ↔ ¬c ∧ result.fst = ok := by
  split
  . next hc => simp [hc, ok]
  . next hc => simp [hc]

theorem emitHelperCallToRegister_ok_iff (helperName : String) (arguments : List MicrocodeValue)
    (register : Int) (width : Int32) (isUnsigned : Bool) (options : MicrocodeCallOptions)
    : (emitHelperCallWithArgumentsToRegisterAndOptions sdk outcomes context helperName arguments
          register width isUnsigned options).fst = ok
        ↔ helperName.isEmpty = false ∧ ¬width ≤ 0 ∧ context.mba.isSome = true
          ∧ emitsPlannedCall sdk outcomes context helperName
              (planRegister sdk context arguments register width isUnsigned options) = true := by
  unfold emitHelperCallWithArgumentsToRegisterAndOptions
  rw [check_ok_iff, check_ok_iff, check_ok_iff, check_ok_iff, emitPlannedCall_ok_iff]
  constructor
  . rintro ⟨hname, hwidth, _, hcomplete, hemits⟩
    refine ⟨by simpa using hname, hwidth, ?_, hemits⟩
    simp only [Bool.or_eq_true, not_or] at hcomplete
    simpa [Option.isSome_iff_ne_none] using hcomplete.left.right
  . rintro ⟨hname, hwidth, hmba, hemits⟩
    rcases hasHandles_of_emitsPlannedCall hemits with ⟨hraw, hcodegen, hblock⟩
    rw [Option.isSome_iff_ne_none] at hmba
    refine ⟨by simp [hname], hwidth, by simp [hraw], by simp [hcodegen, hblock, hmba], hemits⟩

theorem storeOperandRegister_error_iff {index register : Int} {width : Int32}
    (hindex : ¬index < 0) (hwidth : ¬width ≤ 0) (hraw : context.hasRaw = true)
    (hcodegen : context.hasCodegen = true)
    : (∃ e, (storeOperandRegister outcomes context index register width (decide (8 < width))).fst
          = .error e)
        ↔ outcomes.storeOperand index (storeSource register width) = none := by
  unfold storeOperandRegister storeSource
  rw [if_neg hindex, if_neg hwidth, hraw, hcodegen]
  simp only [Bool.not_true, Bool.false_eq_true, ↓reduceIte, decide_eq_true_eq]
  cases outcomes.storeOperand index (if 8 < width then (Mop.makeReg register width.toInt).setUdt
      else Mop.makeReg register width.toInt) with
  | none => simp
  | some insns => simp [ok]

theorem allocateTemporaryRegister_eq_ok_iff {width : Int32} (hwidth : ¬width ≤ 0) (register : Int)
    : allocateTemporaryRegister outcomes context width = .ok register
        ↔ context.hasRaw = true ∧ context.hasCodegen = true ∧ context.mba.isSome = true
          ∧ outcomes.allocKreg = some register := by
  unfold allocateTemporaryRegister
  rw [if_neg hwidth]
  cases context.hasRaw <;> cases context.hasCodegen <;> cases context.mba
    <;> cases outcomes.allocKreg <;> simp

def LeavesAlone (before : MicrocodeContext μ τ) (result : Status × MicrocodeContext μ τ) : Prop :=
  ∀ e, result.fst = .error e
    → result.snd.mb.nodes = before.mb.nodes ∧ result.snd.lastEmitted = before.lastEmitted

theorem OneOrNothing.leavesAlone {result : Status × MicrocodeContext μ τ}
    (h : OneOrNothing context result) : LeavesAlone context result := by
  intro e he
  rcases h with ⟨hok, _⟩ | ⟨_, hunchanged⟩
  . rw [he] at hok
    cases hok
  . exact ⟨hunchanged.nodes, hunchanged.lastEmitted⟩

theorem storeOperandRegister_of_error {index register : Int} {width : Int32} {udt : Bool} {e : Error}
    (h : (storeOperandRegister outcomes context index register width udt).fst = .error e)
    : (storeOperandRegister outcomes context index register width udt).snd = context := by
  unfold storeOperandRegister at h ⊢
  split
  . rfl
  . split
    . rfl
    . split
      . rfl
      . split
        . rfl
        . next hindex hwidth hraw hcodegen =>
          rw [if_neg hindex, if_neg hwidth, if_neg hraw, if_neg hcodegen] at h
          dsimp only at h ⊢
          split
          . rfl
          . next insns hstore =>
            rw [hstore] at h
            cases h

theorem MicrocodeContext.Placed.nodes_ne {policy : MicrocodeInsertPolicy} {insn : MicroInsn μ τ}
    {before after : MicrocodeContext μ τ} (h : Placed policy insn before after)
    : after.mb.nodes ≠ before.mb.nodes := by
  intro heq
  have hlength := congrArg List.length h.nodes
  rw [heq, length_place, List.length_singleton] at hlength
  omega

theorem leavesAlone_storeOperandRegister_iff {after : MicrocodeContext μ τ}
    {policy : MicrocodeInsertPolicy} {insn : MicroInsn μ τ} {index register : Int} {width : Int32}
    (hplaced : Placed policy insn context after) (hcomplete : Complete context)
    (hindex : ¬index < 0) (hwidth : ¬width ≤ 0)
    : LeavesAlone context
          (storeOperandRegister outcomes after index register width (decide (8 < width)))
        ↔ outcomes.storeOperand index (storeSource register width) ≠ none := by
  have hafter := hplaced.complete hcomplete
  have hstore := @storeOperandRegister_error_iff _ _ outcomes after index register width hindex hwidth
    hafter.hasRaw hafter.hasCodegen
  rw [ne_eq, ← hstore]
  constructor
  . rintro halone ⟨e, he⟩
    have hnodes := (halone e he).left
    rw [storeOperandRegister_of_error he] at hnodes
    apply hplaced.nodes_ne hnodes
  . intro hstored e he
    exact absurd ⟨e, he⟩ hstored

theorem leavesAlone_helperCallToOperand_iff (helperName : String) (arguments : List MicrocodeValue)
    (index : Int) (width : Int32) (isUnsigned : Bool) (options : MicrocodeCallOptions)
    : LeavesAlone context (emitHelperCallWithArgumentsToOperandAndOptions sdk outcomes context
          helperName arguments index width isUnsigned options)
        ↔ ¬StoreIsLost sdk outcomes context
            (.helperCallToOperand helperName arguments index width isUnsigned options) := by
  unfold emitHelperCallWithArgumentsToOperandAndOptions StoreIsLost
  split
  . next hindex =>
    refine iff_of_true (OneOrNothing.of_error _).leavesAlone ?_
    rintro ⟨hindex', _⟩
    omega
  . next hindex =>
    split
    . next hwidth =>
      refine iff_of_true (OneOrNothing.of_error _).leavesAlone ?_
      rintro ⟨_, hwidth', _⟩
      apply Int32.not_le.mpr hwidth' hwidth
    . next hwidth =>
      split
      . next e hallocate =>
        refine iff_of_true (OneOrNothing.of_error e).leavesAlone ?_
        rintro ⟨_, _, _, hmba, register, hregister, hemits, _⟩
        rcases hasHandles_of_emitsPlannedCall hemits with ⟨hraw, hcodegen, _⟩
        have hok := (allocateTemporaryRegister_eq_ok_iff hwidth register).mpr
          ⟨hraw, hcodegen, hmba, hregister⟩
        rw [hallocate] at hok
        cases hok
      . next register hallocate =>
        rcases (allocateTemporaryRegister_eq_ok_iff hwidth register).mp hallocate
          with ⟨hraw, hcodegen, hmba, hregister⟩
        have hcall := @oneOrNothing_emitHelperCallToRegister _ _ sdk outcomes context helperName
          arguments register width isUnsigned options
        have hok := @emitHelperCallToRegister_ok_iff _ _ sdk outcomes context helperName arguments
          register width isUnsigned options
        split
        . next e after heq =>
          rw [heq] at hcall hok
          refine iff_of_true hcall.leavesAlone ?_
          rintro ⟨_, _, hname, _, register', hregister', hemits, _⟩
          cases hregister.symm.trans hregister'
          cases hok.mpr ⟨hname, hwidth, hmba, hemits⟩
        . next u after heq =>
          rw [heq] at hcall hok
          rcases hok.mp rfl with ⟨hname, _, _, hemits⟩
          rcases hcall with ⟨_, hcomplete, policy, insn, hplaced⟩ | ⟨⟨e, he⟩, _⟩
          . rw [leavesAlone_storeOperandRegister_iff hplaced hcomplete hindex hwidth, not_iff_not]
            constructor
            . intro hlost
              exact ⟨by omega, Int32.not_le.mp hwidth, hname, hmba, register, hregister, hemits, hlost⟩
            . rintro ⟨_, _, _, _, register', hregister', _, hlost⟩
              cases hregister.symm.trans hregister'
              apply hlost
          . cases he

/--
An emitter that fails has left the block and the marker alone, unless a helper's result could not be
stored.
-/
theorem leavesAlone_iff (sdk : Sdk μ τ) (outcomes : Outcomes μ τ) (context : MicrocodeContext μ τ)
    (emitter : Emitter)
    : LeavesAlone context (emitter.run sdk outcomes context)
        ↔ ¬StoreIsLost sdk outcomes context emitter := by
  cases hstores : emitter.storesOperand with
  | false =>
    apply iff_of_true (oneOrNothing_run hstores).leavesAlone
    intro hlost
    cases emitter with
    | helperCallToOperand => cases hstores
    | _ => cases hlost
  | true =>
    cases emitter with
    | helperCallToOperand => apply leavesAlone_helperCallToOperand_iff
    | _ => cases hstores

end Store

section Example

def readOnlyOperands : Outcomes Unit UInt64 where
  createHelperCall := some (some { returnType := 0 })
  allocKreg := some 0x100

def helperToOperand : Emitter :=
  .helperCallToOperand "__helper" [] 0 4 true {}

theorem not_leavesAlone_helperToOperand
    : ¬LeavesAlone (.atStart 0x401000 (some ()))
        (helperToOperand.run (Sdk.ofSizes fun _ => none) readOnlyOperands
          (.atStart 0x401000 (some ()))) := by
  intro h
  have hnodes := congrArg List.length (h _ rfl).left
  cases hnodes

end Example

end Microcode
end Idax
