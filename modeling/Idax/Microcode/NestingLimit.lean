import Idax.Microcode.Lemmas.Context

/-!
This module shows how deep instructions may be nested in operands before the builder refuses them.
-/

namespace Idax
namespace Microcode

variable {μ τ : Type}

section Tree

mutual

def MicrocodeOperand.nestingDepth : MicrocodeOperand → Nat
  | .plain _ => 0
  | .nesting fields instruction =>
    if fields.kind = .nestedInstruction then instruction.nestingDepth + 1 else 0

def MicrocodeInstruction.nestingDepth : MicrocodeInstruction → Nat
  | .mk _ left right destination _ =>
    max left.nestingDepth (max right.nestingDepth destination.nestingDepth)

end

mutual

def MicrocodeOperand.wellFormed (mba : Option μ) : MicrocodeOperand → Bool
  | .plain fields => (buildPlainOperand mba 0 fields "").isOk
  | .nesting fields instruction =>
    if fields.kind = .nestedInstruction then instruction.wellFormed mba
    else (buildPlainOperand mba 0 fields "").isOk

def MicrocodeInstruction.wellFormed (mba : Option μ) : MicrocodeInstruction → Bool
  | .mk opcode left right destination _ =>
    !decide ((opcode = .loadMemory ∨ opcode = .storeMemory)
        ∧ (left.isEmpty ∨ right.isEmpty ∨ destination.isEmpty))
      && left.wellFormed mba && right.wellFormed mba && destination.wellFormed mba

end

end Tree

section Builder

theorem isOk_bind_iff {α β : Type} {x : Result α} {f : α → Result β} {p : Prop}
    (h : ∀ a, x = .ok a → ((f a).isOk = true ↔ p))
    : (x >>= f).isOk = true ↔ x.isOk = true ∧ p := by
  cases x with
  | error e =>
    apply iff_of_false
    . intro herror
      cases herror
    . intro herror
      cases herror.left
  | ok a =>
    change (f a).isOk = true ↔ _
    rw [h a rfl]
    exact ⟨fun hp => ⟨rfl, hp⟩, fun hp => hp.right⟩

theorem isOk_operands_iff {α β : Type} {x y z : Result α} {f : α → α → α → Result β}
    (h : ∀ a b c, (f a b c).isOk = true)
    : (do
        let a ← x
        let b ← y
        let c ← z
        f a b c : Result β).isOk = true
      ↔ x.isOk = true ∧ y.isOk = true ∧ z.isOk = true := by
  apply isOk_bind_iff
  intro a _
  apply isOk_bind_iff
  intro b _
  rw [@isOk_bind_iff _ _ _ _ True]
  . exact ⟨fun hz => hz.left, fun hz => ⟨hz, trivial⟩⟩
  . intro c _
    exact ⟨fun _ => trivial, fun _ => h a b c⟩

theorem toSdkOpcode_eq_ok (opcode : MicrocodeOpcode) : ∃ op, toSdkOpcode opcode = .ok op := by
  cases opcode <;> exact ⟨_, rfl⟩

variable (mba : Option μ)

theorem isOk_buildPlainOperand (ea : Address) (fields : OperandFields) (role : String)
    : (buildPlainOperand mba ea fields role).isOk = (buildPlainOperand mba 0 fields "").isOk := by
  unfold buildPlainOperand
  cases fields.kind with
  | empty => rfl
  | register =>
    dsimp only
    split
    . rfl
    . split <;> rfl
  | localVariable =>
    cases mba with
    | none => rfl
    | some mba =>
      dsimp only
      split <;> rfl
  | registerPair =>
    dsimp only
    split
    . rfl
    . split <;> rfl
  | globalAddress =>
    dsimp only
    split <;> rfl
  | stackVariable => cases mba <;> rfl
  | helperReference =>
    dsimp only
    split <;> rfl
  | blockReference =>
    dsimp only
    split <;> rfl
  | nestedInstruction => rfl
  | unsignedImmediate =>
    dsimp only
    split <;> rfl
  | signedImmediate =>
    dsimp only
    split <;> rfl

theorem isOk_markPlain (ea : Address) (fields : OperandFields) (role : String)
    : (do
        let result ← buildPlainOperand mba ea fields role
        return result.markUdt fields : Result (Mop μ)).isOk
      = (buildPlainOperand mba 0 fields "").isOk := by
  rw [← isOk_buildPlainOperand mba ea fields role]
  cases buildPlainOperand mba ea fields role <;> rfl

variable (ea : Address)

/-!
Each level of the tree costs two of the limit, one for the operand and one for the instruction that it
holds.
-/

mutual

theorem isOk_buildTypedInstructionOperand_iff
    : (operand : MicrocodeOperand) → (role : String) → (depth : Int)
      → ((buildTypedInstructionOperand mba ea operand role depth).isOk = true
        ↔ operand.wellFormed mba = true
          ∧ depth + 2 * operand.nestingDepth ≤ kMaxNestedInstructionDepth)
  | .plain fields, role, depth => by
    simp only [buildTypedInstructionOperand, MicrocodeOperand.wellFormed,
      MicrocodeOperand.nestingDepth]
    split
    . next hdepth =>
      refine iff_of_false Bool.false_ne_true ?_
      rintro ⟨_, hlimit⟩
      omega
    . next hdepth =>
      rw [isOk_markPlain]
      refine ⟨fun h => ⟨h, ?_⟩, fun h => h.left⟩
      omega
  | .nesting fields instruction, role, depth => by
    simp only [buildTypedInstructionOperand, MicrocodeOperand.wellFormed,
      MicrocodeOperand.nestingDepth]
    split
    . next hdepth =>
      refine iff_of_false Bool.false_ne_true ?_
      rintro ⟨_, hlimit⟩
      omega
    . next hdepth =>
      split
      . next hkind =>
        rw [@isOk_bind_iff _ _ _ _ True]
        . rw [isOk_buildTypedNestedInstruction_iff instruction role (depth + 1)]
          push_cast
          grind
        . intro nested _
          exact ⟨fun _ => trivial, fun _ => rfl⟩
      . next hkind =>
        rw [isOk_markPlain]
        refine ⟨fun h => ⟨h, ?_⟩, fun h => h.left⟩
        omega

theorem isOk_buildTypedNestedInstruction_iff
    : (instruction : MicrocodeInstruction) → (role : String) → (depth : Int)
      → ((buildTypedNestedInstruction mba ea instruction role depth).isOk = true
        ↔ instruction.wellFormed mba = true
          ∧ depth + 1 + 2 * instruction.nestingDepth ≤ kMaxNestedInstructionDepth)
  | .mk opcode left right destination floatingPoint, role, depth => by
    simp only [buildTypedNestedInstruction, MicrocodeInstruction.wellFormed,
      MicrocodeInstruction.nestingDepth]
    split
    . next hdepth =>
      refine iff_of_false Bool.false_ne_true ?_
      rintro ⟨_, hlimit⟩
      omega
    . next hdepth =>
      rcases toSdkOpcode_eq_ok opcode with ⟨op, hopcode⟩
      rw [hopcode]
      simp only [ok_bind]
      split
      . next hempty =>
        rw [decide_eq_true hempty]
        refine iff_of_false Bool.false_ne_true ?_
        rintro ⟨hwell, _⟩
        cases hwell
      . next hempty =>
        rw [decide_eq_false hempty, isOk_operands_iff (fun _ _ _ => rfl),
          isOk_buildTypedInstructionOperand_iff left (role ++ ":left") (depth + 1),
          isOk_buildTypedInstructionOperand_iff right (role ++ ":right") (depth + 1),
          isOk_buildTypedInstructionOperand_iff destination (role ++ ":destination") (depth + 1)]
        simp only [Bool.not_false, Bool.true_and, Bool.and_eq_true]
        grind

end

theorem toSdkOpcode_eq_nop_iff (opcode : MicrocodeOpcode)
    : toSdkOpcode opcode = .ok .nop ↔ opcode = .noOperation := by
  cases opcode <;> simp [toSdkOpcode]

theorem isOk_buildInstruction_iff {instruction : MicrocodeInstruction}
    (hwell : instruction.wellFormed mba = true)
    : (buildInstruction mba ea instruction : Result (MicroInsn μ τ)).isOk = true
        ↔ instruction.opcode = .noOperation
          ∨ 2 * (instruction.nestingDepth : Int) ≤ kMaxNestedInstructionDepth := by
  rcases instruction with ⟨opcode, left, right, destination, floatingPoint⟩
  simp only [MicrocodeInstruction.wellFormed, Bool.and_eq_true, Bool.not_eq_true',
    decide_eq_false_iff_not] at hwell
  rcases hwell with ⟨⟨⟨hempty, hleft⟩, hright⟩, hdestination⟩
  simp only [buildInstruction, MicrocodeInstruction.opcode, MicrocodeInstruction.nestingDepth]
  rcases toSdkOpcode_eq_ok opcode with ⟨op, hopcode⟩
  have hnop := toSdkOpcode_eq_nop_iff opcode
  rw [hopcode] at hnop ⊢
  simp only [ok_bind, if_neg hempty]
  split
  . next hop =>
    rw [hop] at hnop
    exact iff_of_true rfl (.inl (hnop.mp rfl))
  . next hop =>
    have hother : opcode ≠ .noOperation := by
      intro heq
      cases hnop.mpr heq
      apply hop rfl
    rw [isOk_operands_iff (fun _ _ _ => rfl), isOk_buildTypedInstructionOperand_iff mba ea left,
      isOk_buildTypedInstructionOperand_iff mba ea right,
      isOk_buildTypedInstructionOperand_iff mba ea destination]
    grind

end Builder

section Entry

open MicrocodeContext

variable (sdk : Sdk μ τ) (outcomes : Outcomes μ τ) (context : MicrocodeContext μ τ)
variable (policy : MicrocodeInsertPolicy) (index : Nat) (argument : MicrocodeValue)
variable (instruction : MicrocodeInstruction)

def typedArgument (mop : Mop μ) : Result (Mcallarg μ τ) :=
  operandArgument sdk argument mop
    (if argument.byteWidth ≤ 0 then Int32.ofInt mop.size else argument.byteWidth)
    "nested_instruction" "Nested-instruction argument type size does not match byte width"

structure OtherwiseWellFormed : Prop where
  hasRaw : context.hasRaw = true
  hasCodegen : context.hasCodegen = true
  emits : emits outcomes context policy = true
  wellFormed : instruction.wellFormed context.mba = true
  nestedInstruction : argument.nestedInstruction = some instruction
  typed : ∀ nested, buildTypedNestedInstruction context.mba context.insnEa instruction
      ("call_argument_nested:" ++ toString index) 0 = .ok nested
    → (typedArgument sdk argument (Mop.createFromInsn nested)).isOk = true

def LimitIsExact : Prop :=
  ((emitInstructionWithPolicy outcomes context instruction policy).fst = ok
      ↔ instruction.nestingDepth ≤ kMaxNestedInstructionDepth)
    ∧ ((nestedInstructionArgument sdk context.mba context.insnEa index argument).isOk = true
      ↔ instruction.nestingDepth ≤ kMaxNestedInstructionDepth)

variable {sdk outcomes context policy index argument instruction}

theorem emitInstruction_ok_iff
    (h : OtherwiseWellFormed sdk outcomes context policy index argument instruction)
    : (emitInstructionWithPolicy outcomes context instruction policy).fst = ok
        ↔ instruction.opcode = .noOperation
          ∨ 2 * (instruction.nestingDepth : Int) ≤ kMaxNestedInstructionDepth := by
  have hbuilt := @isOk_buildInstruction_iff _ τ _ context.insnEa _ h.wellFormed
  rcases @emitInstruction_cases _ _ outcomes context policy instruction
    with ⟨status, after, heq, hcases⟩
  have htyped : (typedInsn context instruction).isOk
      = (buildInstruction context.mba context.insnEa instruction : Result (MicroInsn μ τ)).isOk := by
    unfold typedInsn
    cases (buildInstruction context.mba context.insnEa instruction : Result (MicroInsn μ τ)) <;> rfl
  unfold accepts at hcases
  rw [h.hasRaw, h.hasCodegen, h.emits, htyped, Bool.true_and, Bool.true_and, Bool.and_true] at hcases
  rw [heq, ← hbuilt]
  split at hcases
  . next hok => exact iff_of_true hcases.left hok
  . next hok =>
    rcases hcases.left with ⟨e, rfl⟩
    apply iff_of_false _ hok
    intro herror
    cases herror

theorem nestedInstructionArgument_isOk_iff
    (h : OtherwiseWellFormed sdk outcomes context policy index argument instruction)
    : (nestedInstructionArgument sdk context.mba context.insnEa index argument).isOk = true
        ↔ 2 * (instruction.nestingDepth : Int) < kMaxNestedInstructionDepth := by
  have hbuilt := isOk_buildTypedNestedInstruction_iff context.mba context.insnEa instruction
    ("call_argument_nested:" ++ toString index) 0
  have htyped := h.typed
  unfold nestedInstructionArgument
  rw [h.nestedInstruction]
  dsimp only
  rw [@isOk_bind_iff _ _ _ _ True, hbuilt]
  . constructor
    . rintro ⟨⟨_, hlimit⟩, _⟩
      omega
    . intro hlimit
      refine ⟨⟨h.wellFormed, ?_⟩, trivial⟩
      omega
  . intro nested hnested
    exact iff_of_true (htyped nested hnested) trivial

/--
A tree goes into the builder through two functions that count each level once, so that only half of the
limit is left.
-/
theorem limitIsExact_iff
    (h : OtherwiseWellFormed sdk outcomes context policy index argument instruction)
    : LimitIsExact sdk outcomes context policy index argument instruction
        ↔ 2 * (instruction.nestingDepth : Int) < kMaxNestedInstructionDepth
          ∨ (kMaxNestedInstructionDepth < instruction.nestingDepth
            ∧ instruction.opcode ≠ .noOperation) := by
  unfold LimitIsExact
  rw [emitInstruction_ok_iff h, nestedInstructionArgument_isOk_iff h]
  unfold kMaxNestedInstructionDepth
  by_cases hopcode : instruction.opcode = .noOperation
  . simp only [hopcode, true_or, true_iff, ne_eq, not_true_eq_false, and_false, or_false]
    omega
  . simp only [hopcode, false_or, ne_eq, not_false_eq_true, and_true]
    omega

end Entry

section Example

def nestedMoves : Nat → MicrocodeInstruction
  | 0 =>
    .mk .move (.plain { kind := .register, registerId := 8, byteWidth := 4 }) (.plain {})
      (.plain { kind := .register, registerId := 16, byteWidth := 4 }) false
  | n + 1 =>
    .mk .move (.nesting { kind := .nestedInstruction, byteWidth := 4 } (nestedMoves n)) (.plain {})
      (.plain { kind := .register, registerId := 16, byteWidth := 4 }) false

theorem nestingDepth_nestedMoves (n : Nat) : (nestedMoves n).nestingDepth = n := by
  induction n with
  | zero => simp [nestedMoves, MicrocodeInstruction.nestingDepth, MicrocodeOperand.nestingDepth]
  | succ n ih =>
    simp [nestedMoves, MicrocodeInstruction.nestingDepth, MicrocodeOperand.nestingDepth, ih]

theorem wellFormed_nestedMoves (mba : Option μ) (n : Nat) : (nestedMoves n).wellFormed mba = true := by
  induction n with
  | zero => rfl
  | succ n ih =>
    simp only [nestedMoves, MicrocodeInstruction.wellFormed, MicrocodeOperand.wellFormed, ih]
    rfl

def nestedMovesArgument (n : Nat) : MicrocodeValue :=
  { kind := .nestedInstruction, nestedInstruction := some (nestedMoves n), byteWidth := 4 }

theorem otherwiseWellFormed_nestedMoves (n : Nat)
    : OtherwiseWellFormed (Sdk.ofSizes fun _ => none) {} (.atStart 0x401000 none) .tail 0
        (nestedMovesArgument n) (nestedMoves n) where
  hasRaw := rfl
  hasCodegen := rfl
  emits := rfl
  wellFormed := wellFormed_nestedMoves none n
  nestedInstruction := rfl
  typed := fun _ _ => rfl

theorem limitIsExact_nestedMoves_two
    : LimitIsExact (Sdk.ofSizes fun _ => none) {} (.atStart 0x401000 none) .tail 0
        (nestedMovesArgument 2) (nestedMoves 2) := by
  rw [limitIsExact_iff (otherwiseWellFormed_nestedMoves 2), nestingDepth_nestedMoves]
  exact .inl (by decide)

theorem not_limitIsExact_nestedMoves_seventeen
    : OtherwiseWellFormed (Sdk.ofSizes fun _ => none) {} (.atStart 0x401000 none) .tail 0
          (nestedMovesArgument 17) (nestedMoves 17)
        ∧ ¬LimitIsExact (Sdk.ofSizes fun _ => none) {} (.atStart 0x401000 none) .tail 0
          (nestedMovesArgument 17) (nestedMoves 17) := by
  have hwell := otherwiseWellFormed_nestedMoves 17
  refine ⟨hwell, ?_⟩
  rintro ⟨hemit, _⟩
  rw [emitInstruction_ok_iff hwell, nestingDepth_nestedMoves] at hemit
  rcases hemit.mpr (by decide) with hopcode | hlimit
  . cases hopcode
  . revert hlimit
    decide

end Example

end Microcode
end Idax
