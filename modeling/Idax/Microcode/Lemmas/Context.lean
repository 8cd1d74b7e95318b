import Idax.Microcode.HelperCalls

/-!
What one emission does to the block and to the marker of the last instruction.
-/

namespace Idax
namespace Microcode
namespace MicrocodeContext

variable {μ τ ι : Type}

section Place

def position (policy : MicrocodeInsertPolicy) (nodes : List (Node ι)) : Nat :=
  match policy with
  | .tail => nodes.length
  | .beginning => 0
  | .beforeTail => nodes.length - 1

def place (policy : MicrocodeInsertPolicy) (nodes new : List (Node ι)) : List (Node ι) :=
  nodes.take (position policy nodes) ++ new ++ nodes.drop (position policy nodes)

theorem place_tail (nodes new : List (Node ι)) : place .tail nodes new = nodes ++ new := by
  simp [place, position]

theorem place_nil (policy : MicrocodeInsertPolicy) (nodes : List (Node ι))
    : place policy nodes [] = nodes := by
  simp [place]

theorem length_place (policy : MicrocodeInsertPolicy) (nodes new : List (Node ι))
    : (place policy nodes new).length = nodes.length + new.length := by
  have hsplit := congrArg List.length (List.take_append_drop (position policy nodes) nodes)
  rw [List.length_append] at hsplit
  rw [place, List.length_append, List.length_append]
  omega

theorem anchor_eq (block : Mblock μ τ) (policy : MicrocodeInsertPolicy)
    : anchorForInsertPolicy block policy
        = (block.nodes.take (position policy block.nodes)).getLast? := by
  cases policy with
  | tail => simp [anchorForInsertPolicy, position, LinkedNodes.tail?]
  | beginning => simp [anchorForInsertPolicy, position]
  | beforeTail =>
    simp only [anchorForInsertPolicy, position, LinkedNodes.beforeTail?, List.dropLast_eq_take]

theorem insert_anchor {block : Mblock μ τ} {node : Node (MicroInsn μ τ)}
    (hnew : node.address ∉ block.addresses) (policy : MicrocodeInsertPolicy)
    : ∃ block', block.insert node ((anchorForInsertPolicy block policy).map Node.address) = some block'
        ∧ block'.nodes = place policy block.nodes [node]
        ∧ block'.next = max block.next (node.address + 1) := by
  rcases LinkedNodes.insert_eq_some hnew ((anchorForInsertPolicy block policy).map Node.address)
    with ⟨block', hblock', hnodes, hnext⟩
  refine ⟨block', hblock', ?_, hnext⟩
  have hnodup := block.nodup_addresses
  rw [hnodes, anchor_eq, place]
  generalize position policy block.nodes = k
  have hsplit := List.take_append_drop k block.nodes
  rw [← hsplit] at hnodup
  have hinsert := @LinkedNodes.insertAfter_getLast? _ node _ _ hnodup
  rw [hsplit] at hinsert
  rw [hinsert]
  simp

end Place

section Step

structure SameFrame (before after : MicrocodeContext μ τ) : Prop where
  hasRaw : after.hasRaw = before.hasRaw
  hasCodegen : after.hasCodegen = before.hasCodegen
  insnEa : after.insnEa = before.insnEa
  mba : after.mba = before.mba
  hasBlock : after.hasBlock = before.hasBlock

theorem SameFrame.refl (context : MicrocodeContext μ τ) : SameFrame context context where
  hasRaw := rfl
  hasCodegen := rfl
  insnEa := rfl
  mba := rfl
  hasBlock := rfl

theorem SameFrame.trans {a b c : MicrocodeContext μ τ} (hab : SameFrame a b) (hbc : SameFrame b c)
    : SameFrame a c where
  hasRaw := hbc.hasRaw.trans hab.hasRaw
  hasCodegen := hbc.hasCodegen.trans hab.hasCodegen
  insnEa := hbc.insnEa.trans hab.insnEa
  mba := hbc.mba.trans hab.mba
  hasBlock := hbc.hasBlock.trans hab.hasBlock

structure Complete (context : MicrocodeContext μ τ) : Prop where
  hasRaw : context.hasRaw = true
  hasCodegen : context.hasCodegen = true
  hasBlock : context.hasBlock = true

theorem SameFrame.complete {before after : MicrocodeContext μ τ} (h : SameFrame before after)
    (hcomplete : Complete before) : Complete after where
  hasRaw := h.hasRaw.trans hcomplete.hasRaw
  hasCodegen := h.hasCodegen.trans hcomplete.hasCodegen
  hasBlock := h.hasBlock.trans hcomplete.hasBlock

structure Unchanged (before after : MicrocodeContext μ τ) : Prop extends SameFrame before after where
  nodes : after.mb.nodes = before.mb.nodes
  lastEmitted : after.lastEmitted = before.lastEmitted

theorem Unchanged.refl (context : MicrocodeContext μ τ) : Unchanged context context where
  toSameFrame := .refl context
  nodes := rfl
  lastEmitted := rfl

structure Placed (policy : MicrocodeInsertPolicy) (insn : MicroInsn μ τ)
    (before after : MicrocodeContext μ τ) : Prop extends SameFrame before after where
  nodes : after.mb.nodes
    = place policy before.mb.nodes [{ address := before.mb.next, content := insn }]
  next : after.mb.next = before.mb.next + 1
  lastEmitted : after.lastEmitted = some before.mb.next

variable {outcomes : Outcomes μ τ} {context : MicrocodeContext μ τ} {policy : MicrocodeInsertPolicy}

def emits (outcomes : Outcomes μ τ) (context : MicrocodeContext μ τ)
    (policy : MicrocodeInsertPolicy) : Bool :=
  outcomes.emit && context.hasBlock && (decide (policy = .tail) || outcomes.insertIntoBlock)

theorem insertIntoBlock_eq_some {node : Node (MicroInsn μ τ)}
    (hnew : node.address ∉ context.mb.addresses) (hinserts : outcomes.insertIntoBlock = true)
    : ∃ mb, insertIntoBlock outcomes context node (anchorForInsertPolicy context.mb policy)
          = some { context with mb }
        ∧ mb.nodes = place policy context.mb.nodes [node]
        ∧ mb.next = max context.mb.next (node.address + 1) := by
  rcases insert_anchor hnew policy with ⟨mb, hmb, hnodes, hnext⟩
  refine ⟨mb, ?_, hnodes, hnext⟩
  rw [insertIntoBlock, if_pos hinserts, hmb]
  rfl

theorem insertIntoBlock_eq_none {node : Node (MicroInsn μ τ)}
    {anchor : Option (Node (MicroInsn μ τ))} (hinserts : ¬outcomes.insertIntoBlock = true)
    : insertIntoBlock outcomes context node anchor = none := by
  rw [insertIntoBlock, if_neg hinserts]

section Reposition

variable (hraw : context.hasRaw = true) (hcodegen : context.hasCodegen = true)
variable (hblock : context.hasBlock = true) (insn : MicroInsn μ τ)

include hraw hcodegen hblock

theorem incomplete_eq_false
    : ¬(!context.hasRaw || !context.hasCodegen || !context.hasBlock) = true := by
  rw [hraw, hcodegen, hblock]
  simp

theorem reposition_of_inserts (hinserts : policy = .tail ∨ outcomes.insertIntoBlock = true)
    : ∃ mb, repositionEmittedInstruction outcomes { context with mb := context.mb.append insn }
          { address := context.mb.next, content := insn } policy = (ok, { context with mb })
        ∧ mb.nodes = place policy context.mb.nodes [{ address := context.mb.next, content := insn }]
        ∧ mb.next = context.mb.next + 1 := by
  unfold repositionEmittedInstruction
  by_cases htail : policy = .tail
  . rw [if_pos htail, htail, place_tail]
    exact ⟨_, rfl, rfl, rfl⟩
  . rw [if_neg htail, if_neg (incomplete_eq_false hraw hcodegen hblock)]
    dsimp only
    have hnew : context.mb.next ∉ ((context.mb.append insn).remove context.mb.next).addresses := by
      intro hmem
      apply (LinkedNodes.mem_remove_addresses.mp hmem).right rfl
    rcases @insertIntoBlock_eq_some _ _ outcomes
      { context with mb := (context.mb.append insn).remove context.mb.next } policy
      { address := context.mb.next, content := insn } hnew (hinserts.resolve_left htail)
      with ⟨mb, hmb, hnodes, hnext⟩
    rw [hmb]
    refine ⟨mb, rfl, ?_, ?_⟩
    . rw [hnodes, LinkedNodes.remove_append]
    . rw [hnext]
      apply Nat.max_self

theorem reposition_of_not_inserts (hinserts : ¬(policy = .tail ∨ outcomes.insertIntoBlock = true))
    : ∃ e after, repositionEmittedInstruction outcomes
          { context with mb := context.mb.append insn }
          { address := context.mb.next, content := insn } policy = (.error e, after)
        ∧ Unchanged context after := by
  rw [not_or] at hinserts
  unfold repositionEmittedInstruction
  rw [if_neg hinserts.left, if_neg (incomplete_eq_false hraw hcodegen hblock)]
  dsimp only
  rw [insertIntoBlock_eq_none hinserts.right]
  refine ⟨_, _, rfl, ⟨rfl, rfl, rfl, rfl, rfl⟩, ?_, rfl⟩
  apply LinkedNodes.remove_append

end Reposition

theorem emitTracked_cases (hraw : context.hasRaw = true) (hcodegen : context.hasCodegen = true)
    (failed : Error) (insn : MicroInsn μ τ) (finish : MicroInsn μ τ → MicroInsn μ τ) (noop : Bool)
    : ∃ status after, emitTracked outcomes context failed insn policy finish noop = (status, after)
        ∧ if emits outcomes context policy then
            status = ok ∧ Placed policy (finish insn) context after
          else
            (∃ e, status = .error e) ∧ Unchanged context after := by
  unfold emitTracked emit emits
  by_cases hemit : (outcomes.emit && context.hasBlock) = true
  . rw [if_pos hemit, hemit]
    rw [Bool.and_eq_true] at hemit
    dsimp only
    by_cases hinserts : policy = .tail ∨ outcomes.insertIntoBlock = true
    . rcases reposition_of_inserts hraw hcodegen hemit.right insn hinserts
        with ⟨mb, hmb, hnodes, hnext⟩
      rw [hmb]
      refine ⟨_, _, rfl, ?_⟩
      rw [if_pos (by simpa using hinserts)]
      refine ⟨rfl, ⟨rfl, rfl, rfl, rfl, rfl⟩, ?_, hnext, rfl⟩
      rw [place, List.append_assoc, List.singleton_append] at hnodes
      rw [place, List.append_assoc, List.singleton_append]
      apply LinkedNodes.modify_eq hnodes
    . rcases reposition_of_not_inserts hraw hcodegen hemit.right insn hinserts
        with ⟨e, after, hafter, hunchanged⟩
      rw [hafter]
      refine ⟨_, _, rfl, ?_⟩
      rw [if_neg (by simpa using hinserts)]
      exact ⟨⟨e, rfl⟩, hunchanged⟩
  . rw [if_neg hemit]
    refine ⟨_, _, rfl, ?_⟩
    rw [if_neg (by simp [Bool.eq_false_iff.mpr hemit])]
    exact ⟨⟨_, rfl⟩, .refl context⟩

section Call

variable {helperName : String}

def insertsCall (outcomes : Outcomes μ τ) (context : MicrocodeContext μ τ)
    (call : Option (HelperCall μ τ)) : Bool :=
  context.hasRaw && context.hasCodegen && context.hasBlock && call.isSome && outcomes.insertIntoBlock

theorem insertCallInstruction_cases (call : Option (HelperCall μ τ))
    : ∃ status after, insertCallInstruction outcomes context call helperName policy = (status, after)
        ∧ if insertsCall outcomes context call then
            status = ok ∧ ∃ call', call = some call' ∧ Placed policy (.call call') context after
          else
            (∃ e, status = .error e) ∧ Unchanged context after := by
  unfold insertCallInstruction insertsCall
  by_cases hcomplete : (!context.hasRaw || !context.hasCodegen || !context.hasBlock) = true
  . rw [if_pos hcomplete]
    refine ⟨_, _, rfl, ?_⟩
    rw [if_neg (by grind)]
    exact ⟨⟨_, rfl⟩, .refl context⟩
  . rw [if_neg hcomplete]
    cases call with
    | none =>
      refine ⟨_, _, rfl, ?_⟩
      rw [if_neg (by simp)]
      exact ⟨⟨_, rfl⟩, .refl context⟩
    | some call =>
      dsimp only
      by_cases hinserts : outcomes.insertIntoBlock = true
      . have hnew : context.mb.next ∉ (context.mb.allocate (.call call)).snd.addresses :=
          context.mb.next_notMem
        rcases @insertIntoBlock_eq_some _ _ outcomes
          { context with mb := (context.mb.allocate (.call call)).snd } policy
          (context.mb.allocate (.call call)).fst hnew hinserts with ⟨mb, hmb, hnodes, hnext⟩
        rw [hmb]
        refine ⟨_, _, rfl, ?_⟩
        rw [if_pos (by grind)]
        refine ⟨rfl, call, rfl, ⟨rfl, rfl, rfl, rfl, rfl⟩, hnodes, ?_, rfl⟩
        rw [hnext]
        apply Nat.max_self
      . rw [insertIntoBlock_eq_none hinserts]
        refine ⟨_, _, rfl, ?_⟩
        rw [if_neg (by simp [hinserts])]
        exact ⟨⟨_, rfl⟩, .refl context⟩

end Call

section Instruction

def typedInsn (context : MicrocodeContext μ τ) (instruction : MicrocodeInstruction)
    : Result (MicroInsn μ τ) :=
  (buildInstruction context.mba context.insnEa instruction).map
    (if instruction.floatingPointInstruction then MicroInsn.setFpinsn else id)

def accepts (outcomes : Outcomes μ τ) (context : MicrocodeContext μ τ)
    (policy : MicrocodeInsertPolicy) (instruction : MicrocodeInstruction) : Bool :=
  context.hasRaw && context.hasCodegen && (typedInsn context instruction).isOk
    && emits outcomes context policy

theorem SameFrame.typedInsn {before after : MicrocodeContext μ τ} (h : SameFrame before after)
    (instruction : MicrocodeInstruction)
    : MicrocodeContext.typedInsn after instruction = MicrocodeContext.typedInsn before instruction := by
  unfold MicrocodeContext.typedInsn
  rw [h.mba, h.insnEa]

theorem SameFrame.accepts {before after : MicrocodeContext μ τ} (h : SameFrame before after)
    (outcomes : Outcomes μ τ) (policy : MicrocodeInsertPolicy) (instruction : MicrocodeInstruction)
    : MicrocodeContext.accepts outcomes after policy instruction
        = MicrocodeContext.accepts outcomes before policy instruction := by
  unfold MicrocodeContext.accepts MicrocodeContext.emits
  rw [h.hasRaw, h.hasCodegen, h.hasBlock, h.typedInsn]

theorem emitInstruction_cases (instruction : MicrocodeInstruction)
    : ∃ status after,
        emitInstructionWithPolicy outcomes context instruction policy = (status, after)
        ∧ if accepts outcomes context policy instruction then
            status = ok ∧ ∃ insn, typedInsn context instruction = .ok insn
              ∧ Placed policy insn context after
          else
            (∃ e, status = .error e) ∧ Unchanged context after := by
  unfold emitInstructionWithPolicy accepts
  cases hraw : context.hasRaw with
  | false => exact ⟨_, _, rfl, ⟨_, rfl⟩, .refl context⟩
  | true =>
    cases hcodegen : context.hasCodegen with
    | false => exact ⟨_, _, rfl, ⟨_, rfl⟩, .refl context⟩
    | true =>
      unfold typedInsn
      cases buildInstruction context.mba context.insnEa instruction with
      | error e => exact ⟨_, _, rfl, ⟨_, rfl⟩, .refl context⟩
      | ok insn =>
        rcases @emitTracked_cases _ _ outcomes context policy hraw hcodegen
          (if decide (instruction.opcode = .noOperation) then noopFailed
            else .sdk "emit typed instruction failed" (toString instruction.opcode.ctorIdx))
          insn (if instruction.floatingPointInstruction then MicroInsn.setFpinsn else id)
          (decide (instruction.opcode = .noOperation)) with ⟨status, after, heq, hcases⟩
        refine ⟨status, after, heq, ?_⟩
        simp only [Bool.true_and, Except.map, Except.isOk, Except.toBool]
        split
        . next hemits =>
          rw [if_pos hemits] at hcases
          exact ⟨hcases.left, _, rfl, hcases.right⟩
        . next hemits =>
          rw [if_neg hemits] at hcases
          apply hcases

end Instruction

end Step

end MicrocodeContext
end Microcode
end Idax
