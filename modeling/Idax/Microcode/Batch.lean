import Mathlib.Data.List.Forall2
import Idax.Microcode.Lemmas.Context

/-!
This module shows when a batch of instructions stands in the block in the order of its list.
-/

namespace Idax
namespace Microcode
namespace MicrocodeContext

variable {μ τ ι : Type}

section Fold

def freshNodes : (next : Nat) → List ι → List (Node ι)
  | _, [] => []
  | next, content :: contents => { address := next, content } :: freshNodes (next + 1) contents

theorem map_address_freshNodes (next : Nat) (contents : List ι)
    : (freshNodes next contents).map Node.address = List.range' next contents.length := by
  induction contents generalizing next with
  | nil => rfl
  | cons content contents ih => rw [freshNodes, List.map_cons, ih, List.length_cons, List.range'_succ]

def placeEach (policy : MicrocodeInsertPolicy) (nodes new : List (Node ι)) : List (Node ι) :=
  new.foldl (fun nodes n => place policy nodes [n]) nodes

theorem placeEach_tail (nodes new : List (Node ι)) : placeEach .tail nodes new = nodes ++ new := by
  unfold placeEach
  induction new generalizing nodes with
  | nil => simp
  | cons n new ih => rw [List.foldl_cons, ih, place_tail, List.append_assoc, List.singleton_append]

theorem placeEach_beginning (nodes new : List (Node ι))
    : placeEach .beginning nodes new = new.reverse ++ nodes := by
  unfold placeEach
  induction new generalizing nodes with
  | nil => rfl
  | cons n new ih =>
    rw [List.foldl_cons, ih]
    simp [place, position]

theorem place_beforeTail (init new : List (Node ι)) (tail : Node ι)
    : place .beforeTail (init ++ [tail]) new = init ++ new ++ [tail] := by
  simp [place, position]

theorem placeEach_beforeTail (init new : List (Node ι)) (tail : Node ι)
    : placeEach .beforeTail (init ++ [tail]) new = init ++ new ++ [tail] := by
  unfold placeEach
  induction new generalizing init with
  | nil => simp
  | cons n new ih =>
    rw [List.foldl_cons, place_beforeTail, ih]
    simp

theorem placeEach_beforeTail_nil (n : Node ι) (new : List (Node ι))
    : placeEach .beforeTail [] (n :: new) = new ++ [n] := by
  have hfirst : placeEach .beforeTail [] (n :: new) = placeEach .beforeTail ([] ++ [n]) new := by
    simp [placeEach, place, position]
  rw [hfirst, placeEach_beforeTail, List.nil_append]

theorem append_singleton_ne {n : Node ι} {ns ms : List (Node ι)} (hmem : n ∉ ns) (hns : ns ≠ [])
    : ns ++ [n] ≠ n :: ms := by
  cases ns with
  | nil => exact absurd rfl hns
  | cons m ns =>
    intro heq
    rw [List.cons_append, List.cons.injEq] at heq
    rw [heq.left] at hmem
    apply hmem List.mem_cons_self

theorem notMem_freshNodes (next : Nat) (contents : List ι) (n : Node ι) (hn : n.address < next)
    : n ∉ freshNodes next contents := by
  intro hmem
  have haddress : n.address ∈ List.range' next contents.length := by
    rw [← map_address_freshNodes]
    apply List.mem_map_of_mem hmem
  rw [List.mem_range'_1] at haddress
  omega

theorem placeEach_eq_place_iff (policy : MicrocodeInsertPolicy) (nodes : List (Node ι)) (next : Nat)
    (contents : List ι)
    : placeEach policy nodes (freshNodes next contents)
          = place policy nodes (freshNodes next contents)
        ↔ policy = .tail ∨ (policy = .beforeTail ∧ nodes ≠ []) ∨ contents.length ≤ 1 := by
  match contents with
  | [] => simp [freshNodes, placeEach, place_nil]
  | [content] => simp [freshNodes, placeEach]
  | first :: second :: contents =>
    have hlength : ¬(first :: second :: contents).length ≤ 1 := by simp
    simp only [hlength, or_false]
    rw [freshNodes]
    have hnew : ({ address := next, content := first } : Node ι)
        ∉ freshNodes (next + 1) (second :: contents) := by
      apply notMem_freshNodes
      apply Nat.lt_succ_self
    have hne : freshNodes (next + 1) (second :: contents) ≠ [] := by simp [freshNodes]
    generalize freshNodes (next + 1) (second :: contents) = rest at hnew hne
    generalize ({ address := next, content := first } : Node ι) = n at hnew
    cases policy with
    | tail => simp [placeEach_tail, place_tail]
    | beginning =>
      simp only [reduceCtorEq, false_and, or_self, iff_false]
      rw [placeEach_beginning, List.reverse_cons]
      simp only [place, position, List.take_zero, List.nil_append, List.drop_zero,
        List.append_cancel_right_eq]
      apply append_singleton_ne
      . rw [List.mem_reverse]
        apply hnew
      . simpa using hne
    | beforeTail =>
      simp only [reduceCtorEq, true_and, false_or]
      rcases List.eq_nil_or_concat nodes with hnil | ⟨init, tail, htail⟩
      . subst hnil
        rw [placeEach_beforeTail_nil]
        simp only [place, position, List.take_nil, List.nil_append, List.drop_nil, List.append_nil,
          ne_eq, not_true_eq_false, iff_false]
        apply append_singleton_ne hnew hne
      . rw [List.concat_eq_append] at htail
        rw [htail, placeEach_beforeTail, place_beforeTail]
        simp

end Fold

section Run

variable {outcomes : Nat → Outcomes μ τ} {policy : MicrocodeInsertPolicy}

structure Ran (outcomes : Nat → Outcomes μ τ) (policy : MicrocodeInsertPolicy) (index : Nat)
    (instructions : List MicrocodeInstruction) (before : MicrocodeContext μ τ) (count : Nat)
    (insns : List (MicroInsn μ τ)) (status : Status) (after : MicrocodeContext μ τ) : Prop
    extends SameFrame before after where
  count_le : count ≤ instructions.length
  built : List.Forall₂ (fun instruction insn => typedInsn before instruction = .ok insn)
    (instructions.take count) insns
  nodes : after.mb.nodes = placeEach policy before.mb.nodes (freshNodes before.mb.next insns)
  accepted : ∀ j instruction, j < count → instructions[j]? = some instruction
    → accepts (outcomes (index + j)) before policy instruction = true
  refused : ∀ instruction, instructions[count]? = some instruction
    → accepts (outcomes (index + count)) before policy instruction = false
  status : status = ok ↔ count = instructions.length

theorem emitInstructionsFrom_run (index : Nat) (instructions : List MicrocodeInstruction)
    (before : MicrocodeContext μ τ)
    : ∃ count insns status after,
        emitInstructionsFrom outcomes policy index instructions before = (status, after)
        ∧ Ran outcomes policy index instructions before count insns status after := by
  induction instructions generalizing index before with
  | nil =>
    refine ⟨0, [], ok, before, rfl, .refl before, Nat.le_refl 0, .nil, rfl, ?_, ?_, ?_⟩
    . intro j instruction hj
      omega
    . intro instruction h
      cases h
    . simp
  | cons first instructions ih =>
    rcases @emitInstruction_cases _ _ (outcomes index) before policy first
      with ⟨status, after, heq, hcases⟩
    rw [emitInstructionsFrom, heq]
    by_cases haccepts : accepts (outcomes index) before policy first = true
    . rw [if_pos haccepts] at hcases
      rcases hcases with ⟨hstatus, insn, hinsn, hplaced⟩
      subst hstatus
      rcases ih (index + 1) after with ⟨count, insns, status, after', heq', hran⟩
      refine ⟨count + 1, insn :: insns, status, after', heq', ?_, ?_, ?_, ?_, ?_, ?_, ?_⟩
      . apply hplaced.toSameFrame.trans hran.toSameFrame
      . apply Nat.succ_le_succ hran.count_le
      . rw [List.take_succ_cons]
        refine .cons hinsn ?_
        apply hran.built.imp
        intro instruction insn' hinsn'
        rw [← hplaced.toSameFrame.typedInsn]
        apply hinsn'
      . rw [hran.nodes, hplaced.nodes, hplaced.next]
        rfl
      . intro j instruction hj hget
        cases j with
        | zero =>
          cases hget
          apply haccepts
        | succ j =>
          have hrest := hran.accepted j instruction (by omega) hget
          rw [hplaced.toSameFrame.accepts, Nat.add_assoc, Nat.add_comm 1] at hrest
          apply hrest
      . intro instruction hget
        have hrest := hran.refused instruction hget
        rw [hplaced.toSameFrame.accepts, Nat.add_assoc, Nat.add_comm 1] at hrest
        apply hrest
      . rw [hran.status, List.length_cons]
        omega
    . rw [if_neg haccepts] at hcases
      rcases hcases with ⟨⟨e, he⟩, hunchanged⟩
      subst he
      refine ⟨0, [], _, after, rfl, hunchanged.toSameFrame, Nat.zero_le _, .nil, hunchanged.nodes,
        ?_, ?_, ?_⟩
      . intro j instruction hj
        omega
      . intro instruction hget
        cases hget
        simpa using haccepts
      . simp [ok]

theorem Ran.count_unique {instructions : List MicrocodeInstruction} {before : MicrocodeContext μ τ}
    {index count k : Nat} {insns : List (MicroInsn μ τ)} {status : Status}
    {after : MicrocodeContext μ τ}
    (h : Ran outcomes policy index instructions before count insns status after)
    (haccepted : ∀ j instruction, j < k → instructions[j]? = some instruction
      → accepts (outcomes (index + j)) before policy instruction = true)
    (hrefused : ∃ instruction, instructions[k]? = some instruction
      ∧ accepts (outcomes (index + k)) before policy instruction = false)
    : count = k := by
  rcases hrefused with ⟨instruction, hget, hfalse⟩
  have hk : k < instructions.length := by
    rw [List.getElem?_eq_some_iff] at hget
    apply hget.choose
  rcases Nat.lt_trichotomy count k with hlt | heq | hlt
  . have hcount := List.getElem?_eq_getElem (Nat.lt_trans hlt hk)
    have htrue := haccepted count _ hlt hcount
    rw [h.refused _ hcount] at htrue
    cases htrue
  . apply heq
  . have htrue := h.accepted k instruction hlt hget
    rw [hfalse] at htrue
    cases htrue

def InOrder (policy : MicrocodeInsertPolicy) (before : MicrocodeContext μ τ)
    (instructions : List MicrocodeInstruction) (after : MicrocodeContext μ τ) : Prop :=
  ∃ insns, List.Forall₂ (fun instruction insn => typedInsn before instruction = .ok insn)
      instructions insns
    ∧ after.mb.nodes = place policy before.mb.nodes (freshNodes before.mb.next insns)

def FailsAt (outcomes : Nat → Outcomes μ τ) (policy : MicrocodeInsertPolicy)
    (context : MicrocodeContext μ τ) (instructions : List MicrocodeInstruction) (k : Nat) : Prop :=
  ∃ mid instruction e after,
    emitInstructionsWithPolicy context outcomes (instructions.take k) policy = (ok, mid)
    ∧ instructions[k]? = some instruction
    ∧ emitInstructionWithPolicy (outcomes k) mid instruction policy = (.error e, after)

structure KeepsOrder (outcomes : Nat → Outcomes μ τ) (policy : MicrocodeInsertPolicy)
    (context : MicrocodeContext μ τ) (instructions : List MicrocodeInstruction) : Prop where
  success : (emitInstructionsWithPolicy context outcomes instructions policy).fst = ok
    → InOrder policy context instructions
        (emitInstructionsWithPolicy context outcomes instructions policy).snd
  failure : ∀ k, FailsAt outcomes policy context instructions k
    → (emitInstructionsWithPolicy context outcomes instructions policy).fst ≠ ok
      ∧ InOrder policy context (instructions.take k)
          (emitInstructionsWithPolicy context outcomes instructions policy).snd

theorem Ran.inOrder_iff {instructions : List MicrocodeInstruction} {before : MicrocodeContext μ τ}
    {index count : Nat} {insns : List (MicroInsn μ τ)} {status : Status}
    {after : MicrocodeContext μ τ}
    (h : Ran outcomes policy index instructions before count insns status after)
    : InOrder policy before (instructions.take count) after
        ↔ policy = .tail ∨ (policy = .beforeTail ∧ before.mb.nodes ≠ []) ∨ count ≤ 1 := by
  have hlength := h.built.length_eq
  rw [List.length_take_of_le h.count_le] at hlength
  have hiff := placeEach_eq_place_iff policy before.mb.nodes before.mb.next insns
  rw [← hlength] at hiff
  rw [← hiff, ← h.nodes]
  constructor
  . rintro ⟨insns', hbuilt, hnodes⟩
    have heq : insns' = insns := by
      have hunique : Relator.RightUnique fun (instruction : MicrocodeInstruction)
          (insn : MicroInsn μ τ) => typedInsn before instruction = .ok insn := by
        intro instruction insn insn' hinsn hinsn'
        rw [hinsn] at hinsn'
        cases hinsn'
        rfl
      apply hunique.forall₂ hbuilt h.built
    rw [← heq]
    apply hnodes
  . intro hnodes
    exact ⟨insns, h.built, hnodes⟩

theorem failsAt_iff {instructions : List MicrocodeInstruction} {before : MicrocodeContext μ τ}
    {count : Nat} {insns : List (MicroInsn μ τ)} {status : Status} {after : MicrocodeContext μ τ}
    (h : Ran outcomes policy 0 instructions before count insns status after) (k : Nat)
    : FailsAt outcomes policy before instructions k ↔ k = count ∧ count < instructions.length := by
  constructor
  . rintro ⟨mid, instruction, e, after', hmid, hget, herror⟩
    have hk : k < instructions.length := by
      rw [List.getElem?_eq_some_iff] at hget
      apply hget.choose
    rcases @emitInstructionsFrom_run _ _ outcomes policy 0 (instructions.take k) before
      with ⟨count', insns', status', mid', heq, hran⟩
    rw [emitInstructionsWithPolicy, heq] at hmid
    cases hmid
    have hcount' : count' = k := by
      rw [hran.status.mp rfl, List.length_take_of_le (Nat.le_of_lt hk)]
    rcases @emitInstruction_cases _ _ (outcomes k) mid policy instruction
      with ⟨status, after, heq, hcases⟩
    rw [herror] at heq
    cases heq
    have hrefused : accepts (outcomes k) before policy instruction = false := by
      rw [← hran.toSameFrame.accepts, Bool.eq_false_iff]
      intro haccepts
      rw [if_pos haccepts] at hcases
      cases hcases.left
    have hcount : count = k := by
      apply h.count_unique
      . intro j instruction' hj hget'
        apply hran.accepted j instruction' (by omega)
        rw [List.getElem?_take_of_lt hj, hget']
      . refine ⟨instruction, hget, ?_⟩
        rw [Nat.zero_add]
        apply hrefused
    exact ⟨hcount.symm, by omega⟩
  . rintro ⟨rfl, hlt⟩
    have hget := List.getElem?_eq_getElem hlt
    rcases @emitInstructionsFrom_run _ _ outcomes policy 0 (instructions.take k) before
      with ⟨count', insns', status', mid, heq, hran⟩
    have hcount' : count' = k := by
      by_contra hne
      have hlt' : count' < (instructions.take k).length := by
        apply Nat.lt_of_le_of_ne hran.count_le
        rw [List.length_take_of_le (Nat.le_of_lt hlt)]
        apply hne
      have hget' := List.getElem?_eq_getElem hlt'
      have hrefused := hran.refused _ hget'
      rw [List.length_take_of_le (Nat.le_of_lt hlt)] at hlt'
      rw [List.getElem?_take_of_lt hlt'] at hget'
      rw [h.accepted count' _ hlt' hget'] at hrefused
      cases hrefused
    have hstatus' : status' = ok := by
      rw [hran.status, hcount', List.length_take_of_le (Nat.le_of_lt hlt)]
    subst hstatus'
    rcases @emitInstruction_cases _ _ (outcomes k) mid policy instructions[k]
      with ⟨status'', after'', heq'', hcases⟩
    have hrefused := h.refused _ hget
    rw [Nat.zero_add, ← hran.toSameFrame.accepts] at hrefused
    rw [if_neg (by rw [hrefused]; simp)] at hcases
    rcases hcases with ⟨⟨e, rfl⟩, _⟩
    exact ⟨mid, instructions[k], e, after'', heq, hget, heq''⟩

def EmitsTwo (outcomes : Nat → Outcomes μ τ) (policy : MicrocodeInsertPolicy)
    (context : MicrocodeContext μ τ) (instructions : List MicrocodeInstruction) : Prop :=
  ∃ first second rest, instructions = first :: second :: rest
    ∧ accepts (outcomes 0) context policy first = true
    ∧ accepts (outcomes 1) context policy second = true

theorem Ran.two_le_iff {instructions : List MicrocodeInstruction} {before : MicrocodeContext μ τ}
    {count : Nat} {insns : List (MicroInsn μ τ)} {status : Status} {after : MicrocodeContext μ τ}
    (h : Ran outcomes policy 0 instructions before count insns status after)
    : 2 ≤ count ↔ EmitsTwo outcomes policy before instructions := by
  have hle := h.count_le
  constructor
  . intro htwo
    match instructions with
    | [] => simp at hle; omega
    | [first] => simp at hle; omega
    | first :: second :: rest =>
      refine ⟨first, second, rest, rfl, ?_, ?_⟩
      . have hfirst := h.accepted 0 first (by omega) rfl
        apply hfirst
      . have hsecond := h.accepted 1 second (by omega) rfl
        apply hsecond
  . rintro ⟨first, second, rest, rfl, hfirst, hsecond⟩
    by_contra hlt
    match count with
    | 0 =>
      have hrefused := h.refused first rfl
      rw [Nat.add_zero, hfirst] at hrefused
      cases hrefused
    | 1 =>
      have hrefused := h.refused second rfl
      rw [Nat.zero_add, hsecond] at hrefused
      cases hrefused
    | count + 2 => omega

/--
The order of a batch is kept at the tail and before the tail of a block that is not empty. Elsewhere
it is kept only as long as no second instruction is emitted.
-/
theorem keepsOrder_iff (instructions : List MicrocodeInstruction) (context : MicrocodeContext μ τ)
    : KeepsOrder outcomes policy context instructions
        ↔ policy = .tail ∨ (policy = .beforeTail ∧ context.mb.nodes ≠ [])
          ∨ ¬EmitsTwo outcomes policy context instructions := by
  rcases @emitInstructionsFrom_run _ _ outcomes policy 0 instructions context
    with ⟨count, insns, status, after, heq, hran⟩
  have horder := hran.inOrder_iff
  have hfails := failsAt_iff hran
  have htwo := hran.two_le_iff
  have hcount : ¬EmitsTwo outcomes policy context instructions ↔ count ≤ 1 := by
    rw [← htwo]
    omega
  rw [hcount, ← horder]
  constructor
  . intro hkeeps
    rcases Nat.lt_or_eq_of_le hran.count_le with hlt | hall
    . have hfailure := (hkeeps.failure count ((hfails count).mpr ⟨rfl, hlt⟩)).right
      rw [emitInstructionsWithPolicy, heq] at hfailure
      apply hfailure
    . have hsuccess := hkeeps.success
      rw [emitInstructionsWithPolicy, heq] at hsuccess
      rw [hall, List.take_length]
      apply hsuccess (hran.status.mpr hall)
  . intro hinOrder
    refine ⟨?_, ?_⟩
    . rw [emitInstructionsWithPolicy, heq]
      intro hstatus
      rw [hran.status.mp hstatus, List.take_length] at hinOrder
      apply hinOrder
    . intro k hk
      rcases (hfails k).mp hk with ⟨rfl, hlt⟩
      rw [emitInstructionsWithPolicy, heq]
      refine ⟨?_, hinOrder⟩
      intro hstatus
      have := hran.status.mp hstatus
      omega

end Run

section Example

def noopInstruction (floatingPoint : Bool) : MicrocodeInstruction :=
  .mk .noOperation (.plain {}) (.plain {}) (.plain {}) floatingPoint

def oneNode : MicrocodeContext Unit Unit where
  insnEa := 0
  mba := none
  mb := {
    nodes := [{ address := 0, content := .other 0 }]
    next := 1
    nodup_addresses := by simp
    address_lt := by simp
  }

theorem not_keepsOrder_beginning
    : ¬∀ (outcomes : Nat → Outcomes Unit Unit) (policy : MicrocodeInsertPolicy)
        (context : MicrocodeContext Unit Unit) (instructions : List MicrocodeInstruction),
        KeepsOrder outcomes policy context instructions := by
  intro h
  rcases (h (fun _ => {}) .beginning oneNode [noopInstruction false, noopInstruction true]).success rfl
    with ⟨insns, hbuilt, hnodes⟩
  have hlength := hbuilt.length_eq
  have haddresses := congrArg (List.map Node.address) hnodes
  rw [place, List.map_append, List.map_append, map_address_freshNodes, ← hlength] at haddresses
  revert haddresses
  change [2, 1, 0] = [1, 2, 0] → False
  decide

end Example

end MicrocodeContext
end Microcode
end Idax
