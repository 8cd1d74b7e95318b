import Mathlib.Data.List.TakeWhile
import Idax.Microcode.Build
import Idax.Microcode.Parse

/-!
What is read back of an instruction that was built: the same tree in the form that the parser gives
it, which has only the fields that mean something for the kind of each operand.
-/

namespace Idax
namespace Microcode

section Normalize

def OperandFields.normalize (operand : OperandFields) : OperandFields :=
  let common : OperandFields := {
    kind := operand.kind
    byteWidth := operand.byteWidth
    markUserDefinedType := operand.markUserDefinedType
  }
  match operand.kind with
  | .empty => { common with byteWidth := noSize }
  | .register => { common with registerId := operand.registerId }
  | .localVariable =>
    {
      common with
      localVariableIndex := operand.localVariableIndex
      localVariableOffset := operand.localVariableOffset
    }
  | .registerPair =>
    {
      common with
      registerId := operand.registerId
      secondRegisterId := operand.secondRegisterId
    }
  | .globalAddress => { common with globalAddress := operand.globalAddress }
  | .stackVariable => { common with stackOffset := operand.stackOffset }
  | .helperReference => { common with helperName := operand.helperName }
  | .blockReference => { common with blockIndex := operand.blockIndex }
  | .nestedInstruction => common
  | .unsignedImmediate => { common with unsignedImmediate := operand.unsignedImmediate }
  | .signedImmediate =>
    {
      common with
      kind := .unsignedImmediate
      unsignedImmediate := operand.signedImmediate.toUInt64
    }

mutual

def MicrocodeOperand.normalize : MicrocodeOperand → MicrocodeOperand
  | .plain fields => .plain fields.normalize
  | .nesting fields instruction =>
    if fields.kind = .nestedInstruction then
      .nesting fields.normalize instruction.normalize
    else
      .plain fields.normalize

def MicrocodeInstruction.normalize : MicrocodeInstruction → MicrocodeInstruction
  | .mk opcode left right destination floatingPoint =>
    .mk opcode left.normalize right.normalize destination.normalize floatingPoint

end

structure OperandFields.Regular (operand : OperandFields) : Prop where
  byteWidth_pos : operand.kind ≠ .empty → 0 < operand.byteWidth
  helperName_noNul : operand.kind = .helperReference → 0 ∉ operand.helperName

mutual

/--
Every operand that is not empty has a positive width, and no helper's name has a NUL in it.
-/
def MicrocodeOperand.Regular : MicrocodeOperand → Prop
  | .plain fields => fields.Regular
  | .nesting fields instruction =>
    fields.Regular ∧ (fields.kind = .nestedInstruction → instruction.Regular)

def MicrocodeInstruction.Regular : MicrocodeInstruction → Prop
  | .mk _ left right destination _ => left.Regular ∧ right.Regular ∧ destination.Regular

end

end Normalize

variable {μ : Type}

theorem parseSdkOpcode_toSdkOpcode {opcode : MicrocodeOpcode} {op : Mcode}
    (h : toSdkOpcode opcode = .ok op) : parseSdkOpcode op = .ok opcode := by
  cases opcode <;> cases h <;> rfl

theorem makeHelper_eq {name : List UInt8} (h : 0 ∉ name)
    : (Mop.makeHelper name : Mop μ) = .leaf (.h (some name)) noSize false := by
  rw [Mop.makeHelper, CString.read_eq_self_iff.mpr h]

theorem withWidth_eq {byteWidth : Int} (h : 0 < byteWidth) (mop : Mop μ)
    : mop.withWidth byteWidth = mop.setSize byteWidth := by
  simp [Mop.withWidth, h]

@[simp]
theorem markUdt_leaf (operand : OperandFields) (content : MopLeaf μ) (size : Int)
    : (Mop.leaf content size false).markUdt operand
      = .leaf content size operand.markUserDefinedType := by
  unfold Mop.markUdt
  cases operand.markUserDefinedType <;> rfl

@[simp]
theorem markUdt_d (operand : OperandFields) (insn : Minsn μ) (size : Int)
    : (Mop.d insn size false).markUdt operand = .d insn size operand.markUserDefinedType := by
  unfold Mop.markUdt
  cases operand.markUserDefinedType <;> rfl

@[simp]
theorem markUdt_p (operand : OperandFields) (lop hop : Mop μ) (size : Int)
    : (Mop.p lop hop size false).markUdt operand = .p lop hop size operand.markUserDefinedType := by
  unfold Mop.markUdt
  cases operand.markUserDefinedType <;> rfl

theorem parse_buildPlainOperand {mba : Option μ} {ea : Address} {operand : OperandFields}
    {role : String} {mop : Mop μ} (hregular : operand.Regular)
    (h : buildPlainOperand mba ea operand role = .ok mop)
    : parseSdkOperand (mop.markUdt operand) = .ok (.plain operand.normalize) := by
  have hpos := hregular.byteWidth_pos
  unfold buildPlainOperand at h
  unfold OperandFields.normalize
  cases hkind : operand.kind with
  | empty =>
    simp only [hkind] at h
    cases h
    simp [Mop.empty, parseSdkOperand, parseLeaf]
  | register =>
    simp only [hkind] at h
    split at h
    . cases h
    . split at h
      . cases h
      . cases h
        simp [Mop.makeReg, parseSdkOperand, parseLeaf]
  | localVariable =>
    have hpos := hpos (by simp [hkind])
    simp only [hkind] at h
    split at h
    . cases h
    . split at h
      . cases h
      . cases h
        simp [withWidth_eq hpos, Mop.makeLvar, Mop.setSize, parseSdkOperand, parseLeaf]
  | registerPair =>
    simp only [hkind] at h
    split at h
    . cases h
    . split at h
      . cases h
      . next heven =>
        cases h
        -- The width is even, so that halving it loses nothing.
        have hwidth : 2 * operand.byteWidth.tdiv 2 = operand.byteWidth := by
          have := Int.tmod_add_mul_tdiv operand.byteWidth 2
          omega
        simp [Mop.makeRegPair, Mop.makeReg, Mop.register?, parseSdkOperand, hwidth]
  | globalAddress =>
    have hpos := hpos (by simp [hkind])
    simp only [hkind] at h
    split at h
    . cases h
    . cases h
      simp [withWidth_eq hpos, Mop.makeGvar, Mop.setSize, parseSdkOperand, parseLeaf]
  | stackVariable =>
    have hpos := hpos (by simp [hkind])
    simp only [hkind] at h
    split at h
    . cases h
    . cases h
      simp [withWidth_eq hpos, Mop.makeStkvar, Mop.setSize, parseSdkOperand, parseLeaf]
  | helperReference =>
    have hpos := hpos (by simp [hkind])
    have hname := hregular.helperName_noNul hkind
    simp only [hkind] at h
    split at h
    . cases h
    . cases h
      simp [withWidth_eq hpos, makeHelper_eq hname, Mop.setSize, parseSdkOperand, parseLeaf]
  | blockReference =>
    have hpos := hpos (by simp [hkind])
    simp only [hkind] at h
    split at h
    . cases h
    . cases h
      simp [withWidth_eq hpos, Mop.makeBlkref, Mop.setSize, parseSdkOperand, parseLeaf]
  | nestedInstruction =>
    simp only [hkind] at h
    cases h
  | unsignedImmediate =>
    simp only [hkind] at h
    split at h
    . cases h
    . cases h
      simp [Mop.makeNumber, parseSdkOperand, parseLeaf]
  | signedImmediate =>
    simp only [hkind] at h
    split at h
    . cases h
    . cases h
      simp [Mop.makeNumber, parseSdkOperand, parseLeaf]

theorem parse_createFromInsn {operand : OperandFields} {nested : Minsn μ}
    {instruction : MicrocodeInstruction} (hkind : operand.kind = .nestedInstruction)
    (hregular : operand.Regular) (hnested : parseMinsn nested = .ok instruction)
    : parseSdkOperand (((Mop.createFromInsn nested).withWidth operand.byteWidth).markUdt operand)
      = .ok (.nesting operand.normalize instruction) := by
  have hpos := hregular.byteWidth_pos (by simp [hkind])
  cases nested with
  | mk opcode ea l r d fpinsn =>
    simp only [withWidth_eq hpos, Mop.createFromInsn, Mop.setSize, markUdt_d]
    simp only [parseSdkOperand, hnested, OperandFields.normalize, hkind]
    rfl

theorem parse_markUdt_of_buildPlainOperand {mba : Option μ} {ea : Address} {fields : OperandFields}
    {role : String} {mop : Mop μ} (hregular : fields.Regular)
    (h : (do
      let result ← buildPlainOperand mba ea fields role
      return result.markUdt fields) = (.ok mop : Result (Mop μ)))
    : parseSdkOperand mop = .ok (.plain fields.normalize) := by
  rcases bind_eq_ok_iff.mp h with ⟨result, hplain, hmop⟩
  cases hmop
  apply parse_buildPlainOperand hregular hplain

/-!
The induction is on the typed tree, over operands and instructions at once. The depth grows towards
the leaves and the role with it, so both are arbitrary.
-/

mutual

theorem parse_buildTypedInstructionOperand {mba : Option μ} {ea : Address}
    : (operand : MicrocodeOperand) → {role : String} → {depth : Int} → {mop : Mop μ}
      → operand.Regular → buildTypedInstructionOperand mba ea operand role depth = .ok mop
      → parseSdkOperand mop = .ok operand.normalize
  | .plain fields, role, depth, mop, hregular, h => by
    simp only [buildTypedInstructionOperand] at h
    simp only [MicrocodeOperand.normalize]
    split at h
    . cases h
    . apply parse_markUdt_of_buildPlainOperand hregular h
  | .nesting fields instruction, role, depth, mop, hregular, h => by
    simp only [buildTypedInstructionOperand] at h
    simp only [MicrocodeOperand.Regular] at hregular
    simp only [MicrocodeOperand.normalize]
    split at h
    . cases h
    . split at h
      . next hkind =>
        rcases bind_eq_ok_iff.mp h with ⟨nested, hnested, hmop⟩
        cases hmop
        rw [if_pos hkind]
        apply parse_createFromInsn hkind hregular.left
        apply parse_buildTypedNestedInstruction instruction (hregular.right hkind) hnested
      . next hkind =>
        rw [if_neg hkind]
        apply parse_markUdt_of_buildPlainOperand hregular.left h

theorem parse_buildTypedNestedInstruction {mba : Option μ} {ea : Address}
    : (instruction : MicrocodeInstruction) → {role : String} → {depth : Int} → {minsn : Minsn μ}
      → instruction.Regular
      → buildTypedNestedInstruction mba ea instruction role depth = .ok minsn
      → parseMinsn minsn = .ok instruction.normalize
  | .mk opcode left right destination floatingPoint, role, depth, minsn, hregular, h => by
    simp only [buildTypedNestedInstruction] at h
    simp only [MicrocodeInstruction.Regular] at hregular
    split at h
    . cases h
    . rcases bind_eq_ok_iff.mp h with ⟨op, hop, h⟩
      split at h
      . cases h
      . rcases bind_eq_ok_iff.mp h with ⟨l, hl, h⟩
        rcases bind_eq_ok_iff.mp h with ⟨r, hr, h⟩
        rcases bind_eq_ok_iff.mp h with ⟨d, hd, h⟩
        cases h
        have hleft := parse_buildTypedInstructionOperand left hregular.left hl
        have hright := parse_buildTypedInstructionOperand right hregular.right.left hr
        have hdestination := parse_buildTypedInstructionOperand destination hregular.right.right hd
        simp only [parseMinsn, MicrocodeInstruction.normalize]
        simp only [parseSdkOpcode_toSdkOpcode hop, hleft, hright, hdestination]
        rfl

end

theorem parseSdkInstruction_buildTypedNestedInstruction (mba : Option μ) (ea : Address)
    (instruction : MicrocodeInstruction) (role : String) (depth : Int) (minsn : Minsn μ)
    (hregular : instruction.Regular)
    (hbuild : buildTypedNestedInstruction mba ea instruction role depth = .ok minsn)
    : parseSdkInstruction (some minsn) = .ok instruction.normalize :=
  parse_buildTypedNestedInstruction instruction hregular hbuild

def pairPlusNested : MicrocodeInstruction :=
  .mk .add
    (.plain { kind := .registerPair, registerId := 8, secondRegisterId := 16, byteWidth := 8 })
    (.nesting { kind := .nestedInstruction, byteWidth := 8, markUserDefinedType := true }
      (.mk .subtract
        (.plain { kind := .helperReference, helperName := [98, 97, 115, 101], byteWidth := 8 })
        (.plain { kind := .signedImmediate, signedImmediate := -1, byteWidth := 4 })
        (.plain {})
        false))
    (.plain { kind := .register, registerId := 24, byteWidth := 8 })
    true

theorem parseSdkInstruction_buildTypedNestedInstruction_pairPlusNested
    : ∃ minsn, buildTypedNestedInstruction (some ()) 4096 pairPlusNested "operand" 0 = .ok minsn
      ∧ parseSdkInstruction (some minsn) = .ok pairPlusNested.normalize := by
  refine ⟨_, rfl, ?_⟩
  apply parseSdkInstruction_buildTypedNestedInstruction (some ()) 4096 pairPlusNested "operand" 0
  . simp only [pairPlusNested, MicrocodeInstruction.Regular, MicrocodeOperand.Regular]
    refine ⟨⟨?_, ?_⟩, ⟨⟨?_, ?_⟩, fun _ => ⟨⟨?_, ?_⟩, ⟨?_, ?_⟩, ⟨?_, ?_⟩⟩⟩, ⟨?_, ?_⟩⟩ <;> simp
  . rfl

end Microcode
end Idax
