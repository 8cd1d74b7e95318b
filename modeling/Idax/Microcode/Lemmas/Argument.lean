import Idax.Microcode.Argument

/-!
How the width of an argument's operand goes together with the size of its type.
-/

namespace Idax

variable {α β : Type}

theorem map_eq_ok_iff {x : Result α} {f : α → β} {b : β}
    : (do
        let a ← x
        return f a : Result β) = .ok b
      ↔ ∃ a, x = .ok a ∧ f a = b := by
  cases x with
  | error e => simp
  | ok a =>
    simp [pure, Except.pure]

namespace Microcode

variable {μ τ : Type} {sdk : Sdk μ τ}

section Narrow

theorem toInt_narrow (size : UInt64) : (narrow size).toInt = (size.toNat : Int).bmod (2 ^ 32) := by
  unfold narrow
  change size.toUInt32.toBitVec.toInt = _
  rw [BitVec.toInt_eq_toNat_bmod]
  change ((size.toUInt32.toNat : Nat) : Int).bmod _ = _
  rw [UInt64.toNat_toUInt32]
  simp [Int.bmod_eq_emod]

theorem narrow_toUInt64 (width : Int32) : narrow width.toInt64.toUInt64 = width := by
  unfold narrow
  apply Int32.toBitVec_inj.mp
  change BitVec.setWidth 32 (BitVec.signExtend 64 width.toBitVec) = width.toBitVec
  ext i hi
  rw [BitVec.getElem_setWidth, BitVec.getLsbD_signExtend]
  simp [hi, Nat.lt_of_lt_of_le hi]

end Narrow

section Size

@[simp]
theorem size_setSize (size : Int) (mop : Mop μ) : (mop.setSize size).size = size := by
  cases mop <;> rfl

@[simp]
theorem size_setUdt (mop : Mop μ) : mop.setUdt.size = mop.size := by
  cases mop <;> rfl

theorem size_makeRegPair {width : Int32} (hpos : 0 < width) (heven : width % 2 = 0)
    (loreg hireg : Int) : (Mop.makeRegPair loreg hireg (width / 2).toInt : Mop μ).size = width.toInt := by
  have hpos' : 0 < width.toInt := Int32.lt_iff_toInt_lt.mp hpos
  have hlt := width.toInt_lt
  have heven' : width.toInt.tmod 2 = 0 := by
    have hmod := congrArg Int32.toInt heven
    rw [Int32.toInt_mod] at hmod
    apply hmod
  have hdiv := Int.tmod_add_mul_tdiv width.toInt 2
  change 2 * (width / 2).toInt = width.toInt
  rw [Int32.toInt_div]
  change 2 * (width.toInt.tdiv 2).bmod (2 ^ 32) = width.toInt
  have hbmod : (width.toInt.tdiv 2).bmod (2 ^ 32) = width.toInt.tdiv 2 := by
    apply Int.bmod_eq_of_le <;> omega
  rw [hbmod]
  omega

theorem size_withWidth (width : Int32) (mop : Mop μ)
    : (withWidth width mop).size = if 0 < width then width.toInt else mop.size := by
  have hiff : 0 < width ↔ width.toInt > 0 := Int32.lt_iff_toInt_lt
  unfold withWidth Mop.withWidth
  simp only [hiff]
  split
  . apply size_setSize
  . rfl

end Size

section Types

def HasWidth (sdk : Sdk μ τ) (type : τ) (width : Int32) : Prop :=
  sdk.getSize type = 0 ∨ narrow (sdk.getSize type) = width

theorem hasWidth_basicType {type : BasicType} {width : Int32} (h : narrow type.size = width)
    : HasWidth sdk (sdk.basicType type) width := by
  right
  rw [sdk.getSize_basicType, h]

theorem hasWidth_makeIntegerType {width : Int32} {isUnsigned : Bool} {type : τ}
    (h : makeIntegerType sdk width isUnsigned = some type) : HasWidth sdk type width := by
  unfold makeIntegerType at h
  split at h
  . next hwidth =>
    cases h
    exact hasWidth_basicType hwidth.symm
  . split at h
    . next hwidth =>
      cases h
      exact hasWidth_basicType hwidth.symm
    . split at h
      . next hwidth =>
        cases h
        exact hasWidth_basicType hwidth.symm
      . split at h
        . next hwidth =>
          cases h
          exact hasWidth_basicType hwidth.symm
        . cases h

theorem hasWidth_makeByteArrayType {width : Int32} {type : τ}
    (h : makeByteArrayType sdk width = some type) : HasWidth sdk type width := by
  unfold makeByteArrayType at h
  split at h
  . cases h
  . dsimp only at h
    split at h
    . cases h
    . next hsize =>
      cases h
      right
      rw [not_not.mp hsize]
      apply narrow_toUInt64

theorem hasWidth_inferTypedValueType {width : Int32} {isUnsigned : Bool} {context : String}
    {type : τ} (h : inferTypedValueType sdk width isUnsigned context = .ok type)
    : HasWidth sdk type width := by
  unfold inferTypedValueType at h
  split at h
  . cases h
  . split at h
    . next hinteger =>
      cases h
      apply hasWidth_makeIntegerType hinteger
    . split at h
      . next harray =>
        cases h
        apply hasWidth_makeByteArrayType harray
      . cases h

theorem hasWidth_strictType {argument : MicrocodeValue} {context unknown mismatch : String}
    {infer : Result τ} {type : τ} {width : Int32}
    (hinfer : ∀ type, infer = .ok type → HasWidth sdk type argument.byteWidth)
    (h : strictType sdk argument context unknown mismatch infer = .ok (type, width))
    : HasWidth sdk type width := by
  unfold strictType at h
  split at h
  . rcases bind_eq_ok_iff.mp h with ⟨type', _, h⟩
    dsimp only at h
    split at h
    . cases h
    . split at h
      . cases h
        exact .inr rfl
      . split at h
        . cases h
        . next hwidth =>
          cases h
          exact .inr (not_not.mp hwidth)
  . rcases bind_eq_ok_iff.mp h with ⟨type', htype, h⟩
    cases h
    apply hinfer type htype

theorem width_strictType {argument : MicrocodeValue} {context unknown mismatch : String}
    {infer : Result τ} {type : τ} {width : Int32} (hpos : 0 < argument.byteWidth)
    (h : strictType sdk argument context unknown mismatch infer = .ok (type, width))
    : width = argument.byteWidth := by
  unfold strictType at h
  split at h
  . rcases bind_eq_ok_iff.mp h with ⟨type', _, h⟩
    dsimp only at h
    rw [if_neg (Int32.not_le.mpr hpos)] at h
    split at h
    . cases h
    . split at h
      . cases h
      . cases h
        rfl
  . rcases bind_eq_ok_iff.mp h with ⟨type', _, h⟩
    cases h
    rfl

theorem hasWidth_lenientType {argument : MicrocodeValue} {width width' : Int32}
    {context mismatch : String} {type : τ}
    (h : lenientType sdk argument width context mismatch = .ok (type, width'))
    : (0 < width → width' = width) ∧ (0 < width' → HasWidth sdk type width') := by
  unfold lenientType at h
  split at h
  . rcases bind_eq_ok_iff.mp h with ⟨type', _, h⟩
    dsimp only at h
    generalize hkept : (if sdk.getSize type' ≠ 0 ∧ width ≤ 0 then narrow (sdk.getSize type')
      else width) = kept at h
    split at h
    . cases h
    . next hmismatch =>
      cases h
      constructor
      . intro hpos
        rw [← hkept, if_neg]
        rintro ⟨_, hnonpos⟩
        apply Int32.not_le.mpr hpos hnonpos
      . intro hpos
        by_contra hwidth
        unfold HasWidth at hwidth
        rw [not_or] at hwidth
        apply hmismatch ⟨hwidth.left, hpos, hwidth.right⟩
  . rcases bind_eq_ok_iff.mp h with ⟨type', htype, h⟩
    cases h
    exact ⟨fun _ => rfl, fun _ => hasWidth_inferTypedValueType htype⟩

end Types

section Operand

def WidthMatches (sdk : Sdk μ τ) (callarg : Mcallarg μ τ) : Prop :=
  0 < Int32.ofInt callarg.mop.size → HasWidth sdk callarg.type (Int32.ofInt callarg.mop.size)

theorem widthMatches_of_size {callarg : Mcallarg μ τ} {width : Int32}
    (hsize : callarg.mop.size = width.toInt) (htype : HasWidth sdk callarg.type width)
    : WidthMatches sdk callarg := by
  intro _
  rw [hsize, Int32.ofInt_toInt]
  apply htype

theorem widthMatches_of_noSize {callarg : Mcallarg μ τ} (h : callarg.mop.size = noSize)
    : WidthMatches sdk callarg := by
  intro hpos
  rw [h] at hpos
  exact absurd hpos (by decide)

theorem widthMatches_operandArgument {argument : MicrocodeValue} {mop : Mop μ} {width : Int32}
    {context mismatch : String} {callarg : Mcallarg μ τ}
    (hwidth : 0 < width ∨ ¬0 < Int32.ofInt mop.size)
    (h : operandArgument sdk argument mop width context mismatch = .ok callarg)
    : WidthMatches sdk callarg := by
  unfold operandArgument at h
  rcases map_eq_ok_iff.mp h with ⟨⟨type, width'⟩, htype, hcallarg⟩
  rcases hasWidth_lenientType htype with ⟨hkept, hhas⟩
  subst hcallarg
  unfold WidthMatches
  dsimp only
  rw [size_withWidth]
  split
  . next hpos =>
    rw [Int32.ofInt_toInt]
    apply hhas
  . next hnonpos =>
    intro hpos
    rcases hwidth with hgiven | hnosize
    . rw [hkept hgiven] at hnonpos
      contradiction
    . contradiction

theorem widthMatches_leafArgument {argument : MicrocodeValue} {mop : Mop μ} {width : Int32}
    {context mismatch : String} {callarg : Mcallarg μ τ}
    (h : operandArgument sdk argument mop width context mismatch = .ok callarg)
    (hsize : mop.size = noSize) : WidthMatches sdk callarg := by
  apply widthMatches_operandArgument _ h
  rw [hsize]
  exact .inr (by decide)

end Operand

section Kind

variable {mba : Option μ} {ea : Address} {index : Nat} {options : MicrocodeCallOptions}
variable {argument : MicrocodeValue} {callarg : Mcallarg μ τ}

theorem widthMatches_registerArgument (h : registerArgument sdk index argument = .ok callarg)
    : WidthMatches sdk callarg := by
  unfold registerArgument at h
  split at h
  . cases h
  . rcases map_eq_ok_iff.mp h with ⟨⟨type, width⟩, htype, rfl⟩
    refine @widthMatches_of_size _ _ _ _ width rfl (hasWidth_strictType ?_ htype)
    intro type hinfer
    split at hinfer
    . cases hinfer
    . apply hasWidth_inferTypedValueType hinfer

theorem widthMatches_localVariableArgument
    (h : localVariableArgument sdk mba index argument = .ok callarg) : WidthMatches sdk callarg := by
  unfold localVariableArgument at h
  split at h
  . cases h
  . split at h
    . cases h
    . split at h
      . cases h
      . apply widthMatches_leafArgument h rfl

theorem widthMatches_registerPairArgument
    (h : registerPairArgument sdk index argument = .ok callarg) : WidthMatches sdk callarg := by
  unfold registerPairArgument at h
  split at h
  . cases h
  . split at h
    . cases h
    . next hwidth =>
      rw [not_or, not_not, Int32.not_le] at hwidth
      rcases map_eq_ok_iff.mp h with ⟨⟨type, width⟩, htype, hcallarg⟩
      cases width_strictType hwidth.left htype
      subst hcallarg
      refine @widthMatches_of_size _ _ _ _ argument.byteWidth ?_ (hasWidth_strictType ?_ htype)
      . rw [← @size_makeRegPair μ _ hwidth.left hwidth.right argument.registerId
          argument.secondRegisterId]
        dsimp only
        split
        . apply size_setUdt
        . rfl
      . intro type hinfer
        apply hasWidth_inferTypedValueType hinfer

theorem widthMatches_globalAddressArgument
    (h : globalAddressArgument sdk index argument = .ok callarg) : WidthMatches sdk callarg := by
  unfold globalAddressArgument at h
  split at h
  . cases h
  . apply widthMatches_leafArgument h rfl

theorem widthMatches_stackVariableArgument
    (h : stackVariableArgument sdk mba index argument = .ok callarg) : WidthMatches sdk callarg := by
  unfold stackVariableArgument at h
  split at h
  . cases h
  . apply widthMatches_leafArgument h rfl

theorem widthMatches_helperReferenceArgument
    (h : helperReferenceArgument sdk index argument = .ok callarg) : WidthMatches sdk callarg := by
  unfold helperReferenceArgument at h
  split at h
  . cases h
  . apply widthMatches_leafArgument h rfl

theorem widthMatches_blockReferenceArgument
    (h : blockReferenceArgument sdk index argument = .ok callarg) : WidthMatches sdk callarg := by
  unfold blockReferenceArgument at h
  split at h
  . cases h
  . apply widthMatches_leafArgument h rfl

theorem widthMatches_nestedInstructionArgument
    (h : nestedInstructionArgument sdk mba ea index argument = .ok callarg)
    : WidthMatches sdk callarg := by
  unfold nestedInstructionArgument at h
  split at h
  . cases h
  . rcases bind_eq_ok_iff.mp h with ⟨nested, _, h⟩
    apply widthMatches_operandArgument _ h
    split
    . apply Decidable.em
    . next hwidth => exact .inl (Int32.not_le.mp hwidth)

theorem widthMatches_immediateArgument {value : UInt64} {isUnsigned : Bool} {context : String}
    (h : immediateArgument sdk ea index argument value isUnsigned context = .ok callarg)
    : WidthMatches sdk callarg := by
  unfold immediateArgument at h
  rcases map_eq_ok_iff.mp h with ⟨⟨type, width⟩, htype, rfl⟩
  refine @widthMatches_of_size _ _ _ _ width rfl (hasWidth_strictType ?_ htype)
  intro type hinfer
  split at hinfer
  . cases hinfer
  . split at hinfer
    . next hinteger =>
      cases hinfer
      apply hasWidth_makeIntegerType hinteger
    . cases hinfer

theorem widthMatches_floatArgument {bits : UInt64} {size : Int32} {type : BasicType}
    {message : String} (h : floatArgument sdk ea index argument bits size type message = .ok callarg)
    (hsize : narrow type.size = size)
    : WidthMatches sdk callarg := by
  unfold floatArgument at h
  dsimp only at h
  generalize (if argument.byteWidth = 0 then size else argument.byteWidth) = width at h
  split at h
  . cases h
  . next hwidth =>
    cases h
    apply @widthMatches_of_size _ _ _ _ width rfl
    apply hasWidth_basicType
    rw [hsize, not_not.mp hwidth]

theorem widthMatches_byteArrayArgument
    (h : byteArrayArgument sdk index options argument = .ok callarg) : WidthMatches sdk callarg := by
  unfold byteArrayArgument at h
  split at h
  . cases h
  . split at h
    . cases h
    . cases h
      apply widthMatches_of_noSize rfl

theorem widthMatches_vectorArgument
    (h : vectorArgument sdk index options argument = .ok callarg) : WidthMatches sdk callarg := by
  unfold vectorArgument at h
  split at h
  . cases h
  . rcases bind_eq_ok_iff.mp h with ⟨⟨elementType, elementByteWidth⟩, _, h⟩
    rcases bind_eq_ok_iff.mp h with ⟨elementCount, _, h⟩
    split at h
    . cases h
    . split at h
      . cases h
      . cases h
        apply widthMatches_of_noSize rfl

theorem widthMatches_typeDeclarationViewArgument
    (h : typeDeclarationViewArgument sdk index options argument = .ok callarg)
    : WidthMatches sdk callarg := by
  unfold typeDeclarationViewArgument at h
  split at h
  . cases h
  . split at h
    . cases h
    . split at h
      . cases h
      . cases h
        apply widthMatches_of_noSize rfl

theorem widthMatches_kindArgument
    (h : kindArgument sdk mba ea index options argument = .ok callarg)
    : WidthMatches sdk callarg := by
  unfold kindArgument at h
  cases hkind : argument.kind with
  | register =>
    simp only [hkind] at h
    apply widthMatches_registerArgument h
  | localVariable =>
    simp only [hkind] at h
    apply widthMatches_localVariableArgument h
  | registerPair =>
    simp only [hkind] at h
    apply widthMatches_registerPairArgument h
  | globalAddress =>
    simp only [hkind] at h
    apply widthMatches_globalAddressArgument h
  | stackVariable =>
    simp only [hkind] at h
    apply widthMatches_stackVariableArgument h
  | helperReference =>
    simp only [hkind] at h
    apply widthMatches_helperReferenceArgument h
  | blockReference =>
    simp only [hkind] at h
    apply widthMatches_blockReferenceArgument h
  | nestedInstruction =>
    simp only [hkind] at h
    apply widthMatches_nestedInstructionArgument h
  | unsignedImmediate =>
    simp only [hkind] at h
    apply widthMatches_immediateArgument h
  | signedImmediate =>
    simp only [hkind] at h
    apply widthMatches_immediateArgument h
  | float32Immediate =>
    simp only [hkind] at h
    apply widthMatches_floatArgument h rfl
  | float64Immediate =>
    simp only [hkind] at h
    apply widthMatches_floatArgument h rfl
  | byteArray =>
    simp only [hkind] at h
    apply widthMatches_byteArrayArgument h
  | vector =>
    simp only [hkind] at h
    apply widthMatches_vectorArgument h
  | typeDeclarationView =>
    simp only [hkind] at h
    apply widthMatches_typeDeclarationViewArgument h

theorem widthMatches_buildArgument
    (h : buildArgument sdk mba ea index options argument = .ok callarg)
    : WidthMatches sdk callarg := by
  unfold buildArgument at h
  rcases bind_eq_ok_iff.mp h with ⟨callarg', hkind, h⟩
  split at h
  . cases h
  . cases h
    apply widthMatches_kindArgument hkind

end Kind

end Microcode
end Idax
