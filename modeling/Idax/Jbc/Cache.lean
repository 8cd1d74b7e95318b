import Idax.Jbc.Lemmas.Instruction
import Idax.Library.Machine

/-!
The processor module for JAM byte-code keeps the instruction that it decoded last, and nothing tells it
when bytes change. This module contains the question when its answers are those of a module that decodes
every time.
-/

namespace Idax
namespace Jbc

open Processor

namespace JbcFullProcessor

variable {kernel : Kernel} {self other : JbcFullProcessor}

section Invariants

theorem decoding_snd (address : UInt64) (failed : Error → α) (f : JbcFullProcessor → DecodedInstruction → α)
    : (self.decoding kernel address failed f).2 = (self.decodeWithCache kernel address).2 := by
  unfold decoding
  split
  . next heq => rw [heq]
  . next heq => rw [heq]

theorem outputInstructionWithContext_snd (kernel : Kernel) (self : JbcFullProcessor) (address : UInt64)
    (output : OutputContext)
    : (self.outputInstructionWithContext kernel address output).2
        = (self.decodeWithCache kernel address).2
      ∨ (self.outputInstructionWithContext kernel address output).2
        = ((self.decodeWithCache kernel address).2.decodeWithCache kernel address).2 := by
  unfold outputInstructionWithContext
  split
  . next heq =>
    rw [heq]
    exact .inl rfl
  . next self' heq =>
    have hmnemonic : (self'.outputMnemonicWithContext kernel address output).2
        = (self'.decodeWithCache kernel address).2 := decoding_snd _ _ _
    rw [heq, ← hmnemonic]
    split
    . next heq' =>
      rw [heq']
      exact .inr rfl
    . next heq' =>
      rw [heq']
      exact .inr rfl

theorem call_preserves {P : JbcFullProcessor → Prop}
    (hreload : ∀ self, P self → P (self.reloadState kernel))
    (hdecode : ∀ self address, P self → P (self.decodeWithCache kernel address).2)
    (h : P self) (callback : Callback) : P (self.call kernel callback).2 := by
  have hdecoding {α : Type} (address : UInt64) (failed : Error → α)
      (f : JbcFullProcessor → DecodedInstruction → α) : P (self.decoding kernel address failed f).2 := by
    rw [decoding_snd]
    exact hdecode _ _ h
  have hinstruction (address : UInt64) (output : OutputContext)
      : P (self.outputInstructionWithContext kernel address output).2 := by
    rcases outputInstructionWithContext_snd kernel self address output with heq | heq
    . rw [heq]
      exact hdecode _ _ h
    . rw [heq]
      exact hdecode _ _ (hdecode _ _ h)
  cases callback with
  | onNewFile => exact hreload _ h
  | onOldFile => exact hreload _ h
  | analyze address =>
    have : P (self.analyzeWithDetails kernel address).2 := hdecoding _ _ _
    simp only [call, analyze, Prod.map]
    split <;> exact this
  | analyzeWithDetails address => exact (hdecoding _ _ _ : P (self.analyzeWithDetails kernel address).2)
  | emulate address => exact (hdecoding _ _ _ : P (self.emulate kernel address).2)
  | isCall address => exact (hdecoding _ _ _ : P (self.isCall kernel address).2)
  | isReturn address => exact (hdecoding _ _ _ : P (self.isReturn kernel address).2)
  | mayBeFunction address => exact (hdecoding _ _ _ : P (self.mayBeFunction kernel address).2)
  | isBasicBlockEnd address stops =>
    exact (hdecoding _ _ _ : P (self.isBasicBlockEnd kernel address stops).2)
  | outputInstruction address => exact hinstruction address {}
  | outputOperand address operandIndex =>
    exact (hdecoding _ _ _ : P (self.outputOperandWithContext kernel address operandIndex {}).2)
  | outputMnemonicWithContext address output =>
    exact (hdecoding _ _ _ : P (self.outputMnemonicWithContext kernel address output).2)
  | outputInstructionWithContext address output => exact hinstruction address output
  | outputOperandWithContext address operandIndex output =>
    exact (hdecoding _ _ _ : P (self.outputOperandWithContext kernel address operandIndex output).2)

def Coherent (kernel : Kernel) (self : JbcFullProcessor) : Prop :=
  self.hasCachedDecode = true
    → decodeInstruction kernel.database self.cachedDecodeAddress = .ok self.cachedDecode

def Genuine (self : JbcFullProcessor) : Prop :=
  self.hasCachedDecode = true
    → ∃ db, decodeInstruction db self.cachedDecodeAddress = .ok self.cachedDecode

theorem reloadState_hasCachedDecode (kernel : Kernel) (self : JbcFullProcessor)
    : (self.reloadState kernel).hasCachedDecode = false := by
  unfold reloadState
  split <;> rfl

theorem decodeWithCache_snd (kernel : Kernel) (self : JbcFullProcessor) (address : UInt64)
    : (self.decodeWithCache kernel address).2 = self
      ∨ ∃ decoded, decodeInstruction kernel.database address = .ok decoded
        ∧ (self.decodeWithCache kernel address).2
          = { self with
              cachedDecodeAddress := address, cachedDecode := decoded, hasCachedDecode := true } := by
  unfold decodeWithCache
  split
  . exact .inl rfl
  . split
    . exact .inl rfl
    . next decoded heq => exact .inr ⟨decoded, heq, rfl⟩

theorem Coherent.reloadState (kernel : Kernel) (self : JbcFullProcessor)
    : Coherent kernel (self.reloadState kernel) := by
  intro hcached
  rw [reloadState_hasCachedDecode] at hcached
  cases hcached

theorem Coherent.decodeWithCache (h : Coherent kernel self) (address : UInt64)
    : Coherent kernel (self.decodeWithCache kernel address).2 := by
  rcases decodeWithCache_snd kernel self address with heq | ⟨decoded, hdecoded, heq⟩
  . rwa [heq]
  . rw [heq]
    intro _
    exact hdecoded

theorem Coherent.call (h : Coherent kernel self) (callback : Callback)
    : Coherent kernel (self.call kernel callback).2 :=
  call_preserves (fun self _ => .reloadState kernel self) (fun _ address h => h.decodeWithCache address) h
    callback

theorem Genuine.call (h : Genuine self) (kernel : Kernel) (callback : Callback)
    : Genuine (self.call kernel callback).2 := by
  apply call_preserves _ _ h
  . intro self _ hcached
    rw [reloadState_hasCachedDecode] at hcached
    cases hcached
  . intro self address h
    rcases decodeWithCache_snd kernel self address with heq | ⟨decoded, hdecoded, heq⟩
    . rwa [heq]
    . rw [heq]
      intro _
      exact ⟨kernel.database, hdecoded⟩

end Invariants

section Answers

structure Similar (kernel : Kernel) (a b : JbcFullProcessor) : Prop where
  left : Coherent kernel a
  right : Coherent kernel b
  codeBase : a.codeBase = b.codeBase
  stringBase : a.stringBase = b.stringBase

theorem decodeWithCache_of_coherent (h : Coherent kernel self) (address : UInt64)
    : (self.decodeWithCache kernel address).1 = decodeInstruction kernel.database address := by
  unfold decodeWithCache
  split
  . next hcached =>
    rw [Bool.and_eq_true, beq_iff_eq] at hcached
    rw [← hcached.right]
    exact (h hcached.left).symm
  . split
    . next heq => rw [heq]
    . next heq => rw [heq]

theorem decodeWithCache_bases (kernel : Kernel) (self : JbcFullProcessor) (address : UInt64)
    : (self.decodeWithCache kernel address).2.codeBase = self.codeBase
      ∧ (self.decodeWithCache kernel address).2.stringBase = self.stringBase := by
  rcases decodeWithCache_snd kernel self address with heq | ⟨_, _, heq⟩
  . rw [heq]
    exact ⟨rfl, rfl⟩
  . rw [heq]
    exact ⟨rfl, rfl⟩

theorem Similar.decodeWithCache (h : Similar kernel self other) (address : UInt64)
    : Similar kernel (self.decodeWithCache kernel address).2 (other.decodeWithCache kernel address).2 := by
  have hself := decodeWithCache_bases kernel self address
  have hother := decodeWithCache_bases kernel other address
  refine ⟨h.left.decodeWithCache address, h.right.decodeWithCache address, ?_, ?_⟩
  . rw [hself.left, hother.left, h.codeBase]
  . rw [hself.right, hother.right, h.stringBase]

theorem decoding_of_error (h : Coherent kernel self) {address : UInt64} {e : Error}
    (herror : decodeInstruction kernel.database address = .error e) (failed : Error → α)
    (f : JbcFullProcessor → DecodedInstruction → α)
    : (self.decoding kernel address failed f).1 = failed e := by
  have hdecode := decodeWithCache_of_coherent h address
  unfold decoding
  split
  . next heq =>
    rw [heq, herror] at hdecode
    injection hdecode with hdecode
    rw [hdecode]
  . next heq =>
    rw [heq, herror] at hdecode
    cases hdecode

theorem decoding_of_ok (h : Coherent kernel self) {address : UInt64} {decoded : DecodedInstruction}
    (hok : decodeInstruction kernel.database address = .ok decoded) (failed : Error → α)
    (f : JbcFullProcessor → DecodedInstruction → α)
    : (self.decoding kernel address failed f).1 = f (self.decodeWithCache kernel address).2 decoded := by
  have hdecode := decodeWithCache_of_coherent h address
  unfold decoding
  split
  . next heq =>
    rw [heq, hok] at hdecode
    cases hdecode
  . next heq =>
    rw [heq, hok] at hdecode
    injection hdecode with hdecode
    rw [heq, hdecode]

theorem Similar.decoding (h : Similar kernel self other) (address : UInt64) (failed : Error → α)
    {f : JbcFullProcessor → DecodedInstruction → α}
    (hf : ∀ {a b}, Similar kernel a b → ∀ decoded, f a decoded = f b decoded)
    : (self.decoding kernel address failed f).1 = (other.decoding kernel address failed f).1 := by
  cases hdecode : decodeInstruction kernel.database address with
  | error e => rw [decoding_of_error h.left hdecode, decoding_of_error h.right hdecode]
  | ok decoded =>
    rw [decoding_of_ok h.left hdecode, decoding_of_ok h.right hdecode]
    exact hf (h.decodeWithCache address) decoded

theorem Similar.buildAnalyzeDetails (h : Similar kernel self other) (instruction : DecodedInstruction)
    : self.buildAnalyzeDetails instruction = other.buildAnalyzeDetails instruction := by
  unfold JbcFullProcessor.buildAnalyzeDetails analyzeOperand
  rw [h.codeBase, h.stringBase]

theorem Similar.references (h : Similar kernel self other) (address : UInt64)
    (instruction : DecodedInstruction)
    : self.references kernel address instruction = other.references kernel address instruction := by
  unfold JbcFullProcessor.references firstReference secondReference
  rw [h.codeBase, h.stringBase]

theorem Similar.appendOperandText (h : Similar kernel self other) (output : OutputContext)
    (instruction : DecodedInstruction) (operandIndex : Nat)
    : self.appendOperandText kernel output instruction operandIndex
        = other.appendOperandText kernel output instruction operandIndex := by
  unfold JbcFullProcessor.appendOperandText
  rw [h.codeBase, h.stringBase]

theorem Similar.appendOperands (h : Similar kernel self other) (instruction : DecodedInstruction)
    (output : OutputContext)
    : self.appendOperands kernel instruction output = other.appendOperands kernel instruction output := by
  unfold JbcFullProcessor.appendOperands
  simp only [h.appendOperandText]

theorem Similar.outputInstructionWithContext (h : Similar kernel self other) (address : UInt64)
    (output : OutputContext)
    : (self.outputInstructionWithContext kernel address output).1
        = (other.outputInstructionWithContext kernel address output).1 := by
  have hself := decodeWithCache_of_coherent h.left address
  have hother := decodeWithCache_of_coherent h.right address
  have hnext := h.decodeWithCache address
  unfold JbcFullProcessor.outputInstructionWithContext
  generalize self.decodeWithCache kernel address = x at hself hnext
  generalize other.decodeWithCache kernel address = y at hother hnext
  rcases x with ⟨result, self'⟩
  rcases y with ⟨result', other'⟩
  dsimp only at hself hother hnext
  rw [hself, hother]
  cases decodeInstruction kernel.database address with
  | error e => rfl
  | ok decoded =>
    have hmnemonic : (self'.outputMnemonicWithContext kernel address output).1
        = (other'.outputMnemonicWithContext kernel address output).1 :=
      hnext.decoding address _ fun _ _ => rfl
    have hlast : Similar kernel (self'.outputMnemonicWithContext kernel address output).2
        (other'.outputMnemonicWithContext kernel address output).2 := by
      unfold outputMnemonicWithContext
      rw [decoding_snd, decoding_snd]
      exact hnext.decodeWithCache address
    dsimp only
    generalize self'.outputMnemonicWithContext kernel address output = x at hmnemonic hlast
    generalize other'.outputMnemonicWithContext kernel address output = y at hmnemonic hlast
    rcases x with ⟨⟨result, output⟩, self''⟩
    rcases y with ⟨⟨result', output'⟩, other''⟩
    injection hmnemonic with hresult houtput
    subst hresult houtput
    cases result with
    | notImplemented => rfl
    | success =>
      dsimp only at hlast
      dsimp only
      rw [hlast.appendOperands]

theorem Similar.call (h : Similar kernel self other) (callback : Callback)
    : (self.call kernel callback).1 = (other.call kernel callback).1 := by
  have hoperand (address : UInt64) (operandIndex : Int) (output : OutputContext)
      : (self.outputOperandWithContext kernel address operandIndex output).1
        = (other.outputOperandWithContext kernel address operandIndex output).1 := by
    apply h.decoding
    intro a b hab decoded
    rw [hab.appendOperandText]
  cases callback with
  | onNewFile => rfl
  | onOldFile => rfl
  | analyze address =>
    have hdetails : (self.analyzeWithDetails kernel address).1
        = (other.analyzeWithDetails kernel address).1 :=
      h.decoding address _ fun hab decoded => congrArg _ (hab.buildAnalyzeDetails decoded)
    simp only [JbcFullProcessor.call, analyze, Prod.map]
    rw [hdetails]
    split <;> rfl
  | analyzeWithDetails address =>
    exact congrArg Reply.details
      (h.decoding address _ fun hab decoded => congrArg _ (hab.buildAnalyzeDetails decoded))
  | emulate address =>
    exact congrArg Reply.emulated
      (h.decoding address _ fun hab decoded => congrArg _ (hab.references address decoded))
  | isCall address => exact congrArg Reply.answer (h.decoding address _ fun _ _ => rfl)
  | isReturn address => exact congrArg Reply.answer (h.decoding address _ fun _ _ => rfl)
  | mayBeFunction address => exact congrArg Reply.answer (h.decoding address _ fun _ _ => rfl)
  | isBasicBlockEnd address stops => exact congrArg Reply.answer (h.decoding address _ fun _ _ => rfl)
  | outputInstruction address => rfl
  | outputOperand address operandIndex =>
    have hresult := congrArg Prod.fst (hoperand address operandIndex {})
    exact congrArg Reply.operandResult hresult
  | outputMnemonicWithContext address output =>
    exact congrArg Reply.instruction (h.decoding address _ fun _ _ => rfl)
  | outputInstructionWithContext address output =>
    exact congrArg Reply.instruction (h.outputInstructionWithContext address output)
  | outputOperandWithContext address operandIndex output =>
    exact congrArg Reply.operand (hoperand address operandIndex output)

end Answers

section Observation

theorem clearDecodeCache_coherent (kernel : Kernel) (self : JbcFullProcessor)
    : Coherent kernel self.clearDecodeCache := by
  intro hcached
  cases hcached

theorem Coherent.similar (h : Coherent kernel self) : Similar kernel self self.clearDecodeCache :=
  ⟨h, clearDecodeCache_coherent kernel self, rfl, rfl⟩

theorem decoding_of_cached (h : self.hasCachedDecode = true) (failed : Error → α)
    (f : JbcFullProcessor → DecodedInstruction → α)
    : (self.decoding kernel self.cachedDecodeAddress failed f).1 = f self self.cachedDecode := by
  unfold decoding decodeWithCache
  rw [h]
  simp

theorem toUInt64_inj {v w : UInt32} (h : v.toUInt64 = w.toUInt64) : v = w := by
  apply UInt32.toNat_inj.mp
  rw [← UInt32.toNat_toUInt64, h, UInt32.toNat_toUInt64]

theorem argument_eq_of_analyzeOperand {self : JbcFullProcessor}
    {instruction instruction' : DecodedInstruction} {index : Nat}
    (hdefinition : instruction.definition = instruction'.definition)
    (hkind : instruction.kind index ≠ .none)
    (h : self.analyzeOperand instruction index = self.analyzeOperand instruction' index)
    : instruction.argument index = instruction'.argument index := by
  have hkinds : instruction'.kind index = instruction.kind index := by
    rw [DecodedInstruction.kind, ← hdefinition, DecodedInstruction.kind]
  have htarget := congrArg AnalyzeOperand.targetAddress h
  have hvalue := congrArg AnalyzeOperand.immediateValue h
  unfold analyzeOperand at htarget hvalue
  rw [hkinds] at htarget hvalue
  apply toUInt64_inj
  cases hcase : instruction.kind index with
  | none => exact absurd hcase hkind
  | address =>
    rw [hcase] at htarget
    exact (UInt64.add_right_inj _).mp htarget
  | stringOffset =>
    rw [hcase] at htarget
    exact (UInt64.add_right_inj _).mp htarget
  | immediate32 =>
    rw [hcase] at hvalue
    exact hvalue
  | var =>
    rw [hcase] at hvalue
    exact hvalue
  | state =>
    rw [hcase] at hvalue
    exact hvalue
  | count =>
    rw [hcase] at hvalue
    exact hvalue

theorem arguments_eq (count : Nat) {bs cs : List UInt8} {instruction instruction' : DecodedInstruction}
    (hinstruction : instruction.arguments = readArguments count bs)
    (hinstruction' : instruction'.arguments = readArguments count cs)
    (h : ∀ index < count, instruction.argument index = instruction'.argument index)
    : instruction.arguments = instruction'.arguments := by
  unfold DecodedInstruction.argument at h
  rw [hinstruction, hinstruction'] at h
  rw [hinstruction, hinstruction']
  unfold readArguments at h
  unfold readArguments
  apply List.map_congr_left
  intro index hindex
  rw [List.mem_range] at hindex
  by_cases hlt : index < count
  . have := h index hlt
    simpa [List.getD_eq_getElem?_getD, hindex, hlt] using this
  . rw [if_neg hlt, if_neg hlt]

theorem instruction_eq_of_details {opcode opcode' : UInt8} {bs cs : List UInt8}
    (hmnemonic : (instructionOf opcode bs).mnemonic = (instructionOf opcode' cs).mnemonic)
    (hdetails : self.buildAnalyzeDetails (instructionOf opcode bs)
      = self.buildAnalyzeDetails (instructionOf opcode' cs))
    : instructionOf opcode bs = instructionOf opcode' cs := by
  have hopcode : opcode = opcode' := by
    have := readMnemonic_mnemonic opcode bs
    rw [hmnemonic, readMnemonic_mnemonic, Option.some.injEq] at this
    exact this.symm
  subst hopcode
  have hoperands : (List.range (argumentCount opcode)).map (self.analyzeOperand (instructionOf opcode bs))
      = (List.range (argumentCount opcode)).map (self.analyzeOperand (instructionOf opcode cs)) :=
    congrArg AnalyzeDetails.operands hdetails
  have harguments : (instructionOf opcode bs).arguments = (instructionOf opcode cs).arguments := by
    apply arguments_eq (argumentCount opcode) rfl rfl
    intro index hindex
    have hkind : (instructionOf opcode bs).kind index ≠ .none := operandKind_ne_none hindex
    rw [List.map_inj_left] at hoperands
    exact argument_eq_of_analyzeOperand rfl hkind (hoperands index (List.mem_range.mpr hindex))
  unfold instructionOf at harguments
  dsimp only at harguments
  unfold instructionOf
  rw [harguments]

theorem buffer_mnemonic (text : Text) : (({} : OutputContext).mnemonic text).buffer = text := by
  unfold OutputContext.mnemonic OutputContext.token OutputContext.appendToken
  split
  . next hempty =>
    rw [List.isEmpty_iff] at hempty
    rw [hempty]
  . rfl

def Transparent (kernel : Kernel) (self : JbcFullProcessor) : Prop :=
  ∀ callback, (self.call kernel callback).1 = (self.clearDecodeCache.call kernel callback).1

theorem transparent_iff (h : Genuine self) : Transparent kernel self ↔ Coherent kernel self := by
  constructor
  . intro htransparent hcached
    rcases h hcached with ⟨db, hgenuine⟩
    have hclear := clearDecodeCache_coherent kernel self
    have hdetails := htransparent (.analyzeWithDetails self.cachedDecodeAddress)
    have hmnemonic := htransparent (.outputMnemonicWithContext self.cachedDecodeAddress {})
    simp only [call, analyzeWithDetails, outputMnemonicWithContext, Prod.map, Reply.details.injEq,
      Reply.instruction.injEq, decoding_of_cached hcached] at hdetails hmnemonic
    cases hdecode : decodeInstruction kernel.database self.cachedDecodeAddress with
    | error e =>
      rw [decoding_of_error hclear hdecode] at hdetails
      cases hdetails
    | ok decoded =>
      have hbases := decodeWithCache_bases kernel self.clearDecodeCache self.cachedDecodeAddress
      rw [decoding_of_ok hclear hdecode, Except.ok.injEq] at hdetails
      rw [decoding_of_ok hclear hdecode, Prod.mk.injEq] at hmnemonic
      have hsame : buildAnalyzeDetails
          (self.clearDecodeCache.decodeWithCache kernel self.cachedDecodeAddress).2 decoded
            = self.buildAnalyzeDetails decoded := by
        unfold buildAnalyzeDetails analyzeOperand
        rw [hbases.left, hbases.right]
        rfl
      rw [hsame] at hdetails
      have hbuffer := congrArg OutputContext.buffer hmnemonic.right
      rw [buffer_mnemonic, buffer_mnemonic] at hbuffer
      rw [decodeInstruction_eq_ok_iff] at hgenuine hdecode
      rw [hgenuine.right, hdecode.right] at hdetails hbuffer ⊢
      rw [instruction_eq_of_details hbuffer hdetails]
  . intro hcoherent callback
    exact hcoherent.similar.call callback

end Observation

end JbcFullProcessor

open JbcFullProcessor

structure System where
  kernel : Kernel
  processor : JbcFullProcessor

inductive Event where
  | call (callback : Callback)
  | edit (kernel : Kernel)

namespace System

def step (s : System) : Event → System
  | .call callback => { s with processor := (s.processor.call s.kernel callback).2 }
  | .edit kernel => { s with kernel := kernel }

/--
An edit leaves alone the bytes of the instruction that is kept.
-/
def KeepsCached (s : System) : Event → Prop
  | .call _ => True
  | .edit kernel =>
    s.processor.hasCachedDecode = true
      → ∀ ea ∈ footprint s.processor.cachedDecodeAddress s.processor.cachedDecode.opcode,
        kernel.database.isLoaded ea = true ∧ kernel.database.byte ea = s.kernel.database.byte ea

theorem coherent_edit_iff {s : System} (h : Coherent s.kernel s.processor) (kernel : Kernel)
    : Coherent kernel s.processor ↔ s.KeepsCached (.edit kernel) := by
  apply imp_congr_right
  intro hcached
  have hdecode := h hcached
  rw [← opcode_of_decodeInstruction hdecode]
  rw [decodeInstruction_eq_ok_iff] at hdecode ⊢
  rcases hdecode with ⟨_, heq⟩
  rw [heq]
  constructor
  . rintro ⟨hloaded, heq'⟩
    rcases instructionOf_inj (ByteMap.length_get _ _ _) (ByteMap.length_get _ _ _) heq'
      with ⟨hfirst, hbytes⟩
    rw [← hfirst] at hloaded hbytes
    rw [ByteMap.get_eq_get_iff] at hbytes
    rw [forall_mem_footprint] at hloaded
    rw [forall_mem_footprint]
    refine ⟨⟨hloaded.left, hfirst.symm⟩, ?_⟩
    intro i hi
    exact ⟨hloaded.right i hi, (hbytes i hi).symm⟩
  . intro hkeeps
    have hfirst : kernel.database.byte s.processor.cachedDecodeAddress.toNat
        = s.kernel.database.byte s.processor.cachedDecodeAddress.toNat :=
      (hkeeps _ List.mem_cons_self).right
    rw [hfirst]
    refine ⟨fun ea hea => (hkeeps ea hea).left, ?_⟩
    rw [forall_mem_footprint] at hkeeps
    congr 1
    rw [ByteMap.get_eq_get_iff]
    intro i hi
    exact (hkeeps.right i hi).right.symm

/--
The module answers rightly all the time exactly when no edit of the session touches what it keeps.
-/
theorem transparent_run (kernel : Kernel) (events : List Event)
    : Machine.Always step (fun s => s.processor.Transparent s.kernel) ⟨kernel, {}⟩ events
        ↔ Machine.Guarded step KeepsCached ⟨kernel, {}⟩ events := by
  apply Machine.always_iff_guarded_of_invariant (J := fun s => Genuine s.processor)
  . intro s event hgenuine
    cases event with
    | call callback => exact hgenuine.call s.kernel callback
    | edit kernel => exact hgenuine
  . intro s event hgenuine htransparent
    rw [transparent_iff hgenuine] at htransparent
    cases event with
    | call callback =>
      have := (transparent_iff (hgenuine.call s.kernel callback)).mpr (htransparent.call callback)
      exact iff_of_true this trivial
    | edit kernel => exact (transparent_iff hgenuine).trans (coherent_edit_iff htransparent kernel)
  . intro hcached
    cases hcached
  . rw [transparent_iff]
    . intro hcached
      cases hcached
    . intro hcached
      cases hcached

end System

end Jbc
end Idax
