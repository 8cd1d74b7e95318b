import Idax.Jbc.Processor

/-!
This module contains what an instruction of JAM byte-code consists of: its bytes, and a mnemonic that no
other instruction has.
-/

namespace Idax

namespace Data.Database

variable (db : Database)

theorem readByte_of_loaded {ea : Nat} (h : db.isLoaded ea = true) : db.readByte ea = .ok (db.byte ea) := by
  unfold readByte readWidth getWord Word.decode
  rw [h]
  simp [ByteMap.get, Word.decodeLE]

theorem readByte_of_not_loaded {ea : Nat} (h : db.isLoaded ea = false)
    : db.readByte ea = .error (.notFound "Address not loaded" (toString ea)) := by
  unfold readByte readWidth
  rw [h]
  rfl

theorem getBytes_of_loaded {ea count : Nat} (h : ∀ i < count, db.isLoaded (ea + i) = true)
    : db.getBytes ea count = db.byte.get ea count := by
  induction count generalizing ea with
  | zero => rfl
  | succ count ih =>
    have hfirst : db.isLoaded ea = true := h 0 (by omega)
    rw [getBytes, hfirst, if_pos rfl, ByteMap.get, ih]
    intro i hi
    rw [Nat.add_assoc]
    apply h
    omega

theorem loaded_of_length_getBytes {ea count : Nat} (h : (db.getBytes ea count).length = count)
    : ∀ i < count, db.isLoaded (ea + i) = true := by
  induction count generalizing ea with
  | zero =>
    intro i hi
    omega
  | succ count ih =>
    rw [getBytes] at h
    split at h
    . next hloaded =>
      rw [List.length_cons, Nat.succ_inj] at h
      intro i hi
      cases i with
      | zero => exact hloaded
      | succ i =>
        have := ih h i (by omega)
        rwa [show ea + (i + 1) = ea + 1 + i by omega]
    . simp at h

end Data.Database

namespace Jbc

section Arguments

theorem toNat_readBigEndianU32 (b b1 b2 b3 : UInt8) (rest : List UInt8)
    : (readBigEndianU32 (b :: b1 :: b2 :: b3 :: rest)).toNat
        = ((b.toNat * 256 + b1.toNat) * 256 + b2.toNat) * 256 + b3.toNat := by
  have hb := b.toNat_lt
  have hb1 := b1.toNat_lt
  have hb2 := b2.toNat_lt
  have hb3 := b3.toNat_lt
  have hshift (x y k : Nat) (hy : y < 2 ^ k) : x * 2 ^ k ||| y = x * 2 ^ k + y := by
    rw [← Nat.shiftLeft_eq, Nat.shiftLeft_add_eq_or_of_lt hy]
  unfold readBigEndianU32
  simp only [UInt32.toNat_or, UInt32.toNat_shiftLeft, UInt8.toNat_toUInt32]
  rw [show (24 : UInt32).toNat % 32 = 24 from rfl, show (16 : UInt32).toNat % 32 = 16 from rfl,
    show (8 : UInt32).toNat % 32 = 8 from rfl]
  simp only [Nat.shiftLeft_eq]
  rw [Nat.mod_eq_of_lt (by omega), Nat.mod_eq_of_lt (by omega), Nat.mod_eq_of_lt (by omega)]
  rw [Nat.or_assoc, Nat.or_assoc, hshift b2.toNat _ 8 (by omega), hshift b1.toNat _ 16 (by omega),
    hshift b.toNat _ 24 (by omega)]
  omega

theorem exists_four {bs : List UInt8} (h : 4 ≤ bs.length)
    : ∃ b b1 b2 b3 rest, bs = b :: b1 :: b2 :: b3 :: rest := by
  rcases bs with _ | ⟨b, _ | ⟨b1, _ | ⟨b2, _ | ⟨b3, rest⟩⟩⟩⟩
  . cases h
  . simp at h
  . simp at h
  . simp at h
  . exact ⟨b, b1, b2, b3, rest, rfl⟩

theorem readBigEndianU32_inj {bs cs : List UInt8} (hbs : 4 ≤ bs.length) (hcs : 4 ≤ cs.length)
    (h : readBigEndianU32 bs = readBigEndianU32 cs) : bs.take 4 = cs.take 4 := by
  rcases exists_four hbs with ⟨b, b1, b2, b3, rest, rfl⟩
  rcases exists_four hcs with ⟨c, c1, c2, c3, rest', rfl⟩
  have hnat := congrArg UInt32.toNat h
  rw [toNat_readBigEndianU32, toNat_readBigEndianU32] at hnat
  have hb := b.toNat_lt
  have hb1 := b1.toNat_lt
  have hb2 := b2.toNat_lt
  have hb3 := b3.toNat_lt
  have hc := c.toNat_lt
  have hc1 := c1.toNat_lt
  have hc2 := c2.toNat_lt
  have hc3 := c3.toNat_lt
  rw [UInt8.toNat_inj.mp (show b.toNat = c.toNat by omega),
    UInt8.toNat_inj.mp (show b1.toNat = c1.toNat by omega),
    UInt8.toNat_inj.mp (show b2.toNat = c2.toNat by omega),
    UInt8.toNat_inj.mp (show b3.toNat = c3.toNat by omega)]
  rfl

theorem argumentCount_le (opcode : UInt8) : argumentCount opcode ≤ 3 := by
  unfold argumentCount
  rw [UInt8.toNat_and]
  apply Nat.and_le_right

theorem getElem?_readArguments {count index : Nat} (hle : count ≤ 3) (h : index < count)
    (bytes : List UInt8)
    : (readArguments count bytes)[index]? = some (readBigEndianU32 (bytes.drop (index * 4))) := by
  unfold readArguments
  rw [List.getElem?_map, List.getElem?_range (by omega), Option.map_some, if_pos h]

theorem readArguments_inj {count : Nat} (hle : count ≤ 3) {bs cs : List UInt8}
    (hbs : bs.length = count * 4) (hcs : cs.length = count * 4)
    (h : readArguments count bs = readArguments count cs) : bs = cs := by
  -- the bytes of each argument are the same, and there are no others
  apply List.ext_getElem?
  intro i
  by_cases hi : i < count * 4
  . have hindex : i / 4 < count := by omega
    have hargument : (readArguments count bs)[i / 4]? = (readArguments count cs)[i / 4]? :=
      congrArg (·[i / 4]?) h
    rw [getElem?_readArguments hle hindex, getElem?_readArguments hle hindex,
      Option.some.injEq] at hargument
    have hbytes := readBigEndianU32_inj (by rw [List.length_drop]; omega) (by rw [List.length_drop]; omega)
      hargument
    have hbyte : (bs.drop (i / 4 * 4) |>.take 4)[i % 4]? = (cs.drop (i / 4 * 4) |>.take 4)[i % 4]? :=
      congrArg (·[i % 4]?) hbytes
    rw [List.getElem?_take_of_lt (by omega), List.getElem?_take_of_lt (by omega), List.getElem?_drop,
      List.getElem?_drop, show i / 4 * 4 + i % 4 = i by omega] at hbyte
    exact hbyte
  . rw [List.getElem?_eq_none (by omega), List.getElem?_eq_none (by omega)]

end Arguments

section Decoding

def instructionOf (opcode : UInt8) (bytes : List UInt8) : DecodedInstruction where
  opcode := opcode
  argumentCount := argumentCount opcode
  size := instructionSize opcode
  arguments := readArguments (argumentCount opcode) bytes
  definition := lookupInstruction opcode

theorem instructionOf_inj {opcode opcode' : UInt8} {bs cs : List UInt8}
    (hbs : bs.length = argumentCount opcode * 4) (hcs : cs.length = argumentCount opcode' * 4)
    (h : instructionOf opcode bs = instructionOf opcode' cs) : opcode = opcode' ∧ bs = cs := by
  have hopcode : opcode = opcode' := congrArg DecodedInstruction.opcode h
  subst hopcode
  have harguments : readArguments (argumentCount opcode) bs = readArguments (argumentCount opcode) cs :=
    congrArg DecodedInstruction.arguments h
  exact ⟨rfl, readArguments_inj (argumentCount_le opcode) hbs hcs harguments⟩

variable {db : Data.Database} {address : UInt64} {decoded : DecodedInstruction}

def footprint (address : UInt64) (opcode : UInt8) : List Nat :=
  address.toNat :: (List.range (argumentCount opcode * 4)).map fun i => (address + 1).toNat + i

theorem forall_mem_footprint {p : Nat → Prop} {opcode : UInt8}
    : (∀ ea ∈ footprint address opcode, p ea)
        ↔ p address.toNat ∧ ∀ i < argumentCount opcode * 4, p ((address + 1).toNat + i) := by
  unfold footprint
  simp

theorem decodeInstruction_eq_ok_iff
    : decodeInstruction db address = .ok decoded
        ↔ (∀ ea ∈ footprint address (db.byte address.toNat), db.isLoaded ea = true)
          ∧ decoded = instructionOf (db.byte address.toNat)
            (db.byte.get (address + 1).toNat (argumentCount (db.byte address.toNat) * 4)) := by
  rw [forall_mem_footprint]
  unfold decodeInstruction
  cases hopcode : db.isLoaded address.toNat with
  | false => simp [db.readByte_of_not_loaded hopcode]
  | true =>
    rw [db.readByte_of_loaded hopcode]
    dsimp only
    generalize db.byte address.toNat = opcode
    split
    . next hpos =>
      have hne : argumentCount opcode * 4 ≠ 0 := by omega
      rw [Data.Database.readBytes, if_neg hne]
      dsimp only
      split
      . next hlength =>
        simp only [reduceCtorEq, true_and, false_iff, not_and]
        intro hloaded
        rw [db.getBytes_of_loaded hloaded, ByteMap.length_get] at hlength
        exact absurd rfl hlength
      . next hlength =>
        rw [not_not] at hlength
        have hloaded := db.loaded_of_length_getBytes hlength
        rw [db.getBytes_of_loaded hloaded, Except.ok.injEq]
        constructor
        . rintro rfl
          exact ⟨⟨rfl, hloaded⟩, rfl⟩
        . rintro ⟨_, rfl⟩
          rfl
    . next hzero =>
      have hcount : argumentCount opcode = 0 := by omega
      rw [Except.ok.injEq, instructionOf, hcount]
      constructor
      . rintro rfl
        refine ⟨⟨rfl, ?_⟩, rfl⟩
        intro i hi
        omega
      . rintro ⟨_, rfl⟩
        rfl

theorem opcode_of_decodeInstruction (h : decodeInstruction db address = .ok decoded)
    : db.byte address.toNat = decoded.opcode := by
  rw [decodeInstruction_eq_ok_iff] at h
  rw [h.right]
  rfl

end Decoding

section Mnemonics

def readMnemonic (text : Text) : Option UInt8 :=
  match instructionTable.find? (·.mnemonic == text) with
  | some definition => some definition.opcode
  | none => (Hex.decode (text.drop 3)).map .ofNat

theorem readMnemonic_of_mem {definition : InstructionDefinition} (h : definition ∈ instructionTable)
    : readMnemonic definition.mnemonic = some definition.opcode := by
  have hall : ∀ definition ∈ instructionTable,
      readMnemonic definition.mnemonic = some definition.opcode := by
    decide +kernel
  exact hall definition h

theorem readMnemonic_unknownMnemonic (opcode : UInt8)
    : readMnemonic (unknownMnemonic opcode) = some opcode := by
  have hnone : instructionTable.find? (·.mnemonic == unknownMnemonic opcode) = none := by
    have hprefix : ∀ definition ∈ instructionTable, definition.mnemonic.take 3 ≠ ascii "op_" := by
      decide +kernel
    rw [List.find?_eq_none]
    intro definition hmem heq
    rw [beq_iff_eq] at heq
    apply hprefix definition hmem
    rw [heq]
    rfl
  have hdrop : (unknownMnemonic opcode).drop 3 = Hex.encode 2 opcode.toNat := rfl
  unfold readMnemonic
  rw [hnone, hdrop]
  dsimp only
  rw [Hex.decode_encode, Option.map_some, UInt8.ofNat_toNat]

theorem mem_of_lookupInstruction {opcode : UInt8} {definition : InstructionDefinition}
    (h : lookupInstruction opcode = some definition)
    : definition ∈ instructionTable ∧ definition.opcode = opcode := by
  have hopcode := List.find?_some h
  rw [beq_iff_eq] at hopcode
  exact ⟨List.mem_of_find?_eq_some h, hopcode⟩

theorem readMnemonic_mnemonic (opcode : UInt8) (bytes : List UInt8)
    : readMnemonic (instructionOf opcode bytes).mnemonic = some opcode := by
  unfold DecodedInstruction.mnemonic instructionOf
  cases h : lookupInstruction opcode with
  | none => exact readMnemonic_unknownMnemonic opcode
  | some definition =>
    have hmem := mem_of_lookupInstruction h
    rw [← hmem.right]
    exact readMnemonic_of_mem hmem.left

theorem operandKind_ne_none {opcode : UInt8} {index : Nat} (h : index < argumentCount opcode)
    : operandKind (lookupInstruction opcode) index ≠ .none := by
  cases hlookup : lookupInstruction opcode with
  | none => simp [operandKind]
  | some definition =>
    have hmem := mem_of_lookupInstruction hlookup
    have hall : ∀ definition ∈ instructionTable, ∀ index < argumentCount definition.opcode,
        operandKind (some definition) index ≠ .none := by
      decide +kernel
    apply hall definition hmem.left index
    rw [hmem.right]
    exact h

end Mnemonics

end Jbc
end Idax
